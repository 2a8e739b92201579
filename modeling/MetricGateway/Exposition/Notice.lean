import MetricGateway.Exposition.Document

/- What there is to say about a document besides its families. -/
namespace MetricGateway

inductive NoticeLevel where
  | info | warn
  deriving DecidableEq

inductive Notice where
  | malformedHelp (line : List Char)
  | malformedType (line : List Char)
  | unknownWord (word line : List Char)
  | unterminatedValue (block : List Char)
  | rejectedLine (line : List Char) (error : LineError)
  | untyped (name : String)
  | conflictingType (name : String) (known reported : MetricType) (samples : Nat)

namespace Notice

def level : Notice → NoticeLevel
  | .untyped _ => .info
  | _ => .warn

def message : Notice → String
  | .malformedHelp line => "HELP line could not be properly matched: " ++ String.ofList line
  | .malformedType line => "TYPE line could not be properly matched: " ++ String.ofList line
  | .unknownWord word line =>
    "Unknown type '" ++ String.ofList word ++ "' in TYPE line, assuming unknown: " ++
      String.ofList line
  | .unterminatedValue block =>
    "Missing termination of value in label block: " ++ String.ofList block
  | .rejectedLine line error =>
    "Detected non-parsable metric line '" ++ String.ofList line ++ "': " ++ error.message
  | .untyped name =>
    "Definition of metric " ++ name ++ " without type information (assuming unknown)"
  | .conflictingType name known reported samples =>
    "Metric " ++ name ++ " has type " ++ known.name ++ " but another instance reported " ++
      reported.name ++ ", dropping " ++ toString samples ++ " samples"

def ofLine (r : Reading) (line : List Char) : List Notice :=
  match LineKind.of line with
  | .blank | .comment => []
  | .help text => if (Directive.help? text).isSome then [] else [.malformedHelp line]
  | .type text =>
    match Directive.type? text with
    | some (_, word) => if (MetricType.ofWord? word).isSome then [] else [.unknownWord word line]
    | none => [.malformedType line]
  | .sample =>
    let unclosed := (SampleLine.unterminatedBlock? line).toList.map Notice.unterminatedValue
    match SampleLine.read line with
    | .ok s => if r.typeOf s.name = .unknown then unclosed ++ [.untyped s.name] else unclosed
    | .error e => unclosed ++ [.rejectedLine line e]

def ofText (text : String) : List Notice :=
  ((Text.lines text.toList).foldl
    (fun (r, notices) line => (r.addLine line, notices ++ ofLine r line))
    (({} : Reading), ([] : List Notice))).2

end Notice
end MetricGateway
