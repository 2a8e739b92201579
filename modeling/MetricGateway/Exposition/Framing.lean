import MetricGateway.Text.Line

/- The two framings of a document and how a text is put behind one. OpenMetrics documents end in
   one `# EOF` line, text 0.0.4 has no end mark. -/
namespace MetricGateway

inductive Framing where
  | text004
  | openMetrics100
  deriving DecidableEq, Repr

namespace Framing

/-- The framing announced by a Content-Type header; all that is not OpenMetrics is text 0.0.4. -/
def ofHeader? (header : Option String) : Framing :=
  match header with
  | some value =>
    let value := value.toList.dropWhile Text.isWhiteSpace
    if "application/openmetrics-text".toList.isPrefixOf value then .openMetrics100 else .text004
  | none => .text004

def header : Framing → String
  | .text004 => "text/plain; version=0.0.4; charset=utf-8"
  | .openMetrics100 => "application/openmetrics-text; version=1.0.0; charset=utf-8"

def name : Framing → String
  | .text004 => "Text004"
  | .openMetrics100 => "OpenMetrics100"

end Framing

structure Page where
  data : String
  framing : Framing
  deriving DecidableEq, Repr

def endMark : List Char := "# EOF".toList

def trimLineEndings (text : List Char) : List Char := Text.dropEndWhile Text.isLineEnding text

def withoutEndMark (text : List Char) : List Char :=
  let trimmed := trimLineEndings text
  trimLineEndings ((Text.beforeEnd? endMark trimmed).getD trimmed)

/-- Puts an additional text behind a document. The end mark of an OpenMetrics document moves
    behind that text. -/
def Page.append (page : Page) (additional : String) : String :=
  if additional = "" then page.data
  else match page.framing with
    | .text004 => page.data ++ additional
    | .openMetrics100 =>
      String.ofList (withoutEndMark page.data.toList ++ '\n' ::
        (trimLineEndings additional.toList ++ '\n' :: (endMark ++ ['\n'])))

def appendTo (page : Option Page) (additional : String) : String :=
  match page with
  | some page => page.append additional
  | none => additional

end MetricGateway
