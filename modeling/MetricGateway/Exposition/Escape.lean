/- Backslash escapes of label values and help texts. A double quote is escaped in label values
   only. Unknown escapes are kept as they stand. -/
namespace MetricGateway
namespace Escape

inductive Place where
  | label | help
  deriving DecidableEq

def encode (place : Place) : List Char → List Char
  | [] => []
  | c :: rest =>
    if c = '\\' then '\\' :: '\\' :: encode place rest
    else if c = '\n' then '\\' :: 'n' :: encode place rest
    else if c = '"' ∧ place = .label then '\\' :: '"' :: encode place rest
    else c :: encode place rest

def decode (place : Place) : List Char → List Char
  | [] => []
  | ['\\'] => ['\\']
  | '\\' :: c :: rest =>
    if c = '\\' then '\\' :: decode place rest
    else if c = 'n' then '\n' :: decode place rest
    else if c = '"' ∧ place = .label then '"' :: decode place rest
    else '\\' :: c :: decode place rest
  | c :: rest => c :: decode place rest

def splitQuote : List Char → Option (List Char × List Char)
  | [] => none
  | '"' :: rest => some ([], rest)
  | '\\' :: c :: rest => (splitQuote rest).map fun (text, after) => ('\\' :: c :: text, after)
  | c :: rest => (splitQuote rest).map fun (text, after) => (c :: text, after)

end Escape
end MetricGateway
