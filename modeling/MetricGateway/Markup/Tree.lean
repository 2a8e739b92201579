/- Values to be written in a markup language. -/
namespace MetricGateway
namespace Markup

inductive Tree where
  | null
  | flag (b : Bool)
  | natural (n : Nat)
  | text (t : String)
  | list (items : List Tree)
  | record (fields : List (String × Tree))
  deriving Inhabited

namespace Tree

def optional {α : Type} (f : α → Tree) : Option α → Tree
  | some a => f a
  | none => .null

def hex (width n : Nat) : List Char :=
  let digits := (Nat.toDigits 16 n).map Char.toUpper
  List.replicate (width - digits.length) '0' ++ digits

end Tree
end Markup
end MetricGateway
