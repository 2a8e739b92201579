/- Reading records out of a markup language. A dialect says what its values can be taken for;
   records are then read field by field, in the same way for every dialect. -/
namespace MetricGateway
namespace Markup

/-- A record's contents: fields under their names as written, or items in the order of the
    fields. -/
inductive Record (ν : Type) where
  | named (fields : List (String × ν))
  | positional (items : List ν)

structure Dialect (ν : Type) where
  flag? : ν → Option Bool
  natural? : ν → Option Nat
  text? : ν → Option String
  /-- Whether a value is null; a value may be called null and be none. -/
  null? : ν → Option Bool
  items? : ν → Option (List ν)
  record? : ν → Option (Record ν)

namespace Dialect

variable {ν β : Type}

def naturalBelow? (d : Dialect ν) (limit : Nat) (v : ν) : Option Nat :=
  (d.natural? v).filter (· < limit)

def optional? (read : ν → Option β) (d : Dialect ν) (v : ν) : Option (Option β) := do
  if ← d.null? v then return none
  else return some (← read v)

def list? (read : ν → Option β) (d : Dialect ν) (v : ν) : Option (List β) := do
  (← d.items? v).mapM read

end Dialect

namespace Record

variable {ν β : Type}

/-- Reads the field that stands at a place and has some names. A name may occur once. What is
    missing is replaced: `absent` stands in for a name, `unreached` for an item. -/
def field? (r : Record ν) (place : Nat) (names : List String) (read : ν → Option β)
    (absent unreached : Option β) : Option β :=
  match r with
  | .named fields =>
    match fields.filter (fun f => names.contains f.1) with
    | [] => absent
    | [(_, v)] => read v
    | _ => none
  | .positional items =>
    match items[place]? with
    | some v => read v
    | none => unreached

def required? (r : Record ν) (place : Nat) (names : List String) (read : ν → Option β) : Option β :=
  r.field? place names read none none

def withDefault? (r : Record ν) (place : Nat) (names : List String) (read : ν → Option β)
    (fallback : β) : Option β :=
  r.field? place names read (some fallback) (some fallback)

/-- A field that is null unless named, but has to be reached by items. -/
def nullable? (r : Record ν) (place : Nat) (names : List String) (read : ν → Option (Option β)) :
    Option (Option β) :=
  r.field? place names read (some none) none

def endsAt (r : Record ν) (places : Nat) : Bool :=
  match r with
  | .named _ => true
  | .positional items => items.length ≤ places

end Record
end Markup
end MetricGateway
