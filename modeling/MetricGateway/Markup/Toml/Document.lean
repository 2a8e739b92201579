import MetricGateway.Markup.Toml.Value

/- TOML documents: sections under headers, put together into one table. -/
namespace MetricGateway
namespace Markup
namespace Toml

/-- A header and the fields under it. The fields are taken away once they have found their place. -/
structure Section where
  header : List String
  array : Bool
  fields : Option (List (String × TomlValue))

inductive Line where
  | header (keys : List String) (array : Bool)
  | field (keys : List String) (value : TomlValue)

def endLine? (text : List Char) : Option (List Char) :=
  match skipComment (Text.skipBlanks text) with
  | [] => some []
  | '\n' :: rest => some rest
  | _ => none

def takeHeader? (text : List Char) : Option (Line × List Char) := do
  let (array, rest) := match text with
    | '[' :: rest => (true, rest)
    | rest => (false, rest)
  let (keys, rest) ← takeDottedKey? (rest.length + 1) rest
  let rest ← Text.afterStart? (if array then [']', ']'] else [']']) rest
  return (.header keys array, ← endLine? rest)

def takeField? (text : List Char) : Option (Line × List Char) := do
  let (keys, rest) ← takeDottedKey? (text.length + 1) text
  let rest ← Text.afterStart? ['='] rest
  let (value, rest) ← takeValue? (rest.length + 1) (Text.skipBlanks rest)
  return (.field keys value, ← endLine? rest)

def lines? : Nat → List Char → Option (List Line)
  | 0, _ => none
  | fuel + 1, text =>
    match skipSpace text.length text with
    | [] => some []
    | '[' :: rest => do
      let (line, rest) ← takeHeader? rest
      return line :: (← lines? fuel rest)
    | text => do
      let (line, rest) ← takeField? text
      return line :: (← lines? fuel rest)

/-- Sections in document order, given the one that is open. What stands before the first header
    is a section only if it has fields. -/
def sections? (pending : Section) : List Line → Option (List Section)
  | [] => some (close pending)
  | .header keys array :: rest => do
    return close pending ++ (← sections? ⟨keys, array, some []⟩ rest)
  | .field keys value :: rest => do
    let fields ← addDotted? keys value (pending.fields.getD [])
    sections? { pending with fields := some fields } rest
where
  close (s : Section) : List Section := if s.header.isEmpty && s.fields.isNone then [] else [s]

def next? (sections : Array Section) (start : List String) (cur limit : Nat) : Option Nat :=
  (List.range sections.size).find? fun i =>
    cur ≤ i && i < limit && sections[i]?.any fun s => start.isPrefixOf s.header && s.fields.isSome

def headerAt (sections : Array Section) (i : Nat) : List String :=
  (sections[i]?.map Section.header).getD []

def takeFieldsAt (sections : Array Section) (i : Nat) :
    Option (List (String × TomlValue) × Array Section) := do
  let s ← sections[i]?
  let fields ← s.fields
  return (fields, sections.set! i { s with fields := none })

mutual

/-- The fields of the table that `depth` keys of the section `parent` lead to, looked for from the
    section `cur` on. A header may not come twice, nor name an array's table again. -/
def table? : Nat → Array Section → (depth parent cur limit : Nat) →
    Option (List (String × TomlValue) × Array Section)
  | 0, _, _, _, _, _ => none
  | fuel + 1, sections, depth, parent, cur, limit =>
    if parent = limit || cur = limit then some ([], sections)
    else match next? sections ((headerAt sections parent).take depth) cur limit with
      | none => some ([], sections)
      | some pos =>
        let header := headerAt sections pos
        let array := sections[pos]?.any Section.array
        if parent ≠ pos && headerAt sections parent = header then none
        else
          let parent := if header.length < (headerAt sections parent).length then pos else parent
          match header[depth]? with
          | some key => do
            let (value, sections) ←
              if array && depth + 1 = header.length then do
                let (items, sections) ← array? fuel sections depth pos limit
                some (TomlValue.list items, sections)
              else do
                let (fields, sections) ← table? fuel sections (depth + 1) pos 0 limit
                some (TomlValue.table false fields, sections)
            let (rest, sections) ← table? fuel sections depth parent (pos + 1) limit
            return ((key, value) :: rest, sections)
          | none =>
            if array then none
            else do
              let (fields, sections) ← takeFieldsAt sections pos
              let (rest, sections) ← table? fuel sections depth parent pos limit
              return (fields ++ rest, sections)

/-- The tables of an array, from the section `parent` on. What belongs to a table stands before
    the next header of the array. -/
def array? : Nat → Array Section → (depth parent limit : Nat) →
    Option (List TomlValue × Array Section)
  | 0, _, _, _, _ => none
  | fuel + 1, sections, depth, parent, limit =>
    if parent = limit then some ([], sections)
    else do
      let header := headerAt sections parent
      let next := ((List.range sections.size).find? fun i =>
        parent < i && i < limit && sections[i]?.any fun s => s.array && s.header == header).getD limit
      let (fields, sections) ← takeFieldsAt sections parent
      let (more, sections) ← table? fuel sections (depth + 1) parent 0 next
      let (rest, sections) ← array? fuel sections depth next limit
      return (.table false (fields ++ more) :: rest, sections)

end

def foldLineEnds : List Char → List Char
  | '\r' :: '\n' :: rest => '\n' :: foldLineEnds rest
  | c :: rest => c :: foldLineEnds rest
  | [] => []

def dropMark : List Char → List Char
  | '\ufeff' :: rest => rest
  | text => text

/-- A document as one table. Each section is visited once at each key of its header. -/
def read? (text : String) : Option TomlValue := do
  let chars := foldLineEnds (dropMark text.toList)
  let lines ← lines? (chars.length + 1) chars
  let sections := (← sections? ⟨[], false, none⟩ lines).toArray
  let depth := sections.foldl (fun n s => n + s.header.length) 0
  let (fields, _) ← table? (4 * (depth + sections.size + 2)) sections 0 0 0 sections.size
  return .table false fields

def flag? : TomlValue → Option Bool
  | .flag b => some b
  | _ => none

def natural? : TomlValue → Option Nat
  | .natural n => some n
  | _ => none

def text? : TomlValue → Option String
  | .text t => some t
  | _ => none

def items? : TomlValue → Option (List TomlValue)
  | .list items => some items
  | _ => none

def record? : TomlValue → Option (Record TomlValue)
  | .table _ fields => some (.named fields)
  | .list items => some (.positional items)
  | _ => none

end Toml

/-- TOML has no null. -/
def tomlDialect : Dialect TomlValue where
  flag? := Toml.flag?
  natural? := Toml.natural?
  text? := Toml.text?
  null? := fun _ => some false
  items? := Toml.items?
  record? := Toml.record?

end Markup
end MetricGateway
