import MetricGateway.Markup.Yaml.Token
import MetricGateway.Markup.Dialect

/- YAML documents as trees, read from tokens, and what their nodes can be taken for. An alias stands
   for an anchored node of the same document, and is looked up only when it is needed. -/
namespace MetricGateway
namespace Markup

inductive YamlNode where
  | alias (id : Nat)
  | scalar (tag : Option String) (style : Yaml.ScalarStyle) (text : String)
  | list (items : List YamlNode)
  | record (fields : List (YamlNode × YamlNode))
  deriving Inhabited

namespace Yaml

def emptyNode : YamlNode := .scalar none .plain ""

structure Reading where
  tokens : List Token
  handles : List (String × String) := []
  ids : List (String × Nat) := []
  /-- Anchored nodes in the order in which they begin; one that is being read is not there yet. -/
  anchored : Array (Nat × YamlNode) := #[]

abbrev Reader := StateT Reading Option

namespace Reader

def peek : Reader (Option Token) := do return (← get).tokens.head?

def advance : Reader Unit := modify fun r => { r with tokens := r.tokens.tail }

def take : Reader (Option Token) := do
  let t ← peek
  advance
  return t

def at_ (ts : List Token) : Reader Bool := do return (← peek).any ts.contains

def takes (t : Token) : Reader Bool := do
  if ← at_ [t] then
    advance
    return true
  else return false

def aliasId (name : String) : Reader Nat := do
  match (← get).ids.lookup name with
  | some id => return id
  | none => failure

/-- Gives an anchor its number, which is the count of names before it. A name used again gets a new
    number, which the next new name may get as well. Its place among the anchored nodes is told. -/
def openAnchor (name : String) : Reader Nat := do
  let r ← get
  let id := r.ids.length
  set { r with
    ids := (name, id) :: r.ids.filter (·.1 != name)
    anchored := r.anchored.push (id, emptyNode) }
  return r.anchored.size

def closeAnchor (n : YamlNode) (place : Nat) : Reader Unit :=
  modify fun r => { r with anchored := r.anchored.modify place fun a => (a.1, n) }

def expandTag (handle suffix : String) : Reader String := do
  if handle = "" then return suffix
  else match (← get).handles.lookup handle with
    | some expansion => return expansion ++ suffix
    | none => failure

def takeTag? : Reader (Option String) := do
  match ← peek with
  | some (.tag handle suffix) =>
    advance
    return some (← expandTag handle suffix)
  | _ => return none

def takeAnchor? : Reader (Option Nat) := do
  match ← peek with
  | some (.anchor name) =>
    advance
    return some (← openAnchor name)
  | _ => return none

def takeProperties : Reader (Option Nat × Option String) := do
  match ← takeAnchor? with
  | some place => return (some place, ← takeTag?)
  | none =>
    let tag ← takeTag?
    return (← takeAnchor?, tag)

mutual

/-- A node. In a block, collections by indentation are allowed; the items of a list may stand at the
    indentation of the key before them. Every second call takes a token. -/
def node (block unindented : Bool) : Nat → Reader YamlNode
  | 0 => failure
  | fuel + 1 => do
    match ← peek with
    | some (.alias name) =>
      advance
      return .alias (← aliasId name)
    | _ =>
      let (place, tag) ← takeProperties
      let n ← content block unindented (place.isSome || tag.isSome) tag fuel
      place.forM (closeAnchor n)
      return n

def content (block unindented optional : Bool) (tag : Option String) : Nat → Reader YamlNode
  | 0 => failure
  | fuel + 1 => do
    match ← peek with
    | some (.scalar style text) =>
      advance
      return .scalar tag style text
    | some .flowListStart =>
      advance
      return .list (← flowItems true fuel)
    | some .flowRecordStart =>
      advance
      return .record (← flowFields true fuel)
    | t =>
      if unindented && t == some .item then return .list (← unindentedItems fuel)
      else if block && t == some .blockListStart then
        advance
        return .list (← blockItems fuel)
      else if block && t == some .blockRecordStart then
        advance
        return .record (← blockFields fuel)
      else if optional then return .scalar tag .plain ""
      else failure

def nodeBefore (block unindented : Bool) (ends : List Token) : Nat → Reader YamlNode
  | 0 => failure
  | fuel + 1 => do
    if ← at_ ends then return emptyNode else node block unindented fuel

def blockItems : Nat → Reader (List YamlNode)
  | 0 => failure
  | fuel + 1 => do
    match ← take with
    | some .item =>
      let n ← nodeBefore true false [.item, .blockEnd] fuel
      return n :: (← blockItems fuel)
    | some .blockEnd => return []
    | _ => failure

def unindentedItems : Nat → Reader (List YamlNode)
  | 0 => failure
  | fuel + 1 => do
    if ← takes .item then
      let n ← nodeBefore true false [.item, .key, .value, .blockEnd] fuel
      return n :: (← unindentedItems fuel)
    else return []

def blockFields : Nat → Reader (List (YamlNode × YamlNode))
  | 0 => failure
  | fuel + 1 => do
    match ← take with
    | some .key =>
      let k ← nodeBefore true true [.key, .value, .blockEnd] fuel
      let v ← if ← takes .value then nodeBefore true true [.key, .value, .blockEnd] fuel
        else pure emptyNode
      return (k, v) :: (← blockFields fuel)
    | some .blockEnd => return []
    | _ => failure

def flowValue (ends : List Token) : Nat → Reader YamlNode
  | 0 => failure
  | fuel + 1 => do
    if ← takes .value then nodeBefore false false ends fuel else return emptyNode

/-- Items between commas; a field among them is a record of its own. -/
def flowItems (first : Bool) : Nat → Reader (List YamlNode)
  | 0 => failure
  | fuel + 1 => do
    if ← takes .flowListEnd then return []
    else
      unless first do guard (← takes .comma)
      if ← takes .flowListEnd then return []
      else if ← takes .key then
        let k ←
          if ← at_ [.value, .comma, .flowListEnd] then do
            advance
            pure emptyNode
          else node false false fuel
        let v ← flowValue [.comma, .flowListEnd] fuel
        return .record [(k, v)] :: (← flowItems false fuel)
      else
        let n ← node false false fuel
        return n :: (← flowItems false fuel)

def flowFields (first : Bool) : Nat → Reader (List (YamlNode × YamlNode))
  | 0 => failure
  | fuel + 1 => do
    if ← takes .flowRecordEnd then return []
    else
      unless first do guard (← takes .comma)
      if ← takes .flowRecordEnd then return []
      else if ← takes .key then
        let k ← nodeBefore false false [.value, .comma, .flowRecordEnd] fuel
        let v ← flowValue [.comma, .flowRecordEnd] fuel
        return (k, v) :: (← flowFields false fuel)
      else
        let k ← node false false fuel
        return (k, emptyNode) :: (← flowFields false fuel)

end

/-- Directives up to the mark of a document. The version is told once at most, and so is a handle. -/
def directives (versioned : Bool) : Nat → Reader Unit
  | 0 => failure
  | fuel + 1 => do
    match ← take with
    | some (.version major minor) =>
      guard (!versioned && major = 1 && (minor = 1 || minor = 2))
      directives true fuel
    | some (.handle name expansion) =>
      guard (!(← get).handles.any (·.1 == name))
      modify fun r => { r with handles := (name, expansion) :: r.handles }
      directives versioned fuel
    | some .documentStart => return ()
    | _ => failure

def isDocumentStart : Option Token → Bool
  | some .documentStart | some (.version ..) | some (.handle ..) => true
  | _ => false

def standardHandles : List (String × String) := [("!", "!"), ("!!", "tag:yaml.org,2002:")]

def document : Reader YamlNode := do
  let fuel := 4 * (← get).tokens.length + 4
  let marked := isDocumentStart (← peek)
  if marked then directives false fuel
  modify fun r => { r with handles := r.handles ++ standardHandles }
  let t ← peek
  let root ←
    if marked && (isDocumentStart t || t.isNone || t == some .documentEnd) then pure emptyNode
    else node true false fuel
  guard ((← get).tokens.all (· == .documentEnd))
  return root

end Reader

structure Document where
  root : YamlNode
  anchored : List (Nat × YamlNode) := []

def read? (text : String) : Option Document := do
  let tokens ← tokens? text
  if tokens.isEmpty then return { root := emptyNode }
  else
    let (root, r) ← Reader.document.run { tokens }
    return { root, anchored := r.anchored.toList }

/-- What a node is or stands for. Of several nodes of one number the last is meant. -/
def Document.resolve (doc : Document) : YamlNode → YamlNode
  | .alias id => (doc.anchored.reverse.lookup id).getD emptyNode
  | n => n

def standardTag (name : String) : String := "tag:yaml.org,2002:" ++ name

/-- The text of a value that is not taken for a string: it is plain, or literal with the tag that
    names its kind. -/
def typedWord? (kind : String) : YamlNode → Option (List Char)
  | .scalar _ .plain text => some text.toList
  | .scalar tag .literal text => if tag = some (standardTag kind) then some text.toList else none
  | _ => none

def isEmptyNode : YamlNode → Bool
  | .scalar _ .plain "" => true
  | _ => false

/-- Null is a plain word, and nothing at all unless it is tagged. Another word with the tag of null
    is an error where null is allowed. -/
def null? : YamlNode → Option Bool
  | .scalar none .plain text => some (text.isEmpty || isNullWord text.toList)
  | .scalar (some tag) .plain text =>
    if tag ≠ standardTag "null" then some false
    else if isNullWord text.toList then some true
    else none
  | _ => some false

def text? : YamlNode → Option String
  | .scalar _ _ text => some text
  | _ => none

def items? : YamlNode → Option (List YamlNode)
  | .list items => some items
  | n => if isEmptyNode n then some [] else none

def Document.field? (doc : Document) (field : YamlNode × YamlNode) : Option (String × YamlNode) :=
  (text? (doc.resolve field.1)).map (·, field.2)

def Document.record? (doc : Document) : YamlNode → Option (Record YamlNode)
  | .record fields => (fields.mapM doc.field?).map .named
  | .list items => some (.positional items)
  | n => if isEmptyNode n then some (.named []) else none

end Yaml

def yamlDialect (doc : Yaml.Document) : Dialect YamlNode where
  flag? := fun n => (Yaml.typedWord? "bool" (doc.resolve n)).bind Yaml.flagWord?
  natural? := fun n => ((Yaml.typedWord? "int" (doc.resolve n)).bind Yaml.natural?).filter
    (· < UInt64.size)
  text? := fun n => Yaml.text? (doc.resolve n)
  null? := fun n => Yaml.null? (doc.resolve n)
  items? := fun n => Yaml.items? (doc.resolve n)
  record? := fun n => doc.record? (doc.resolve n)

end Markup
end MetricGateway
