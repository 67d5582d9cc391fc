import ResourceLocator.Value.Text
import ResourceLocator.Yaml.Writing

/-!
# What nodes mean

A node has a value. An alias has that of the last node before it with its anchor; a collection may
hold an alias of itself. Keys become texts, and the key of a merge puts the fields of other
mappings where there are none yet.

A document that repeats a node too often has no value: an anchored node counts once for itself
and once for each alias of it, and this number times that of the most repeated part of the node
is at most `mostRepeated`.
-/

namespace ResourceLocator.Yaml

/-- An anchored node that has a value. -/
structure Anchored where
  /-- Its place. -/
  place : Nat
  /-- Its value, or what stands for it as long as it is being read. -/
  value : Value
  /-- How often it has occurred. -/
  count : Nat := 1
  /-- How often its most repeated part had occurred when an alias first asked, or zero as long as
  none has. -/
  weight : Nat := 0

/-- Reading a document with the anchored nodes that have a value so far. -/
abbrev Meaning := ReaderT Document (StateT (List Anchored) (Except Fault))

/-- How often parts of a document may be repeated. -/
def mostRepeated : Nat := 100

namespace Meaning

/-! ### Aliases -/

/-- The anchored node of a place. -/
def anchoredAt? (anchored : List Anchored) (place : Nat) : Option Anchored :=
  anchored.find? (·.place == place)

/-- The anchored nodes with one put in its place. -/
def putAnchored (anchored : List Anchored) (a : Anchored) : List Anchored :=
  a :: anchored.filter (·.place ≠ a.place)

/-- How often a node occurs, without the nodes in it. -/
def ownWeight (doc : Document) (anchored : List Anchored) : Node → Nat
  | .scalar .. => 1
  | .sequence .. => 0
  | .entries _ _ pairs => if pairs.any (·.2.isNone) then 1 else 0
  | .alias label name =>
    (((doc.target? label.place name).bind fun node ↦
      anchoredAt? anchored node.label.place).map fun a ↦ a.count * a.weight).getD 0

/-- How often the most repeated part of a node occurs. -/
def weightOf (doc : Document) (anchored : List Anchored) (node : Node) : Nat :=
  node.all.foldl (fun n part ↦ max n (ownWeight doc anchored part)) 0

/-- Counts an alias of a node, and gives the value. -/
def repeated (node : Node) (a : Anchored) : Meaning Value := do
  let doc ← read
  let anchored ← get
  let a := { a with count := a.count + 1 }
  let weight := if a.weight = 0 then weightOf doc (putAnchored anchored a) node else a.weight
  if mostRepeated < a.count * weight then throw .tooManyAliases
  set (putAnchored anchored { a with weight })
  return a.value

/-- What stands for a node as long as it is being read. -/
def standIn : Node → Value
  | .sequence .. => .list []
  | .entries _ form _ => match form with
    | .mapping => .cycle
    | .set => .set []
    | .pairs => .list []
    | .table => .table []
  | _ => .null

/-- Reads a node that may have an anchor. -/
def anchored (node : Node) (value : Meaning Value) : Meaning Value := do
  let place := node.label.place
  if node.label.anchor?.isNone then value
  else
    modify (putAnchored · { place, value := standIn node })
    let value ← value
    modify fun all ↦ match anchoredAt? all place with
      | some a => putAnchored all { a with value }
      | none => all
    return value

/-! ### Keys -/

/-- Whether a key is that of a merge. In the earlier version it need not be read as one. -/
def isMerge (version : Version) : Node → Bool
  | .scalar _ s => match s.datum.value with
    | .symbol _ => true
    | .text t => version = .v11 && s.style = .plain && t = "<<"
    | _ => false
  | _ => false

/-- The text of a key with its value. -/
def keyText (key : Node) (value : Value) : Meaning String := do
  match value with
  | .null => return ""
  | .bool _ | .number _ | .text _ | .symbol _ => match value.toText with
    | .ok text => return text
    | .error _ => throw .unexpected
  | _ => match key with
    | .scalar .. => match value.toText with
      | .ok text => return text
      | .error _ => throw .unexpected
    | .alias _ name =>
      if !Writing.isName name then throw .emptyName
      return "*" ++ name
    | key => match key.text? (← read) with
      | some text => return text
      | none => throw .emptyName

/-! ### Tables -/

/-- A row of a table that is being read. -/
structure Row where
  /-- The place of the node that the key stands for. -/
  place : Nat
  /-- The key. -/
  key : Value
  /-- The value. -/
  value : Value

/-- Whether two rows have the same key. Keys that are neither texts nor numbers nor words are the
same if they stand for the same node. -/
def Row.sameKey (r s : Row) : Bool :=
  match r.key, s.key with
  | .undefined, .undefined => true
  | .list _, _ | .record _, _ | .cycle, _ | .bytes _, _ | .instant _, _ | .set _, _ | .table _, _ =>
    r.place == s.place
  | a, b => sameInTable a b

/-- A table with a row: in the place of the one that has its key if `overrides` holds. -/
def putRow (overrides : Bool) (rows : List Row) (row : Row) : List Row :=
  if rows.any row.sameKey then
    if overrides then rows.map fun r ↦ if row.sameKey r then { r with value := row.value } else r
    else rows
  else rows ++ [row]

/-- The fields with those of a table that they do not have. -/
def mergeFields (fields : Fields) (rows : List Row) : Except Fault Fields :=
  rows.foldlM (fun fields row ↦ match row.key with
    -- Symbols are no fields that anything shows.
    | .symbol _ => .ok fields
    | key => match key.toText with
      | .ok name =>
        .ok (if (fields.get? name).isSome then fields else fields.put name row.value)
      | .error _ => .error .unexpected) fields

/-- The first two parts of a member of a set that is taken for a pair. -/
def pairOf (member : Value) : Except Fault (Value × Value) :=
  let firstTwo := fun parts : List Value ↦
    (parts.headD .undefined, (parts.drop 1).headD .undefined)
  match member with
  | .text s => .ok (firstTwo (s.toList.map fun c ↦ .text (String.singleton c)))
  | .list items => .ok (firstTwo items)
  | .bytes bs => .ok (firstTwo (bs.map fun b ↦ .number (Number.ofInt b.toNat)))
  | .set members => .ok (firstTwo members)
  | .table rows => .ok (firstTwo (rows.map fun (key, value) ↦ .list [key, value]))
  | _ => .error .unexpected

/-! ### Collections -/

/-- What reads the nodes in a collection. -/
abbrev Inner := Node → Meaning Value

/-- The value of a node, or null. -/
def valueOf (inner : Inner) : Option Node → Meaning Value
  | some node => inner node
  | none => return .null

/-- The node that an alias stands for, or the node itself. -/
def follow (node : Node) : Meaning Node := do
  match node with
  | .alias label name => match (← read).target? label.place name with
    | some node => return node
    | none => throw .unknownAnchor
  | node => return node

/-- The place of the node that a node stands for. -/
def placeOf (node : Node) : Meaning Nat := return (← follow node).label.place

/-- Reads a key into a set. -/
def member (inner : Inner) (members : List Value) (pair : Entry) : Meaning (List Value) := do
  if isMerge (← read).directives.version pair.1 then throw .unexpected
  let value ← inner pair.1
  return if members.any (sameInTable value) then members else members ++ [value]

/-- The nodes that the key of a merge asks for. -/
def sources (value? : Option Node) : Meaning (List Node) := do
  match value? with
  | none => throw .unexpected
  | some value => match ← follow value with
    | .sequence _ items => items.mapM follow
    | .entries label form pairs =>
      if form = .mapping || form = .set then return [.entries label form pairs]
      else if pairs.isEmpty then return []
      else throw .unexpected
    | _ => throw .unexpected

/-- Reads a source of a merge as the rows of a table: the pairs of a mapping, in which merges come
first to last like other keys, or the members of a set. The first argument bounds how deep merges
go. -/
def rows (inner : Inner) : Nat → Node → Meaning (List Row)
  | 0, _ => throw .tooManyAliases
  | fuel + 1, .entries _ .mapping pairs => pairs.foldlM (fun table (key, value?) ↦ do
      if isMerge (← read).directives.version key then
        (← sources value?).foldlM (fun table source ↦ do
          return (← rows inner fuel source).foldl (putRow false) table) table
      else
        let k ← inner key
        return putRow true table ⟨← placeOf key, k, ← valueOf inner value?⟩) []
  | _, .entries label .set pairs => do
    let members ← pairs.foldlM (member inner) []
    members.mapM fun m ↦ do
      let (key, value) ← pairOf m
      return ⟨label.place, key, value⟩
  | _, _ => throw .unexpected

/-- Reads a pair of a mapping into its fields. -/
def field (inner : Inner) (fuel : Nat) (fields : Fields) (pair : Entry) : Meaning Fields := do
  let (key, value?) := pair
  if isMerge (← read).directives.version key then
    (← sources value?).foldlM (fun fields source ↦ do
      mergeFields fields (← rows inner fuel source)) fields
  else
    let name ← keyText key (← inner key)
    return fields.put name (← valueOf inner value?)

/-- Reads a pair into a table, which has no key twice. -/
def row (inner : Inner) (rows : List Row) (pair : Entry) : Meaning (List Row) := do
  let key ← inner pair.1
  let row : Row := ⟨← placeOf pair.1, key, ← valueOf inner pair.2⟩
  if rows.any row.sameKey then throw .repeatedKey
  return rows ++ [row]

/-- Reads a node. The first argument bounds how deep nodes and aliases go. -/
def ofNode : Nat → Node → Meaning Value
  | 0, _ => throw .tooManyAliases
  | fuel + 1, node =>
    let inner : Inner := ofNode fuel
    match node with
    | .scalar _ s => anchored node (return s.datum.value)
    | .alias label name => do
      match (← read).target? label.place name with
      | none => throw .unknownAnchor
      | some target => match anchoredAt? (← get) target.label.place with
        | some a => repeated target a
        | none =>
          let _ ← inner target
          match anchoredAt? (← get) target.label.place with
          | some a => repeated target a
          | none => throw .unknownAnchor
    | .sequence _ items => anchored node do
        return .list (← items.mapM inner)
    | .entries _ form pairs => anchored node do
        match form with
        | .mapping => return .record (← pairs.foldlM (field inner fuel) [])
        | .set => return .set (← pairs.foldlM (member inner) [])
        | .pairs => return .list (← pairs.mapM fun pair ↦
            return .record (← field inner fuel [] pair))
        | .table =>
          let rows ← pairs.foldlM (row inner) []
          return .table (rows.map fun r ↦ (r.key, r.value))

end Meaning

/-- The value of a document with the root of its nodes. -/
def Node.value (directives : Directives) (root : Node) : Except Fault Value := do
  let nodes := root.all
  -- No node is read inside itself more than twice, as a part and for a merge.
  let reading := Meaning.ofNode (2 * nodes.length + 2) root
  let (value, _) ← (reading.run { directives, nodes }).run []
  return value

end ResourceLocator.Yaml
