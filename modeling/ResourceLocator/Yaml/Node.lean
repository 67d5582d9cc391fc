import ResourceLocator.Yaml.Tag

/-!
# Nodes

A document has the shape of a tree of nodes. A node may have an anchor, by which aliases repeat
it, and a tag, which says how it is to be understood. An empty node is a plain scalar without
characters. A key may have no value at all, which is not the same as an empty one.

A node keeps its comments too, since a key that is a collection is known by the way in which it is
written.
-/

namespace ResourceLocator.Yaml

/-- What a node has beside its content. -/
structure Label where
  /-- Its place: a node comes before those in it, and those before what follows. -/
  place : Nat
  /-- Its anchor. -/
  anchor? : Option String := none
  /-- Its tag in full. -/
  tag? : Option String := none
  /-- The lines of the comment before it. -/
  before : List Char := []
  /-- The lines of the comment after it. -/
  after : List Char := []
  /-- Whether a blank line stands before it. -/
  isSpaced : Bool := false

/-- A comment with more lines. -/
def joinComments (comment more : List Char) : List Char :=
  if more.isEmpty then comment
  else if comment.isEmpty then more
  else comment ++ '\n' :: more

/-- Whether the values of two scalar keys are equal. Bytes, instants and the keys of merges differ
from all others. -/
def sameScalar : Value → Value → Bool
  | .null, .null => true
  | .bool a, .bool b => a == b
  | .number m, .number n => m.same n
  | .text s, .text t => s == t
  | _, _ => false

/-- Whether two keys of a table or members of a set are equal: there, not-a-number equals
itself. -/
def sameInTable (a b : Value) : Bool :=
  sameScalar a b || match a, b with
    | .number .nan, .number .nan => true
    | _, _ => false

/-- How a scalar is written. -/
inductive Style where
  /-- Without quotes. -/
  | plain
  /-- In single quotes. -/
  | single
  /-- In double quotes. -/
  | double
  /-- As a block of lines. -/
  | block
  deriving DecidableEq, Repr

/-- A scalar. -/
structure Scalar where
  /-- How it is written. -/
  style : Style
  /-- Its text. -/
  text : List Char
  /-- What it has been read as. -/
  datum : Datum

/-- What pairs of a key and a value make. -/
inductive EntryForm where
  /-- A mapping. -/
  | mapping
  /-- A set, whose members are the keys. -/
  | set
  /-- A sequence of mappings of one pair each. -/
  | pairs
  /-- A table, which is written like a sequence of pairs. -/
  | table
  deriving DecidableEq, Repr

/-- A node. -/
inductive Node where
  /-- A scalar. -/
  | scalar (label : Label) (scalar : Scalar)
  /-- An alias of a name. -/
  | alias (label : Label) (name : String)
  /-- A sequence of nodes. -/
  | sequence (label : Label) (items : List Node)
  /-- Pairs of a key and a value, if there is one. -/
  | entries (label : Label) (form : EntryForm) (pairs : List (Node × Option Node))

/-- A key with its value. -/
abbrev Entry := Node × Option Node

namespace Node

/-- What a node has beside its content. -/
def label : Node → Label
  | .scalar label _ => label
  | .alias label _ => label
  | .sequence label _ => label
  | .entries label _ _ => label

/-- A node with a change to what it has beside its content. -/
def mapLabel (f : Label → Label) : Node → Node
  | .scalar label content => .scalar (f label) content
  | .alias label name => .alias (f label) name
  | .sequence label items => .sequence (f label) items
  | .entries label form pairs => .entries (f label) form pairs

/-- A node with more lines of the comment after it. -/
def addAfter (node : Node) (comment : List Char) : Node :=
  node.mapLabel fun l ↦ { l with after := joinComments l.after comment }

/-- The value of a scalar. -/
def scalarValue? : Node → Option Value
  | .scalar _ content => some content.datum.value
  | _ => none

mutual

/-- A node and the nodes in it, in the order of their places. -/
def all : Node → List Node
  | .sequence label items => .sequence label items :: allOf items
  | .entries label form pairs => .entries label form pairs :: allOfEntries pairs
  | node => [node]

/-- The nodes of a list and those in them. -/
def allOf : List Node → List Node
  | [] => []
  | node :: nodes => node.all ++ allOf nodes

/-- The nodes of pairs and those in them. -/
def allOfEntries : List (Node × Option Node) → List Node
  | [] => []
  | (key, some value) :: pairs => key.all ++ value.all ++ allOfEntries pairs
  | (key, none) :: pairs => key.all ++ allOfEntries pairs

end

end Node

/-- A document. -/
structure Document where
  /-- What its directives say. -/
  directives : Directives
  /-- Its nodes in the order of their places. -/
  nodes : List Node

namespace Document

/-- The node that an alias stands for: the last one before it with its anchor. -/
def target? (doc : Document) (place : Nat) (name : String) : Option Node :=
  (doc.nodes.filter fun node ↦
    node.label.place < place && node.label.anchor? == some name).getLast?

/-- The form that a tag asks for, of those that need one. -/
def formOf? (tag : String) : Option EntryForm :=
  if tag = commonTags ++ "set" then some .set
  else if tag = commonTags ++ "omap" then some .table
  else if tag = commonTags ++ "pairs" then some .pairs
  else none

/-- Whether a node is what its tag asks for, if that is one of the tags for which the later version
has to be asked. -/
def heeds (tag : String) : Node → Bool
  | .scalar label _ => label.tag? = some tag && (formOf? tag).isNone
  | .entries label form _ => label.tag? = some tag && formOf? tag = some form
  | _ => false

/-- The tags that the earlier version has beside those of the later one. -/
def furtherTags : List String :=
  ["binary", "merge", "omap", "pairs", "set", "timestamp"].map (commonTags ++ ·)

/-- Whether one of the further tags counts in a document. In the later version it does as soon as
some node is what it asks for. -/
def knows (doc : Document) (tag : String) : Bool :=
  furtherTags.contains tag && (doc.directives.version = .v11 || doc.nodes.any (heeds tag))

end Document

end ResourceLocator.Yaml
