/-!
# Faults of documents

A text is no document for one of these reasons. The first fault found is the fault of the
document.
-/

namespace ResourceLocator.Yaml

/-- Why a text is no document. -/
inductive Fault where
  /-- A directive is malformed, or no document follows it. -/
  | directive
  /-- There is more than one document. -/
  | severalDocuments
  /-- A comment follows something else without a blank. -/
  | commentNotApart
  /-- Something follows a property without a blank. -/
  | propertyNotApart
  /-- A quoted scalar has no end. -/
  | unclosedQuote
  /-- A quoted scalar has an unknown escape. -/
  | escape
  /-- A plain scalar starts with a reserved character. -/
  | plainStart
  /-- The header of a block scalar is malformed. -/
  | blockHeader
  /-- The lines of a block scalar are indented too little. -/
  | blockIndent
  /-- A flow collection has no end, or goes on with too little indentation. -/
  | unclosedFlow
  /-- A tab stands for indentation. -/
  | tab
  /-- A collection starts on the line of something that does not allow it there. -/
  | collectionOnLine
  /-- A part of a block collection stands in the wrong column. -/
  | column
  /-- Something stands where nothing of its kind can be. -/
  | unexpected
  /-- A key without a mark goes over several lines. -/
  | longKey
  /-- A key has no value mark. -/
  | missingColon
  /-- A key occurs twice in a mapping. -/
  | repeatedKey
  /-- A node has two anchors or two tags. -/
  | repeatedProperty
  /-- An alias has properties. -/
  | aliasProperty
  /-- An anchor or an alias has no name. -/
  | emptyName
  /-- An alias names no anchor before it. -/
  | unknownAnchor
  /-- A node is repeated too often. -/
  | tooManyAliases
  /-- A tag cannot be resolved. -/
  | tag
  deriving DecidableEq, Repr

/-- A fault in words. -/
def Fault.message : Fault → String
  | .directive => "Malformed directive, or a directive without a document"
  | .severalDocuments => "There is more than one document"
  | .commentNotApart => "A comment must follow a blank"
  | .propertyNotApart => "A blank must follow an anchor or a tag"
  | .unclosedQuote => "A quoted scalar is not closed"
  | .escape => "Unknown escape in a quoted scalar"
  | .plainStart => "A plain scalar cannot start with this character"
  | .blockHeader => "Malformed header of a block scalar"
  | .blockIndent => "A line of a block scalar is indented too little"
  | .unclosedFlow => "A flow collection is not closed"
  | .tab => "Tabs are not allowed as indentation"
  | .collectionOnLine => "A block collection cannot start on this line"
  | .column => "The items of a block collection must start in one column"
  | .unexpected => "Something unexpected stands here"
  | .longKey => "A key without a mark must be short and on one line"
  | .missingColon => "A key must be followed by a colon"
  | .repeatedKey => "Map keys must be unique"
  | .repeatedProperty => "A node can have one anchor and one tag"
  | .aliasProperty => "An alias cannot have an anchor or a tag"
  | .emptyName => "An anchor must have a name"
  | .unknownAnchor => "An alias must follow its anchor"
  | .tooManyAliases => "A node is repeated too often"
  | .tag => "A tag cannot be resolved"

end ResourceLocator.Yaml
