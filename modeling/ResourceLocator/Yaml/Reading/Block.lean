import ResourceLocator.Yaml.Reading.Basic

/-!
# Reading block collections

The parts of a block collection start in one column. A key without a mark is short, stands on one
line, and has a value; a key with a mark need not have one.
-/

namespace ResourceLocator.Yaml.Reading

/-- Judges a key without a mark in a block mapping. -/
def judgeKey (indent : Nat) (key? : Option Tree) : Except Fault Unit :=
  match key? with
  | none => .ok ()
  | some (.sequence _) => .error .collectionOnLine
  | some key => if key.indent?.any (· ≠ indent) then .error .column else .ok ()

/-- Reads a key with its value in a block mapping. -/
def entry (inner : Inner) (fuel : Nat) (d : Directives) (b : Block Tree) (s : Progress Entry)
    (part : Part Tree) : Reading (Progress Entry) := do
  let p ← Preamble.read
    ⟨false, .question, .of part.key part.sep, s.offset, b.indent, true⟩ part.start
  if p.mark?.isNone then judgeKey b.indent part.key
  if p.mark?.isNone && p.isBare && part.sep.isNone then
    let comment := joinComments s.comment p.comment
    return { s with commentStop? := some p.stop, comment }
  match p.mark? with
  | none => if p.lineEnd?.isSome || part.key.any (hasLineEnd fuel) then throw .longKey
  | some mark => if mark.indent ≠ b.indent then throw .column
  let (key, keyStop) ← match part.key with
    | some tree => inner true p tree
    | none => emptyNode d true p p.stop part.start
  if isRepeated key s.members then throw .repeatedKey
  let startsLine := match part.key with
    | none => true
    | some (.block ..) => true
    | some _ => false
  let sep := part.sep.getD []
  let q ← Preamble.read
    ⟨false, .colon, .of part.value none, keyStop, b.indent, startsLine⟩ sep
  match q.mark? with
  | none =>
    if p.mark?.isNone then throw .missingColon
    return { s with offset := q.stop, members := (key.addAfter q.comment, none) :: s.members }
  | some colon =>
    if p.mark?.isNone then
      match part.value with
      | some (.mapping _) => if !q.hasLineEnd then throw .collectionOnLine
      | _ => pure ()
      if isTooLong p.start colon then throw .longKey
    let (value, stop) ← match part.value with
      | some tree => inner false q tree
      | none => emptyNode d false q q.stop sep
    return { s with offset := stop, members := (key, some value) :: s.members }

/-- Reads an item of a block sequence. -/
def item (inner : Inner) (d : Directives) (b : Block Tree) (s : Progress Node)
    (part : Part Tree) : Reading (Progress Node) := do
  let p ← Preamble.read
    ⟨false, .dash, .of part.value none, s.offset, b.indent, true⟩ part.start
  if p.mark?.isNone then
    if !p.isBare || part.value.isSome then throw .column
    let comment := if p.comment.isEmpty then s.comment else p.comment
    return { s with commentStop? := some p.stop, comment }
  let (node, stop) ← match part.value with
    | some tree => inner false p tree
    | none => emptyNode d false p p.stop part.start
  return { s with offset := stop, members := node :: s.members }

/-- Where a block collection stops. -/
def blockStop {α : Type} (s : Progress α) : Except Fault Nat :=
  match s.commentStop? with
  | some stop => if stop ≠ 0 && stop < s.offset then .error .unexpected else .ok stop
  | none => .ok s.offset

/-- Judges the properties of a block sequence: a line ends after the last of them. -/
def judgeSequenceProperties (p : Preamble) : Except Fault Unit :=
  match [p.anchor?, p.tag?].filterMap (·.map Token.offset) with
  | [] => .ok ()
  | offsets =>
    if p.lineEnd?.any fun t ↦ offsets.all (· < t.offset) then .ok ()
    else .error .collectionOnLine

end ResourceLocator.Yaml.Reading
