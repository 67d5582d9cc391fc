import ResourceLocator.Yaml.Growth.Basic

/-!
# Flow collections that grow

In a flow collection commas and marks decide what belongs to a part. After the closing bracket the
collection may still turn out to be a key.
-/

namespace ResourceLocator.Yaml.Growth

/-- Completes flow collections up to the block around them. -/
def popFlows : Nat → Growth → Growth
  | 0, g => g
  | fuel + 1, g =>
    let g := g.pop
    match g.stack with
    | .node (.flow _) :: _ => popFlows fuel g
    | _ => g

/-- Offers a token to a flow collection that has not been closed. -/
def offerInside (g : Growth) (t : Token) (f : Flow Tree) : Offer :=
  let put := fun parts ↦ Offer.taken (g.setTop (.node (.flow { f with parts })))
  match t.kind, f.parts with
  | .comma, [] | .question, [] => put [{ start := [t] }]
  | .comma, it :: before | .question, it :: before =>
    if it.sep.isSome then put ({ start := [t] } :: it :: before)
    else put ({ it with start := it.start ++ [t] } :: before)
  | .colon, [] => put [{ sep := some [t] }]
  | .colon, it :: before =>
    if it.value.isSome then put ({ sep := some [t] } :: it :: before)
    else put ({ it with sep := some (it.sep.getD [] ++ [t]) } :: before)
  | .closing _, _ => .taken (g.setTop (.node (.flow { f with ending := [t] })))
  | kind, parts =>
    if kind.isGap || kind.isProperty then match parts with
      | [] => put [{ start := [t] }]
      | it :: before =>
        if it.value.isSome then put ({ start := [t] } :: it :: before)
        else match it.sep with
          | some sep => put ({ it with sep := some (sep ++ [t]) } :: before)
          | none => put ({ it with start := it.start ++ [t] } :: before)
    else if kind.isLeaf then
      let new : Part Tree := { key := some (.leaf t none), sep := some [] }
      match parts with
      | [] => put [new]
      | it :: before =>
        if it.value.isSome then put (new :: it :: before)
        else if it.sep.isSome then .taken (g.push (.leaf t none))
        else put ({ it with key := some (.leaf t none), sep := some [] } :: before)
    else match g.startNode? t with
      | some g => .taken g
      | none => .refused g

/-- Whether a mapping around a closed flow collection goes on with a token: with the mark of the
value of this key, or with a line end where the key has no value. -/
def endsFlowKey (t : Token) (f : Flow Tree) : Frame → Bool
  | .node (.mapping b) =>
    (t.kind = .colon && b.indent = f.indent) ||
      (t.kind = .newline && b.parts.head?.any (·.sep.isNone))
  | _ => false

/-- Whether a frame is a flow collection. -/
def isFlowFrame : Frame → Bool
  | .node (.flow _) => true
  | _ => false

/-- Offers a token to a flow collection. -/
def offerFlow (g : Growth) (t : Token) (f : Flow Tree) : Offer :=
  if t.kind = .flowBreak then .taken (popFlows g.stack.length g)
  else if f.ending.isEmpty then offerInside g t f
  else
    let outer? := g.stack[1]?
    if outer?.any (endsFlowKey t f) then .refused g
    else if t.kind = .colon && !outer?.any isFlowFrame then
      let key := Tree.closeFlow { f with ending := f.ending.take 1 }
      .taken (g.makeKey t (.flow key) f.opening.offset f.indent (f.ending.drop 1))
    else offerLineEnd g t (.node (.flow { f with ending := f.ending ++ [t] }))

end ResourceLocator.Yaml.Growth
