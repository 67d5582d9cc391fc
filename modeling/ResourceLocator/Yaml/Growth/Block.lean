import ResourceLocator.Yaml.Growth.Basic

/-!
# Block collections that grow

In a block collection the indentation decides what belongs to it. Whether a token starts a new part
of a mapping depends on its column and on whether a key has already been seen on its line.
-/

namespace ResourceLocator.Yaml.Growth

/-- A line end after the value of the last part of a collection: it belongs to the comment at the
end of the value if there is one. -/
def addLineEnd (t : Token) (value : Tree) (it : Part Tree) (before : List (Part Tree)) :
    List (Part Tree) :=
  let endsInComment : Bool := match (value.ending?.getD []).getLast? with
    | some last => decide (last.kind = .comment)
    | none => false
  if endsInComment then { it with value := some (value.addEnding [t]) } :: before
  else { start := [t] } :: it :: before

/-- A blank or a comment before a key or an item. A comment that is indented further than the
collection belongs to the end of the value before it. -/
def addGap (t : Token) (indent : Nat) (it : Part Tree) (before : List (Part Tree)) :
    List (Part Tree) :=
  let isIndented := t.kind = .comment && indent < t.indent &&
    it.start.all fun s ↦ decide (s.kind = .newline) || decide (s.kind = .space)
  let inside? := if isIndented then match before with
      | last :: older => match last.value with
        | some value => if value.ending?.isSome then
            some ({ last with value := some (value.addEnding (it.start ++ [t])) } :: older)
          else none
        | none => none
      | [] => none
    else none
  inside?.getD ({ it with start := it.start ++ [t] } :: before)

/-- Parts the tokens after a key that has no value: those from the second of the line ends that
nothing indented comes after belong to what follows. -/
def splitSep (indent : Nat) (sep : List Token) : List Token × List Token :=
  let count := fun (seen : List Nat) ((s, i) : Token × Nat) ↦
    match s.kind with
    | .newline => seen ++ [i]
    | .space => seen
    | .comment => if indent < s.indent then [] else seen
    | _ => []
  match sep.zipIdx.foldl count [] with
  | _ :: second :: _ => (sep.take second, sep.drop second)
  | _ => (sep, [])

/-- Offers a value mark to a mapping whose last part has a marked key. -/
def offerColonExplicit (g : Growth) (t : Token) (put : Growth → List (Part Tree) → Growth)
    (start : List Token) (it : Part Tree) (before : List (Part Tree)) : Growth :=
  let inner := fun (g : Growth) (part : Part Tree) ↦ g.push (.mapping ⟨t.offset, t.indent, [part]⟩)
  match it.sep with
  | none =>
    if Token.includes .newline it.start then put g ({ it with sep := some [t] } :: before)
    else
      let (kept, properties) := Token.splitKeyProperties it.start
      inner (put g ({ it with start := kept } :: before)) { start := properties, sep := some [t] }
  | some sep =>
    if it.value.isSome then put g ({ sep := some [t] } :: it :: before)
    else if Token.includes .colon sep then
      inner (put g (it :: before)) { start, sep := some [t] }
    else match it.key with
      | some key =>
        if key.isFlow && !Token.includes .newline sep then
          let (kept, properties) := Token.splitKeyProperties it.start
          let outer : Part Tree := { start := kept, isExplicit := it.isExplicit }
          inner (put g (outer :: before))
            { start := properties, key := some key, sep := some (sep ++ [t]) }
        else put g ({ it with sep := some (sep ++ start ++ [t]) } :: before)
      | none => put g ({ it with sep := some (sep ++ start ++ [t]) } :: before)

/-- Offers a value mark to a mapping whose last part has a key without a mark. -/
def offerColonImplicit (g : Growth) (t : Token) (put : Growth → List (Part Tree) → Growth)
    (atNextPart : Bool) (start : List Token) (it : Part Tree) (before : List (Part Tree)) :
    Growth :=
  match it.sep with
  | none => put g ({ it with sep := some [t] } :: before)
  | some sep =>
    if it.value.isSome || atNextPart then put g ({ start, sep := some [t] } :: it :: before)
    else if Token.includes .colon sep then
      (put g (it :: before)).push (.mapping ⟨t.offset, t.indent, [{ sep := some [t] }]⟩)
    else put g ({ it with sep := some (sep ++ [t]) } :: before)

/-- Offers a token that is no gap to a mapping that is not indented further. -/
def offerPart (g : Growth) (t : Token) (b : Block Tree) (it : Part Tree)
    (before : List (Part Tree)) : Offer :=
  let atColumn := !g.onKeyLine && t.indent = b.indent
  let atNextPart := atColumn && (it.sep.isSome || it.isExplicit) && t.kind ≠ .dash
  let (it, start) := match it.sep, it.value with
    | some sep, none =>
      if atNextPart then
        let (sep, start) := splitSep b.indent sep
        ({ it with sep := some sep }, start)
      else (it, [])
    | _, _ => (it, [])
  let startsNew := atNextPart || it.value.isSome
  let put := fun (g : Growth) parts ↦ g.setTop (.node (.mapping { b with parts }))
  let onKey := { g with onKeyLine := true }
  match t.kind with
  | .anchor | .tag =>
    if startsNew then .taken (put onKey ({ start := start ++ [t] } :: it :: before))
    else match it.sep with
      | some sep => .taken (put g ({ it with sep := some (sep ++ [t]) } :: before))
      | none => .taken (put g ({ it with start := it.start ++ [t] } :: before))
  | .question =>
    if it.sep.isNone && !it.isExplicit then
      .taken (put onKey ({ it with start := it.start ++ [t], isExplicit := true } :: before))
    else if startsNew then
      .taken (put onKey ({ start := start ++ [t], isExplicit := true } :: it :: before))
    else .taken ((put onKey (it :: before)).push
      (.mapping ⟨t.offset, t.indent, [{ start := [t], isExplicit := true }]⟩))
  | .colon =>
    if it.isExplicit then .taken (offerColonExplicit onKey t put start it before)
    else .taken (offerColonImplicit onKey t put atNextPart start it before)
  | .alias | .plain | .single | .double =>
    if startsNew then
      .taken (put onKey ({ start, key := some (.leaf t none), sep := some [] } :: it :: before))
    else if it.sep.isSome then .taken ((put g (it :: before)).push (.leaf t none))
    else .taken (put onKey ({ it with key := some (.leaf t none), sep := some [] } :: before))
  | _ =>
    let g := put g (it :: before)
    match g.startNode? t with
    | none => .refused g
    | some started =>
      if t.kind = .dash then
        if !it.isExplicit && it.sep.any (!Token.includes .newline ·) then
          .taken (g.addFault t)
        else .taken started
      else if atColumn then
        .taken (((put g ({ start } :: it :: before)).startNode? t).getD g)
      else .taken started

/-- Offers a token to a block mapping. -/
def offerMapping (g : Growth) (t : Token) (b : Block Tree) : Offer :=
  match b.parts with
  | [] => .refused g
  | it :: before =>
    let put := fun (g : Growth) parts ↦ g.setTop (.node (.mapping { b with parts }))
    match t.kind with
    | .newline =>
      let g := { g with onKeyLine := false }
      match it.value, it.sep with
      | some value, _ => .taken (put g (addLineEnd t value it before))
      | none, some sep => .taken (put g ({ it with sep := some (sep ++ [t]) } :: before))
      | none, none => .taken (put g ({ it with start := it.start ++ [t] } :: before))
    | .space | .comment =>
      match it.value, it.sep with
      | some _, _ => .taken (put g ({ start := [t] } :: it :: before))
      | none, some sep => .taken (put g ({ it with sep := some (sep ++ [t]) } :: before))
      | none, none => .taken (put g (addGap t b.indent it before))
    | _ => if t.indent < b.indent then .refused g else offerPart g t b it before

/-- Offers a token to a block sequence. -/
def offerSequence (g : Growth) (t : Token) (b : Block Tree) : Offer :=
  match b.parts with
  | [] => .refused g
  | it :: before =>
    let put := fun parts ↦ g.setTop (.node (.sequence { b with parts }))
    let nested := if b.indent < t.indent then match g.startNode? t with
        | some g => Offer.taken g
        | none => .refused g
      else .refused g
    let extended := Offer.taken (put ({ it with start := it.start ++ [t] } :: before))
    match t.kind with
    | .newline => match it.value with
      | some value => .taken (put (addLineEnd t value it before))
      | none => extended
    | .space | .comment =>
      if it.value.isSome then .taken (put ({ start := [t] } :: it :: before))
      else .taken (put (addGap t b.indent it before))
    | .anchor | .tag =>
      if it.value.isSome || t.indent ≤ b.indent then nested else extended
    | .dash =>
      if t.indent ≠ b.indent then nested
      else if it.value.isSome || Token.includes .dash it.start then
        .taken (put ({ start := [t] } :: it :: before))
      else extended
    | _ => nested

end ResourceLocator.Yaml.Growth
