import ResourceLocator.Proofs.FileSystem.Spelling

/-!
# File systems that grow

A file system *grows* if everything that stands in it stays, a file perhaps with another text
(`Grows`). A walk in the larger file system comes to the same as in the smaller one, unless there it
comes to nothing (`Grows.walksOn`).
-/

namespace ResourceLocator

/-- A node, whatever text a file has. -/
def Node.shape : Node → Node
  | .file _ locked => .file "" locked
  | node => node

namespace Node

variable {node : Node}

theorem eq_directory_of_shape {locked : Bool} (h : node.shape = .directory locked) :
    node = .directory locked := by
  cases node <;> first | exact h | cases h

theorem eq_link_of_shape {target : String} (h : node.shape = .link target) :
    node = .link target := by
  cases node <;> first | exact h | cases h

theorem exists_file_of_shape {text : String} {locked : Bool}
    (h : node.shape = .file text locked) : ∃ text', node = .file text' locked := by
  cases node with
  | file text' =>
    cases h
    exact ⟨text', rfl⟩
  | directory => cases h
  | link => cases h

end Node

namespace FileSystem

variable {fs fs' fs'' : FileSystem} {loc : Location} {node : Node}

/-- Everything in the first file system stands in the second one, a file perhaps with another
text. -/
def Grows (fs fs' : FileSystem) : Prop :=
  ∀ loc node, fs.node? loc = some node → ∃ node', fs'.node? loc = some node' ∧
    node'.shape = node.shape

namespace Grows

theorem refl (fs : FileSystem) : Grows fs fs := fun _ node h ↦ ⟨node, h, rfl⟩

theorem trans (h : Grows fs fs') (h' : Grows fs' fs'') : Grows fs fs'' := by
  intro loc node hnode
  obtain ⟨mid, hmid, hshape⟩ := h loc node hnode
  obtain ⟨last, hlast, hshape'⟩ := h' loc mid hmid
  exact ⟨last, hlast, hshape'.trans hshape⟩

theorem directory (h : Grows fs fs') {locked : Bool}
    (hnode : fs.node? loc = some (.directory locked)) :
    fs'.node? loc = some (.directory locked) := by
  obtain ⟨node, hnode', hshape⟩ := h loc _ hnode
  rw [hnode', Node.eq_directory_of_shape hshape]

theorem link (h : Grows fs fs') {target : String} (hnode : fs.node? loc = some (.link target)) :
    fs'.node? loc = some (.link target) := by
  obtain ⟨node, hnode', hshape⟩ := h loc _ hnode
  rw [hnode', Node.eq_link_of_shape hshape]

theorem file (h : Grows fs fs') {text : String} {locked : Bool}
    (hnode : fs.node? loc = some (.file text locked)) :
    ∃ text', fs'.node? loc = some (.file text' locked) := by
  obtain ⟨node, hnode', hshape⟩ := h loc _ hnode
  obtain ⟨text', rfl⟩ := Node.exists_file_of_shape hshape
  exact ⟨text', hnode'⟩

end Grows

/-- The same stands everywhere, files perhaps with other texts. -/
def SameShape (fs fs' : FileSystem) : Prop :=
  ∀ loc, (fs'.node? loc).map Node.shape = (fs.node? loc).map Node.shape

/-- Something stands at a location only in the second file system. -/
def IsNew (fs fs' : FileSystem) (loc : Location) : Prop :=
  fs.node? loc = none ∧ ∃ node, fs'.node? loc = some node

namespace SameShape

theorem refl (fs : FileSystem) : SameShape fs fs := fun _ ↦ rfl

theorem symm (h : SameShape fs fs') : SameShape fs' fs := fun loc ↦ (h loc).symm

theorem trans (h : SameShape fs fs') (h' : SameShape fs' fs'') : SameShape fs fs'' :=
  fun loc ↦ (h' loc).trans (h loc)

theorem grows (h : SameShape fs fs') : Grows fs fs' := by
  intro loc node hnode
  have hshape := h loc
  rw [hnode] at hshape
  exact Option.map_eq_some_iff.1 hshape

theorem not_isNew (h : SameShape fs fs') (loc : Location) : ¬IsNew fs fs' loc := by
  rintro ⟨hnone, node, hnode⟩
  have hshape := h loc
  rw [hnone, hnode] at hshape
  cases hshape

end SameShape

section Walk

variable {last : LastName} {links : Nat} {here : Location} {names : List String}

/-- What a walk comes to in a file system and in a larger one. -/
inductive WalksOn (fs fs' : FileSystem) (last : LastName) :
    Except Errno (Location × Nat) → Except Errno (Location × Nat) → Prop where
  /-- It comes to the same. -/
  | same (outcome : Except Errno (Location × Nat)) : WalksOn fs fs' last outcome outcome
  /-- It comes to nothing where something is new. -/
  | nothing {loc : Location} {errno : Errno} (hnew : IsNew fs fs' loc)
      (habsence : errno.isAbsence = true) (outcome : Except Errno (Location × Nat)) :
      WalksOn fs fs' last (.error errno) outcome
  /-- It may end at a new name, where something stands now. -/
  | new {loc : Location} {left : Nat} {outcome : Except Errno (Location × Nat)}
      (hnew : IsNew fs fs' loc) (hlast : last = .mayBeNew)
      (h : (∀ target, fs'.node? loc ≠ some (.link target)) → outcome = .ok (loc, left)) :
      WalksOn fs fs' last (.ok (loc, left)) outcome

theorem WalksOn.of_eq {outcome outcome' : Except Errno (Location × Nat)} (h : outcome' = outcome) :
    WalksOn fs fs' last outcome outcome' := by
  rw [h]
  exact .same outcome

/-- Where a walk does not find a name, something new may stand. -/
theorem Grows.walksOn_of_missing (h : Grows fs fs') {name : String}
    (hhere : fs.node? here = some (.directory false)) (hdot : name ≠ ".") (hdotDot : name ≠ "..")
    (hshort : nameIsTooLong name = false) (hnext : fs.node? (here ++ [name]) = none)
    (last : LastName) (links : Nat) (names : List String) : WalksOn fs fs' last
      (if names = [] ∧ last = .mayBeNew then .ok (here ++ [name], links) else .error .missing)
      (fs'.walkOn last links here (name :: names)) := by
  cases hnext' : fs'.node? (here ++ [name]) with
  | none =>
    refine .of_eq ?_
    rw [walkOn, h.directory hhere]
    simp [hdot, hdotDot, hshort, hnext']
  | some node =>
    by_cases hnew : names = [] ∧ last = .mayBeNew
    · rw [if_pos hnew]
      refine .new ⟨hnext, node, hnext'⟩ hnew.2 fun hlink ↦ ?_
      have hlink' : ∀ target, node ≠ .link target := by
        rintro target rfl
        exact hlink target hnext'
      rw [walkOn_node (h.directory hhere) hdot hdotDot hshort hnext' hlink', hnew.1, walkOn]
    · rw [if_neg hnew]
      exact .nothing ⟨hnext, node, hnext'⟩ rfl _

/-- Where no directory stands, something new may stand. -/
theorem Grows.walksOn_of_not_directory (h : Grows fs fs') {name : String}
    (hhere : ∀ locked, fs.node? here ≠ some (.directory locked)) :
    WalksOn fs fs' last (.error .notDirectory) (fs'.walkOn last links here (name :: names)) := by
  cases hnode : fs.node? here with
  | none =>
    cases hnode' : fs'.node? here with
    | none =>
      refine .of_eq ?_
      rw [walkOn, hnode']
    | some node => exact .nothing ⟨hnode, node, hnode'⟩ rfl _
  | some node =>
    obtain ⟨node', hnode', hshape⟩ := h _ node hnode
    refine .of_eq ?_
    rw [walkOn, hnode']
    cases node' with
    | directory locked =>
      rw [Node.eq_directory_of_shape hshape.symm] at hnode
      exact absurd hnode (hhere locked)
    | file => rfl
    | link => rfl

/-- **A walk in a larger file system** goes the same way until it meets something new. -/
theorem Grows.walksOn (h : Grows fs fs') (last : LastName) (links : Nat) (here : Location)
    (names : List String) : WalksOn fs fs' last (fs.walkOn last links here names)
      (fs'.walkOn last links here names) := by
  fun_induction walkOn fs last links here names with
  | case1 =>
    refine .of_eq ?_
    rw [walkOn]
  | case2 links here name names hhere =>
    refine .of_eq ?_
    rw [walkOn, h.directory hhere]
    rfl
  | case3 links here names locked hhere hlocked ih =>
    rw [Bool.of_not_eq_true hlocked] at hhere
    rw [walkOn_dot (h.directory hhere)]
    exact ih
  | case4 links here names locked hhere hlocked hdot ih =>
    rw [Bool.of_not_eq_true hlocked] at hhere
    rw [walkOn_dotDot (h.directory hhere)]
    exact ih
  | case5 links here name names locked hhere hlocked hdot hdotDot hlong =>
    refine .of_eq ?_
    rw [walkOn, h.directory hhere]
    simp [*]
  | case6 links here name names locked hhere hlocked hdot hdotDot hshort next hnext hnew =>
    rw [Bool.of_not_eq_true hlocked] at hhere
    have hmissing := h.walksOn_of_missing hhere hdot hdotDot (Bool.of_not_eq_true hshort) hnext last
      links names
    rwa [if_pos hnew] at hmissing
  | case7 links here name names locked hhere hlocked hdot hdotDot hshort next hnext hold =>
    rw [Bool.of_not_eq_true hlocked] at hhere
    have hmissing := h.walksOn_of_missing hhere hdot hdotDot (Bool.of_not_eq_true hshort) hnext last
      links names
    rwa [if_neg hold] at hmissing
  | case8 links here name names locked hhere hlocked hdot hdotDot hshort next target hnext hkeep =>
    refine .of_eq ?_
    rw [walkOn, h.directory hhere]
    have hnext' : fs'.node? (here ++ [name]) = some (.link target) := h.link hnext
    simp [*, next]
  | case9 here name names locked hhere hlocked hdot hdotDot hshort next target hnext hkeep =>
    refine .of_eq ?_
    rw [walkOn, h.directory hhere]
    have hnext' : fs'.node? (here ++ [name]) = some (.link target) := h.link hnext
    simp [*]
  | case10 here name names locked hhere hlocked hdot hdotDot hshort next target hnext hkeep links
      ih =>
    rw [walkOn.eq_def _ _ (links + 1), h.directory hhere]
    have hnext' : fs'.node? (here ++ [name]) = some (.link target) := h.link hnext
    simpa [*] using ih
  | case11 links here name names locked hhere hlocked hdot hdotDot hshort next node hlink hnext
      ih =>
    rw [Bool.of_not_eq_true hlocked] at hhere
    obtain ⟨node', hnext', hshape⟩ := h _ node hnext
    have hlink' : ∀ target, node' ≠ .link target := by
      rintro target rfl
      exact hlink target (Node.eq_link_of_shape hshape.symm)
    rw [walkOn_node (h.directory hhere) hdot hdotDot (Bool.of_not_eq_true hshort) hnext' hlink']
    exact ih
  | case12 links here name names hhere => exact h.walksOn_of_not_directory hhere

/-- A walk that ends well ends well in a larger file system, at the same place. -/
theorem Grows.walkOn_eq_ok (h : Grows fs fs') (hlast : last ≠ .mayBeNew)
    {reached : Location × Nat} (hwalk : fs.walkOn last links here names = .ok reached) :
    fs'.walkOn last links here names = .ok reached := by
  have hwalks := h.walksOn last links here names
  rw [hwalk] at hwalks
  generalize fs'.walkOn last links here names = outcome at hwalks ⊢
  cases hwalks with
  | same => rfl
  | new _ hnew _ => exact absurd hnew hlast

/-- Where the same stands, a walk comes to the same. -/
theorem SameShape.walkOn_eq (h : SameShape fs fs') (last : LastName) (links : Nat)
    (here : Location) (names : List String) :
    fs'.walkOn last links here names = fs.walkOn last links here names := by
  have hwalks := h.grows.walksOn last links here names
  generalize fs.walkOn last links here names = outcome at hwalks ⊢
  generalize fs'.walkOn last links here names = outcome' at hwalks ⊢
  cases hwalks with
  | same => rfl
  | nothing hnew => exact absurd hnew (h.not_isNew _)
  | new hnew => exact absurd hnew (h.not_isNew _)

end Walk

/-! ### Changes of one node -/

theorem grows_set_of_none (h : fs.node? loc = none) (node : Node) : Grows fs (fs.set loc node) := by
  intro other old hold
  have hne : other ≠ loc := by
    rintro rfl
    cases hold.symm.trans h
  exact ⟨old, (node?_set_of_ne fs node hne).trans hold, rfl⟩

theorem sameShape_set_of_file {old : String} {locked : Bool}
    (h : fs.node? loc = some (.file old locked)) (text : String) :
    SameShape fs (fs.set loc (.file text locked)) := by
  intro other
  by_cases hother : other = loc
  · rw [hother, node?_set_self, h]
    rfl
  · rw [node?_set_of_ne fs _ hother]

/-! ### Opening a file -/

section Open

variable {cwd path : String}

theorem openNew_eq_ok_iff : fs.openNew cwd path = .ok loc ↔
    path ≠ "" ∧ pathIsTooLong path = false ∧ Path.endsInSlash path = false ∧
      ∃ left, fs.walkOn .mayBeNew maxLinks (startOf cwd path) (walkNames path) =
        .ok (loc, left) := by
  by_cases hempty : path = ""
  · simp [openNew, hempty]
  cases hlong : pathIsTooLong path with
  | true => simp [openNew, hempty, hlong]
  | false =>
    cases hslash : Path.endsInSlash path with
    | true =>
      -- A slash at the end is refused, whatever stands there.
      have hrefused : ∀ loc, fs.openNew cwd path ≠ .ok loc := by
        intro loc
        simp only [openNew, hempty, hlong, hslash, if_false, if_true, Bool.false_eq_true]
        cases (walkNames path).getLast? with
        | none => simp
        | some name =>
          cases fs.walkFrom .followLink (startOf cwd path) (walkNames path).dropLast with
          | error errno => simp [bind, Except.bind]
          | ok parent =>
            simp only [bind, Except.bind]
            split <;> simp
      simp [hrefused]
    | false =>
      have hopen : fs.openNew cwd path =
          (fs.walkOn .mayBeNew maxLinks (startOf cwd path) (walkNames path)).map (·.1) := by
        simp [openNew, hempty, hlong, hslash, walkFrom]
      rw [hopen]
      cases fs.walkOn .mayBeNew maxLinks (startOf cwd path) (walkNames path) with
      | error errno => simp [Except.map]
      | ok reached => simp [Except.map, hempty, Prod.ext_iff]

/-- **A file is opened at the same place in a larger file system**, unless a link stands there
now. -/
theorem Grows.openNew_eq_ok (h : Grows fs fs') (hopen : fs.openNew cwd path = .ok loc)
    (hlink : ∀ target, fs'.node? loc ≠ some (.link target)) : fs'.openNew cwd path = .ok loc := by
  obtain ⟨hne, hshort, hslash, left, hwalk⟩ := openNew_eq_ok_iff.1 hopen
  refine openNew_eq_ok_iff.2 ⟨hne, hshort, hslash, left, ?_⟩
  have hwalks := h.walksOn .mayBeNew maxLinks (startOf cwd path) (walkNames path)
  rw [hwalk] at hwalks
  generalize fs'.walkOn .mayBeNew maxLinks (startOf cwd path) (walkNames path) = outcome at hwalks ⊢
  cases hwalks with
  | same => rfl
  | new _ _ houtcome => exact houtcome hlink

theorem grows_of_update {change : String → String} {after : FileSystem}
    (h : fs.update cwd path change = .ok (after, loc)) : Grows fs after := by
  obtain ⟨-, hnone | ⟨old, hfile⟩, text, rfl⟩ := update_eq_ok h
  · exact grows_set_of_none hnone _
  · exact (sameShape_set_of_file hfile text).grows

end Open

/-! ### Making directories -/

/-- Directories are made along names from a place, and nothing else is changed. -/
structure MakesAlong (fs : FileSystem) (links : Nat) (here : Location) (names : List String)
    (result : Made) : Prop where
  /-- Where no directory is made everything is as before. -/
  other : ∀ loc ∉ result.made, result.disk.node? loc = fs.node? loc
  /-- A directory is made where nothing stood. -/
  new : ∀ loc ∈ result.made, fs.node? loc = none ∧
    result.disk.node? loc = some (.directory false)
  /-- A part of the names leads to it. -/
  named : ∀ loc ∈ result.made, ∃ n left,
    result.disk.walkOn .followLink links here (names.take n) = .ok (loc, left)

namespace MakesAlong

variable {links links' : Nat} {here arrived : Location} {name : String}
  {names more : List String} {result : Made}

theorem grows (h : MakesAlong fs links here names result) : Grows fs result.disk := by
  intro loc node hnode
  have hold : loc ∉ result.made := fun hmade ↦ by cases hnode.symm.trans (h.new loc hmade).1
  exact ⟨node, (h.other loc hold).trans hnode, rfl⟩

/-- Nothing is done. -/
theorem nothing (outcome : Except Errno Unit) : MakesAlong fs links here names ⟨fs, [], outcome⟩ :=
  ⟨fun _ _ ↦ rfl, fun _ h ↦ absurd h List.not_mem_nil, fun _ h ↦ absurd h List.not_mem_nil⟩

/-- What is done along some names goes on along others, from where the first lead. -/
theorem append {result' : Made} (h : MakesAlong fs links here names result)
    (hwalk : result.disk.walkOn .followLink links here names = .ok (arrived, links'))
    (hmore : MakesAlong result.disk links' arrived more result') :
    MakesAlong fs links here (names ++ more)
      { result' with made := result.made ++ result'.made } := by
  refine ⟨fun loc hold ↦ ?_, fun loc hmade ↦ ?_, fun loc hmade ↦ ?_⟩
  · obtain ⟨hfirst, hlater⟩ := not_or.1 (mt List.mem_append.2 hold)
    exact (hmore.other loc hlater).trans (h.other loc hfirst)
  · rcases List.mem_append.1 hmade with hfirst | hlater
    · exact ⟨(h.new loc hfirst).1, hmore.grows.directory (h.new loc hfirst).2⟩
    · obtain ⟨hbefore, hafter⟩ := hmore.new loc hlater
      refine ⟨?_, hafter⟩
      cases hnode : fs.node? loc with
      | none => rfl
      | some node =>
        obtain ⟨node', hnode', -⟩ := h.grows loc node hnode
        cases hnode'.symm.trans hbefore
  · rcases List.mem_append.1 hmade with hfirst | hlater
    · obtain ⟨n, left, hnamed⟩ := h.named loc hfirst
      refine ⟨min n names.length, left, ?_⟩
      rw [List.take_append_of_le_length (Nat.min_le_right _ _), ← List.take_eq_take_min]
      exact hmore.grows.walkOn_eq_ok (by decide) hnamed
    · obtain ⟨n, left, hnamed⟩ := hmore.named loc hlater
      refine ⟨names.length + n, left, ?_⟩
      rw [List.take_length_add_append, walkOn_append,
        hmore.grows.walkOn_eq_ok (by decide) hwalk]
      exact hnamed

/-- A name leads on to what is done along the others. -/
theorem cons (hwalk : fs.walkOn .followLink links here [name] = .ok (arrived, links'))
    (h : MakesAlong fs links' arrived more result) :
    MakesAlong fs links here (name :: more) result :=
  append (nothing (.ok ())) hwalk h

/-- A directory is made under a name, and more along the other names. -/
theorem consNew (hhere : fs.node? here = some (.directory false)) (hdot : name ≠ ".")
    (hdotDot : name ≠ "..") (hshort : nameIsTooLong name = false)
    (hnone : fs.node? (here ++ [name]) = none)
    (h : MakesAlong (fs.set (here ++ [name]) (.directory false)) links (here ++ [name]) more
      result) :
    MakesAlong fs links here (name :: more)
      { result with made := (here ++ [name]) :: result.made } := by
  have hset := node?_set_self fs (here ++ [name]) (.directory false)
  have hwalk : (fs.set (here ++ [name]) (.directory false)).walkOn .followLink links here [name] =
      .ok (here ++ [name], links) := by
    rw [walkOn_node ((grows_set_of_none hnone _).directory hhere) hdot hdotDot hshort hset
      (by simp), walkOn]
  have hone : MakesAlong fs links here [name]
      ⟨fs.set (here ++ [name]) (.directory false), [here ++ [name]], .ok ()⟩ := by
    refine ⟨fun loc hold ↦ ?_, fun loc hmade ↦ ?_, fun loc hmade ↦ ?_⟩
    · exact node?_set_of_ne fs _ (mt List.mem_singleton.2 hold)
    · rw [List.mem_singleton.1 hmade]
      exact ⟨hnone, hset⟩
    · rw [List.mem_singleton.1 hmade]
      exact ⟨1, links, hwalk⟩
  exact append hone hwalk h

end MakesAlong

/-- **Making directories** makes them along the names, and changes nothing else. -/
theorem makesAlong_makeFrom (fs : FileSystem) (links : Nat) (here : Location)
    (names : List String) : MakesAlong fs links here names (makeFrom fs links here names) := by
  fun_induction makeFrom fs links here names with
  | case1 => exact .nothing _
  | case2 fs links here rest hhere ih =>
    refine .cons ?_ ih
    rw [walkOn_dot hhere, walkOn]
  | case3 fs links here rest hhere _ ih =>
    refine .cons ?_ ih
    rw [walkOn_dotDot hhere, walkOn]
  | case5 fs links here name rest hhere hdot hdotDot hshort next hnone more ih =>
    exact .consNew hhere hdot hdotDot (Bool.of_not_eq_true hshort) hnone ih
  | case7 _ _ _ _ _ _ _ _ _ _ _ _ _ _ hwalk _ ih => exact .cons hwalk ih
  | case4 | case6 | case8 | case9 | case10 => exact .nothing _

end FileSystem

end ResourceLocator
