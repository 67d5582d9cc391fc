import ResourceLocator.FileSystem.Edit
import ResourceLocator.Proofs.FileSystem.Growth

/-!
# File systems that differ in texts and locks

What stands where is the *layout* of a file system: its directories, files and links, whatever the
files hold and whatever is locked (`SameLayout`). A lock can end a walk, and it cannot lead it
elsewhere. So two walks along the same names that both end well come to the same place
(`SameLayout.eq_of_walkOn`), and a path at which a file can be opened at two moments leads to one
location, as long as nothing but texts and locks is changed in between.

`FileSystem.text?` is the view of a file system that is left when its locks are forgotten and only
files count. Locks do not change it (`text?_setLock`), and neither does the making of directories
(`MakesAlong.text?_eq`); a call that writes changes it at one location (`eq_set_of_update`).
-/

namespace ResourceLocator

/-- A node, whatever text a file has and whether or not anything is locked. -/
def Node.kind : Node → Node
  | .directory _ => .directory false
  | .file _ _ => .file "" false
  | .link target => .link target

namespace Node

variable {node : Node}

theorem exists_directory_of_kind (h : node.kind = .directory false) :
    ∃ locked, node = .directory locked := by
  cases node with
  | directory locked => exact ⟨locked, rfl⟩
  | file => cases h
  | link => cases h

theorem eq_link_of_kind {target : String} (h : node.kind = .link target) : node = .link target := by
  cases node <;> first | exact h | cases h

end Node

namespace FileSystem

variable {fs fs' fs'' : FileSystem} {loc other : Location}

/-- The text of the file at a location, if one stands there. -/
def text? (fs : FileSystem) (loc : Location) : Option String :=
  match fs.node? loc with
  | some (.file text _) => some text
  | _ => none

theorem text?_eq_some_iff {text : String} :
    fs.text? loc = some text ↔ ∃ locked, fs.node? loc = some (.file text locked) := by
  unfold text?
  split
  · next old locked hfile => simp [hfile]
  · next hfile =>
    simp only [reduceCtorEq, false_iff]
    rintro ⟨locked, hnode⟩
    exact hfile text locked hnode

theorem text?_of_node? {text : String} {locked : Bool}
    (h : fs.node? loc = some (.file text locked)) : fs.text? loc = some text :=
  text?_eq_some_iff.2 ⟨locked, h⟩

theorem text?_congr (h : fs'.node? loc = fs.node? loc) : fs'.text? loc = fs.text? loc := by
  rw [text?, text?, h]

/-! ### Layouts -/

/-- The same directories, files and links stand at the same locations. -/
def SameLayout (fs fs' : FileSystem) : Prop :=
  ∀ loc, (fs'.node? loc).map Node.kind = (fs.node? loc).map Node.kind

namespace SameLayout

theorem refl (fs : FileSystem) : SameLayout fs fs := fun _ ↦ rfl

theorem trans (h : SameLayout fs fs') (h' : SameLayout fs' fs'') : SameLayout fs fs'' :=
  fun loc ↦ (h' loc).trans (h loc)

theorem node?_eq_none (h : SameLayout fs fs') (hnone : fs.node? loc = none) :
    fs'.node? loc = none := by
  have hkind := h loc
  rw [hnone] at hkind
  exact Option.map_eq_none_iff.1 hkind

theorem exists_node (h : SameLayout fs fs') {node : Node} (hnode : fs.node? loc = some node) :
    ∃ node', fs'.node? loc = some node' ∧ node'.kind = node.kind := by
  have hkind := h loc
  rw [hnode] at hkind
  exact Option.map_eq_some_iff.1 hkind

theorem directory (h : SameLayout fs fs') {locked : Bool}
    (hnode : fs.node? loc = some (.directory locked)) :
    ∃ locked', fs'.node? loc = some (.directory locked') := by
  obtain ⟨node', hnode', hkind⟩ := h.exists_node hnode
  obtain ⟨locked', rfl⟩ := Node.exists_directory_of_kind hkind
  exact ⟨locked', hnode'⟩

theorem link (h : SameLayout fs fs') {target : String}
    (hnode : fs.node? loc = some (.link target)) : fs'.node? loc = some (.link target) := by
  obtain ⟨node', hnode', hkind⟩ := h.exists_node hnode
  rw [hnode', Node.eq_link_of_kind hkind]

end SameLayout

section Walk

variable {last : LastName} {links : Nat} {here : Location} {name : String} {names : List String}
  {reached reached' : Location × Nat}

/-- A walk that ends well does not begin in a locked directory. -/
theorem unlocked_of_walkOn {locked : Bool} (hhere : fs.node? here = some (.directory locked))
    (h : fs.walkOn last links here (name :: names) = .ok reached) :
    fs.node? here = some (.directory false) := by
  cases locked with
  | false => exact hhere
  | true =>
    rw [walkOn, hhere] at h
    cases h

/-- **Two walks that end well come to the same place**, if nothing but texts and locks differs. -/
theorem SameLayout.eq_of_walkOn (h : SameLayout fs fs')
    (hwalk : fs.walkOn last links here names = .ok reached)
    (hwalk' : fs'.walkOn last links here names = .ok reached') : reached' = reached := by
  -- The second walk is followed along the cases of the first.
  have hopen : ∀ {links here name names locked}, fs.node? here = some (.directory locked) →
      fs'.walkOn last links here (name :: names) = .ok reached' →
      fs'.node? here = some (.directory false) := fun hhere hwalk' ↦ by
    obtain ⟨locked', hhere'⟩ := h.directory hhere
    exact unlocked_of_walkOn hhere' hwalk'
  fun_induction walkOn fs last links here names with
  | case1 =>
    rw [walkOn] at hwalk'
    exact Except.ok.inj (hwalk'.symm.trans hwalk)
  | case3 links here names _ hhere _ ih =>
    rw [walkOn_dot (hopen hhere hwalk')] at hwalk'
    exact ih hwalk hwalk'
  | case4 links here names _ hhere _ _ ih =>
    rw [walkOn_dotDot (hopen hhere hwalk')] at hwalk'
    exact ih hwalk hwalk'
  | case6 links here name names _ hhere _ hdot hdotDot hshort next hnext hnew =>
    have hhere' := hopen hhere hwalk'
    have hnext' : fs'.node? (here ++ [name]) = none := h.node?_eq_none hnext
    rw [walkOn, hhere'] at hwalk'
    simp only [Bool.false_eq_true, if_false, hdot, hdotDot, hshort, hnext', if_pos hnew] at hwalk'
    exact Except.ok.inj (hwalk'.symm.trans hwalk)
  | case8 links here name names _ hhere _ hdot hdotDot hshort next target hnext hkeep =>
    have hhere' := hopen hhere hwalk'
    have hnext' : fs'.node? (here ++ [name]) = some (.link target) := h.link hnext
    rw [walkOn, hhere'] at hwalk'
    simp only [Bool.false_eq_true, if_false, hdot, hdotDot, hshort, hnext', if_pos hkeep] at hwalk'
    exact Except.ok.inj (hwalk'.symm.trans hwalk)
  | case10 here name names _ hhere _ hdot hdotDot hshort next target hnext hkeep links ih =>
    have hhere' := hopen hhere hwalk'
    have hnext' : fs'.node? (here ++ [name]) = some (.link target) := h.link hnext
    rw [walkOn.eq_def _ _ (links + 1), hhere'] at hwalk'
    simp only [Bool.false_eq_true, if_false, hdot, hdotDot, hshort, hnext', if_neg hkeep] at hwalk'
    exact ih hwalk hwalk'
  | case11 links here name names _ hhere _ hdot hdotDot hshort next node hlink hnext ih =>
    obtain ⟨node', hnext', hkind⟩ := h.exists_node hnext
    have hlink' : ∀ target, node' ≠ .link target := by
      rintro target rfl
      exact hlink target (Node.eq_link_of_kind hkind.symm)
    rw [walkOn_node (hopen hhere hwalk') hdot hdotDot (Bool.of_not_eq_true hshort) hnext' hlink']
      at hwalk'
    exact ih hwalk hwalk'
  | case2 | case5 | case7 | case9 | case12 => cases hwalk

/-- **A path at which a file can be opened leads to one location.** -/
theorem SameLayout.eq_of_openNew {cwd path : String} (h : SameLayout fs fs')
    (hopen : fs.openNew cwd path = .ok loc) (hopen' : fs'.openNew cwd path = .ok other) :
    other = loc := by
  obtain ⟨-, -, -, left, hwalk⟩ := openNew_eq_ok_iff.1 hopen
  obtain ⟨-, -, -, left', hwalk'⟩ := openNew_eq_ok_iff.1 hopen'
  exact congrArg Prod.fst (h.eq_of_walkOn hwalk hwalk')

end Walk

/-! ### Locks -/

/-- Locks change neither the layout nor a text. -/
theorem node?_setLock (fs : FileSystem) (locked : Bool) (loc other : Location) :
    (fs.setLock locked loc).node? other = fs.node? other ∨
      ∃ node, fs.node? other = some node ∧ ∃ node',
        (fs.setLock locked loc).node? other = some node' ∧ node'.kind = node.kind ∧
          ∀ text old, node = .file text old → node' = .file text locked := by
  by_cases hother : other = loc
  · subst hother
    unfold setLock
    split
    · next hnode =>
      exact .inr ⟨_, hnode, _, node?_set_self .., rfl, fun _ _ h ↦ by cases h⟩
    · next hnode =>
      exact .inr ⟨_, hnode, _, node?_set_self .., rfl, fun _ _ h ↦ by cases h; rfl⟩
    · exact .inl rfl
  · left
    unfold setLock
    split
    · exact node?_set_of_ne fs _ hother
    · exact node?_set_of_ne fs _ hother
    · rfl

theorem sameLayout_setLock (fs : FileSystem) (locked : Bool) (loc : Location) :
    SameLayout fs (fs.setLock locked loc) := by
  intro other
  rcases node?_setLock fs locked loc other with hsame | ⟨node, hnode, node', hnode', hkind, -⟩
  · rw [hsame]
  · rw [hnode, hnode', Option.map_some, Option.map_some, hkind]

/-- **Locks change no text.** -/
theorem text?_setLock (fs : FileSystem) (locked : Bool) (loc other : Location) :
    (fs.setLock locked loc).text? other = fs.text? other := by
  rcases node?_setLock fs locked loc other with hsame | ⟨node, hnode, node', hnode', hkind, hfile⟩
  · exact text?_congr hsame
  · rw [text?, text?, hnode, hnode']
    cases node with
    | file text old => rw [hfile text old rfl]
    | directory =>
      obtain ⟨locked', rfl⟩ := Node.exists_directory_of_kind hkind
      rfl
    | link target => rw [Node.eq_link_of_kind hkind]

/-! ### Calls that write -/

/-- A file has a text of its own. -/
theorem text?_set_self (fs : FileSystem) (loc : Location) (text : String) (locked : Bool) :
    (fs.set loc (.file text locked)).text? loc = some text :=
  text?_of_node? (node?_set_self ..)

theorem text?_set_of_ne (fs : FileSystem) (node : Node) (h : other ≠ loc) :
    (fs.set loc node).text? other = fs.text? other :=
  text?_congr (node?_set_of_ne fs node h)

/-- **What a call that writes puts into a file** is made from the text that is there. -/
theorem eq_set_of_update {cwd path : String} {change : String → String} {after : FileSystem}
    (h : fs.update cwd path change = .ok (after, loc)) :
    fs.openNew cwd path = .ok loc ∧
      after = fs.set loc (.file (change ((fs.text? loc).getD "")) false) := by
  unfold update at h
  cases hopen : fs.openNew cwd path with
  | error errno => simp [hopen, asCall, failing, bind, Except.bind] at h
  | ok place =>
    simp only [hopen, asCall, bind, Except.bind] at h
    split at h
    · next hnone =>
      obtain ⟨rfl, rfl⟩ := Prod.mk.inj (Except.ok.inj h)
      refine ⟨rfl, ?_⟩
      rw [text?, hnone]
      rfl
    · next old hfile =>
      obtain ⟨rfl, rfl⟩ := Prod.mk.inj (Except.ok.inj h)
      refine ⟨rfl, ?_⟩
      rw [text?_of_node? hfile]
      rfl
    all_goals cases h

/-- A file that is open can be written to. -/
theorem update_of_file {cwd path old : String} (change : String → String)
    (hopen : fs.openNew cwd path = .ok loc) (hfile : fs.node? loc = some (.file old false)) :
    fs.update cwd path change = .ok (fs.set loc (.file (change old) false), loc) := by
  rw [update, hopen]
  simp only [asCall, bind, Except.bind, hfile]
  rfl

/-- To put another text into a file is no change of the layout. -/
theorem sameLayout_set_of_text? {text : String} (h : fs.text? loc = some text) (new : String) :
    SameLayout fs (fs.set loc (.file new false)) := by
  obtain ⟨locked, hfile⟩ := text?_eq_some_iff.1 h
  intro other
  by_cases hother : other = loc
  · rw [hother, node?_set_self, hfile]
    rfl
  · rw [node?_set_of_ne fs _ hother]

/-- **The making of directories changes no text.** -/
theorem MakesAlong.text?_eq {links : Nat} {here : Location} {names : List String} {result : Made}
    (h : MakesAlong fs links here names result) (loc : Location) :
    result.disk.text? loc = fs.text? loc := by
  by_cases hmade : loc ∈ result.made
  · obtain ⟨hbefore, hafter⟩ := h.new loc hmade
    rw [text?, text?, hbefore, hafter]
  · exact text?_congr (h.other loc hmade)

end FileSystem

end ResourceLocator
