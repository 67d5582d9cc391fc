import ResourceLocator.FileSystem.Write
import ResourceLocator.Proofs.FileSystem.Realpath
import ResourceLocator.Proofs.Probe

/-!
# File systems that differ in files alone

A directory is found through directories and links, and never through a file. So two file systems
with the same directories and the same links have the same paths to a directory
(`SameWays.leadsToDirectory_eq`), whatever files they have.

Putting a text after what a file holds makes or changes one file, and leaves all directories and
links as they are (`sameWays_of_append`). A log that is kept in a file is therefore no matter for
the question whether a path leads to a directory, not even when the path goes over the log.
-/

namespace ResourceLocator

/-- Whether a walk can go on from a node. -/
def Node.isWay : Node → Bool
  | .directory _ => true
  | .link _ => true
  | .file _ _ => false

namespace FileSystem

variable {fs fs' : FileSystem} {cwd path : String}

/-- The same directories and links stand at the same locations. -/
def SameWays (fs fs' : FileSystem) : Prop :=
  ∀ loc node, Node.isWay node = true → (fs.node? loc = some node ↔ fs'.node? loc = some node)

theorem SameWays.refl (fs : FileSystem) : SameWays fs fs := fun _ _ _ ↦ Iff.rfl

theorem SameWays.symm (h : SameWays fs fs') : SameWays fs' fs :=
  fun loc node hway ↦ (h loc node hway).symm

theorem SameWays.trans {fs'' : FileSystem} (h : SameWays fs fs') (h' : SameWays fs' fs'') :
    SameWays fs fs'' :=
  fun loc node hway ↦ (h loc node hway).trans (h' loc node hway)

/-! ### Paths to a directory -/

section Walk

variable {last : LastName} {links rest : Nat} {here loc : Location} {name target : String}
  {names : List String} {node : Node} {locked : Bool}

theorem walkOn_dot (hhere : fs.node? here = some (.directory false)) :
    fs.walkOn last links here ("." :: names) = fs.walkOn last links here names := by
  rw [walkOn, hhere]
  rfl

theorem walkOn_dotDot (hhere : fs.node? here = some (.directory false)) :
    fs.walkOn last links here (".." :: names) = fs.walkOn last links here.dropLast names := by
  rw [walkOn, hhere]
  rfl

theorem walkOn_link (hhere : fs.node? here = some (.directory false)) (hdot : name ≠ ".")
    (hdotDot : name ≠ "..") (hshort : nameIsTooLong name = false)
    (hnext : fs.node? (here ++ [name]) = some (.link target)) :
    fs.walkOn .followLink (links + 1) here (name :: names) =
      fs.walkOn .followLink links (if Path.isAbsolute target then [] else here)
        (walkNames target ++ names) := by
  rw [walkOn, hhere]
  simp [hdot, hdotDot, hshort, hnext]

theorem walkOn_node (hhere : fs.node? here = some (.directory false)) (hdot : name ≠ ".")
    (hdotDot : name ≠ "..") (hshort : nameIsTooLong name = false)
    (hnext : fs.node? (here ++ [name]) = some node) (hlink : ∀ target, node ≠ .link target) :
    fs.walkOn last links here (name :: names) = fs.walkOn last links (here ++ [name]) names := by
  rw [walkOn, hhere]
  cases node with
  | link target => exact absurd rfl (hlink target)
  | directory => simp [hdot, hdotDot, hshort, hnext]
  | file => simp [hdot, hdotDot, hshort, hnext]

theorem walkOn_missing (hhere : fs.node? here = some (.directory false)) (hdot : name ≠ ".")
    (hdotDot : name ≠ "..") (hshort : nameIsTooLong name = false)
    (hnext : fs.node? (here ++ [name]) = none) :
    fs.walkOn .followLink links here (name :: names) = .error .missing := by
  rw [walkOn, hhere]
  simp [hdot, hdotDot, hshort, hnext]

/-- No walk goes on from a file. -/
theorem eq_of_walkOn_of_file {text : String} (hhere : fs.node? here = some (.file text locked))
    (h : fs.walkOn last links here names = .ok (loc, rest)) : loc = here := by
  cases names with
  | nil =>
    rw [walkOn] at h
    exact (Prod.mk.inj (Except.ok.inj h)).1.symm
  | cons name names =>
    rw [walkOn, hhere] at h
    cases h

/-- **A walk that ends in a directory meets nothing but directories and links**, and is the same
where those are the same. -/
theorem SameWays.walkOn_eq (hways : SameWays fs fs')
    (h : fs.walkOn .followLink links here names = .ok (loc, rest))
    (hloc : fs.node? loc = some (.directory locked)) :
    fs'.walkOn .followLink links here names = .ok (loc, rest) := by
  fun_induction walkOn fs .followLink links here names with
  | case1 =>
    rw [walkOn]
    exact h
  | case3 links here names _ hhere hlocked ih =>
    rw [Bool.of_not_eq_true hlocked] at hhere
    rw [walkOn_dot ((hways _ _ rfl).1 hhere)]
    exact ih h
  | case4 links here names _ hhere hlocked _ ih =>
    rw [Bool.of_not_eq_true hlocked] at hhere
    rw [walkOn_dotDot ((hways _ _ rfl).1 hhere)]
    exact ih h
  | case10 here name names _ hhere hlocked hdot hdotDot hshort next target hnext _ links ih =>
    rw [Bool.of_not_eq_true hlocked] at hhere
    rw [walkOn_link ((hways _ _ rfl).1 hhere) hdot hdotDot (Bool.of_not_eq_true hshort)
      ((hways _ _ rfl).1 hnext)]
    exact ih h
  | case11 links here name names _ hhere hlocked hdot hdotDot hshort next node hlink hnext ih =>
    -- A file would be where the walk ends.
    have hway : node.isWay = true := by
      cases node with
      | file text _ =>
        rw [eq_of_walkOn_of_file hnext h, hnext] at hloc
        cases hloc
      | directory => rfl
      | link => rfl
    rw [Bool.of_not_eq_true hlocked] at hhere
    rw [walkOn_node ((hways _ _ rfl).1 hhere) hdot hdotDot (Bool.of_not_eq_true hshort)
      ((hways _ _ hway).1 hnext) hlink]
    exact ih h
  | case6 _ _ _ _ _ _ _ _ _ _ _ _ hnew => exact absurd hnew.2 (by decide)
  | case8 _ _ _ _ _ _ _ _ _ _ _ _ _ hkeep => exact absurd hkeep.2 (by decide)
  | case2 | case5 | case7 | case9 | case12 => cases h

theorem exists_walkOn_of_walk (h : fs.walk cwd .followLink path = .ok loc) :
    path ≠ "" ∧ pathIsTooLong path = false ∧
      ∃ rest, fs.walkOn .followLink maxLinks (startOf cwd path) (walkNames path) =
        .ok (loc, rest) := by
  by_cases hempty : path = ""
  · simp [walk, hempty] at h
  cases hlong : pathIsTooLong path with
  | true => simp [walk, hempty, hlong] at h
  | false =>
    cases hrun : fs.walkOn .followLink maxLinks (startOf cwd path) (walkNames path) with
    | error errno => simp [walk, walkFrom, hempty, hlong, hrun, Except.map, bind, Except.bind] at h
    | ok reached =>
      obtain ⟨place, rest⟩ := reached
      simp only [walk, walkFrom, hempty, hlong, hrun, Except.map, bind, Except.bind, ite_self,
        if_false, Bool.false_eq_true] at h
      split at h
      · cases h
      · obtain rfl : place = loc := Except.ok.inj h
        exact ⟨hempty, rfl, rest, rfl⟩

theorem walk_of_walkOn (hne : path ≠ "") (hshort : pathIsTooLong path = false)
    (hrun : fs.walkOn .followLink maxLinks (startOf cwd path) (walkNames path) = .ok (loc, rest))
    (hdir : fs.isDirectoryAt loc = true) : fs.walk cwd .followLink path = .ok loc := by
  simp [walk, walkFrom, hne, hshort, hrun, hdir, Except.map, bind, Except.bind]
  rfl

/-- A path that does not end in a slash is walked name by name, and that is all. -/
theorem walk_of_no_slash (hne : path ≠ "") (hshort : pathIsTooLong path = false)
    (hslash : Path.endsInSlash path = false) :
    fs.walk cwd last path =
      (fs.walkOn last maxLinks (startOf cwd path) (walkNames path)).map (·.1) := by
  simp only [walk, walkFrom, hne, hshort, hslash, if_false, Bool.false_eq_true, Bool.false_and]
  exact bind_pure _

end Walk

/-- A path that leads to a directory leads to it whatever files there are. -/
theorem SameWays.stat_eq {locked : Bool} (hways : SameWays fs fs')
    (h : fs.stat cwd path = .ok (.directory locked)) :
    fs'.stat cwd path = .ok (.directory locked) := by
  obtain ⟨loc, hwalk, hloc⟩ := stat_eq_ok_iff.1 h
  obtain ⟨hne, hshort, rest, hrun⟩ := exists_walkOn_of_walk hwalk
  have hloc' := (hways loc _ rfl).1 hloc
  have hdir : fs'.isDirectoryAt loc = true := by rw [isDirectoryAt, hloc']
  have hwalk' := walk_of_walkOn hne hshort (hways.walkOn_eq hrun hloc) hdir
  exact stat_eq_ok_iff.2 ⟨loc, hwalk', hloc'⟩

/-- **Which paths lead to a directory does not depend on files.** -/
theorem SameWays.leadsToDirectory_eq (hways : SameWays fs fs') (cwd path : String) :
    fs'.leadsToDirectory cwd path = fs.leadsToDirectory cwd path := by
  rw [Bool.eq_iff_iff, leadsToDirectory_iff, leadsToDirectory_iff]
  refine and_congr_right fun _ ↦ exists_congr fun locked ↦ ?_
  exact ⟨fun h ↦ hways.symm.stat_eq h, fun h ↦ hways.stat_eq h⟩

/-! ### Calls that write -/

/-- Putting a file in the place of a file or of nothing changes no directory and no link. -/
theorem sameWays_set {loc : Location} {text : String} {locked : Bool}
    (h : ∀ node, fs.node? loc = some node → Node.isWay node = false) :
    SameWays fs (fs.set loc (.file text locked)) := by
  intro other node hway
  by_cases hother : other = loc
  · subst hother
    rw [node?_set_self]
    refine ⟨fun hnode ↦ ?_, fun hnode ↦ ?_⟩
    · rw [h node hnode] at hway
      cases hway
    · obtain rfl := Option.some.inj hnode
      cases hway
  · rw [node?_set_of_ne fs _ hother]

/-- **What a call that writes does**: it puts one file where the path leads, in the place of a file
that is not locked or of nothing. -/
theorem update_eq_ok {change : String → String} {after : FileSystem} {loc : Location}
    (h : fs.update cwd path change = .ok (after, loc)) :
    fs.openNew cwd path = .ok loc ∧
      (fs.node? loc = none ∨ ∃ old, fs.node? loc = some (.file old false)) ∧
      ∃ text, after = fs.set loc (.file text false) := by
  unfold update at h
  cases hopen : fs.openNew cwd path with
  | error errno => simp [hopen, asCall, failing, bind, Except.bind] at h
  | ok place =>
    simp only [hopen, asCall, bind, Except.bind] at h
    split at h
    · next hnone =>
      obtain ⟨rfl, rfl⟩ := Prod.mk.inj (Except.ok.inj h)
      exact ⟨rfl, .inl hnone, _, rfl⟩
    · next old hfile =>
      obtain ⟨rfl, rfl⟩ := Prod.mk.inj (Except.ok.inj h)
      exact ⟨rfl, .inr ⟨old, hfile⟩, _, rfl⟩
    all_goals cases h

theorem sameWays_of_update {change : String → String} {after : FileSystem} {loc : Location}
    (h : fs.update cwd path change = .ok (after, loc)) : SameWays fs after := by
  obtain ⟨-, hbefore, text, rfl⟩ := update_eq_ok h
  refine sameWays_set fun node hnode ↦ ?_
  rcases hbefore with hnone | ⟨old, hfile⟩
  · cases hnone.symm.trans hnode
  · cases hfile.symm.trans hnode
    rfl

/-- **Putting a text after what a file holds leaves the ways as they are.** -/
theorem sameWays_of_append {text : String} {after : FileSystem} {loc : Location}
    (h : fs.append cwd path text = .ok (after, loc)) : SameWays fs after :=
  sameWays_of_update h

end FileSystem

end ResourceLocator
