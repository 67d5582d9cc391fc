import Mathlib.Logic.Relation
import ResourceLocator.Proofs.Path.Containment

/-!
# Containment as an order

One path contains another if its components are the first ones of the other (`contains_iff`), so
containment is the order of lists by their beginnings, read through `Path.resolve`: paths that
contain each other are resolved to the same path, and different names in one directory never contain
each other (`not_contains_of_areSiblings`).

How a path is spelled does not count. `Respelling` is one change of the spelling; each leads to the
same location (`Respelling.locate_eq`), because what it adds are names that stay where they are, or
a name and the way back. The empty path is no path to put something behind: a slash after it would
be the root.
-/

namespace ResourceLocator

namespace Location

variable {path : String}

/-- What stands behind a slash is followed from where the path leads. -/
theorem descend_append_slash (hpath : path ≠ "") (loc : Location) (rest : String) :
    loc.descend (path ++ "/" ++ rest) = (Path.names rest).foldl step (loc.descend path) := by
  have habsolute : Path.isAbsolute (path ++ "/" ++ rest) = Path.isAbsolute path := by
    rw [String.append_assoc, Path.isAbsolute_append_slash hpath]
  rw [descend, descend, Path.names_append_slash, habsolute, List.foldl_append]

/-- A proper name behind a slash leads one step down, also behind the slash of the root. -/
theorem descend_slash_append_name {name : String} (hname : Path.IsName name) (loc : Location)
    (dir : String) : loc.descend (dir ++ "/" ++ name) = loc.descend (dir ++ "/") ++ [name] := by
  have hnames : Path.names (dir ++ "/") = Path.names dir ++ [""] := by
    rw [← Path.names_empty, ← Path.names_append_slash, String.append_empty]
  have habsolute : Path.isAbsolute (dir ++ "/" ++ name) = Path.isAbsolute (dir ++ "/") :=
    Path.isAbsolute_append_slash (by simp) name
  rw [descend, descend, habsolute, hnames, Path.names_append_slash,
    Path.names_of_no_slash hname.no_slash, List.foldl_append, List.foldl_append, List.foldl_cons,
    List.foldl_cons, step_of_isName hname, step_empty]
  rfl

end Location

namespace Path

variable {cwd path other base target another name : String}

/-! ### Spellings -/

/-- One change in the spelling of a path that leads to the same place. -/
inductive Respelling : String → String → Prop where
  /-- A slash is put at the end. -/
  | slash {path : String} (hpath : path ≠ "") : Respelling path (path ++ "/")
  /-- A name that stays is put at the end. -/
  | dot {path : String} (hpath : path ≠ "") : Respelling path (path ++ "/.")
  /-- A name and the way back are put at the end. -/
  | detour {path name : String} (hpath : path ≠ "") (hname : IsName name) :
    Respelling path (path ++ "/" ++ name ++ "/..")
  /-- A slash is doubled. -/
  | double (before after : String) : Respelling (before ++ "/" ++ after) (before ++ "//" ++ after)

/-- **One change of the spelling** leads to the same location, from every other one. -/
theorem Respelling.descend_eq (h : Respelling path other) (loc : Location) :
    loc.descend other = loc.descend path := by
  cases h with
  | slash hpath =>
    have hslash := Location.descend_append_slash hpath loc ""
    rwa [String.append_empty, names_empty, List.foldl_cons, Location.step_empty] at hslash
  | dot hpath =>
    have hdot := Location.descend_append_slash hpath loc "."
    rwa [String.append_assoc, names_of_no_slash (by decide), List.foldl_cons,
      Location.step_dot] at hdot
  | @detour path name hpath hname =>
    have hnames : names (name ++ "/" ++ "..") = [name, ".."] := by
      rw [names_append_slash, names_of_no_slash hname.no_slash, names_of_no_slash (by decide)]
      rfl
    have hspelled : path ++ "/" ++ name ++ "/.." = path ++ "/" ++ (name ++ "/" ++ "..") := by
      simp [String.append_assoc]
    rw [hspelled, Location.descend_append_slash hpath, hnames, List.foldl_cons, List.foldl_cons,
      List.foldl_nil, Location.step_of_isName hname, Location.step_dotDot, List.dropLast_concat]
  | double before after =>
    have hslashes : "//" = "/" ++ "/" := rfl
    have hspelled : before ++ "//" ++ after = before ++ "/" ++ ("/" ++ after) := by
      rw [hslashes]
      simp only [String.append_assoc]
    have hne : before ++ "/" ≠ "" := by simp
    have habsolute : isAbsolute (before ++ "/" ++ ("/" ++ after)) =
        isAbsolute (before ++ "/" ++ after) := by
      rw [isAbsolute_append_slash hne, isAbsolute_append_slash hne]
    rw [hspelled, Location.descend, Location.descend, habsolute, names_append_slash,
      names_append_slash, names_slash_append, List.foldl_append, List.foldl_append,
      List.foldl_cons, Location.step_empty]

/-- **Changes of the spelling**, made or taken back, change nothing about what is resolved. -/
theorem resolve_eq_of_respelled (h : Relation.EqvGen Respelling path other) (cwd : String) :
    resolve cwd [other] = resolve cwd [path] := by
  -- What one change leaves as it is factors through the quotient by all of them.
  have hstep : ∀ path other, Respelling path other → resolve cwd [path] = resolve cwd [other] :=
    fun _ _ hrespelled ↦ congrArg Location.toPath (hrespelled.descend_eq _).symm
  exact (congrArg (Quot.lift (fun path ↦ resolve cwd [path]) hstep) (Quot.eqvGen_sound h)).symm

/-- What is contained depends on what is resolved. -/
theorem contains_congr (hbase : resolve cwd [other] = resolve cwd [base])
    (htarget : resolve cwd [another] = resolve cwd [target]) :
    contains cwd other another = contains cwd base target := by
  rw [contains, contains, hbase, htarget]

/-! ### The order -/

/-- Paths contain each other if and only if they are resolved to the same path. -/
theorem contains_antisymm_iff : contains cwd base target = true ∧ contains cwd target base = true ↔
    resolve cwd [base] = resolve cwd [target] := by
  rw [contains_iff, contains_iff]
  constructor
  · rintro ⟨hbelow, habove⟩
    have hsame := hbelow.eq_of_length (Nat.le_antisymm hbelow.length_le habove.length_le)
    rw [components_resolve, components_resolve] at hsame
    exact congrArg Location.toPath hsame
  · intro hsame
    rw [hsame]
    exact ⟨List.prefix_rfl, List.prefix_rfl⟩

/-- Two paths lead to different names in one directory. -/
def AreSiblings (cwd path other : String) : Prop :=
  ∃ (dir : List String) (name another : String), name ≠ another ∧
    components (resolve cwd [path]) = dir ++ [name] ∧
    components (resolve cwd [other]) = dir ++ [another]

theorem AreSiblings.symm (h : AreSiblings cwd path other) : AreSiblings cwd other path := by
  obtain ⟨dir, name, another, hne, hpath, hother⟩ := h
  exact ⟨dir, another, name, hne.symm, hother, hpath⟩

/-- Different names behind one directory are siblings, however the directory is spelled. -/
theorem areSiblings_of_isName (hname : IsName name) (hother : IsName other) (hne : name ≠ other)
    (cwd dir : String) : AreSiblings cwd (dir ++ "/" ++ name) (dir ++ "/" ++ other) := by
  have hcomponents : ∀ {name}, IsName name →
      components (resolve cwd [dir ++ "/" ++ name]) = locate cwd [dir ++ "/"] ++ [name] := by
    intro name hname
    rw [components_resolve]
    exact Location.descend_slash_append_name hname _ dir
  exact ⟨_, name, other, hne, hcomponents hname, hcomponents hother⟩

/-- **Siblings do not contain each other**, whatever their names have in common. -/
theorem not_contains_of_areSiblings (h : AreSiblings cwd path other) :
    contains cwd path other = false := by
  obtain ⟨dir, name, another, hne, hpath, hother⟩ := h
  refine Bool.eq_false_iff.2 fun hcontains ↦ hne ?_
  rw [contains_iff, hpath, hother] at hcontains
  have hsame := hcontains.eq_of_length (by simp)
  exact List.singleton_inj.1 (List.append_cancel_left hsame)

example : contains "/" "/home/project" "/home/project-other" = false := by decide

/-- **Containment is the order of the components**, both paths resolved: the components of the base
come first among those of the target. So every path contains itself, what is contained in something
contained is contained, and only paths that are resolved alike contain each other. The root contains
everything; siblings, as different names behind one directory are, never contain each other, and
spellings do not count. -/
theorem contains_orders_components (cwd : String) :
    (∀ base target, contains cwd base target = true ↔
      components (resolve cwd [base]) <+: components (resolve cwd [target])) ∧
    (∀ path, contains cwd path path = true) ∧
    (∀ path mid target, contains cwd path mid = true → contains cwd mid target = true →
      contains cwd path target = true) ∧
    (∀ path other, contains cwd path other = true ∧ contains cwd other path = true ↔
      resolve cwd [path] = resolve cwd [other]) ∧
    (∀ path, contains cwd "/" path = true) ∧
    (∀ path other, AreSiblings cwd path other →
      contains cwd path other = false ∧ contains cwd other path = false) ∧
    (∀ dir name other, IsName name → IsName other → name ≠ other →
      AreSiblings cwd (dir ++ "/" ++ name) (dir ++ "/" ++ other)) ∧
    ∀ base other target another, Relation.EqvGen Respelling base other →
      Relation.EqvGen Respelling target another →
      contains cwd other another = contains cwd base target := by
  refine ⟨fun _ _ ↦ contains_iff, fun path ↦ ?_, fun path mid target hmid htarget ↦ ?_,
    fun _ _ ↦ contains_antisymm_iff, fun path ↦ ?_, fun path other h ↦ ?_,
    fun dir name other hname hother hne ↦ areSiblings_of_isName hname hother hne cwd dir,
    fun base other target another hbase htarget ↦ ?_⟩
  · exact contains_iff.2 List.prefix_rfl
  · exact contains_iff.2 ((contains_iff.1 hmid).trans (contains_iff.1 htarget))
  · have hroot : components (resolve cwd ["/"]) = [] := by
      rw [components_resolve, locate_of_isAbsolute (by decide)]
      rfl
    rw [contains_iff, hroot]
    exact List.nil_prefix
  · exact ⟨not_contains_of_areSiblings h, not_contains_of_areSiblings h.symm⟩
  · exact contains_congr (resolve_eq_of_respelled hbase cwd) (resolve_eq_of_respelled htarget cwd)

end Path

end ResourceLocator
