import Mathlib.Logic.Basic
import ResourceLocator.Proofs.Locate.Scan
import ResourceLocator.Proofs.Path.Containment
import ResourceLocator.Proofs.Session.Recorded

/-!
# How a lookup goes

A lookup *passes over* a directory when the name stays inside it and the file that is asked for
there is not one. It ends at the first directory that is not passed over, in one of three ways, or
when the search path is exhausted (`LookupEnd`). This is shown for a capability that may do anything
(`goes`), with every question recorded, by induction on the search path: what is recorded of a
directory that is passed over stands before what is recorded of the rest.

Which names stay inside a directory is a question of components (`isInside_iff`), so that no
question is asked and no file is found outside.
-/

namespace ResourceLocator.Resource

variable {cwd name dir : String} {searchPath : List String} {isFile : String → Session Bool}
  {w : World} {outcome : Except Failure (Option Resource)} {last : List Exchange}

/-! ### Names that stay inside -/

/-- **A name stays inside a directory** if it is a relative path, not empty, and the components of
the directory come first in those of the joined path. -/
theorem isInside_iff : isInside cwd dir name = true ↔ name ≠ "" ∧ Path.isAbsolute name = false ∧
    Path.components (Path.resolve cwd [dir]) <+:
      Path.components (Path.resolve cwd [Path.join [dir, name]]) := by
  rw [isInside, Bool.and_eq_true, Bool.and_eq_true, decide_eq_true_iff, Bool.not_eq_true',
    Path.contains_iff, and_assoc]

/-- **A name is refused** because it is empty or absolute, or leads out of the directory. -/
theorem isInside_eq_false_iff : isInside cwd dir name = false ↔
    name = "" ∨ Path.isAbsolute name = true ∨
      ¬ Path.components (Path.resolve cwd [dir]) <+:
        Path.components (Path.resolve cwd [Path.join [dir, name]]) := by
  rw [← Bool.not_eq_true, isInside_iff, not_and_or, not_and_or, not_ne_iff, Bool.not_eq_false]

/-! ### The end of a lookup -/

/-- What is recorded when a directory is passed over. -/
def passing (name dir : String) : Exchange := ⟨Path.join [dir, name], .ok false⟩

/-- How a lookup ends: what is left of the search path, what is recorded last, and what it comes
to. -/
inductive LookupEnd (cwd name : String) :
    List String → List Exchange → Except Failure (Option Resource) → Prop where
  /-- No directory is left. -/
  | exhausted : LookupEnd cwd name [] [] (.ok none)
  /-- The next directory refuses the name, and nothing is asked. -/
  | refused {dir : String} {rest : List String} (h : isInside cwd dir name = false) :
    LookupEnd cwd name (dir :: rest) [] (.error (.resourceName name))
  /-- The question about the file in the next directory fails. -/
  | failed {dir : String} {rest : List String} (failure : Failure)
    (h : isInside cwd dir name = true) :
    LookupEnd cwd name (dir :: rest) [⟨Path.join [dir, name], .error failure⟩] (.error failure)
  /-- The next directory has the file. -/
  | found {dir : String} {rest : List String} (h : isInside cwd dir name = true) :
    LookupEnd cwd name (dir :: rest) [⟨Path.join [dir, name], .ok true⟩]
      (.ok (some ⟨name, Path.join [dir, name], dir⟩))

/-- A lookup in a world, with what has been recorded before it: it passes over directories, and
then ends. That it is recorded makes no difference to it. -/
def Goes (cwd name : String) (isFile : String → Session Bool) (searchPath : List String) (w : World)
    (record : List Exchange) : Prop :=
  ∃ passed rest last outcome after, searchPath = passed ++ rest ∧
    (∀ dir ∈ passed, isInside cwd dir name = true) ∧
    (find cwd (Recorded.ask isFile) name searchPath).runIn w record =
      (outcome, after, record ++ (passed.map (passing name) ++ last)) ∧
    (find cwd isFile name searchPath).runIn w = (outcome, after) ∧
    LookupEnd cwd name rest last outcome

/-- A lookup may end before anything is passed over. -/
theorem Goes.of_lookup {record : List Exchange} (after : World)
    (hrecorded : (find cwd (Recorded.ask isFile) name searchPath).runIn w record =
      (outcome, after, record ++ last))
    (hrun : (find cwd isFile name searchPath).runIn w = (outcome, after))
    (hends : LookupEnd cwd name searchPath last outcome) :
    Goes cwd name isFile searchPath w record :=
  ⟨[], searchPath, last, outcome, after, rfl, fun _ hdir ↦ absurd hdir List.not_mem_nil, hrecorded,
    hrun, hends⟩

/-- One more directory may be passed over. -/
theorem Goes.cons {mid : World} {record : List Exchange} (hinside : isInside cwd dir name = true)
    (hasked : (isFile (Path.join [dir, name])).runIn w = (.ok false, mid))
    (h : Goes cwd name isFile searchPath mid (record ++ [passing name dir])) :
    Goes cwd name isFile (dir :: searchPath) w record := by
  obtain ⟨passed, rest, last, outcome, after, hsplit, hpassed, hrecorded, hrun, hends⟩ := h
  rw [List.append_assoc] at hrecorded
  refine ⟨dir :: passed, rest, last, outcome, after, ?_, ?_, ?_, ?_, hends⟩
  · rw [hsplit, List.cons_append]
  · exact List.forall_mem_cons.2 ⟨hinside, hpassed⟩
  · rw [find, hinside]
    exact (Recorded.runIn_ask_bind_of_ok hasked _ record).trans hrecorded
  · rw [find, hinside]
    exact (Session.runIn_bind_of_ok hasked _).trans hrun

/-- **A lookup passes over directories until it ends.** -/
theorem goes (cwd name : String) (isFile : String → Session Bool) (searchPath : List String)
    (w : World) (record : List Exchange) : Goes cwd name isFile searchPath w record := by
  induction searchPath generalizing w record with
  | nil => exact .of_lookup w (by rw [List.append_nil]; rfl) rfl .exhausted
  | cons dir rest ih =>
    cases hinside : isInside cwd dir name with
    | false =>
      refine .of_lookup w ?_ ?_ (.refused hinside)
      · rw [find, hinside, List.append_nil]
        rfl
      · rw [find, hinside]
        rfl
    | true =>
      rcases hasked : (isFile (Path.join [dir, name])).runIn w with ⟨answer, after⟩
      cases answer with
      | error failure =>
        refine .of_lookup after ?_ ?_ (.failed failure hinside)
        · rw [find, hinside]
          exact Recorded.runIn_ask_bind_of_error hasked _ record
        · rw [find, hinside]
          exact Session.runIn_bind_of_error hasked _
      | ok answer => cases answer with
        | true =>
          refine .of_lookup after ?_ ?_ (.found hinside)
          · rw [find, hinside]
            exact Recorded.runIn_ask_bind_of_ok hasked _ record
          · rw [find, hinside]
            exact Session.runIn_bind_of_ok hasked _
        | false => exact .cons hinside hasked (ih after _)

/-! ### What the end says -/

/-- Nothing is found only at the end of the search path. -/
theorem LookupEnd.eq_nil_of_none {rest : List String}
    (h : LookupEnd cwd name rest last (.ok none)) : rest = [] ∧ last = [] := by
  cases h
  exact ⟨rfl, rfl⟩

/-- A lookup that would pass over all that is left has nothing left. -/
theorem LookupEnd.eq_none_of_passing {rest : List String} (h : LookupEnd cwd name rest last outcome)
    (hinside : ∀ dir ∈ rest, isInside cwd dir name = true)
    (hlast : last = rest.map (passing name)) : outcome = .ok none := by
  cases h with
  | exhausted => rfl
  | refused hrefused =>
    exact absurd (hinside _ List.mem_cons_self) (by rw [hrefused]; exact Bool.false_ne_true)
  | failed failure => exact absurd (congrArg List.head? hlast) (by simp [passing])
  | found => exact absurd (congrArg List.head? hlast) (by simp [passing])

/-- The last question is about the file of the next directory, and the name stays inside it. -/
theorem LookupEnd.exists_of_mem {rest : List String} (h : LookupEnd cwd name rest last outcome)
    {exchange : Exchange} (hmem : exchange ∈ last) :
    ∃ dir ∈ rest, exchange.question = Path.join [dir, name] ∧ isInside cwd dir name = true := by
  cases h with
  | exhausted => exact absurd hmem List.not_mem_nil
  | refused => exact absurd hmem List.not_mem_nil
  | failed failure hinside =>
    obtain rfl := List.mem_singleton.1 hmem
    exact ⟨_, List.mem_cons_self, rfl, hinside⟩
  | found hinside =>
    obtain rfl := List.mem_singleton.1 hmem
    exact ⟨_, List.mem_cons_self, rfl, hinside⟩

/-- What is found is the file of the next directory, and the name stays inside it. -/
theorem LookupEnd.of_some {rest : List String} {resource : Resource}
    (h : LookupEnd cwd name rest last (.ok (some resource))) :
    resource = ofName name resource.dir ∧ resource.dir ∈ rest ∧
      isInside cwd resource.dir name = true := by
  cases h with
  | found hinside => exact ⟨rfl, List.mem_cons_self, hinside⟩

/-- **A lookup stops at the first directory that has something to say.** It passes over the
directories in which the name stays and that do not have the file, asking once in each of them. It
stops at the first one that refuses the name, whose question fails, or that has the file; and if
there is none, it comes to nothing. Every question is about a path inside the directory that is
looked at, and so is every file that is found: a name is refused if and only if it is empty or
absolute, or the components of the joined path do not begin with those of the directory. -/
theorem find_stops_at_first (cwd name : String) (searchPath : List String)
    (isFile : String → Session Bool) (w : World) :
    let run := (find cwd (Recorded.ask isFile) name searchPath).run w
    (find cwd isFile name searchPath).runIn w = (run.outcome, run.world) ∧
    (∃ passed rest last, searchPath = passed ++ rest ∧
      (∀ dir ∈ passed, isInside cwd dir name = true) ∧
      run.record = passed.map (fun dir ↦ ⟨Path.join [dir, name], .ok false⟩) ++ last ∧
      LookupEnd cwd name rest last run.outcome) ∧
    Failure.message (.resourceName name) = .ok ("Invalid resource name: " ++ name) ∧
    (run.outcome = .ok none ↔ (∀ dir ∈ searchPath, isInside cwd dir name = true) ∧
      run.record = searchPath.map fun dir ↦ ⟨Path.join [dir, name], .ok false⟩) ∧
    (∀ exchange ∈ run.record, ∃ dir ∈ searchPath, exchange.question = Path.join [dir, name] ∧
      Path.components (Path.resolve cwd [dir]) <+:
        Path.components (Path.resolve cwd [exchange.question])) ∧
    (∀ dir, isInside cwd dir name = false ↔
      name = "" ∨ Path.isAbsolute name = true ∨
        ¬ Path.components (Path.resolve cwd [dir]) <+:
          Path.components (Path.resolve cwd [Path.join [dir, name]])) ∧
    (∀ resource, run.outcome = .ok (some resource) →
      resource = ⟨name, Path.join [resource.dir, name], resource.dir⟩ ∧ resource.dir ∈ searchPath ∧
      Path.components (Path.resolve cwd [resource.dir]) <+:
        Path.components (Path.resolve cwd [resource.path])) := by
  intro run
  obtain ⟨passed, rest, last, outcome, after, rfl, hpassed, hrecorded, hrun, hends⟩ :=
    goes cwd name isFile searchPath w []
  have houtcome : run.outcome = outcome := congrArg Prod.fst hrecorded
  have hworld : run.world = after := congrArg (·.2.1) hrecorded
  have hrecord : run.record = passed.map (passing name) ++ last := congrArg (·.2.2) hrecorded
  rw [houtcome, hworld, hrecord]
  refine ⟨hrun, ⟨passed, rest, last, rfl, hpassed, rfl, hends⟩, rfl, ⟨?_, ?_⟩, ?_,
    fun _ ↦ isInside_eq_false_iff, ?_⟩
  · rintro rfl
    obtain ⟨rfl, rfl⟩ := hends.eq_nil_of_none
    rw [List.append_nil, List.append_nil]
    exact ⟨hpassed, rfl⟩
  · rintro ⟨hall, hsame⟩
    rw [List.map_append] at hsame
    exact hends.eq_none_of_passing (fun dir hdir ↦ hall dir (List.mem_append_right _ hdir))
      (List.append_cancel_left hsame)
  · intro exchange hmem
    rcases List.mem_append.1 hmem with hmem | hmem
    · obtain ⟨dir, hdir, rfl⟩ := List.mem_map.1 hmem
      exact ⟨dir, List.mem_append_left _ hdir, rfl, (isInside_iff.1 (hpassed dir hdir)).2.2⟩
    · obtain ⟨dir, hdir, hquestion, hinside⟩ := hends.exists_of_mem hmem
      exact ⟨dir, List.mem_append_right _ hdir, hquestion,
        hquestion ▸ (isInside_iff.1 hinside).2.2⟩
  · rintro resource rfl
    obtain ⟨hresource, hdir, hinside⟩ := hends.of_some
    have hpath : resource.path = Path.join [resource.dir, name] := congrArg Resource.path hresource
    exact ⟨hresource, List.mem_append_right _ hdir, hpath ▸ (isInside_iff.1 hinside).2.2⟩

end ResourceLocator.Resource
