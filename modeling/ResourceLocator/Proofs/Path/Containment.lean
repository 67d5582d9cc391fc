import ResourceLocator.Proofs.Path.Join

/-!
# Lexical containment

The *components* of a path are its names without the empty ones. `Path.contains` compares two texts:
it asks whether they are equal, or one goes on from the other with a slash. What this comes to is
that the components of one begin with those of the other (`contains_iff`), because the path of a
normal location can be read back into its names, whether it goes on from another or not.
-/

namespace ResourceLocator

namespace Path

/-- The names of a path that are not empty. -/
def components (path : String) : List String :=
  (names path).filter (· ≠ "")

end Path

namespace Location

variable {loc : Location}

/-- **The components of the path of a location are the location.** -/
theorem components_toPath (hloc : loc.IsNormal) : Path.components loc.toPath = loc := by
  by_cases hne : loc = []
  · subst hne
    rfl
  · have hproper : loc.filter (fun name ↦ decide (name ≠ "")) = loc :=
      List.filter_eq_self.2 fun name hname ↦ decide_eq_true (hloc name hname).ne_empty
    rw [Path.components, names_toPath hloc hne, List.filter_cons_of_neg (by decide), hproper]

/-- Only the path of the root ends in a slash. -/
theorem endsInSlash_toPath (hloc : loc.IsNormal) (hne : loc ≠ []) :
    Path.endsInSlash loc.toPath = false := by
  obtain ⟨dir, name, rfl⟩ := exists_last hne
  have hname : Path.IsName name := hloc name (List.mem_append_right _ List.mem_cons_self)
  rw [toPath_append_singleton]
  exact Path.endsInSlash_append_name hname _

/-- **Going on from a path with a slash is going on from the location.** -/
theorem toPath_slash_prefix_iff {below : Location} (hloc : loc.IsNormal) (hne : loc ≠ [])
    (hbelow : below.IsNormal) :
    (loc.toPath ++ "/").toList <+: below.toPath.toList ↔ loc <+: below ∧ below ≠ loc := by
  constructor
  · rintro ⟨rest, hrest⟩
    have hpath : below.toPath = loc.toPath ++ "/" ++ String.ofList rest :=
      String.toList_injective (by simpa using hrest.symm)
    have hcomponents := components_toPath hbelow
    rw [hpath, Path.components, Path.names_append_slash, List.filter_append] at hcomponents
    rw [show (Path.names loc.toPath).filter (· ≠ "") = loc from components_toPath hloc]
      at hcomponents
    refine ⟨⟨_, hcomponents⟩, ?_⟩
    rintro rfl
    have hlength := congrArg String.length hpath
    simp only [String.length_append] at hlength
    have hslash : "/".length = 1 := rfl
    omega
  · rintro ⟨⟨rest, rfl⟩, hmore⟩
    have hrest : rest ≠ [] := fun h ↦ hmore (by rw [h, List.append_nil])
    rw [toPath_append hne hrest]
    exact ⟨_, String.toList_append.symm⟩

end Location

namespace Path

variable {cwd base target : String}

/-- The components of a path that has been resolved are the location that it leads to. -/
theorem components_resolve (cwd : String) (paths : List String) :
    components (resolve cwd paths) = locate cwd paths :=
  Location.components_toPath (locate_isNormal cwd paths)

/-- **One path contains another** if its components, both paths resolved, are the first ones of the
other. -/
theorem contains_iff : contains cwd base target = true ↔
    components (resolve cwd [base]) <+: components (resolve cwd [target]) := by
  have hbase := locate_isNormal cwd [base]
  have htarget := locate_isNormal cwd [target]
  rw [components_resolve, components_resolve, contains, Bool.or_eq_true, beq_iff_eq,
    List.isPrefixOf_iff_prefix, resolve, resolve]
  generalize locate cwd [base] = loc at hbase
  generalize locate cwd [target] = below at htarget
  by_cases hroot : loc = []
  · -- Everything is below the root, and every absolute path starts with its slash.
    subst hroot
    have hslash : endsInSlash (Location.toPath []) = true := by decide
    have hprefix : "/".toList <+: below.toPath.toList := by
      rw [Location.toPath, String.toList_append]
      exact List.prefix_append _ _
    rw [hslash, if_pos rfl, Location.toPath_nil]
    exact iff_of_true (.inr hprefix) List.nil_prefix
  · rw [Location.endsInSlash_toPath hbase hroot, if_neg Bool.false_ne_true,
      Location.toPath_slash_prefix_iff hbase hroot htarget]
    constructor
    · rintro (hsame | ⟨hbelow, -⟩)
      · exact Location.toPath_injective htarget hbase hsame ▸ List.prefix_rfl
      · exact hbelow
    · intro hbelow
      by_cases hsame : below = loc
      · exact .inl (congrArg Location.toPath hsame)
      · exact .inr ⟨hbelow, hsame⟩

end Path

end ResourceLocator
