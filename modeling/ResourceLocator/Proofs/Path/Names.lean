import ResourceLocator.Path
import ResourceLocator.Proofs.Text.Pieces

/-!
# The names of a path

`Path.names` cuts a path at its slashes, so a slash between two paths keeps their names apart
(`names_append_slash`), and texts without slashes are the names of what they make together
(`names_intercalate`). A *proper* name is one that leads down: not empty, not `.`, not `..`.

`dirname` and `basename` are defined on characters. Their equations here are on texts: the last
slash is given, and what stands after it is a proper name, or at least a text that is not empty
and has no slash.
-/

namespace ResourceLocator.Path

/-- A name that leads from a directory to something directly below it. -/
structure IsName (name : String) : Prop where
  /-- It is not empty. -/
  ne_empty : name ≠ ""
  /-- It does not stay where it is. -/
  ne_dot : name ≠ "."
  /-- It does not lead up. -/
  ne_dotDot : name ≠ ".."
  /-- It is one name. -/
  no_slash : '/' ∉ name.toList

instance (name : String) : Decidable (IsName name) :=
  decidable_of_iff (name ≠ "" ∧ name ≠ "." ∧ name ≠ ".." ∧ '/' ∉ name.toList)
    ⟨fun ⟨h₁, h₂, h₃, h₄⟩ ↦ ⟨h₁, h₂, h₃, h₄⟩, fun ⟨h₁, h₂, h₃, h₄⟩ ↦ ⟨h₁, h₂, h₃, h₄⟩⟩

/-! ### Cutting and joining -/

theorem names_eq_splitOn (path : String) :
    names path = (path.toList.splitOn '/').map String.ofList := by
  rw [names, Text.split, Text.pieces_eq_splitOnP, List.splitOn_eq_splitOnP]

/-- **A slash keeps the names of two paths apart.** -/
theorem names_append_slash (a b : String) : names (a ++ "/" ++ b) = names a ++ names b := by
  have hcs : (a ++ "/" ++ b).toList = a.toList ++ '/' :: b.toList := by simp
  rw [names_eq_splitOn, hcs, List.splitOn_append_cons_self, List.map_append,
    ← names_eq_splitOn, ← names_eq_splitOn]

@[simp]
theorem names_empty : names "" = [""] := rfl

theorem names_slash_append (b : String) : names ("/" ++ b) = "" :: names b := by
  simpa using names_append_slash "" b

/-- A text without slashes is one name. -/
theorem names_of_no_slash {s : String} (hs : '/' ∉ s.toList) : names s = [s] := by
  rw [names_eq_splitOn, List.splitOn_eq_singleton hs, List.map_singleton, String.ofList_toList]

/-- **Texts without slashes are the names of what they make together.** -/
theorem names_intercalate {loc : List String} (hne : loc ≠ [])
    (hloc : ∀ name ∈ loc, '/' ∉ name.toList) : names (String.intercalate "/" loc) = loc := by
  have hslash : "/".toList = ['/'] := rfl
  have hpieces : ∀ cs ∈ loc.map String.toList, '/' ∉ cs := by
    intro cs hcs
    obtain ⟨name, hname, rfl⟩ := List.mem_map.1 hcs
    exact hloc name hname
  rw [names_eq_splitOn, String.toList_intercalate, hslash,
    List.splitOn_intercalate '/' hpieces (by simpa using hne), List.map_map]
  simp [Function.comp_def]

/-- The characters of a name are characters of the path, and none is a slash. -/
theorem mem_and_ne_slash_of_mem_names {path name : String} (hname : name ∈ names path) {c : Char}
    (hc : c ∈ name.toList) : c ∈ path.toList ∧ c ≠ '/' := by
  obtain ⟨cs, hcs, rfl⟩ := List.mem_map.1 hname
  rw [String.toList_ofList] at hc
  obtain ⟨hmem, hsep⟩ := Text.mem_and_sep_of_mem_pieces hcs hc
  exact ⟨hmem, by simpa using hsep⟩

theorem no_slash_of_mem_names {path name : String} (hname : name ∈ names path) :
    '/' ∉ name.toList :=
  fun hslash ↦ (mem_and_ne_slash_of_mem_names hname hslash).2 rfl

/-! ### Absolute paths -/

@[simp]
theorem isAbsolute_slash_append (s : String) : isAbsolute ("/" ++ s) = true := by
  simp [isAbsolute]

/-- A text without slashes is a relative path. -/
theorem isAbsolute_of_no_slash {s : String} (hs : '/' ∉ s.toList) : isAbsolute s = false := by
  unfold isAbsolute
  cases hcs : s.toList with
  | nil => rfl
  | cons c cs =>
    have hc : c ≠ '/' := fun hc ↦ hs (by simp [hcs, hc])
    simpa using hc

/-- A proper name is a relative path. -/
theorem IsName.isAbsolute_eq_false {name : String} (h : IsName name) :
    isAbsolute name = false :=
  isAbsolute_of_no_slash h.no_slash

/-! ### The last name -/

section LastName

variable {name : String}

/-- Characters without a slash are not slashes at an end. -/
private theorem dropWhile_slashes {cs : List Char} (hne : cs ≠ []) (hslash : '/' ∉ cs)
    (tail : List Char) :
    (cs ++ tail).dropWhile (· == '/') = cs ++ tail := by
  obtain ⟨c, rest, rfl⟩ := List.exists_cons_of_ne_nil hne
  have hc : c ≠ '/' := fun h ↦ hslash (h ▸ List.mem_cons_self)
  rw [List.cons_append, List.dropWhile_cons_of_neg (by simpa using hc)]

/-- Characters without a slash are passed by on the way to one. -/
private theorem dropWhile_name {cs : List Char} (hslash : '/' ∉ cs) (tail : List Char) :
    (cs ++ tail).dropWhile (!· == '/') = tail.dropWhile (!· == '/') := by
  refine List.dropWhile_append_of_pos fun c hc ↦ ?_
  have : c ≠ '/' := fun h ↦ hslash (h ▸ hc)
  simpa using this

/-- **What stands before the last slash**, unless that is the root itself. -/
theorem dirname_append_slash {s : String} (hs : s ≠ "") (hroot : s ≠ "/") (hne : name ≠ "")
    (hslash : '/' ∉ name.toList) : dirname (s ++ "/" ++ name) = s := by
  obtain ⟨first, rest, hrest⟩ := List.exists_cons_of_ne_nil (by simpa using hs : s.toList ≠ [])
  have hcs : (s ++ "/" ++ name).toList = first :: (rest ++ '/' :: name.toList) := by
    simp [hrest]
  have hrev : (rest ++ '/' :: name.toList).reverse =
      name.toList.reverse ++ '/' :: rest.reverse := by simp
  have hnotRoot : ¬(first = '/' ∧ rest = []) := by
    rintro ⟨rfl, rfl⟩
    exact hroot (String.toList_injective hrest)
  have hback : String.ofList (first :: rest) = s := by rw [← hrest, String.ofList_toList]
  have hne' : name.toList.reverse ≠ [] := by simpa using hne
  have hslash' : '/' ∉ name.toList.reverse := by simpa using hslash
  have hskip := dropWhile_slashes hne' hslash' ('/' :: rest.reverse)
  have hpass : (name.toList.reverse ++ '/' :: rest.reverse).dropWhile (!· == '/') =
      '/' :: rest.reverse := by
    rw [dropWhile_name hslash', List.dropWhile_cons_of_neg (by simp)]
  simp only [dirname, hcs, hrev, hskip, hpass]
  rw [if_neg (by simpa using hnotRoot), List.reverse_reverse, hback]

/-- Before the only slash at the start stands the root. -/
theorem dirname_slash_append (hne : name ≠ "") (hslash : '/' ∉ name.toList) :
    dirname ("/" ++ name) = "/" := by
  have hcs : ("/" ++ name).toList = '/' :: name.toList := by simp
  have hne' : name.toList.reverse ≠ [] := by simpa using hne
  have hslash' : '/' ∉ name.toList.reverse := by simpa using hslash
  have hskip := dropWhile_slashes hne' hslash' []
  have hall := dropWhile_name hslash' []
  rw [List.append_nil] at hskip hall
  simp only [dirname, hcs, hskip, hall, List.dropWhile_nil]
  rfl

/-- A single name has nothing before it, and stands where reading starts. -/
theorem dirname_of_no_slash (hslash : '/' ∉ name.toList) : dirname name = "." := by
  cases hcs : name.toList with
  | nil => simp [dirname, hcs]
  | cons first rest =>
    rw [hcs, List.mem_cons, not_or] at hslash
    have hfirst : (first == '/') = false := by simpa using Ne.symm hslash.1
    have hslash' : '/' ∉ rest.reverse := by simpa using hslash.2
    have hall := dropWhile_name hslash' []
    have hskip : rest.reverse.dropWhile (· == '/') = rest.reverse := by
      by_cases hrest : rest = []
      · rw [hrest]; rfl
      · simpa using dropWhile_slashes (by simpa using hrest) hslash' []
    rw [List.append_nil] at hall
    simp only [dirname, hcs, hskip, hall, List.dropWhile_nil, hfirst]
    rfl

/-- **A slash at the end does not count.** -/
theorem dirname_append_slash_self {s : String} (hs : s ≠ "") : dirname (s ++ "/") = dirname s := by
  obtain ⟨first, rest, hrest⟩ := List.exists_cons_of_ne_nil (by simpa using hs : s.toList ≠ [])
  have hcs : (s ++ "/").toList = first :: (rest ++ ['/']) := by simp [hrest]
  have hrev : (rest ++ ['/']).reverse = '/' :: rest.reverse := by simp
  simp only [dirname, hcs, hrest, hrev]
  rw [List.dropWhile_cons_of_pos rfl]

/-- **What stands after the last slash.** -/
theorem basename_append_slash (s : String) (hne : name ≠ "") (hslash : '/' ∉ name.toList) :
    basename (s ++ "/" ++ name) = name := by
  have hrev : (s ++ "/" ++ name).toList.reverse =
      name.toList.reverse ++ '/' :: s.toList.reverse := by simp
  have htake : (name.toList.reverse ++ '/' :: s.toList.reverse).takeWhile (!· == '/') =
      name.toList.reverse := by
    have hname : ∀ c ∈ name.toList.reverse, (!c == '/') = true := fun c hc ↦ by
      have : c ≠ '/' := fun h ↦ hslash (h ▸ List.mem_reverse.1 hc)
      simpa using this
    rw [List.takeWhile_append_of_pos hname, List.takeWhile_cons_of_neg (by simp),
      List.append_nil]
  have hne' : name.toList.reverse ≠ [] := by simpa using hne
  have hslash' : '/' ∉ name.toList.reverse := by simpa using hslash
  have hskip := dropWhile_slashes hne' hslash' ('/' :: s.toList.reverse)
  simp only [basename, hrev, hskip, htake]
  rw [List.reverse_reverse, String.ofList_toList]

end LastName

end ResourceLocator.Path
