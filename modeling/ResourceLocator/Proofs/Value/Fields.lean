import ResourceLocator.Value.Basic

/-!
# What a record has at a key

`Fields.get?` is the view of the fields of a record: it says for each key what is there, and which
keys there are (`mem_keys_iff`). Fields that are put over others hide them key by key
(`get?_merge`).

A record may be made of items, each of which has a key of its own and gives at most one value for it
(`get?_filterMap`).
-/

namespace ResourceLocator.Fields

variable {fields base top : Fields} {key other : String} {v : Value}

theorem get?_cons (fields : Fields) (key other : String) (v : Value) :
    get? ((key, v) :: fields) other = if key = other then some v else get? fields other := by
  by_cases h : key = other
  · simp [get?, h]
  · have hne : (key == other) = false := by simpa using h
    simp [get?, hne, h]

theorem get?_put (fields : Fields) (key other : String) (v : Value) :
    get? (put fields key v) other = if key = other then some v else get? fields other := by
  split
  · next h =>
    subst h
    exact get?_put_self fields key v
  · next h => exact get?_put_of_ne fields v (Ne.symm h)

theorem mem_keys_iff : key ∈ keys fields ↔ (get? fields key).isSome := by
  induction fields with
  | nil => simp [keys, get?]
  | cons entry rest ih =>
    obtain ⟨k, w⟩ := entry
    rw [get?_cons]
    split
    · next h => simp [keys, h]
    · next h =>
      rw [← ih]
      simp [keys, Ne.symm h]

theorem get?_eq_none_iff : get? fields key = none ↔ key ∉ keys fields := by
  rw [mem_keys_iff, Option.not_isSome_iff_eq_none]

/-- **Fields put over others hide them key by key.** -/
theorem get?_merge (htop : (keys top).Nodup) (base : Fields) (key : String) :
    get? (merge base top) key = (get? top key).or (get? base key) := by
  induction top generalizing base with
  | nil => rfl
  | cons entry rest ih =>
    obtain ⟨k, w⟩ := entry
    obtain ⟨hfresh, hrest⟩ := List.nodup_cons.1 htop
    have hmerge : merge base ((k, w) :: rest) = merge (put base k w) rest := rfl
    rw [hmerge, ih hrest, get?_put, get?_cons]
    split
    · next h =>
      -- The key does not come again, so that what is put first stays.
      subst h
      rw [get?_eq_none_iff.2 hfresh, Option.none_or, Option.some_or]
    · rfl

/-! ### Records made item by item -/

/-- Of items with different keys, the record holds for each what it makes of the item. -/
theorem get?_filterMap {α : Type} {items : List α} (keyOf : α → String) (made : α → Option Value)
    (hkeys : (items.map keyOf).Nodup) {item : α} (hitem : item ∈ items) :
    get? (items.filterMap fun item ↦ (made item).map (keyOf item, ·)) (keyOf item) =
      made item := by
  induction items with
  | nil => exact absurd hitem List.not_mem_nil
  | cons first rest ih =>
    rw [List.map_cons, List.nodup_cons] at hkeys
    obtain ⟨hfresh, hrest⟩ := hkeys
    rw [List.filterMap_cons]
    rcases List.mem_cons.1 hitem with rfl | hitem
    · cases hmade : made item with
      | some v => simp [get?_cons]
      | none =>
        -- No later item has the key, so that nothing takes the place of what is not there.
        rw [Option.map_none, get?_eq_none_iff]
        intro hmem
        obtain ⟨⟨key, v⟩, hentry, rfl⟩ := List.mem_map.1 hmem
        obtain ⟨later, hlater, hsome⟩ := List.mem_filterMap.1 hentry
        obtain ⟨w, -, hw⟩ := Option.map_eq_some_iff.1 hsome
        have hkey : keyOf later = keyOf item := congrArg Prod.fst hw
        exact hfresh (hkey ▸ List.mem_map_of_mem hlater)
    · have hne : keyOf first ≠ keyOf item := fun h ↦ hfresh (h ▸ List.mem_map_of_mem hitem)
      cases hmade : made first with
      | none => exact ih hrest hitem
      | some v =>
        rw [Option.map_some, get?_cons, if_neg hne]
        exact ih hrest hitem

/-- The keys of the record are keys of items. -/
theorem keys_filterMap {α : Type} (items : List α) (keyOf : α → String)
    (made : α → Option Value) :
    (keys (items.filterMap fun item ↦ (made item).map (keyOf item, ·))).Sublist
      (items.map keyOf) := by
  induction items with
  | nil => exact List.Sublist.slnil
  | cons first rest ih =>
    rw [List.filterMap_cons, List.map_cons]
    cases made first with
    | none => exact ih.cons _
    | some v => exact ih.cons_cons _

end ResourceLocator.Fields
