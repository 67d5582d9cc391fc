import ResourceLocator.Proofs.Config.Faults

/-!
# What counts at a key

Three sources say what is at a key: the override, the upper file and the lower file, in this order
of precedence (`picked`). A section is taken as a whole from one of them, and then each key in it
is replaced by its own override, if that is set (`pickedIn`).

`Override.resolved` is what the sources have at a key when all this is done. Loading validates three
times on the way, and each time puts fields in another order; but what it arrives at is alike to
`resolved` at each key (`exists_sources`), and from anything that is alike the same configuration is
made (`ofDisk_of_sources`). So all that is said about configurations here is said about `resolved`.
-/

namespace ResourceLocator

variable {disk : FileSystem} {cwd home dir : String} {env : Environment} {lower upper : Fields}
  {config : Config}

namespace Override

variable {o : Override}

/-- What the sources have at a key. -/
def resolved (env : Environment) (lower upper : Fields) (key : String) : Option Value :=
  (all.filter fun o ↦ o.root = key).foldl (step env)
    ((Fields.get? upper key).or (Fields.get? lower key))

/-- What an environment gives for a dotted key, if anything. -/
def given (env : Environment) (key : String) : Option Value :=
  (all.find? fun o ↦ o.dottedKey = key).bind (value? env)

/-- What counts at a key: what the environment gives, or else what the upper file has, or else what
the lower file has. -/
def picked (env : Environment) (lower upper : Fields) (key : String) : Option Value :=
  (given env key).or ((Fields.get? upper key).or (Fields.get? lower key))

/-- What counts at a key of a section: what the environment gives, or else what the section has. -/
def pickedIn (env : Environment) (lower upper : Fields) (name key : String) : Option Value :=
  (given env (name ++ "." ++ key)).or (Value.at? (picked env lower upper name) key)

theorem find?_dottedKey :
    ∀ o ∈ all, (all.find? fun other ↦ other.dottedKey = o.dottedKey) = some o := by
  decide

theorem given_dottedKey (ho : o ∈ all) : given env o.dottedKey = value? env o := by
  rw [given, find?_dottedKey o ho, Option.bind_some]

theorem given_of_whole (ho : o ∈ all) (hwhole : o.inSection = none) :
    given env o.key = value? env o := by
  have hkey : o.dottedKey = o.key := by rw [dottedKey, hwhole]
  rw [← hkey, given_dottedKey ho]

theorem given_of_inSection {name : String} (ho : o ∈ all) (hsection : o.inSection = some name) :
    given env (name ++ "." ++ o.key) = value? env o := by
  have hkey : o.dottedKey = name ++ "." ++ o.key := by rw [dottedKey, hsection]
  rw [← hkey, given_dottedKey ho]

theorem inSection_of_mem_filter {name : String} {leaf : Override}
    (h : leaf ∈ all.filter fun other ↦ other.inSection = some name) :
    leaf ∈ all ∧ leaf.inSection = some name := by
  simpa using h

/-- The overrides in a section come on top of what counts for the whole of it. -/
theorem resolved_of_whole (ho : o ∈ all) (hwhole : o.inSection = none) :
    resolved env lower upper o.key =
      (all.filter fun other ↦ other.inSection = some o.key).foldl (step env)
        (picked env lower upper o.key) := by
  rw [resolved, filter_root_eq o ho hwhole, List.foldl_cons, step_of_whole hwhole, picked,
    given_of_whole ho hwhole]

/-- **What counts at a plain key** is what the sources have there. -/
theorem resolved_eq_picked (ho : o ∈ all) (hwhole : o.inSection = none)
    (hplain : (all.filter fun other ↦ other.inSection = some o.key) = []) :
    resolved env lower upper o.key = picked env lower upper o.key := by
  rw [resolved_of_whole ho hwhole, hplain, List.foldl_nil]

/-- **What counts at a key of a section** is what the sources have there. -/
theorem at?_resolved {leaf : Override} (ho : o ∈ all) (hwhole : o.inSection = none)
    (hleaf : leaf ∈ all) (hsection : leaf.inSection = some o.key) :
    Value.at? (resolved env lower upper o.key) leaf.key =
      pickedIn env lower upper o.key leaf.key := by
  have hmem : leaf ∈ all.filter fun other ↦ other.inSection = some o.key := by
    simpa using And.intro hleaf hsection
  rw [resolved_of_whole ho hwhole, at?_foldl_step (fun other h ↦ (inSection_of_mem_filter h).2)
    (nodup_keys_filter_inSection o ho) hmem, pickedIn, given_of_inSection hleaf hsection]

/-! ### Sections -/

/-- A section counts for nothing: no source has it, and no override is set for a key in it. -/
def IsAbsent (env : Environment) (lower upper : Fields) (name : String) : Prop :=
  (picked env lower upper name).getD .undefined = .undefined ∧
    ∀ leaf ∈ all, leaf.inSection = some name → value? env leaf = none

/-- **A section that counts for nothing is absent**, and any other is there. -/
theorem resolved_eq_undefined_iff (ho : o ∈ all) (hwhole : o.inSection = none) :
    (resolved env lower upper o.key).getD .undefined = .undefined ↔
      IsAbsent env lower upper o.key := by
  rw [resolved_of_whole ho hwhole]
  by_cases hleaf : ∃ leaf ∈ all.filter fun other ↦ other.inSection = some o.key,
      value? env leaf ≠ none
  · -- What is set in the section makes a record of it.
    obtain ⟨inner, hinner⟩ := exists_fields?_foldl_step
      (fun leaf h ↦ (inSection_of_mem_filter h).2) hleaf (picked env lower upper o.key)
    refine iff_of_false (fun habsent ↦ ?_) fun habsent ↦ ?_
    · obtain ⟨v, hv, hfields⟩ := Option.bind_eq_some_iff.1 hinner
      rw [hv, Option.getD_some] at habsent
      rw [habsent] at hfields
      cases hfields
    · obtain ⟨leaf, hmem, hset⟩ := hleaf
      exact hset (habsent.2 leaf (inSection_of_mem_filter hmem).1 (inSection_of_mem_filter hmem).2)
  · have hnone : ∀ leaf ∈ all.filter (fun other ↦ other.inSection = some o.key),
        value? env leaf = none := fun leaf hmem ↦
      Classical.byContradiction fun hset ↦ hleaf ⟨leaf, hmem, hset⟩
    rw [foldl_step_eq_self hnone]
    exact (and_iff_left fun leaf hmem hsection ↦
      hnone leaf (List.mem_filter.2 ⟨hmem, by simpa using hsection⟩)).symm

end Override

namespace Config

open ConfigFile Override

/-! ### What loading arrives at -/

/-- What the overrides leave of two accepted files is alike to what the sources have. -/
theorem apply_alike (hlower : schema.Accepts (.record lower))
    (hupper : schema.Accepts (.record upper))
    (hread : AllReadable env) (key : String) :
    Value.AlikeOption
      (Fields.get? (Override.apply env (Fields.merge (dataOf lower) (dataOf upper))).fields key)
      (resolved env lower upper key) := by
  rw [Override.apply, get?_applyFrom (apply_fault?_eq_none_iff.2 hread)]
  refine foldl_step_alike env _ ?_
  rw [Fields.get?_merge (nodup_keys_dataOf upper)]
  exact (dataOf_alike hupper key).or (dataOf_alike hlower key)

/-- **What loading arrives at**: two accepted files, overrides that can all be read, and accepted
fields that are alike to what the sources have at each key. -/
theorem exists_sources (h : ofDisk disk cwd home dir env = .ok config) :
    ∃ lower upper fields, read disk cwd (globalPath home env) = .ok lower ∧
      read disk cwd (projectPath cwd dir) = .ok upper ∧ schema.Accepts (.record lower) ∧
      schema.Accepts (.record upper) ∧ AllReadable env ∧ schema.Accepts (.record fields) ∧
      (∀ key, Value.AlikeOption (Fields.get? fields key) (resolved env lower upper key)) ∧
      ofFile cwd dir (ofFields fields) = .ok config := by
  obtain ⟨data, hmerged, hconfig⟩ := bind_eq_ok_iff.1 h
  obtain ⟨lowerData, hlowerData, hrest⟩ := bind_eq_ok_iff.1 hmerged
  obtain ⟨upperData, hupperData, -⟩ := bind_eq_ok_iff.1 hrest
  rw [mergedFields_of_accepted hlowerData hupperData] at hmerged
  obtain ⟨lower, hlower, hlowerAccepts, rfl⟩ := readValid_eq_ok_iff.1 hlowerData
  obtain ⟨upper, hupper, hupperAccepts, rfl⟩ := readValid_eq_ok_iff.1 hupperData
  cases hfault : (Override.apply env (Fields.merge (dataOf lower) (dataOf upper))).fault? with
  | some fault =>
    rw [hfault] at hmerged
    cases hmerged
  | none =>
    rw [hfault] at hmerged
    obtain ⟨haccepts, rfl⟩ := validate_eq_ok_iff.1 hmerged
    rw [ofFields_dataOf haccepts] at hconfig
    have hread : AllReadable env := apply_fault?_eq_none_iff.1 hfault
    exact ⟨lower, upper, _, hlower, hupper, hlowerAccepts, hupperAccepts, hread, haccepts,
      apply_alike hlowerAccepts hupperAccepts hread, hconfig⟩

/-- **Whatever is alike to what the sources have** makes the configuration that is loaded. -/
theorem ofDisk_of_sources {fields : Fields}
    (hlower : read disk cwd (globalPath home env) = .ok lower)
    (hupper : read disk cwd (projectPath cwd dir) = .ok upper)
    (hlowerAccepts : schema.Accepts (.record lower))
    (hupperAccepts : schema.Accepts (.record upper))
    (hread : AllReadable env) (haccepts : schema.Accepts (.record fields))
    (halike : ∀ key, Value.AlikeOption (Fields.get? fields key) (resolved env lower upper key)) :
    ofDisk disk cwd home dir env = ofFile cwd dir (ofFields fields) := by
  have hlowerData := readValid_eq_ok_iff.2 ⟨lower, hlower, hlowerAccepts, rfl⟩
  have hupperData := readValid_eq_ok_iff.2 ⟨upper, hupper, hupperAccepts, rfl⟩
  have hfault : (Override.apply env (Fields.merge (dataOf lower) (dataOf upper))).fault? = none :=
    apply_fault?_eq_none_iff.2 hread
  have hsame : ∀ key, Value.AlikeOption (Fields.get? fields key) (Fields.get?
      (Override.apply env (Fields.merge (dataOf lower) (dataOf upper))).fields key) := fun key ↦
    (halike key).trans (apply_alike hlowerAccepts hupperAccepts hread key).symm
  -- Acceptance and the configuration depend on what is at each key, up to likeness.
  have hwhole := schema_readsByKey.accepts_alike (Value.Alike.of_forall (v := .record fields)
    (w := .record _) rfl rfl hsame) haccepts
  rw [ofDisk, mergedFields_of_accepted hlowerData hupperData, hfault]
  simp only [validate_of_accepts hwhole]
  rw [ofFields_eq_of_alike hsame, ← ofFields_dataOf hwhole]
  rfl

end Config

end ResourceLocator
