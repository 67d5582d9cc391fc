import ResourceLocator.Config.Override
import ResourceLocator.Proofs.Value.Alike

/-!
# What overrides leave behind

An override changes the fields at one key, its *root*: its own key, or the section that the key is
in. So what overrides leave at a key is found by following those with that root, one after the
other, and forgetting all others (`get?_applyFrom`).

Of the overrides with one root only the first replaces what is there, and the others change one key
each inside of it (`filter_root_eq`). What comes of them at a key of the section is the value of the
override for that key, or else what the section has there (`at?_foldl_step`).
-/

namespace ResourceLocator

namespace Override

variable {o : Override} {env : Environment} {fields : Fields}

/-! ### One override -/

/-- The key of the whole configuration at which an override changes something. -/
def root (o : Override) : String := o.inSection.getD o.key

/-- The value that an environment gives for an override, if any. -/
def value? (env : Environment) (o : Override) : Option Value :=
  (env o.variableName).bind fun raw ↦ (o.readValue raw).toOption

theorem value?_eq_some {raw : String} {v : Value} (hset : env o.variableName = some raw)
    (hread : o.readValue raw = .ok v) : value? env o = some v := by
  rw [value?, hset, Option.bind_some, hread]
  rfl

/-- What an override makes of what stands at its root. -/
def update (o : Override) (v : Value) (old : Option Value) : Value :=
  match o.inSection with
  | none => v
  | some _ => match old with
    | none => .record [(o.key, v)]
    | some section' => match section'.fields? with
      | none => .record [(o.key, v)]
      | some inner => section'.withFields (Fields.put inner o.key v)

/-- **An override changes what stands at its root** and nothing else. -/
theorem get?_put (o : Override) (fields : Fields) (v : Value) (name : String) :
    Fields.get? (o.put fields v) name =
      if o.root = name then some (o.update v (Fields.get? fields name))
      else Fields.get? fields name := by
  have hput : o.put fields v =
      Fields.put fields o.root (o.update v (Fields.get? fields o.root)) := by
    unfold put update root
    cases o.inSection with
    | none => rfl
    | some name =>
      dsimp only [Option.getD_some]
      cases Fields.get? fields name with
      | none => rfl
      | some old => cases hold : old.fields? <;> simp [hold]
  rw [hput, Fields.get?_put]
  split
  · next h => rw [h]
  · rfl

theorem fields?_withFields (v : Value) (fields : Fields) :
    (v.withFields fields).fields? = some fields := by
  cases v <;> rfl

/-- An override of a whole key puts its value there. -/
theorem update_of_whole (h : o.inSection = none) (v : Value) (old : Option Value) :
    o.update v old = v := by
  unfold update
  rw [h]

/-- What an override in a section leaves reads as a record. -/
theorem fields?_update {name : String} (h : o.inSection = some name) (v : Value)
    (old : Option Value) :
    (o.update v old).fields? = some (Fields.put ((old.bind Value.fields?).getD []) o.key v) := by
  unfold update
  rw [h]
  cases old with
  | none => rfl
  | some inner =>
    dsimp only [Option.bind_some]
    cases hinner : inner.fields? with
    | none => rfl
    | some fields => exact fields?_withFields _ _

/-- **An override in a section changes one key of it**, whatever stood there. -/
theorem at?_update {name : String} (h : o.inSection = some name) (v : Value) (old : Option Value)
    (key : String) :
    Value.at? (some (o.update v old)) key = if o.key = key then some v else Value.at? old key := by
  rw [Value.at?, Option.bind_some, fields?_update h, Option.getD_some, Fields.get?_put, Value.at?]

/-- **An override does not tell alike values apart.** -/
theorem update_alike (o : Override) (v : Value) {a b : Option Value} (h : Value.AlikeOption a b) :
    (o.update v a).Alike (o.update v b) := by
  cases hsection : o.inSection with
  | none =>
    rw [update_of_whole hsection, update_of_whole hsection]
    exact .same v
  | some name =>
    refine .of_forall (fields?_update hsection v a) (fields?_update hsection v b) fun key ↦ ?_
    rw [Fields.get?_put, Fields.get?_put]
    split
    · exact .refl _
    · exact h.at? key

/-- What an override makes of what stands at its root, if the environment gives a value. -/
def step (env : Environment) (old : Option Value) (o : Override) : Option Value :=
  match value? env o with
  | none => old
  | some v => some (o.update v old)

theorem step_alike (env : Environment) (o : Override) {a b : Option Value}
    (h : Value.AlikeOption a b) : Value.AlikeOption (step env a o) (step env b o) := by
  unfold step
  cases value? env o with
  | none => exact h
  | some v => exact .some (o.update_alike v h)

theorem foldl_step_alike (env : Environment) (os : List Override) {a b : Option Value}
    (h : Value.AlikeOption a b) :
    Value.AlikeOption (os.foldl (step env) a) (os.foldl (step env) b) := by
  induction os generalizing a b with
  | nil => exact h
  | cons o os ih => exact ih (step_alike env o h)

/-! ### All overrides with one root -/

/-- The fault of an application does not depend on the fields: it is that of the first override that
cannot be read. -/
theorem applyFrom_fault?_eq_none_iff {os : List Override} :
    (applyFrom env os fields).fault? = none ↔
      ∀ o ∈ os, ∀ raw, env o.variableName = some raw → ∃ v, o.readValue raw = .ok v := by
  induction os generalizing fields with
  | nil => simp [applyFrom]
  | cons o os ih =>
    rw [applyFrom, List.forall_mem_cons]
    cases hraw : env o.variableName with
    | none => simpa using ih
    | some raw => cases hread : o.readValue raw with
      | error fault => simp [hread]
      | ok v => simpa [hread] using ih

/-- Every variable that is set and overrides a key can be read. -/
def AllReadable (env : Environment) : Prop :=
  ∀ o ∈ all, ∀ raw, env o.variableName = some raw → ∃ v, o.readValue raw = .ok v

theorem apply_fault?_eq_none_iff : (apply env fields).fault? = none ↔ AllReadable env :=
  applyFrom_fault?_eq_none_iff

/-- **What overrides leave at a key** is found by following those with that root. -/
theorem get?_applyFrom {os : List Override} (h : (applyFrom env os fields).fault? = none)
    (name : String) :
    Fields.get? (applyFrom env os fields).fields name =
      (os.filter fun o ↦ o.root = name).foldl (step env) (Fields.get? fields name) := by
  induction os generalizing fields with
  | nil => rfl
  | cons o os ih =>
    rw [applyFrom] at h ⊢
    rw [List.filter_cons]
    cases hraw : env o.variableName with
    | none =>
      have hvalue : value? env o = none := by rw [value?, hraw, Option.bind_none]
      simp only [hraw] at h
      simp only [ih h]
      split
      · rw [List.foldl_cons, step, hvalue]
      · rfl
    | some raw =>
      simp only [hraw] at h
      cases hread : o.readValue raw with
      | error fault =>
        rw [hread] at h
        cases h
      | ok v =>
        have hvalue := value?_eq_some hraw hread
        simp only [hread] at h
        simp only [hread, ih h, get?_put]
        by_cases hroot : o.root = name
        · simp [hroot, step, hvalue]
        · simp [hroot]

/-- Of the overrides with one root, the first is for the whole of it, and the others are for keys in
it. -/
theorem filter_root_eq : ∀ o ∈ all, o.inSection = none →
    (all.filter fun other ↦ other.root = o.key) =
      o :: all.filter fun other ↦ other.inSection = some o.key := by
  decide

/-- The overrides in one section are for different keys. -/
theorem nodup_keys_filter_inSection : ∀ o ∈ all,
    ((all.filter fun other ↦ other.inSection = some o.key).map (·.key)).Nodup := by
  decide

theorem step_of_whole (h : o.inSection = none) (old : Option Value) :
    step env old o = (value? env o).or old := by
  rw [step]
  cases value? env o with
  | none => rfl
  | some v =>
    dsimp only
    rw [update_of_whole h, Option.some_or]

/-- **What all overrides leave at a key** of the whole: the value of the override for it, or else
what is there, with the overrides for keys in it. -/
theorem get?_apply (h : (apply env fields).fault? = none) (ho : o ∈ all)
    (hwhole : o.inSection = none) :
    Fields.get? (apply env fields).fields o.key =
      (all.filter fun other ↦ other.inSection = some o.key).foldl (step env)
        ((value? env o).or (Fields.get? fields o.key)) := by
  rw [apply, get?_applyFrom h, filter_root_eq o ho hwhole, List.foldl_cons, step_of_whole hwhole]

/-- What an override in a section makes of one key of it. -/
theorem at?_step {name : String} (h : o.inSection = some name) (old : Option Value) (key : String) :
    Value.at? (step env old o) key =
      if o.key = key then (value? env o).or (Value.at? old key) else Value.at? old key := by
  rw [step]
  cases value? env o with
  | none => simp
  | some v =>
    dsimp only
    rw [at?_update h, Option.some_or]

/-- What overrides in a section leave at a key that none of them is for. -/
theorem at?_foldl_step_of_not_mem {os : List Override} {name key : String}
    (hsection : ∀ o ∈ os, o.inSection = some name) (hkey : key ∉ os.map (·.key))
    (old : Option Value) : Value.at? (os.foldl (step env) old) key = Value.at? old key := by
  induction os generalizing old with
  | nil => rfl
  | cons o os ih =>
    rw [List.map_cons, List.mem_cons, not_or] at hkey
    have hrest : ∀ other ∈ os, other.inSection = some name := fun other hother ↦
      hsection other (List.mem_cons_of_mem o hother)
    rw [List.foldl_cons, ih hrest hkey.2, at?_step (hsection o List.mem_cons_self),
      if_neg (Ne.symm hkey.1)]

/-- **What overrides in a section leave at one of their keys**: the value for it, or else what the
section has there. -/
theorem at?_foldl_step {os : List Override} {name : String}
    (hsection : ∀ o ∈ os, o.inSection = some name) (hkeys : (os.map (·.key)).Nodup)
    (ho : o ∈ os) (old : Option Value) :
    Value.at? (os.foldl (step env) old) o.key = (value? env o).or (Value.at? old o.key) := by
  induction os generalizing old with
  | nil => exact absurd ho List.not_mem_nil
  | cons first os ih =>
    rw [List.map_cons, List.nodup_cons] at hkeys
    have hrest : ∀ other ∈ os, other.inSection = some name := fun other hother ↦
      hsection other (List.mem_cons_of_mem first hother)
    have hfirst : Value.at? (step env old first) o.key = if first.key = o.key then
        (value? env first).or (Value.at? old o.key) else Value.at? old o.key :=
      at?_step (hsection first List.mem_cons_self) old o.key
    rw [List.foldl_cons]
    rcases List.mem_cons.1 ho with rfl | ho
    · rw [at?_foldl_step_of_not_mem hrest hkeys.1, hfirst, if_pos rfl]
    · have hne : first.key ≠ o.key := fun h ↦ hkeys.1 (h ▸ List.mem_map_of_mem ho)
      rw [ih hrest hkeys.2 ho, hfirst, if_neg hne]

/-- Overrides in a section leave it as it is if none of them has a value. -/
theorem foldl_step_eq_self {os : List Override} (h : ∀ o ∈ os, value? env o = none)
    (old : Option Value) : os.foldl (step env) old = old := by
  induction os with
  | nil => rfl
  | cons o os ih =>
    rw [List.forall_mem_cons] at h
    rw [List.foldl_cons, step, h.1]
    exact ih h.2

/-- They leave a record if there is one. -/
theorem exists_fields?_foldl_step_of_record {os : List Override} {name : String}
    (hsection : ∀ o ∈ os, o.inSection = some name) {old : Option Value}
    (hold : ∃ inner, old.bind Value.fields? = some inner) :
    ∃ inner, (os.foldl (step env) old).bind Value.fields? = some inner := by
  induction os generalizing old with
  | nil => exact hold
  | cons o os ih =>
    rw [List.forall_mem_cons] at hsection
    refine ih hsection.2 ?_
    rw [step]
    cases value? env o with
    | none => exact hold
    | some v => exact ⟨_, fields?_update hsection.1 v old⟩

/-- They leave something that reads as a record if one of them has a value. -/
theorem exists_fields?_foldl_step {os : List Override} {name : String}
    (hsection : ∀ o ∈ os, o.inSection = some name) (h : ∃ o ∈ os, value? env o ≠ none)
    (old : Option Value) :
    ∃ inner, (os.foldl (step env) old).bind Value.fields? = some inner := by
  -- The first that has a value makes a record, and those after it leave it one.
  induction os generalizing old with
  | nil =>
    obtain ⟨o, ho, -⟩ := h
    exact absurd ho List.not_mem_nil
  | cons first os ih =>
    rw [List.forall_mem_cons] at hsection
    rw [List.foldl_cons]
    cases hvalue : value? env first with
    | some v =>
      refine exists_fields?_foldl_step_of_record hsection.2 ?_
      rw [step, hvalue]
      exact ⟨_, fields?_update hsection.1 v old⟩
    | none =>
      obtain ⟨o, ho, hsome⟩ := h
      rcases List.mem_cons.1 ho with rfl | ho
      · exact absurd hvalue hsome
      · exact ih hsection.2 ⟨o, ho, hsome⟩ _

/-- **Overrides in a section hide what they replace**: if one of them has a value, what they leave
does not depend on what was at its key. -/
theorem foldl_step_alike_of_at? {os : List Override} {name : String} {a b : Option Value}
    (hsection : ∀ o ∈ os, o.inSection = some name) (hkeys : (os.map (·.key)).Nodup) (ho : o ∈ os)
    (hset : value? env o ≠ none)
    (hat : ∀ key, key ≠ o.key → Value.at? a key = Value.at? b key) :
    Value.AlikeOption (os.foldl (step env) a) (os.foldl (step env) b) := by
  have hsame : ∀ key, Value.at? (os.foldl (step env) a) key =
      Value.at? (os.foldl (step env) b) key := by
    intro key
    by_cases hkey : key = o.key
    · obtain ⟨v, hv⟩ := Option.ne_none_iff_exists'.1 hset
      rw [hkey, at?_foldl_step hsection hkeys ho, at?_foldl_step hsection hkeys ho, hv,
        Option.some_or, Option.some_or]
    · by_cases hmem : key ∈ os.map (·.key)
      · -- Another override of the section puts the same over both, or keeps what is the same.
        obtain ⟨leaf, hleaf, rfl⟩ := List.mem_map.1 hmem
        rw [at?_foldl_step hsection hkeys hleaf, at?_foldl_step hsection hkeys hleaf,
          hat leaf.key hkey]
      · rw [at?_foldl_step_of_not_mem hsection hmem, at?_foldl_step_of_not_mem hsection hmem,
          hat key hkey]
  obtain ⟨f, hf⟩ := exists_fields?_foldl_step hsection ⟨o, ho, hset⟩ a
  obtain ⟨g, hg⟩ := exists_fields?_foldl_step hsection ⟨o, ho, hset⟩ b
  simp only [Value.at?, hf, hg, Option.getD_some] at hsame
  obtain ⟨v, hv, hvFields⟩ := Option.bind_eq_some_iff.1 hf
  obtain ⟨w, hw, hwFields⟩ := Option.bind_eq_some_iff.1 hg
  rw [hv, hw]
  exact .some (.of_forall hvFields hwFields fun key ↦ hsame key ▸ .refl _)

end Override

end ResourceLocator
