import ResourceLocator.Proofs.Config.Precedence
import ResourceLocator.Proofs.Text.Blank
import ResourceLocator.Proofs.Tool.EnvName

/-!
# How far overrides are applied

Overrides are applied one after the other, up to the first whose value is refused
(`IsFirstRefused`). What comes before it can be applied by itself (`applyFrom_append`), and is all
that is applied if it and those behind it are not set (`apply_without`): so the fields that a
refusal leaves behind are those of an application that ends well.

An override changes fields at the end of its *path*, the keys that lead there. At a path that
neither leads through another nor lies on the way to it there is what was there before
(`atPath?_put_of_apart`), whether the section on the way had to be made anew or not. So the value of
an override stays unless one behind it changes something at its path or below it: none behind it
changes something above it (`not_strictPrefix_of_all_eq`), because a section comes before its keys.
-/

namespace ResourceLocator

/-- The environment without some variables. -/
def Environment.without (env : Environment) (names : List String) : Environment := fun name ↦
  if name ∈ names then none else env name

namespace Fields

/-- What fields have at the end of a path of keys. -/
def atPath? (fields : Fields) (path : List String) : Option Value :=
  path.foldl Value.at? (some (.record fields))

theorem atPath?_cons (fields : Fields) (key : String) (path : List String) :
    fields.atPath? (key :: path) = path.foldl Value.at? (get? fields key) := rfl

/-- Neither of two paths starts with the other. -/
def Apart (path other : List String) : Prop := ¬path <+: other ∧ ¬other <+: path

end Fields

namespace Override

variable {o p : Override} {os before after : List Override} {env env' : Environment}
  {fields : Fields} {keys : List String} {raw : String} {v : Value} {b : Bool} {fault : ConfigFault}

/-! ### Values of variables -/

/-- The word for a truth value. -/
def wordOf : Bool → String
  | true => "true"
  | false => "false"

/-- A text is the word for a truth value, in letters of either case and with blanks around it. -/
def SaysTruth (raw : String) (b : Bool) : Prop :=
  ∃ front word back : List Char, raw.toList = front ++ word ++ back ∧
    Text.IsGap front ∧ Text.IsGap back ∧ word.map Char.toLower = (wordOf b).toList

/-- What the value of a variable is read as. -/
inductive Reads (o : Override) (raw : String) : Value → Prop where
  /-- A text stands for itself. -/
  | text (hkind : o.kind = .text) : Reads o raw (.text raw)
  /-- A truth value is given by its word. -/
  | truth {b : Bool} (hkind : o.kind = .truth) (h : SaysTruth raw b) : Reads o raw (.bool b)
  /-- Anything else is given as JSON. -/
  | json {v : Value} (hkind : o.kind = .json) (h : Json.read? raw = some v) : Reads o raw v

/-- The value of a variable is refused if it should be the word for a truth value or a JSON text,
and is none. -/
def Refuses (o : Override) (raw : String) : Prop :=
  (o.kind = .truth ∧ ∀ b, ¬SaysTruth raw b) ∨ (o.kind = .json ∧ Json.read? raw = none)

/-- What is wrong with a value that is refused. -/
def refusal (o : Override) : ConfigFault :=
  match o.kind with
  | .truth => .notBoolean o.variableName
  | _ => .notJson o.variableName

/-- No blank is a capital. -/
theorem toLower_of_isBlank {c : Char} (h : Text.isBlank c = true) : c.toLower = c := by
  refine dif_neg fun hcapital ↦ ?_
  obtain ⟨hlow, hhigh⟩ := (EnvName.isUpper_iff c).1 (decide_eq_true hcapital)
  simp only [Text.isBlank, Bool.or_eq_true, Bool.and_eq_true, decide_eq_true_eq, beq_iff_eq] at h
  omega

/-- A text whose small letters are a word without blanks has no blanks either. -/
theorem isTrimmed_of_map_toLower {word : List Char} {s : String}
    (hword : word.map Char.toLower = s.toList) (hs : s.toList.any Text.isBlank = false) :
    Text.IsTrimmed word := by
  have hnone : ∀ c ∈ word, Text.isBlank c = false := by
    intro c hc
    refine Bool.eq_false_iff.2 fun hblank ↦ ?_
    have hlower : c.toLower ∈ s.toList := hword ▸ List.mem_map_of_mem hc
    rw [toLower_of_isBlank hblank] at hlower
    exact List.any_eq_false.1 hs c hlower hblank
  exact ⟨fun c hc ↦ hnone c (List.mem_of_mem_head? hc),
    fun c hc ↦ hnone c (List.mem_of_getLast? hc)⟩

theorem readTruth?_eq_some_iff_map : readTruth? raw = some b ↔
    (Text.trim raw.toList).map Char.toLower = (wordOf b).toList := by
  rw [← String.ofList_inj, String.ofList_toList, readTruth?]
  split
  · next h => cases b <;> simp [h, wordOf]
  · next h => cases b <;> simp [h, wordOf]
  · next htrue hfalse =>
    refine iff_of_false nofun ?_
    cases b
    · exact hfalse
    · exact htrue

/-- **A truth value is read off its word**, and off nothing else. -/
theorem readTruth?_eq_some_iff : readTruth? raw = some b ↔ SaysTruth raw b := by
  rw [readTruth?_eq_some_iff_map]
  constructor
  · intro h
    obtain ⟨front, back, hfront, hback, hraw⟩ := Text.exists_trim raw.toList
    exact ⟨front, _, back, hraw, hfront, hback, h⟩
  · rintro ⟨front, word, back, hraw, hfront, hback, hword⟩
    have htrimmed : Text.IsTrimmed word :=
      isTrimmed_of_map_toLower hword (by cases b <;> rfl)
    rw [hraw, Text.trim_eq_of_isTrimmed hfront hback htrimmed, hword]

/-- **What a value is read as.** -/
theorem readValue_eq_ok_iff : o.readValue raw = .ok v ↔ o.Reads raw v := by
  obtain ⟨inSection, key, kind⟩ := o
  constructor
  · intro h
    cases kind with
    | text =>
      cases h
      exact .text rfl
    | truth =>
      cases hread : readTruth? raw with
      | none => simp [readValue, hread] at h
      | some b =>
        obtain rfl : Value.bool b = v := by simpa [readValue, hread] using h
        exact .truth rfl (readTruth?_eq_some_iff.1 hread)
    | json =>
      cases hread : Json.read? raw with
      | none => simp [readValue, hread] at h
      | some w =>
        obtain rfl : w = v := by simpa [readValue, hread] using h
        exact .json rfl hread
  · rintro (hkind | ⟨hkind, hword⟩ | ⟨hkind, hjson⟩)
    · cases hkind
      rfl
    · cases hkind
      simp only [readValue, readTruth?_eq_some_iff.2 hword]
    · cases hkind
      simp only [readValue, hjson]

/-- **Which values are refused**, and what is wrong with them. -/
theorem readValue_eq_error_iff :
    o.readValue raw = .error fault ↔ o.Refuses raw ∧ fault = o.refusal := by
  obtain ⟨inSection, key, kind⟩ := o
  cases kind with
  | text => simp [readValue, Refuses]
  | truth =>
    have hnone : readTruth? raw = none ↔ ∀ b, ¬SaysTruth raw b := by
      rw [Option.eq_none_iff_forall_ne_some]
      exact forall_congr' fun b ↦ not_congr readTruth?_eq_some_iff
    cases hread : readTruth? raw with
    | none => simp [readValue, Refuses, refusal, hread, hnone.1 hread, eq_comm]
    | some b =>
      have hsome : ¬∀ b, ¬SaysTruth raw b := fun h ↦ h b (readTruth?_eq_some_iff.1 hread)
      simp [readValue, Refuses, hread, -Bool.forall_bool, hsome]
  | json =>
    cases hread : Json.read? raw with
    | none => simp [readValue, Refuses, refusal, hread, eq_comm]
    | some w => simp [readValue, Refuses, hread]

/-! ### One after the other -/

theorem applyFrom_cons_of_reads (hset : env o.variableName = some raw) (hreads : o.Reads raw v) :
    applyFrom env (o :: os) fields = applyFrom env os (o.put fields v) := by
  simp only [applyFrom, hset, readValue_eq_ok_iff.2 hreads]

theorem applyFrom_cons_of_refuses (hset : env o.variableName = some raw) (h : o.Refuses raw) :
    applyFrom env (o :: os) fields = ⟨fields, some o.refusal⟩ := by
  simp only [applyFrom, hset, readValue_eq_error_iff.2 ⟨h, rfl⟩]

theorem applyFrom_cons_of_unset (h : env o.variableName = none) :
    applyFrom env (o :: os) fields = applyFrom env os fields := by
  simp only [applyFrom, h]

/-- A value is refused or read as something. -/
theorem refuses_or_reads (o : Override) (raw : String) : o.Refuses raw ∨ ∃ v, o.Reads raw v := by
  cases h : o.readValue raw with
  | error fault => exact .inl (readValue_eq_error_iff.1 h).1
  | ok v => exact .inr ⟨v, readValue_eq_ok_iff.1 h⟩

/-- **What one override does**: nothing if it is not set, and if it is set, it ends the application
or puts its value. -/
theorem applyFrom_cons_cases (env : Environment) (o : Override) (os : List Override)
    (fields : Fields) :
    (env o.variableName = none ∧ applyFrom env (o :: os) fields = applyFrom env os fields) ∨
    (∃ raw, env o.variableName = some raw ∧ o.Refuses raw ∧
      applyFrom env (o :: os) fields = ⟨fields, some o.refusal⟩) ∨
    ∃ raw v, env o.variableName = some raw ∧ o.Reads raw v ∧
      applyFrom env (o :: os) fields = applyFrom env os (o.put fields v) := by
  cases hset : env o.variableName with
  | none => exact .inl ⟨rfl, applyFrom_cons_of_unset hset⟩
  | some raw =>
    rcases o.refuses_or_reads raw with hrefused | ⟨v, hreads⟩
    · exact .inr (.inl ⟨raw, rfl, hrefused, applyFrom_cons_of_refuses hset hrefused⟩)
    · exact .inr (.inr ⟨raw, v, rfl, hreads, applyFrom_cons_of_reads hset hreads⟩)

/-- The variable of an override is set to a value that is refused. -/
def IsRefused (env : Environment) (o : Override) : Prop :=
  ∃ raw, env o.variableName = some raw ∧ o.Refuses raw

/-- An override is the first of some that is refused. -/
structure IsFirstRefused (env : Environment) (os before : List Override) (o : Override)
    (after : List Override) : Prop where
  /-- The others come before it and behind it. -/
  eq : os = before ++ o :: after
  /-- None before it is refused. -/
  accepted : ∀ p ∈ before, ¬p.IsRefused env
  /-- It is refused. -/
  refused : o.IsRefused env

theorem exists_isFirstRefused (h : ∃ o ∈ os, o.IsRefused env) :
    ∃ before o after, IsFirstRefused env os before o after := by
  induction os with
  | nil =>
    obtain ⟨o, ho, -⟩ := h
    exact absurd ho List.not_mem_nil
  | cons first os ih =>
    by_cases hfirst : first.IsRefused env
    · exact ⟨[], first, os, rfl, fun p hp ↦ absurd hp List.not_mem_nil, hfirst⟩
    · rw [List.exists_mem_cons_iff, or_iff_right hfirst] at h
      obtain ⟨before, o, after, heq, haccepted, hrefused⟩ := ih h
      exact ⟨first :: before, o, after, by rw [heq, List.cons_append],
        List.forall_mem_cons.2 ⟨hfirst, haccepted⟩, hrefused⟩

/-- **An application ends well** if no override is refused. -/
theorem applyFrom_fault?_eq_none_iff_forall :
    (applyFrom env os fields).fault? = none ↔ ∀ o ∈ os, ¬o.IsRefused env := by
  rw [applyFrom_fault?_eq_none_iff]
  refine forall₂_congr fun o _ ↦ ?_
  rw [IsRefused, not_exists]
  refine forall_congr' fun raw ↦ ?_
  rw [not_and]
  refine imp_congr_right fun _ ↦ ⟨?_, fun hnot ↦ ?_⟩
  · rintro ⟨v, hread⟩ hrefuses
    rw [readValue_eq_error_iff.2 ⟨hrefuses, rfl⟩] at hread
    cases hread
  · obtain ⟨v, hreads⟩ := (o.refuses_or_reads raw).resolve_left hnot
    exact ⟨v, readValue_eq_ok_iff.2 hreads⟩

/-- **What comes first can be applied by itself**, if it ends well. -/
theorem applyFrom_append (h : (applyFrom env before fields).fault? = none) :
    applyFrom env (before ++ after) fields =
      applyFrom env after (applyFrom env before fields).fields := by
  induction before generalizing fields with
  | nil => rfl
  | cons o before ih =>
    rw [List.cons_append]
    rcases applyFrom_cons_cases env o before fields with
      ⟨hunset, heq⟩ | ⟨raw, hset, hrefused, heq⟩ | ⟨raw, v, hset, hreads, heq⟩
    · rw [heq] at h ⊢
      rw [applyFrom_cons_of_unset hunset, ih h]
    · rw [heq] at h
      cases h
    · rw [heq] at h ⊢
      rw [applyFrom_cons_of_reads hset hreads, ih h]

/-- Environments that agree on the variables of overrides are applied alike. -/
theorem applyFrom_congr (h : ∀ o ∈ os, env o.variableName = env' o.variableName) :
    applyFrom env os fields = applyFrom env' os fields := by
  induction os generalizing fields with
  | nil => rfl
  | cons o os ih =>
    rw [List.forall_mem_cons] at h
    simp only [applyFrom, h.1, ih h.2]

/-- Overrides that are not set do nothing. -/
theorem applyFrom_of_unset (h : ∀ o ∈ os, env o.variableName = none) :
    applyFrom env os fields = ⟨fields, none⟩ := by
  induction os generalizing fields with
  | nil => rfl
  | cons o os ih =>
    rw [List.forall_mem_cons] at h
    rw [applyFrom_cons_of_unset h.1, ih h.2]

/-- **An application ends at the first override that is refused**, with the fields that those before
it leave. -/
theorem IsFirstRefused.applyFrom_eq (h : IsFirstRefused env os before o after) :
    applyFrom env os fields = ⟨(applyFrom env before fields).fields, some o.refusal⟩ := by
  obtain ⟨raw, hset, hrefuses⟩ := h.refused
  rw [h.eq, applyFrom_append (applyFrom_fault?_eq_none_iff_forall.2 h.accepted),
    applyFrom_cons_of_refuses hset hrefuses]

theorem nodup_map_variableName : (all.map variableName).Nodup := by
  decide

/-- **Without some overrides and all behind them**, what comes before is applied. -/
theorem apply_without (heq : all = before ++ after)
    (h : (applyFrom env before fields).fault? = none) :
    apply (env.without (after.map variableName)) fields =
      ⟨(applyFrom env before fields).fields, none⟩ := by
  have hnodup := nodup_map_variableName
  rw [heq, List.map_append, List.nodup_append] at hnodup
  have hbefore : ∀ o ∈ before,
      env.without (after.map variableName) o.variableName = env o.variableName := fun o ho ↦
    if_neg fun h ↦ hnodup.2.2 _ (List.mem_map_of_mem ho) _ h rfl
  have hafter : ∀ o ∈ after, env.without (after.map variableName) o.variableName = none :=
    fun o ho ↦ if_pos (List.mem_map_of_mem ho)
  have hsame : ∀ fields, applyFrom (env.without (after.map variableName)) before fields =
      applyFrom env before fields := fun fields ↦ applyFrom_congr hbefore
  rw [apply, heq, applyFrom_append (by rw [hsame, h]), hsame, applyFrom_of_unset hafter]

/-! ### Paths -/

/-- The keys that lead to what an override changes. -/
def path (o : Override) : List String := o.inSection.toList ++ [o.key]

/-- **The value of an override is at the end of its path.** -/
theorem atPath?_put_path (o : Override) (fields : Fields) (v : Value) :
    (o.put fields v).atPath? o.path = some v := by
  cases hsection : o.inSection with
  | none =>
    have hroot : o.root = o.key := by rw [root, hsection, Option.getD_none]
    rw [path, hsection, Option.toList_none, List.nil_append, Fields.atPath?_cons, List.foldl_nil,
      get?_put, if_pos hroot, update_of_whole hsection]
  | some name =>
    have hroot : o.root = name := by rw [root, hsection, Option.getD_some]
    rw [path, hsection, Option.toList_some, List.singleton_append, Fields.atPath?_cons, get?_put,
      if_pos hroot, List.foldl_cons, List.foldl_nil, at?_update hsection, if_pos rfl]

/-- **An override changes nothing at the paths that are apart from its own.** -/
theorem atPath?_put_of_apart (h : Fields.Apart o.path keys) (fields : Fields) (v : Value) :
    (o.put fields v).atPath? keys = fields.atPath? keys := by
  obtain ⟨habove, hbelow⟩ := h
  cases keys with
  | nil => exact absurd List.nil_prefix hbelow
  | cons key rest =>
    rw [Fields.atPath?_cons, Fields.atPath?_cons, get?_put]
    split
    · next hroot =>
      -- Both lead into one section, and from there on by different keys.
      cases hsection : o.inSection with
      | none =>
        have hkey : o.key = key := by rw [← hroot, root, hsection, Option.getD_none]
        exact absurd ⟨rest, by simp [path, hsection, hkey]⟩ habove
      | some name =>
        have hname : name = key := by rw [← hroot, root, hsection, Option.getD_some]
        have hpath : o.path = [key, o.key] := by simp [path, hsection, hname]
        rw [hpath] at habove hbelow
        cases rest with
        | nil => exact absurd ⟨[o.key], rfl⟩ hbelow
        | cons leaf rest =>
          have hleaf : o.key ≠ leaf := fun h ↦ habove ⟨rest, by rw [h]; rfl⟩
          rw [List.foldl_cons, List.foldl_cons, at?_update hsection, if_neg hleaf]
    · rfl

/-- **Overrides change nothing at the paths that are apart from all that are set.** -/
theorem atPath?_applyFrom_of_apart
    (h : ∀ o ∈ os, env o.variableName ≠ none → Fields.Apart o.path keys) (fields : Fields) :
    (applyFrom env os fields).fields.atPath? keys = fields.atPath? keys := by
  induction os generalizing fields with
  | nil => rfl
  | cons o os ih =>
    rw [List.forall_mem_cons] at h
    rcases applyFrom_cons_cases env o os fields with
      ⟨-, heq⟩ | ⟨raw, -, -, heq⟩ | ⟨raw, v, hset, -, heq⟩
    · rw [heq, ih h.2]
    · rw [heq]
    · have hapart := h.1 (by rw [hset]; exact Option.some_ne_none raw)
      rw [heq, ih h.2, atPath?_put_of_apart hapart]

/-- An override comes behind all those whose paths lead to its own, and no two have one path. -/
theorem pairwise_path : all.Pairwise fun o p ↦ ¬p.path <+: o.path := by
  decide

/-- No override changes anything on the way to what an earlier one changes. -/
theorem not_prefix_of_all_eq (heq : all = before ++ o :: after) :
    ∀ p ∈ after, ¬p.path <+: o.path := by
  have hpairwise := pairwise_path
  rw [heq, List.pairwise_append, List.pairwise_cons] at hpairwise
  exact hpairwise.2.1.1

/-- **The value of an override stays** if none behind it changes anything at or below its path. -/
theorem atPath?_apply (h : (apply env fields).fault? = none) (heq : all = before ++ o :: after)
    (hset : env o.variableName = some raw) (hreads : o.Reads raw v)
    (hlater : ∀ p ∈ after, o.path <+: p.path → env p.variableName = none) :
    (apply env fields).fields.atPath? o.path = some v := by
  have hbefore : (applyFrom env before fields).fault? = none := by
    rw [apply, applyFrom_fault?_eq_none_iff_forall, heq] at h
    exact applyFrom_fault?_eq_none_iff_forall.2 fun p hp ↦ h p (List.mem_append_left _ hp)
  have hapart : ∀ p ∈ after, env p.variableName ≠ none → Fields.Apart p.path o.path :=
    fun p hp hpset ↦ ⟨not_prefix_of_all_eq heq p hp, fun hbelow ↦ hpset (hlater p hp hbelow)⟩
  rw [apply, heq, applyFrom_append hbefore, applyFrom_cons_of_reads hset hreads,
    atPath?_applyFrom_of_apart hapart, atPath?_put_path]

/-! ### What an application leaves -/

/-- **Overrides are applied up to the first that is refused.** They fail exactly if there is one,
with its fault; and the fields are then what they are if it and all behind it are not set. If they
do not fail, the value of each that is set is at the end of its path, unless one behind it changes
something there. At every path that is apart from those of all that are set, there is what was there
before. -/
theorem apply_stops_at_first_refused (env : Environment) (fields : Fields) :
    let outcome := apply env fields
    (outcome.failure? ≠ none ↔ ∃ o ∈ all, o.IsRefused env) ∧
      (outcome.failure? ≠ none → ∃ before o after, IsFirstRefused env all before o after) ∧
      (∀ before o after, IsFirstRefused env all before o after →
        outcome.failure? = some (.config o.refusal (some "environment")) ∧
          apply (env.without ((o :: after).map variableName)) fields =
            ⟨outcome.fields, none⟩) ∧
      (outcome.failure? = none → ∀ before o after, all = before ++ o :: after →
        ∀ raw, env o.variableName = some raw → ∃ v, o.Reads raw v ∧
          ((∀ p ∈ after, o.path <+: p.path → env p.variableName = none) →
            outcome.fields.atPath? o.path = some v)) ∧
      ∀ keys, (∀ o ∈ all, env o.variableName ≠ none → Fields.Apart o.path keys) →
        outcome.fields.atPath? keys = fields.atPath? keys := by
  intro outcome
  have hnone : outcome.failure? = none ↔ ∀ o ∈ all, ¬o.IsRefused env := by
    rw [Outcome.failure?, Option.map_eq_none_iff]
    exact applyFrom_fault?_eq_none_iff_forall
  have hfails : outcome.failure? ≠ none ↔ ∃ o ∈ all, o.IsRefused env := by
    rw [Ne, hnone]
    push Not
    rfl
  refine ⟨hfails, fun h ↦ exists_isFirstRefused (hfails.1 h), fun before o after hfirst ↦ ?_,
    fun hends before o after heq raw hset ↦ ?_, fun keys h ↦ atPath?_applyFrom_of_apart h fields⟩
  · have heq : outcome = ⟨(applyFrom env before fields).fields, some o.refusal⟩ :=
      hfirst.applyFrom_eq
    rw [heq]
    exact ⟨rfl, apply_without hfirst.eq (applyFrom_fault?_eq_none_iff_forall.2 hfirst.accepted)⟩
  · have hmem : o ∈ all := heq ▸ List.mem_append_right before List.mem_cons_self
    obtain ⟨v, hreads⟩ := (o.refuses_or_reads raw).resolve_left fun hrefuses ↦
      hnone.1 hends o hmem ⟨raw, hset, hrefuses⟩
    have hfault : outcome.fault? = none := Option.map_eq_none_iff.1 hends
    exact ⟨v, hreads, atPath?_apply hfault heq hset hreads⟩

end Override

end ResourceLocator
