import ResourceLocator.Proofs.Config.File
import ResourceLocator.Proofs.Value.Plain

/-!
# Valid configuration files

What a configuration file may hold is told here without the schema: eleven keys, each with what is
valid at it (`ConfigFile.IsValid`). The schema accepts exactly that of plain data, and makes of it
the same again, but for the order of its fields (`ConfigFile.schema_recognizes`). A valid file over
another one is valid, so that files can be checked one by one and then be put over each other.
-/

namespace ResourceLocator.ConfigFile

open Schema

variable {v : Value}

/-! ### What is valid -/

/-- A text that is not empty. -/
def IsNonempty (v : Value) : Prop := ∃ s, v = .text s ∧ s ≠ ""

/-- The name of a variable: capitals, digits and underscores, and no digit at the start. -/
def IsVariableName (v : Value) : Prop :=
  ∃ c cs, v = .text (String.ofList (c :: cs)) ∧ ('A' ≤ c ∧ c ≤ 'Z' ∨ c = '_') ∧
    ∀ d ∈ cs, 'A' ≤ d ∧ d ≤ 'Z' ∨ '0' ≤ d ∧ d ≤ '9' ∨ d = '_'

/-- A list of texts that are not empty. -/
def IsDirs (v : Value) : Prop := ∃ items, v = .list items ∧ ∀ item ∈ items, IsNonempty item

/-- A truth value. -/
def IsTruth (v : Value) : Prop := ∃ b, v = .bool b

/-- The name of a level of the console log. -/
def IsLevel (v : Value) : Prop := ∃ s ∈ ["debug", "info", "warn", "error"], v = .text s

/-- What is valid in the section on the trace tool. -/
def traceToolTable : Table := [("env_var", IsVariableName), ("companion", IsNonempty)]

/-- What is valid in the section on the debug log. -/
def debugTable : Table := [("enabled", IsTruth), ("log_file", IsNonempty)]

/-- What is valid in a file. -/
def fileTable : Table :=
  [("package", IsNonempty),
   ("api_version", IsNonempty),
   ("env_prefix", IsVariableName),
   ("resource_offset", IsNonempty),
   ("includes", IsDirs),
   ("system_dirs", IsDirs),
   ("development_dirs", IsDirs),
   ("trace_tool", IsRecordOf traceToolTable ["env_var", "companion"]),
   ("log_level", IsLevel),
   ("debug", IsRecordOf debugTable []),
   ("verbose", IsTruth)]

/-- A valid configuration file. -/
def IsValid (v : Value) : Prop := IsRecordOf fileTable [] v

/-! ### What is accepted -/

theorem isWellFormed_iff {s : String} : EnvName.isWellFormed s = true ↔
    ∃ c cs, s = String.ofList (c :: cs) ∧ ('A' ≤ c ∧ c ≤ 'Z' ∨ c = '_') ∧
      ∀ d ∈ cs, 'A' ≤ d ∧ d ≤ 'Z' ∨ '0' ≤ d ∧ d ≤ '9' ∨ d = '_' := by
  have hupper (c : Char) : c.isUpper = true ↔ 'A' ≤ c ∧ c ≤ 'Z' := decide_eq_true_iff
  have hdigit (c : Char) : c.isDigit = true ↔ '0' ≤ c ∧ c ≤ '9' :=
    Bool.and_eq_true_iff.trans (and_congr decide_eq_true_iff decide_eq_true_iff)
  obtain ⟨cs, rfl⟩ : ∃ cs, s = String.ofList cs := ⟨s.toList, String.ofList_toList.symm⟩
  unfold EnvName.isWellFormed
  rw [String.toList_ofList]
  constructor
  · intro h
    cases cs with
    | nil => cases h
    | cons c cs =>
      obtain ⟨hc, hcs⟩ := Bool.and_eq_true_iff.1 h
      refine ⟨c, cs, rfl, ?_, fun d hd ↦ ?_⟩
      · simpa [hupper] using hc
      · simpa [hupper, hdigit, or_assoc] using List.all_eq_true.1 hcs d hd
  · rintro ⟨c, rest, hcs, hc, hrest⟩
    obtain rfl : cs = c :: rest := String.ofList_injective hcs
    refine Bool.and_eq_true_iff.2 ⟨?_, List.all_eq_true.2 fun d hd ↦ ?_⟩
    · simpa [hupper] using hc
    · simpa [hupper, hdigit, or_assoc] using hrest d hd

theorem form_accepts_iff_isVariableName {message : String} :
    (form EnvName.isWellFormed message).Accepts v ↔ IsVariableName v := by
  rw [form_accepts_iff]
  constructor
  · rintro ⟨s, rfl, hs⟩
    obtain ⟨c, cs, rfl, hc, hcs⟩ := isWellFormed_iff.1 hs
    exact ⟨c, cs, rfl, hc, hcs⟩
  · rintro ⟨c, cs, rfl, hc, hcs⟩
    exact ⟨_, rfl, isWellFormed_iff.2 ⟨c, cs, rfl, hc, hcs⟩⟩

theorem dirsSchema_accepts_iff : dirsSchema.Accepts v ↔ IsDirs v := by
  simp only [dirsSchema, listOf_accepts_iff, nonempty_accepts_iff, IsDirs, IsNonempty]

theorem logLevelSchema_accepts_iff : logLevelSchema.Accepts v ↔ IsLevel v := by
  have hnames : Level.all.map Level.name = ["debug", "info", "warn", "error"] := rfl
  rw [logLevelSchema, oneOf_accepts_iff, hnames, IsLevel]

theorem not_isNonempty_undefined : ¬IsNonempty .undefined := by simp [IsNonempty]

theorem not_isVariableName_undefined : ¬IsVariableName .undefined := by simp [IsVariableName]

theorem not_isDirs_undefined : ¬IsDirs .undefined := by simp [IsDirs]

theorem not_isTruth_undefined : ¬IsTruth .undefined := by simp [IsTruth]

/-- A row matches a field if it says what is accepted, and the absent value is not. -/
theorem matches_of_iff {field : Field} {valid : Value → Prop}
    (h : ∀ v, field.schema.Accepts v ↔ valid v) (habsent : ¬valid .undefined) :
    field.Matches (field.key, valid) :=
  ⟨rfl, fun _ ↦ h _, fun _ haccepts ↦ habsent ((h _).1 haccepts)⟩

theorem nonempty_matches (key : String) (isOptional : Bool) :
    Field.Matches ⟨key, nonempty, isOptional⟩ (key, IsNonempty) :=
  matches_of_iff (fun _ ↦ nonempty_accepts_iff) not_isNonempty_undefined

theorem form_matches (key message : String) (isOptional : Bool) :
    Field.Matches ⟨key, form EnvName.isWellFormed message, isOptional⟩ (key, IsVariableName) :=
  matches_of_iff (fun _ ↦ form_accepts_iff_isVariableName) not_isVariableName_undefined

theorem dirsSchema_matches (key : String) : Field.Matches ⟨key, dirsSchema, true⟩ (key, IsDirs) :=
  matches_of_iff (fun _ ↦ dirsSchema_accepts_iff) not_isDirs_undefined

theorem bool_matches (key : String) : Field.Matches ⟨key, bool, true⟩ (key, IsTruth) :=
  matches_of_iff (fun _ ↦ bool_accepts_iff) not_isTruth_undefined

/-- A section that may be left out matches what its own table has valid. -/
theorem section_matches (key : String) {known : List Field} {table : Table}
    (hknown : (known.map (·.key)).Nodup) (hmatch : List.Forall₂ Field.Matches known table) :
    Field.Matches ⟨key, record known, true⟩ (key, IsRecordOf table (requiredKeys known)) :=
  ⟨rfl, record_accepts_iff_isRecordOf hknown hmatch, fun h ↦ nomatch h⟩

theorem debugFields_match : List.Forall₂ Field.Matches debugFields debugTable :=
  .cons (bool_matches _) <| .cons (nonempty_matches _ _) .nil

theorem traceToolFields_match : List.Forall₂ Field.Matches traceToolFields traceToolTable :=
  .cons (form_matches _ _ _) <| .cons (nonempty_matches _ _) .nil

/-- **The table says of each key what the schema accepts there.** -/
theorem knownFields_match : List.Forall₂ Field.Matches knownFields fileTable :=
  .cons (nonempty_matches _ _) <| .cons (nonempty_matches _ _) <| .cons (form_matches _ _ _) <|
  .cons (nonempty_matches _ _) <| .cons (dirsSchema_matches _) <| .cons (dirsSchema_matches _) <|
  .cons (dirsSchema_matches _) <|
  .cons (section_matches _ nodup_traceToolFields traceToolFields_match) <|
  .cons (matches_of_iff (fun _ ↦ logLevelSchema_accepts_iff) (by simp [IsLevel])) <|
  .cons (section_matches _ nodup_debugFields debugFields_match) <| .cons (bool_matches _) .nil

/-- **What is accepted of plain data is a valid file.** -/
theorem schema_accepts_iff_isValid (hv : v.IsPlain) : schema.Accepts v ↔ IsValid v :=
  record_accepts_iff_isRecordOf nodup_knownFields knownFields_match hv

/-! ### What is made of it -/

theorem debugSchema_settles : Settles debugSchema := by
  refine record_settles nodup_debugFields (by decide) ?_ ?_
  · simp only [debugFields, List.forall_mem_cons]
    exact ⟨bool_readsByKey, nonempty_readsByKey, fun _ h ↦ absurd h List.not_mem_nil⟩
  · simp only [debugFields, List.forall_mem_cons]
    exact ⟨bool_keeps.settles, nonempty_keeps.settles, fun _ h ↦ absurd h List.not_mem_nil⟩

theorem traceToolSchema_settles : Settles traceToolSchema := by
  refine record_settles nodup_traceToolFields (by decide) ?_ ?_
  · simp only [traceToolFields, List.forall_mem_cons]
    exact ⟨form_readsByKey _ _, nonempty_readsByKey, fun _ h ↦ absurd h List.not_mem_nil⟩
  · simp only [traceToolFields, List.forall_mem_cons]
    exact ⟨(form_keeps _ _).settles, nonempty_keeps.settles, fun _ h ↦ absurd h List.not_mem_nil⟩

theorem schema_settles : Settles schema := by
  have hdirs : Settles dirsSchema := (listOf_keeps nonempty_keeps).settles
  refine record_settles nodup_knownFields (by decide) readsByKey_of_mem_knownFields ?_
  simp only [knownFields, List.forall_mem_cons]
  exact ⟨nonempty_keeps.settles, nonempty_keeps.settles, (form_keeps _ _).settles,
    nonempty_keeps.settles, hdirs, hdirs, hdirs, traceToolSchema_settles,
    (oneOf_keeps _).settles, debugSchema_settles, bool_keeps.settles,
    fun _ h ↦ absurd h List.not_mem_nil⟩

theorem accepts_iff_exists : schema.Accepts v ↔ ∃ data, schema v = .ok ⟨[], data⟩ := by
  refine ⟨fun h ↦ ⟨_, h⟩, ?_⟩
  rintro ⟨data, hdata⟩
  exact (accepts_iff_of_eq hdata).2 rfl

/-- **The schema recognizes valid files.** It accepts of plain data what is valid, and nothing else;
what it makes of a valid file is the same, but for the order of its fields, and is made of itself
again; and a valid file over another one is accepted. -/
theorem schema_recognizes (hv : v.IsPlain) :
    ((∃ data, schema v = .ok ⟨[], data⟩) ↔ IsValid v) ∧
    (∀ data, schema v = .ok ⟨[], data⟩ →
      data.IsPlain ∧ data.Alike v ∧ schema data = .ok ⟨[], data⟩) ∧
    ∀ w : Value, w.IsPlain → IsValid v → IsValid w → ∃ lower upper,
      v = .record lower ∧ w = .record upper ∧
        ∃ data, schema (.record (Fields.merge lower upper)) = .ok ⟨[], data⟩ := by
  refine ⟨accepts_iff_exists.symm.trans (schema_accepts_iff_isValid hv), fun data hdata ↦ ?_,
    fun w hw hvalid hvalid' ↦ ?_⟩
  · have haccepts : schema.Accepts v := accepts_iff_exists.2 ⟨data, hdata⟩
    obtain rfl : schema.dataOf v = data := congrArg Verdict.data (verdictOf_eq hdata)
    have hagain := schema_readsByKey.accepts_dataOf haccepts
    rw [Accepts, schema_settles.dataOf_dataOf hv haccepts] at hagain
    exact ⟨schema_settles.isPlain hv haccepts, schema_readsByKey.dataOf_alike haccepts, hagain⟩
  · have haccepts := (schema_accepts_iff_isValid hv).2 hvalid
    have haccepts' := (schema_accepts_iff_isValid hw).2 hvalid'
    obtain ⟨lower, rfl, -⟩ := hvalid
    obtain ⟨upper, rfl, -⟩ := hvalid'
    exact ⟨lower, upper, rfl, rfl, _,
      record_accepts_merge_of_nodup hw.nodup_keys haccepts haccepts'⟩

section Small

/-- A section on the debug log, with its keys in another order than that of the schema. -/
def smallSection : Value := .record [("log_file", .text "/log"), ("enabled", .bool true)]

/-- A file with this section. -/
def smallFile : Value :=
  .record [("verbose", .bool true), ("includes", .list [.text "/a"]), ("debug", smallSection)]

theorem isPlain_smallFile : smallFile.IsPlain := by
  have hsection : smallSection.IsPlain := by
    refine .record ?_ (by decide) (by decide)
    simp [Value.IsPlain.text, Value.IsPlain.bool]
  have hincludes : (Value.list [.text "/a"]).IsPlain :=
    .list (List.forall_mem_singleton.2 (.text "/a"))
  refine .record ?_ (by decide) (by decide)
  simp [hsection, hincludes, Value.IsPlain.bool]

theorem isValid_smallFile : IsValid smallFile := by
  have hsection : IsRecordOf debugTable [] smallSection := by
    refine ⟨_, rfl, ?_, fun _ h ↦ absurd h List.not_mem_nil⟩
    simp [debugTable, IsTruth, IsNonempty]
  have hincludes : IsDirs (.list [.text "/a"]) :=
    ⟨_, rfl, List.forall_mem_singleton.2 ⟨"/a", rfl, by decide⟩⟩
  refine ⟨_, rfl, ?_, fun _ h ↦ absurd h List.not_mem_nil⟩
  simp [fileTable, hsection, hincludes, IsTruth]

end Small

/-- A file in another order is accepted, and what is made of it stays as it is. -/
theorem schema_recognizes_smallFile : smallFile.IsPlain ∧ IsValid smallFile ∧
    ∃ data, schema smallFile = .ok ⟨[], data⟩ ∧ data.Alike smallFile ∧
      schema data = .ok ⟨[], data⟩ := by
  obtain ⟨haccepts, hdata, -⟩ := schema_recognizes isPlain_smallFile
  obtain ⟨data, hsmall⟩ := haccepts.2 isValid_smallFile
  exact ⟨isPlain_smallFile, isValid_smallFile, data, hsmall, (hdata data hsmall).2⟩

end ResourceLocator.ConfigFile
