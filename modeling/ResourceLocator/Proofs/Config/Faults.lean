import ResourceLocator.Config.Load
import ResourceLocator.Proofs.Config.File
import ResourceLocator.Proofs.Config.Override
import ResourceLocator.Proofs.FileSystem.SameWays
import ResourceLocator.Proofs.Path.Join
import ResourceLocator.Proofs.Value.Json

/-!
# What is at fault when no configuration is loaded

A configuration fault names its source. Loading goes from the lower file to the upper one, to the
overrides, to the whole, and ends at the first fault. So the source of a fault tells how far loading
has come, and that everything before has been accepted.

A file is *rejected* if it is there and cannot be read, holds no document or no mapping, or is
judged invalid (`IsRejected`). Two accepted files make an accepted whole, so that only an
override can be at fault in the whole (`accepts_merge`).

Loading also ends where a value has to be measured that cannot be (`ConfigFile.IsMeasured`). Such a
failure is no configuration fault and has no source.
-/

namespace ResourceLocator

variable {disk : FileSystem} {cwd home dir path : String} {env : Environment} {fields : Fields}
  {failure : Failure}

namespace ConfigFile

/-- Something stands at a path. -/
def IsThere (disk : FileSystem) (cwd path : String) : Prop :=
  '\x00' ∉ path.toList ∧ disk.exists? cwd path = true

/-- The fields of a document: those of a mapping, and none of an empty document. -/
def documentFields? : Value → Option Fields
  | .null => some []
  | document => document.fields?

/-- A file is there and is no configuration file. -/
inductive IsRejected (disk : FileSystem) (cwd path : String) : Prop where
  /-- It cannot be read. -/
  | unreadable {fault : CallFault} (hthere : IsThere disk cwd path)
    (h : disk.readText cwd path = .error fault)
  /-- It holds no document. -/
  | unparsable {text : String} {fault : Yaml.Fault} (hthere : IsThere disk cwd path)
    (htext : disk.readText cwd path = .ok text) (h : Yaml.read text = .error fault)
  /-- It holds a document that is no mapping and not empty. -/
  | notMapping {text : String} {document : Value} (hthere : IsThere disk cwd path)
    (htext : disk.readText cwd path = .ok text) (hdocument : Yaml.read text = .ok document)
    (h : documentFields? document = none)
  /-- It holds a mapping that is judged invalid. -/
  | invalid {text : String} {document : Value} {fields : Fields} (hthere : IsThere disk cwd path)
    (htext : disk.readText cwd path = .ok text) (hdocument : Yaml.read text = .ok document)
    (hfields : documentFields? document = some fields)
    (hjudged : schema.HasVerdict (.record fields))
    (h : ¬schema.Accepts (.record fields))

/-- What a file has: the fields of the document in it, or none if nothing is there. -/
inductive HasFields (disk : FileSystem) (cwd path : String) : Fields → Prop where
  /-- Nothing stands at the path. -/
  | absent (h : ¬IsThere disk cwd path) : HasFields disk cwd path []
  /-- A document stands there that is a mapping, or is empty. -/
  | document {text : String} {document : Value} {fields : Fields} (hthere : IsThere disk cwd path)
    (htext : disk.readText cwd path = .ok text) (hdocument : Yaml.read text = .ok document)
    (hfields : documentFields? document = some fields) : HasFields disk cwd path fields

theorem read_of_not_there (h : ¬IsThere disk cwd path) : read disk cwd path = .ok [] := by
  have hguard : (path.toList.contains '\x00' || !disk.exists? cwd path) = true := by
    simp only [IsThere, not_and] at h
    by_cases hnul : '\x00' ∈ path.toList
    · simp [hnul]
    · simp [h hnul]
  rw [read, if_pos hguard]
  rfl

theorem read_of_there (h : IsThere disk cwd path) :
    read disk cwd path = (readDocument disk cwd path).bind fun document ↦
      match documentFields? document with
      | some fields => .ok fields
      | none => .error (.config .notMapping (some path)) := by
  have hguard : ¬(path.toList.contains '\x00' || !disk.exists? cwd path) = true := by
    simpa [IsThere] using h
  rw [read, if_neg hguard]
  cases readDocument disk cwd path with
  | error failure => rfl
  | ok document => cases document <;> rfl

theorem readDocument_eq_ok_iff {document : Value} : readDocument disk cwd path = .ok document ↔
    ∃ text, disk.readText cwd path = .ok text ∧ Yaml.read text = .ok document := by
  rw [readDocument]
  cases disk.readText cwd path with
  | error fault => simp
  | ok text => cases hdocument : Yaml.read text <;> simp [hdocument]

/-- **What is read of a file** is what it has. -/
theorem read_eq_ok_iff : read disk cwd path = .ok fields ↔ HasFields disk cwd path fields := by
  constructor
  · intro h
    by_cases hthere : IsThere disk cwd path
    · rw [read_of_there hthere] at h
      obtain ⟨document, hread, hfields⟩ := bind_eq_ok_iff.1 h
      obtain ⟨text, htext, hdocument⟩ := readDocument_eq_ok_iff.1 hread
      refine .document hthere htext hdocument ?_
      cases hfound : documentFields? document with
      | none => simp [hfound] at hfields
      | some found =>
        rw [hfound] at hfields
        rw [Except.ok.inj hfields]
    · rw [read_of_not_there hthere] at h
      obtain rfl := Except.ok.inj h
      exact .absent hthere
  · rintro (habsent | ⟨hthere, htext, hdocument, hfields⟩)
    · exact read_of_not_there habsent
    · rw [read_of_there hthere, readDocument_eq_ok_iff.2 ⟨_, htext, hdocument⟩]
      simp only [Except.bind, hfields]

theorem HasFields.unique {fields' : Fields} (h : HasFields disk cwd path fields)
    (h' : HasFields disk cwd path fields') : fields = fields' :=
  Except.ok.inj ((read_eq_ok_iff.2 h).symm.trans (read_eq_ok_iff.2 h'))

end ConfigFile

namespace Config

open ConfigFile

/-! ### One file -/

/-- A file is accepted. -/
def IsAccepted (disk : FileSystem) (cwd path : String) : Prop :=
  ∃ data, readValid disk cwd path = .ok data

theorem readValid_eq_ok_iff {data : Fields} : readValid disk cwd path = .ok data ↔
    ∃ fields, read disk cwd path = .ok fields ∧ schema.Accepts (.record fields) ∧
      data = dataOf fields := by
  rw [readValid, bind_eq_ok_iff]
  simp only [validate_eq_ok_iff]

theorem readValid_of_read (h : read disk cwd path = .ok fields) :
    readValid disk cwd path = validate fields path := by
  rw [readValid, h]
  rfl

/-- The fields of a document that is there. -/
theorem read_of_document {text : String} {document : Value} (hthere : IsThere disk cwd path)
    (htext : disk.readText cwd path = .ok text) (hdocument : Yaml.read text = .ok document) :
    read disk cwd path = match documentFields? document with
      | some fields => .ok fields
      | none => .error (.config .notMapping (some path)) := by
  rw [read_of_there hthere, readDocument]
  simp only [htext, hdocument]
  rfl

/-- A rejected file is at fault, and is named as the source. -/
theorem exists_fault_of_isRejected (h : IsRejected disk cwd path) :
    ∃ fault, readValid disk cwd path = .error (.config fault (some path)) := by
  cases h with
  | @unreadable fault hthere h =>
    refine ⟨.unreadable fault.message, ?_⟩
    rw [readValid, read_of_there hthere, readDocument]
    simp only [h]
    rfl
  | @unparsable text fault hthere htext h =>
    refine ⟨.unreadable fault.message, ?_⟩
    rw [readValid, read_of_there hthere, readDocument]
    simp only [htext, h]
    rfl
  | notMapping hthere htext hdocument h =>
    refine ⟨.notMapping, ?_⟩
    rw [readValid, read_of_document hthere htext hdocument, h]
    rfl
  | invalid hthere htext hdocument hfields hjudged h =>
    have hread := read_of_document hthere htext hdocument
    rw [hfields] at hread
    rw [readValid_of_read hread]
    rcases validate_of_not_accepts h path with ⟨-, issue, hfault⟩ | ⟨hnot, -⟩
    · exact ⟨_, hfault⟩
    · exact absurd hjudged hnot

/-- **A file is accepted or rejected, or has a value in it that cannot be measured.** -/
theorem readValid_cases (disk : FileSystem) (cwd path : String) :
    IsAccepted disk cwd path ∨
    IsRejected disk cwd path ∨
    ∃ fields, read disk cwd path = .ok fields ∧ ¬schema.HasVerdict (.record fields) ∧
      ∃ cause, readValid disk cwd path = .error (.inconvertible cause) := by
  by_cases hthere : IsThere disk cwd path
  · cases htext : disk.readText cwd path with
    | error fault => exact .inr (.inl (.unreadable hthere htext))
    | ok text => cases hdocument : Yaml.read text with
      | error fault => exact .inr (.inl (.unparsable hthere htext hdocument))
      | ok document => cases hfields : documentFields? document with
        | none => exact .inr (.inl (.notMapping hthere htext hdocument hfields))
        | some fields =>
          have hread := read_of_document hthere htext hdocument
          rw [hfields] at hread
          by_cases haccepts : schema.Accepts (.record fields)
          · exact .inl ⟨_, readValid_eq_ok_iff.2 ⟨fields, hread, haccepts, rfl⟩⟩
          · rcases validate_of_not_accepts haccepts path with ⟨hjudged, -⟩ | ⟨hnot, hcause⟩
            · exact .inr (.inl (.invalid hthere htext hdocument hfields hjudged haccepts))
            · rw [← readValid_of_read hread] at hcause
              exact .inr (.inr ⟨fields, hread, hnot, hcause⟩)
  · exact .inl ⟨_, readValid_eq_ok_iff.2 ⟨[], read_of_not_there hthere, schema_accepts_nil, rfl⟩⟩

/-! ### The whole -/

/-- The path of a configuration file is no other source. -/
theorem join_fileName_ne_source (dir : String) : Path.join [dir, fileName] ≠ Override.source := by
  have hname : Path.IsName fileName := by decide
  obtain ⟨front, hfront⟩ := Path.exists_join_eq_append hname dir
  intro h
  rw [hfront] at h
  have hdot : '.' ∈ (front ++ fileName).toList := by
    rw [String.toList_append]
    exact List.mem_append_right _ (by decide)
  rw [h] at hdot
  exact absurd hdot (by decide)

/-- **Two accepted files make an accepted whole.** -/
theorem accepts_merge {lower upper : Fields} (hlower : schema.Accepts (.record lower))
    (hupper : schema.Accepts (.record upper)) :
    schema.Accepts (.record (Fields.merge (dataOf lower) (dataOf upper))) :=
  Schema.record_accepts_merge nodup_knownFields readsByKey_of_mem_knownFields hlower hupper

/-- Some variable is set that overrides a key. -/
def IsOverridden (env : Environment) : Prop := ∃ o ∈ Override.all, env o.variableName ≠ none

/-- Without overrides nothing is changed. -/
theorem apply_of_not_overridden (h : ¬IsOverridden env) (fields : Fields) :
    Override.apply env fields = ⟨fields, none⟩ := by
  have hunset : ∀ o ∈ Override.all, env o.variableName = none := fun o ho ↦
    Option.not_isSome_iff_eq_none.1 fun hsome ↦ h ⟨o, ho, Option.isSome_iff_ne_none.1 hsome⟩
  have hall : ∀ os : List Override, (∀ o ∈ os, env o.variableName = none) →
      Override.applyFrom env os fields = ⟨fields, none⟩ := by
    intro os
    induction os with
    | nil => exact fun _ ↦ rfl
    | cons o os ih =>
      intro hos
      rw [List.forall_mem_cons] at hos
      rw [Override.applyFrom, hos.1]
      exact ih hos.2
  exact hall _ hunset

/-- Fields that loading validates: those of the lower file, those of the upper file once the lower
one is accepted, and those of both under the overrides once both are accepted. -/
inductive IsValidated (disk : FileSystem) (cwd home dir : String) (env : Environment) :
    Fields → Prop where
  /-- The lower file. -/
  | lower {fields : Fields} (h : read disk cwd (globalPath home env) = .ok fields) :
    IsValidated disk cwd home dir env fields
  /-- The upper file. -/
  | upper {fields : Fields} (hlower : IsAccepted disk cwd (globalPath home env))
    (h : read disk cwd (projectPath cwd dir) = .ok fields) :
    IsValidated disk cwd home dir env fields
  /-- The whole. -/
  | whole {lower upper : Fields} (hlower : readValid disk cwd (globalPath home env) = .ok lower)
    (hupper : readValid disk cwd (projectPath cwd dir) = .ok upper)
    (h : (Override.apply env (Fields.merge lower upper)).fault? = none) :
    IsValidated disk cwd home dir env (Override.apply env (Fields.merge lower upper)).fields

/-- A required key is nowhere set. -/
def LacksKey (fields : Fields) : Prop :=
  ∃ key ∈ ["package", "api_version"], (Fields.get? fields key).getD .undefined = .undefined

/-- How loading can end, and what is known then. -/
inductive Ending (disk : FileSystem) (cwd home dir : String) (env : Environment)
    (outcome : Except Failure Config) : Prop where
  /-- The lower file is rejected. -/
  | lower {fault : ConfigFault} (h : IsRejected disk cwd (globalPath home env))
    (houtcome : outcome = .error (.config fault (some (globalPath home env))))
  /-- The upper file is rejected. -/
  | upper {fault : ConfigFault} (hlower : IsAccepted disk cwd (globalPath home env))
    (h : IsRejected disk cwd (projectPath cwd dir))
    (houtcome : outcome = .error (.config fault (some (projectPath cwd dir))))
  /-- An override is at fault. -/
  | overridden {fault : ConfigFault} (hlower : IsAccepted disk cwd (globalPath home env))
    (hupper : IsAccepted disk cwd (projectPath cwd dir)) (h : IsOverridden env)
    (houtcome : outcome = .error (.config fault (some Override.source)))
  /-- A required key is missing. -/
  | missing {fault : ConfigFault} {fields : Fields}
    (hlower : IsAccepted disk cwd (globalPath home env))
    (hupper : IsAccepted disk cwd (projectPath cwd dir))
    (hmerged : mergedFields disk cwd home dir env = .ok fields) (h : LacksKey fields)
    (houtcome : outcome = .error (.config fault none))
  /-- A value cannot be measured. -/
  | unmeasurable {cause : Value.Inconvertible} {fields : Fields}
    (hvalidated : IsValidated disk cwd home dir env fields)
    (h : ¬schema.HasVerdict (.record fields)) (houtcome : outcome = .error (.inconvertible cause))
  /-- The configuration is loaded. -/
  | loaded {config : Config} {fields : Fields}
    (hmerged : mergedFields disk cwd home dir env = .ok fields) (houtcome : outcome = .ok config)

/-- A failure of the lower file ends loading. -/
theorem ofDisk_of_lower_error (h : readValid disk cwd (globalPath home env) = .error failure) :
    ofDisk disk cwd home dir env = .error failure := by
  rw [ofDisk, mergedFields, h]
  rfl

/-- So does one of the upper file, once the lower one is accepted. -/
theorem ofDisk_of_upper_error {lower : Fields}
    (hlower : readValid disk cwd (globalPath home env) = .ok lower)
    (h : readValid disk cwd (projectPath cwd dir) = .error failure) :
    ofDisk disk cwd home dir env = .error failure := by
  rw [ofDisk, mergedFields, hlower, h]
  rfl

/-- So does one of the whole. -/
theorem ofDisk_of_mergedFields_error (h : mergedFields disk cwd home dir env = .error failure) :
    ofDisk disk cwd home dir env = .error failure := by
  rw [ofDisk, h]
  rfl

/-- What is loaded of accepted files. -/
theorem mergedFields_of_accepted {lower upper : Fields}
    (hlower : readValid disk cwd (globalPath home env) = .ok lower)
    (hupper : readValid disk cwd (projectPath cwd dir) = .ok upper) :
    mergedFields disk cwd home dir env =
      match (Override.apply env (Fields.merge lower upper)).fault? with
      | some fault => .error (.config fault (some Override.source))
      | none =>
        validate (Override.apply env (Fields.merge lower upper)).fields Override.source := by
  rw [mergedFields, hlower, hupper]
  simp only [bind, Except.bind, Override.Outcome.failure?]
  cases (Override.apply env (Fields.merge lower upper)).fault? <;> rfl

/-- **Without overrides two accepted files are an accepted whole.** -/
theorem exists_mergedFields (hlower : IsAccepted disk cwd (globalPath home env))
    (hupper : IsAccepted disk cwd (projectPath cwd dir)) (hset : ¬IsOverridden env) :
    ∃ fields, mergedFields disk cwd home dir env = .ok fields := by
  obtain ⟨lower, hlower⟩ := hlower
  obtain ⟨upper, hupper⟩ := hupper
  obtain ⟨lowerRead, -, hlowerAccepts, rfl⟩ := readValid_eq_ok_iff.1 hlower
  obtain ⟨upperRead, -, hupperAccepts, rfl⟩ := readValid_eq_ok_iff.1 hupper
  rw [mergedFields_of_accepted hlower hupper, apply_of_not_overridden hset]
  exact ⟨_, validate_of_accepts (accepts_merge hlowerAccepts hupperAccepts) _⟩

/-- A required key of accepted fields that has no text is missing. -/
theorem lacksKey_of_asText {key : String} (h : schema.Accepts (.record fields))
    (hkey : key ∈ ["package", "api_version"])
    (hnone : (Fields.get? fields key).bind asText = none) :
    LacksKey fields := by
  have hfield : ⟨key, Schema.nonempty, true⟩ ∈ knownFields := by
    simp only [List.mem_cons, List.not_mem_nil, or_false] at hkey
    rcases hkey with rfl | rfl <;> simp [knownFields]
  rcases accepts_at h hfield with habsent | ⟨v, hget, hv⟩
  · exact ⟨key, hkey, habsent⟩
  · obtain ⟨s, rfl, -⟩ := Schema.nonempty_accepts_iff.1 hv
    rw [hget] at hnone
    cases hnone

/-- **Accepted fields make a configuration** unless a required key is missing. -/
theorem ofFile_cases (h : schema.Accepts (.record fields)) (cwd dir : String) :
    (∃ config, ofFile cwd dir (ofFields fields) = .ok config) ∨
    LacksKey fields ∧ ∃ fault, ofFile cwd dir (ofFields fields) = .error (.config fault none) := by
  have hpackage : (ofFields fields).package = (Fields.get? fields "package").bind asText := rfl
  have hversion : (ofFields fields).apiVersion =
      (Fields.get? fields "api_version").bind asText := rfl
  unfold ofFile
  rw [hpackage, hversion]
  cases hp : (Fields.get? fields "package").bind asText with
  | none => exact .inr ⟨lacksKey_of_asText h (by simp) hp, _, rfl⟩
  | some package => cases hv : (Fields.get? fields "api_version").bind asText with
    | none => exact .inr ⟨lacksKey_of_asText h (by simp) hv, _, rfl⟩
    | some version => exact .inl ⟨_, rfl⟩

/-- What becomes of two accepted files. -/
theorem ending_of_accepted {lower upper : Fields}
    (hlower : readValid disk cwd (globalPath home env) = .ok lower)
    (hupper : readValid disk cwd (projectPath cwd dir) = .ok upper) :
    Ending disk cwd home dir env (ofDisk disk cwd home dir env) := by
  have hmerged := mergedFields_of_accepted hlower hupper
  -- A fault of the whole is one of an override: without any there is none.
  have hset : ∀ failure, mergedFields disk cwd home dir env = .error failure →
      IsOverridden env := by
    intro failure hfailure
    by_cases hset : IsOverridden env
    · exact hset
    · obtain ⟨fields, hfields⟩ := exists_mergedFields ⟨lower, hlower⟩ ⟨upper, hupper⟩ hset
      cases hfields.symm.trans hfailure
  cases hfault : (Override.apply env (Fields.merge lower upper)).fault? with
  | some fault =>
    simp only [hfault] at hmerged
    exact .overridden ⟨lower, hlower⟩ ⟨upper, hupper⟩ (hset _ hmerged)
      (ofDisk_of_mergedFields_error hmerged)
  | none =>
    simp only [hfault] at hmerged
    generalize hfields : (Override.apply env (Fields.merge lower upper)).fields = fields at hmerged
    by_cases haccepts : schema.Accepts (.record fields)
    · rw [validate_of_accepts haccepts] at hmerged
      have hdisk : ofDisk disk cwd home dir env = ofFile cwd dir (ofFields (dataOf fields)) := by
        rw [ofDisk, hmerged]
        rfl
      rw [hdisk]
      rcases ofFile_cases (accepts_dataOf haccepts) cwd dir with
        ⟨config, hok⟩ | ⟨hlacks, fault, hmissing⟩
      · exact .loaded hmerged hok
      · exact .missing ⟨lower, hlower⟩ ⟨upper, hupper⟩ hmerged hlacks hmissing
    · rcases validate_of_not_accepts haccepts Override.source with
        ⟨-, issue, hinvalid⟩ | ⟨hjudged, cause, hcause⟩
      · rw [hinvalid] at hmerged
        exact .overridden ⟨lower, hlower⟩ ⟨upper, hupper⟩ (hset _ hmerged)
          (ofDisk_of_mergedFields_error hmerged)
      · exact .unmeasurable (hfields ▸ .whole hlower hupper hfault) hjudged
          (ofDisk_of_mergedFields_error (hmerged.trans hcause))

/-- **How loading ends.** -/
theorem ending (disk : FileSystem) (cwd home dir : String) (env : Environment) :
    Ending disk cwd home dir env (ofDisk disk cwd home dir env) := by
  rcases readValid_cases disk cwd (globalPath home env) with
    ⟨lower, hlower⟩ | hlower | ⟨fields, hfields, hjudged, cause, hlower⟩
  · rcases readValid_cases disk cwd (projectPath cwd dir) with
      ⟨upper, hupper⟩ | hupper | ⟨fields, hfields, hjudged, cause, hupper⟩
    · exact ending_of_accepted hlower hupper
    · obtain ⟨fault, hfault⟩ := exists_fault_of_isRejected hupper
      exact .upper ⟨lower, hlower⟩ hupper (ofDisk_of_upper_error hlower hfault)
    · exact .unmeasurable (.upper ⟨lower, hlower⟩ hfields) hjudged
        (ofDisk_of_upper_error hlower hupper)
  · obtain ⟨fault, hfault⟩ := exists_fault_of_isRejected hlower
    exact .lower hlower (ofDisk_of_lower_error hfault)
  · exact .unmeasurable (.lower hfields) hjudged (ofDisk_of_lower_error hlower)

/-- Fields that are validated and cannot be judged end the loading. -/
theorem exists_cause_of_isValidated (hvalidated : IsValidated disk cwd home dir env fields)
    (h : ¬schema.HasVerdict (.record fields)) :
    ∃ cause, ofDisk disk cwd home dir env = .error (.inconvertible cause) := by
  have hnot : ∀ source, ∃ cause, validate fields source = .error (.inconvertible cause) := by
    intro source
    rcases validate_of_not_accepts (fun haccepts ↦ h haccepts.hasVerdict) source with
      ⟨hjudged, -⟩ | ⟨-, hcause⟩
    · exact absurd hjudged h
    · exact hcause
  cases hvalidated with
  | lower hread =>
    obtain ⟨cause, hcause⟩ := hnot (globalPath home env)
    exact ⟨cause, ofDisk_of_lower_error ((readValid_of_read hread).trans hcause)⟩
  | upper hlower hread =>
    obtain ⟨lower, hlower⟩ := hlower
    obtain ⟨cause, hcause⟩ := hnot (projectPath cwd dir)
    exact ⟨cause, ofDisk_of_upper_error hlower ((readValid_of_read hread).trans hcause)⟩
  | whole hlower hupper hfault =>
    obtain ⟨cause, hcause⟩ := hnot Override.source
    refine ⟨cause, ofDisk_of_mergedFields_error ?_⟩
    rw [mergedFields_of_accepted hlower hupper]
    simp only [hfault, hcause]

/-! ### A value that cannot be measured -/

/-- Nothing is there when the walk fails. -/
theorem not_isThere_of_walkOn {errno : Errno} (h : disk.walkOn .followLink FileSystem.maxLinks
    (FileSystem.startOf cwd path) (FileSystem.walkNames path) = .error errno) :
    ¬IsThere disk cwd path := by
  rintro ⟨-, hexists⟩
  unfold FileSystem.exists? at hexists
  cases hstat : disk.stat cwd path with
  | error fault =>
    rw [hstat] at hexists
    cases hexists
  | ok node =>
    obtain ⟨loc, hwalk, -⟩ := FileSystem.stat_eq_ok_iff.1 hstat
    obtain ⟨-, -, rest, hrun⟩ := FileSystem.exists_walkOn_of_walk hwalk
    cases h.symm.trans hrun

/-- On an empty disk nothing has a name. -/
theorem not_isThere_empty (name : String) (names : List String)
    (hnames : FileSystem.walkNames path = name :: names) (habsolute : Path.isAbsolute path = true)
    (hname : Path.IsName name) (hshort : FileSystem.nameIsTooLong name = false) :
    ¬IsThere .empty cwd path := by
  have hwalk : FileSystem.empty.walkOn .followLink FileSystem.maxLinks
      (FileSystem.startOf cwd path) (FileSystem.walkNames path) = .error .missing := by
    rw [hnames, FileSystem.startOf, if_pos habsolute]
    exact FileSystem.walkOn_missing rfl hname.ne_dot hname.ne_dotDot hshort rfl
  exact not_isThere_of_walkOn hwalk

theorem not_isThere_project : ¬IsThere .empty "/" (projectPath "/" "/p") :=
  not_isThere_empty "p" [".reloc", "config.yaml"] (by decide) (by decide) (by decide) (by decide)

theorem not_isThere_home (env : Environment) (h : env directoryVariable = none) :
    ¬IsThere .empty "/" (globalPath "/home" env) := by
  have hpath : globalPath "/home" env = "/home/.reloc/config.yaml" := by
    rw [globalPath, globalDir, Environment.nonempty?, h]
    decide
  rw [hpath]
  exact not_isThere_empty "home" [".reloc", "config.yaml"] (by decide) (by decide) (by decide)
    (by decide)

/-- What is not there is accepted. -/
theorem readValid_of_not_there (h : ¬IsThere disk cwd path) :
    readValid disk cwd path = .ok (dataOf []) :=
  readValid_eq_ok_iff.2 ⟨[], read_of_not_there h, schema_accepts_nil, rfl⟩

/-- A list of directories with an item that cannot be measured ends loading. -/
theorem exists_cause_of_includes {items : List Value} {item : Value}
    (hlower : ¬IsThere disk cwd (globalPath home env))
    (hupper : ¬IsThere disk cwd (projectPath cwd dir)) (hread : Override.AllReadable env)
    (hvalue : Override.value? env ⟨none, "includes", .json⟩ = some (.list items))
    (hitem : item ∈ items) (hnot : ¬Schema.IsMeasurable item) :
    ∃ cause, ofDisk disk cwd home dir env = .error (.inconvertible cause) := by
  have hfault : (Override.apply env (Fields.merge (dataOf []) (dataOf []))).fault? = none :=
    Override.apply_fault?_eq_none_iff.2 hread
  have hnone : (Override.all.filter fun other ↦ other.inSection = some "includes") = [] := by decide
  have hincludes := Override.get?_apply hfault (o := ⟨none, "includes", .json⟩) (by decide) rfl
  rw [hnone, hvalue, List.foldl_nil, Option.some_or] at hincludes
  exact exists_cause_of_isValidated
    (.whole (readValid_of_not_there hlower) (readValid_of_not_there hupper) hfault) fun hjudged ↦
      hnot (schema_hasVerdict_iff.1 hjudged item (.directory (by simp) hincludes hitem))

/-- A directory whose length is no number. -/
def unmeasurable : Value := .record [("length", .record [("toString", .null)])]

/-- A list of this directory alone, as a text. -/
def unmeasurableText : String := "[\x7b\"length\":\x7b\"toString\":null\x7d\x7d]"

theorem read?_unmeasurableText : Json.read? unmeasurableText = some (.list [unmeasurable]) := by
  have hnull := Json.readValue?_null 55 ['\x7d', '\x7d', ']']
  have hlength := Json.readValue?_record "toString".toList (by decide) hnull
  have hitem := Json.readValue?_record "length".toList (by decide) hlength
  have hlist := Json.readValue?_list hitem
  have htext : unmeasurableText.toList = '[' :: '\x7b' :: '"' :: ("length".toList ++ '"' :: ':' ::
      '\x7b' :: '"' :: ("toString".toList ++ '"' :: ':' :: 'n' :: 'u' :: 'l' :: 'l' ::
        ['\x7d', '\x7d', ']'])) := by decide
  have hfuel : 2 * unmeasurableText.toList.length + 2 = 62 := by decide
  rw [Json.read?, hfuel, htext]
  simp only [Option.bind_eq_bind]
  rw [hlist]
  rfl

theorem not_isMeasurable_unmeasurable : ¬Schema.IsMeasurable unmeasurable := by
  rintro ⟨measured, hmeasured⟩
  cases hmeasured

/-- An environment in which the list is set, and nothing else. -/
def unmeasurableEnvironment : Environment :=
  .ofList [("RELOC_INCLUDES", unmeasurableText)]

theorem readValue_unmeasurableText :
    Override.readValue ⟨none, "includes", .json⟩ unmeasurableText = .ok (.list [unmeasurable]) := by
  rw [Override.readValue]
  simp only [read?_unmeasurableText]

theorem allReadable_unmeasurableEnvironment : Override.AllReadable unmeasurableEnvironment := by
  have hsame : ∀ o ∈ Override.all, o.variableName = "RELOC_INCLUDES" →
      o = ⟨none, "includes", .json⟩ := by
    decide
  intro o ho raw hset
  by_cases hname : o.variableName = "RELOC_INCLUDES"
  · obtain rfl := hsame o ho hname
    obtain rfl : unmeasurableText = raw := Option.some.inj hset
    exact ⟨_, readValue_unmeasurableText⟩
  · have hunset : unmeasurableEnvironment o.variableName = none := by
      simp [unmeasurableEnvironment, Environment.ofList, Ne.symm hname]
    cases hunset.symm.trans hset

/-- In that environment no configuration is loaded from an empty disk. -/
theorem exists_cause_unmeasurable :
    ∃ cause, ofDisk .empty "/" "/home" "/p" unmeasurableEnvironment =
      .error (.inconvertible cause) :=
  exists_cause_of_includes (not_isThere_home _ rfl) not_isThere_project
    allReadable_unmeasurableEnvironment
    (Override.value?_eq_some rfl readValue_unmeasurableText) List.mem_cons_self
    not_isMeasurable_unmeasurable

/-! ### The source of a fault -/

/-- **Loading ends** with a configuration, with a configuration fault, or because a value cannot be
measured. -/
theorem ofDisk_cases (disk : FileSystem) (cwd home dir : String) (env : Environment) :
    (∃ config, ofDisk disk cwd home dir env = .ok config) ∨
      (∃ fault source, ofDisk disk cwd home dir env = .error (.config fault source)) ∨
      ∃ cause, ofDisk disk cwd home dir env = .error (.inconvertible cause) := by
  cases ending disk cwd home dir env with
  | lower _ h => exact .inr (.inl ⟨_, _, h⟩)
  | upper _ _ h => exact .inr (.inl ⟨_, _, h⟩)
  | overridden _ _ _ h => exact .inr (.inl ⟨_, _, h⟩)
  | missing _ _ _ _ h => exact .inr (.inl ⟨_, _, h⟩)
  | unmeasurable _ _ h => exact .inr (.inr ⟨_, h⟩)
  | loaded _ h => exact .inl ⟨_, h⟩

/-- **A configuration fault names its source.** Loading ends with a configuration, with a
configuration fault, or because a value cannot be measured where a text is asked for that is not
empty; the last happens for those values alone. The source of a fault is the lower file if and only
if that is rejected. With any other source the lower file is accepted; then the source is the upper
file, which is rejected, or else that is accepted too, and either some override is set or a required
key is missing. Without overrides two accepted files always make an accepted whole. -/
theorem fault_names_source (disk : FileSystem) (cwd home dir : String) (env : Environment) :
    ((∃ config, ofDisk disk cwd home dir env = .ok config) ∨
      (∃ fault source, ofDisk disk cwd home dir env = .error (.config fault source)) ∨
      ∃ cause, ofDisk disk cwd home dir env = .error (.inconvertible cause)) ∧
    ((∃ cause, ofDisk disk cwd home dir env = .error (.inconvertible cause)) ↔
      ∃ fields v, IsValidated disk cwd home dir env fields ∧ IsMeasured fields v ∧
        ¬Schema.IsMeasurable v) ∧
    ((∃ fault, ofDisk disk cwd home dir env = .error (.config fault (some (globalPath home env)))) ↔
      IsRejected disk cwd (globalPath home env)) ∧
    (∀ fault source, ofDisk disk cwd home dir env = .error (.config fault source) →
      source ≠ some (globalPath home env) →
      IsAccepted disk cwd (globalPath home env) ∧
        (source = some (projectPath cwd dir) ∧ IsRejected disk cwd (projectPath cwd dir) ∨
        IsAccepted disk cwd (projectPath cwd dir) ∧
          (source = some Override.source ∧ IsOverridden env ∨
          source = none ∧ ∃ fields, mergedFields disk cwd home dir env = .ok fields ∧
            LacksKey fields))) ∧
    (IsAccepted disk cwd (globalPath home env) → IsAccepted disk cwd (projectPath cwd dir) →
      ¬IsOverridden env → ∃ fields, mergedFields disk cwd home dir env = .ok fields) := by
  have hending := ending disk cwd home dir env
  refine ⟨ofDisk_cases disk cwd home dir env, ⟨?_, ?_⟩, ⟨?_, ?_⟩, ?_, exists_mergedFields⟩
  · rintro ⟨cause, hcause⟩
    cases hending with
    | unmeasurable hvalidated hjudged =>
      rw [schema_hasVerdict_iff] at hjudged
      obtain ⟨v, hv⟩ := Classical.not_forall.1 hjudged
      obtain ⟨hmeasured, hnot⟩ := Classical.not_imp.1 hv
      exact ⟨_, v, hvalidated, hmeasured, hnot⟩
    | lower _ h => cases h.symm.trans hcause
    | upper _ _ h => cases h.symm.trans hcause
    | overridden _ _ _ h => cases h.symm.trans hcause
    | missing _ _ _ _ h => cases h.symm.trans hcause
    | loaded _ h => cases h.symm.trans hcause
  · rintro ⟨fields, v, hvalidated, hmeasured, hnot⟩
    exact exists_cause_of_isValidated hvalidated fun hjudged ↦
      hnot (schema_hasVerdict_iff.1 hjudged v hmeasured)
  · rintro ⟨fault, hfault⟩
    cases hending with
    | lower hrejected => exact hrejected
    | upper _ hrejected h =>
      -- The two files are one.
      obtain ⟨-, hpath⟩ := Failure.config.inj (Except.error.inj (h.symm.trans hfault))
      exact Option.some.inj hpath ▸ hrejected
    | overridden _ _ _ h =>
      obtain ⟨-, hpath⟩ := Failure.config.inj (Except.error.inj (h.symm.trans hfault))
      exact absurd (Option.some.inj hpath).symm (join_fileName_ne_source _)
    | missing _ _ _ _ h => cases h.symm.trans hfault
    | unmeasurable _ _ h => cases h.symm.trans hfault
    | loaded _ h => cases h.symm.trans hfault
  · intro hrejected
    obtain ⟨fault, hfault⟩ := exists_fault_of_isRejected hrejected
    exact ⟨fault, ofDisk_of_lower_error hfault⟩
  · intro fault source hfault hsource
    have hsame : ∀ {fault' source'},
        ofDisk disk cwd home dir env = .error (.config fault' source') →
        source' = source := fun h ↦ (Failure.config.inj (Except.error.inj (h.symm.trans hfault))).2
    cases hending with
    | lower _ h => exact absurd (hsame h).symm hsource
    | upper hlower hrejected h => exact ⟨hlower, .inl ⟨(hsame h).symm, hrejected⟩⟩
    | overridden hlower hupper hset h => exact ⟨hlower, .inr ⟨hupper, .inl ⟨(hsame h).symm, hset⟩⟩⟩
    | missing hlower hupper hmerged hlacks h =>
      exact ⟨hlower, .inr ⟨hupper, .inr ⟨(hsame h).symm, _, hmerged, hlacks⟩⟩⟩
    | unmeasurable _ _ h => cases h.symm.trans hfault
    | loaded _ h => cases h.symm.trans hfault

/-- **A failure of loading need not be a configuration fault**: on an empty disk, a list of
directories with an item whose length is no number cannot even be found invalid. -/
theorem ofDisk_unmeasurable :
    ¬((∃ config, ofDisk .empty "/" "/home" "/p" unmeasurableEnvironment = .ok config) ∨
      ∃ fault source, ofDisk .empty "/" "/home" "/p" unmeasurableEnvironment =
        .error (.config fault source)) := by
  obtain ⟨cause, hcause⟩ := exists_cause_unmeasurable
  rintro (⟨config, h⟩ | ⟨fault, source, h⟩)
  · cases hcause.symm.trans h
  · cases hcause.symm.trans h

end Config

end ResourceLocator
