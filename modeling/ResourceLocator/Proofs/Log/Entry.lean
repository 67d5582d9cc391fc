import ResourceLocator.Proofs.Log.Journal

/-!
# What becomes of one entry

To make an entry is to show it on the console, if entries are shown, and then to put it into the
file, if there is one (`Journal.runIn_write_eq`). The console and the file get the same line after
the time of the entry (`Note.shownText`, `Note.keptText`). The line is the kind, the component, the
message and the fields of the entry (`Note.exists_line_eq`); the text of the fields is told by a
relation of its own (`Note.ShowsFields`), which has one text for each list of fields.

Either the file takes the entry (`World.Takes`), or it does not, for a reason that can be told
(`World.Refuses`); then this is told, and the file is given up (`World.noted_cases`). What has been
shown is no matter for the file.
-/

namespace ResourceLocator

open Session

variable {w : World} {path : String}

/-! ### What an entry says -/

/-- An entry as the file has it. -/
def Note.keptText (note : Note) (now : Instant) : String :=
  String.ofList now.timestamp ++ " " ++ note.line ++ "\n"

/-- An entry as the console shows it. -/
def Note.shownText (note : Note) (now : Instant) : String :=
  String.ofList now.clockTime ++ " " ++ note.line ++ "\n"

/-- What is said when a file has not taken an entry. -/
def Journal.notice (reason : String) : String := "reloc: debug log disabled: " ++ reason ++ "\n"

/-- Only an absent value and a symbol have no JSON text. -/
theorem Json.eq_of_write?_none {v : Value} (h : Json.write? v = .ok none) :
    v = .undefined ∨ ∃ name, v = .symbol name := by
  cases v with
  | undefined => exact .inl rfl
  | symbol name => exact .inr ⟨name, rfl⟩
  | null | bool | integer | text | cycle | bytes | instant | set | table =>
    rw [write?] at h
    cases h
  | number n => cases n <;> simp [write?] at h
  | list items =>
    rw [write?] at h
    cases hitems : writeItems items <;> simp [hitems, Except.map] at h
  | record fields | error _ _ fields =>
    rw [write?] at h
    cases hfields : writeFields fields <;> simp [hfields, Except.map] at h

namespace Note

/-- What an entry shows of a value that is there. -/
inductive ShowsValue : Value → String → Prop where
  /-- A text stands as it is. -/
  | text (s : String) : ShowsValue (.text s) s
  /-- A symbol has no JSON text, and stands by its name. -/
  | symbol (name : String) : ShowsValue (.symbol name) ("Symbol(" ++ name ++ ")")
  /-- Any other value stands as JSON. -/
  | json {v : Value} {text : String} (hv : ∀ s, v ≠ .text s) (h : Json.write? v = .ok (some text)) :
    ShowsValue v text
  /-- What cannot be written as JSON is replaced by a remark. -/
  | unwritable {v : Value} {cause : Json.Unwritable} (h : Json.write? v = .error cause) :
    ShowsValue v "[unserializable]"

/-- What an entry shows of its fields, in their order: ` key=value` for each that is there. -/
inductive ShowsFields : Fields → String → Prop where
  /-- There are none. -/
  | nil : ShowsFields [] ""
  /-- What is absent is left out. -/
  | absent {fields : Fields} {text : String} (key : String) (h : ShowsFields fields text) :
    ShowsFields ((key, .undefined) :: fields) text
  /-- What is there is shown before the others. -/
  | shown {v : Value} {value : String} {fields : Fields} {text : String} (key : String)
    (hv : ShowsValue v value) (h : ShowsFields fields text) :
    ShowsFields ((key, v) :: fields) (" " ++ key ++ "=" ++ value ++ text)

/-- A value is shown in one way. -/
theorem ShowsValue.unique {v : Value} {s t : String} (hs : ShowsValue v s) (ht : ShowsValue v t) :
    s = t := by
  have hwritten : ∀ {a b : Except Json.Unwritable (Option String)}, Json.write? v = a →
      Json.write? v = b → a = b := fun ha hb ↦ ha.symm.trans hb
  cases hs with
  | text s =>
    cases ht with
    | text => rfl
    | json hv => exact absurd rfl (hv s)
    | unwritable h => cases h
  | symbol name =>
    cases ht with
    | symbol => rfl
    | json hv h => cases h
    | unwritable h => cases h
  | json hv h =>
    cases ht with
    | text t => exact absurd rfl (hv t)
    | symbol => cases h
    | json hv' h' => exact Option.some.inj (Except.ok.inj (hwritten h h'))
    | unwritable h' => cases hwritten h h'
  | unwritable h =>
    cases ht with
    | text | symbol => cases h
    | json hv' h' => cases hwritten h h'
    | unwritable => rfl

/-- An absent value is not shown. -/
theorem not_showsValue_undefined (s : String) : ¬ShowsValue .undefined s := by
  intro h
  cases h with
  | json hv h => cases h
  | unwritable h => cases h

/-- **Fields are shown in one way.** -/
theorem ShowsFields.unique {fields : Fields} {s t : String} (hs : ShowsFields fields s)
    (ht : ShowsFields fields t) : s = t := by
  induction hs generalizing t with
  | nil =>
    cases ht
    rfl
  | absent key _ ih =>
    cases ht with
    | absent _ h => exact ih h
    | shown _ hv => exact absurd hv (not_showsValue_undefined _)
  | shown key hv _ ih =>
    cases ht with
    | absent => exact absurd hv (not_showsValue_undefined _)
    | shown _ hv' h => rw [hv.unique hv', ih h]

theorem showsValue_shownValue {v : Value} (h : v ≠ .undefined) : ShowsValue v (shownValue v) := by
  unfold shownValue
  split
  · exact .text _
  · next hv =>
    split
    · next hwrite => exact .json hv hwrite
    · next hwrite =>
      rcases Json.eq_of_write?_none hwrite with rfl | ⟨name, rfl⟩
      · exact absurd rfl h
      · exact .symbol name
    · next hwrite => exact .unwritable hwrite

theorem showsFields_shownField (fields : Fields) :
    ShowsFields fields (String.join (fields.map shownField)) := by
  induction fields with
  | nil => exact .nil
  | cons field fields ih =>
    obtain ⟨key, v⟩ := field
    rw [List.map_cons, String.join_cons, shownField]
    split
    · next hv =>
      obtain rfl : v = .undefined := hv
      rw [String.empty_append]
      exact .absent key ih
    · next hv => exact .shown key (showsValue_shownValue hv) ih

/-- **The line of an entry**: its kind, its component, its message and its fields. -/
theorem exists_line_eq (note : Note) : ∃ fields, ShowsFields note.fields fields ∧
    note.line = (match note.kind with
      | .debug => "DEBUG"
      | .info => "INFO"
      | .error => "ERROR") ++ " [" ++ note.component ++ "] " ++ note.message ++ fields :=
  ⟨_, showsFields_shownField note.fields, by cases hkind : note.kind <;> rw [line, hkind] <;> rfl⟩

end Note

namespace World

/-- What the console shows of an entry. -/
def shownOf (w : World) (note : Note) : String :=
  if w.journal.isVerbose then note.shownText w.now else ""

/-- The world after a text has been written to the standard error. -/
def printed (w : World) (text : String) : World :=
  { w with effects.errors := w.effects.errors ++ text }

/-- The world after an entry has been shown, if entries are. -/
def showing (w : World) (note : Note) : World := w.printed (w.shownOf note)

/-- A file takes a text, if it is put there now. -/
def Takes (w : World) (path text : String) : Prop :=
  (runIn (appendFile path text) w).1 = .ok ()

/-- A file does not take a text, if it is put there now; the reason can be told. -/
def Refuses (w : World) (path text reason : String) : Prop :=
  ∃ failure, (runIn (appendFile path text) w).1 = .error failure ∧ failure.message = .ok reason

end World

/-! ### Making an entry -/

/-- How putting a text into a file ends depends on the disk alone. -/
theorem Session.outcome_appendFile (path text : String) (w : World) :
    (runIn (appendFile path text) w).1 = (guardPath path).bind fun _ ↦
      match w.disk.append w.cwd path text with
      | .ok _ => .ok ()
      | .error fault => .error (.call fault) := by
  have hguard := runIn_ofExcept (guardPath path) w
  unfold appendFile changeFile
  cases hpath : guardPath path with
  | error failure =>
    rw [hpath] at hguard
    rw [runIn_bind_of_error hguard]
    rfl
  | ok =>
    rw [hpath] at hguard
    rw [runIn_bind_of_ok hguard, runIn_bind_of_ok (runIn_get w)]
    cases happend : w.disk.append w.cwd path text <;> simp [happend, Except.bind]

/-- What has been shown is no matter for the file. -/
theorem World.outcome_appendFile_showing (w : World) (note : Note) (path text : String) :
    (runIn (appendFile path text) (w.showing note)).1 = (runIn (appendFile path text) w).1 := by
  rw [outcome_appendFile, outcome_appendFile]
  rfl

/-- **To make an entry** is to show it, if entries are shown, and then to keep it. -/
theorem Journal.runIn_write_eq (note : Note) (w : World) :
    runIn (write note) w = runIn (match w.journal.file with
      | none => pure ()
      | some file => keep file (note.keptText w.now)) (w.showing note) := by
  unfold write
  rw [runIn_bind_of_ok (runIn_get w)]
  cases hverbose : w.journal.isVerbose with
  | false =>
    have hshowing : w.showing note = w := by
      simp [World.showing, World.printed, World.shownOf, hverbose]
    rw [hshowing]
    rfl
  | true =>
    have hshowing : w.showing note = w.printed (note.shownText w.now) := by
      simp [World.showing, World.shownOf, hverbose]
    rw [hshowing]
    exact runIn_bind_of_ok (runIn_printError _ w) _

namespace World

theorem noted_of_none (h : w.journal.file = none) (note : Note) :
    w.noted note = w.showing note := by
  rw [noted, Journal.runIn_write_eq, h]
  rfl

/-- **An entry is put into the file, or the file is given up.** -/
theorem noted_cases (hfile : w.journal.file = some path) (note : Note) :
    (w.Takes path (note.keptText w.now) ∧ ∃ disk loc,
      w.disk.append w.cwd path (note.keptText w.now) = .ok (disk, loc) ∧
      w.noted note =
        { w.showing note with disk, effects.written := w.effects.written ++ [loc] }) ∨
    ∃ reason, w.Refuses path (note.keptText w.now) reason ∧
      w.noted note =
        { (w.showing note).printed (Journal.notice reason) with journal.file := none } := by
  have houtcome := w.outcome_appendFile_showing note path (note.keptText w.now)
  have hnoted : w.noted note =
      (runIn (Journal.keep path (note.keptText w.now)) (w.showing note)).2 := by
    rw [noted, Journal.runIn_write_eq, hfile]
  rw [hnoted, Journal.keep]
  rcases runIn_changeFile_cases (fun fs cwd ↦ fs.append cwd path (note.keptText w.now)) path
      (w.showing note) with ⟨disk, loc, happend, hrun⟩ | ⟨failure, reason, hreason, hrun⟩
  · replace hrun : runIn (appendFile path (note.keptText w.now)) (w.showing note) = _ := hrun
    rw [hrun] at houtcome
    refine .inl ⟨houtcome.symm, disk, loc, happend, ?_⟩
    rw [runIn_tryCatch_of_ok hrun]
    rfl
  · replace hrun : runIn (appendFile path (note.keptText w.now)) (w.showing note) = _ := hrun
    rw [hrun] at houtcome
    refine .inr ⟨reason, ⟨failure, houtcome.symm, hreason⟩, ?_⟩
    have hmessage : runIn (messageOf failure) (w.showing note) = (.ok reason, w.showing note) := by
      rw [messageOf, runIn_ofExcept, hreason]
    rw [runIn_tryCatch_of_error hrun, runIn_bind_of_ok hmessage,
      runIn_bind_of_ok (runIn_printError _ _), runIn_modify]
    rfl

end World

end ResourceLocator
