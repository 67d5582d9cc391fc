import ResourceLocator.Proofs.Log.History
import ResourceLocator.Proofs.Value.OneLine

/-!
# The lines of a debug log

An entry ends with a newline, and inside it there are as many as its fields show bare: a text and
the name of a symbol stand in an entry as they are, and nothing else can bring a newline into it, as
long as the component, the message and the keys have none (`Note.newlines_text`). So an entry is one
line if and only if its texts and symbols are on one line (`Note.isLine_text_iff`), and then as many
lines are in the file after its header as entries have been made since it was opened
(`World.newlines_of_log`). A text of two lines makes two lines of its entry
(`World.newlines_of_two_lines`).
-/

namespace ResourceLocator

open FileSystem Session Text

open Journal (Event)

variable {w asked opened : World} {path projectDir head : String} {loc : Location} {v : Value}
  {config : Option JournalConfig} {note : Note} {event : Event} {events : List Event}

/-! ### Newlines -/

namespace Text

variable {s : String}

/-- The number of newlines of a text. -/
def newlines (s : String) : Nat := s.toList.count '\n'

theorem newlines_append (s t : String) : newlines (s ++ t) = newlines s + newlines t := by
  rw [newlines, String.toList_append, List.count_append]
  rfl

theorem newlines_eq_zero_iff : newlines s = 0 ↔ IsOneLine s := List.count_eq_zero

/-- One line: a newline is at the end, and there are no others. -/
def IsLine (s : String) : Prop := ∃ body, s = body ++ "\n" ∧ IsOneLine body

theorem newlines_of_isLine (h : IsLine s) : newlines s = 1 := by
  obtain ⟨body, rfl, hbody⟩ := h
  rw [newlines_append, newlines_eq_zero_iff.2 hbody]
  rfl

theorem newlines_join (texts : List String) :
    newlines (String.join texts) = (texts.map newlines).sum := by
  rw [newlines, String.toList_join, List.count_flatMap]
  rfl

end Text

/-- The newlines of a value that stand in an entry as they are: those of a text, and of the name of
a symbol. -/
def Value.bareNewlines : Value → Nat
  | .text s => newlines s
  | .symbol name => newlines name
  | _ => 0

theorem Value.bareNewlines_eq_zero (htext : ∀ s, v ≠ .text s) (hsymbol : ∀ name, v ≠ .symbol name) :
    v.bareNewlines = 0 := by
  cases v with
  | text s => exact absurd rfl (htext s)
  | symbol name => exact absurd rfl (hsymbol name)
  | _ => rfl

/-! ### Entries -/

namespace Note

/-- What an entry names itself is on one line: its component, its message and its keys. -/
structure NamesOnOneLine (note : Note) : Prop where
  /-- The component. -/
  component : IsOneLine note.component
  /-- The message. -/
  message : IsOneLine note.message
  /-- The keys. -/
  keys : ∀ field ∈ note.fields, IsOneLine field.1

/-- The newlines that the fields of an entry show bare. -/
def bareNewlines (note : Note) : Nat := (note.fields.map fun field ↦ field.2.bareNewlines).sum

/-- **A value is shown on one line**, but for the newlines that it shows bare. -/
theorem newlines_shownValue (v : Value) : newlines (shownValue v) = v.bareNewlines := by
  unfold shownValue
  split
  · rfl
  · next htext =>
    have hbare : (∀ name, v ≠ .symbol name) → v.bareNewlines = 0 := v.bareNewlines_eq_zero htext
    split
    · next text hwrite =>
      rw [newlines_eq_zero_iff.2 (Json.isOneLine_write? v hwrite), hbare]
      rintro name rfl
      cases hwrite
    · next hwrite =>
      rcases Json.eq_of_write?_none hwrite with rfl | ⟨name, rfl⟩
      · decide
      · have hsymbol : Value.toText (.symbol name) = .ok ("Symbol(" ++ name ++ ")") := rfl
        rw [hsymbol]
        show newlines ("Symbol(" ++ name ++ ")") = newlines name
        rw [newlines_append, newlines_append]
        exact Nat.zero_add _
    · next hwrite =>
      rw [hbare]
      · decide
      · rintro name rfl
        cases hwrite

theorem newlines_shownField {field : String × Value} (h : IsOneLine field.1) :
    newlines (shownField field) = field.2.bareNewlines := by
  obtain ⟨key, v⟩ := field
  rw [shownField]
  split
  · next hundefined =>
    obtain rfl : v = .undefined := hundefined
    rfl
  · rw [newlines_append, newlines_append, newlines_append, newlines_shownValue,
      newlines_eq_zero_iff.2 h]
    exact Nat.zero_add _

theorem newlines_line (h : note.NamesOnOneLine) : newlines note.line = note.bareNewlines := by
  have hword : newlines note.kind.word = 0 := by cases note.kind <;> decide
  have hfields : (note.fields.map shownField).map newlines =
      note.fields.map fun field ↦ field.2.bareNewlines := by
    rw [List.map_map]
    exact List.map_congr_left fun field hfield ↦ newlines_shownField (h.keys field hfield)
  simp only [line, newlines_append, newlines_join, hword, hfields,
    newlines_eq_zero_iff.2 h.component, newlines_eq_zero_iff.2 h.message]
  exact Nat.zero_add _

/-- **An entry has a newline at its end**, and inside it those that its fields show bare. -/
theorem newlines_text (h : note.NamesOnOneLine) {time : String} (htime : IsOneLine time) :
    newlines (time ++ " " ++ note.line ++ "\n") = note.bareNewlines + 1 := by
  rw [newlines_append, newlines_append, newlines_append, newlines_line h,
    newlines_eq_zero_iff.2 htime]
  exact congrArg (· + 1) (Nat.zero_add _)

/-- An entry is one line if and only if its fields show no newline bare. -/
theorem isLine_text_iff (h : note.NamesOnOneLine) {time : String} (htime : IsOneLine time) :
    IsLine (time ++ " " ++ note.line ++ "\n") ↔ note.bareNewlines = 0 := by
  have htext := newlines_text h htime
  refine ⟨fun hline ↦ ?_, fun hbare ↦ ⟨_, rfl, newlines_eq_zero_iff.1 ?_⟩⟩
  · rw [newlines_of_isLine hline] at htext
    exact (Nat.succ.inj htext).symm
  · rw [newlines_append, hbare] at htext
    exact Nat.succ.inj htext

end Note

/-! ### Runs -/

/-- The entries among events. -/
def Journal.notesOf (events : List Event) : List Note :=
  events.filterMap fun
    | .write note => some note
    | _ => none

/-- The entries that events give the file have as many newlines as there are entries, and those that
the entries show bare. -/
theorem Moment.newlines_kept (m : Moment)
    (h : ∀ note ∈ Journal.notesOf events, note.NamesOnOneLine) :
    newlines (String.join (m.kept events)) =
      (Journal.notesOf events).length + ((Journal.notesOf events).map Note.bareNewlines).sum := by
  induction events generalizing m with
  | nil => rfl
  | cons event events ih =>
    rw [kept_cons, String.join_append, newlines_append]
    cases event with
    | write note =>
      obtain ⟨hnote, hrest⟩ := List.forall_mem_cons.1 (show ∀ other ∈ note :: _, _ from h)
      have hkept : newlines (note.keptText m.now) = note.bareNewlines + 1 :=
        note.newlines_text hnote (Instant.isOneLine_timestamp m.now)
      rw [ih _ hrest, keptAt, newlines_join, List.map_singleton, List.sum_singleton, hkept,
        show Journal.notesOf (.write note :: events) = note :: Journal.notesOf events from rfl,
        List.length_cons, List.map_cons, List.sum_cons]
      omega
    | configure | setVerbose | setLock | setClock =>
      rw [ih _ h]
      exact Nat.zero_add _

namespace World

/-- Entries are kept in a file that can be written to. -/
structure LogIsOpen (w : World) (path : String) (loc : Location) : Prop where
  /-- Entries are kept under the path. -/
  file : w.journal.file = some path
  /-- The choice has been made. -/
  isConfigured : w.journal.isConfigured = true
  /-- The path has no NUL. -/
  noNul : '\x00' ∉ path.toList
  /-- It leads to the file. -/
  leads : w.disk.openNew w.cwd path = .ok loc
  /-- The file is not locked. -/
  node : ∃ text, w.disk.node? loc = some (.file text false)

namespace LogIsOpen

/-- The file takes whatever is put there. -/
theorem takes (h : w.LogIsOpen path loc) (text : String) : w.Takes path text := by
  obtain ⟨old, hnode⟩ := h.node
  have happend : w.disk.append w.cwd path text = .ok _ := update_of_file _ h.leads hnode
  rw [Takes, outcome_appendFile, guardPath_of_not_nul h.noNul, happend]
  rfl

/-- It stays open, unless somebody locks something. -/
theorem afterEvent (h : w.LogIsOpen path loc)
    (hunlocked : ∀ locked loc, event ≠ .setLock locked loc) :
    (w.afterEvent event).LogIsOpen path loc := by
  cases event with
  | configure config projectDir =>
    have hsame : w.afterEvent (.configure config projectDir) = w :=
      congrArg Prod.snd (Journal.runIn_configure_of_asked h.isConfigured config projectDir)
    rwa [hsame]
  | setVerbose | setClock => exact ⟨h.file, h.isConfigured, h.noNul, h.leads, h.node⟩
  | setLock locked loc => exact absurd rfl (hunlocked locked loc)
  | write note =>
    show (w.noted note).LogIsOpen path loc
    rcases noted_cases h.file note with
      ⟨-, disk, place, happend, hnoted⟩ | ⟨_, ⟨failure, hrefuses, -⟩, -⟩
    · have hgrows := grows_of_update happend
      obtain ⟨hplace, -, new, rfl⟩ := update_eq_ok happend
      obtain rfl : place = loc := Except.ok.inj (hplace.symm.trans h.leads)
      rw [hnoted]
      exact ⟨h.file, h.isConfigured, h.noNul, hgrows.openNew_eq_ok h.leads (by simp), new,
        node?_set_self ..⟩
    · cases hrefuses.symm.trans (h.takes _)

theorem through (h : w.LogIsOpen path loc)
    (hunlocked : ∀ locked loc, .setLock locked loc ∉ events) :
    (w.through events).LogIsOpen path loc := by
  induction events generalizing w with
  | nil => exact h
  | cons event events ih =>
    refine ih (h.afterEvent fun locked loc heq ↦ ?_) fun locked loc hmem ↦ ?_
    · exact hunlocked locked loc (heq ▸ List.mem_cons_self)
    · exact hunlocked locked loc (List.mem_cons_of_mem _ hmem)

end LogIsOpen

/-- **Every entry is kept**, unless somebody locks something. -/
theorem Begins.goesOn (h : asked.Begins path loc head opened) (hnul : '\x00' ∉ path.toList)
    (hunlocked : ∀ locked loc, .setLock locked loc ∉ events) :
    opened.GoesOn path loc head events (opened.through events) := by
  have hopen : opened.LogIsOpen path loc :=
    ⟨h.logStands.file, h.logStands.isConfigured, hnul, h.leads, head, h.node⟩
  rcases h.logStands.through events with hgoesOn | ⟨before, note, more, rfl, hgivesUp⟩
  · exact hgoesOn
  · obtain ⟨_, ⟨failure, hrefuses, -⟩, -⟩ := hgivesUp.refuses
    have hopen : (opened.through before).LogIsOpen path loc := hopen.through fun locked loc hmem ↦
      hunlocked locked loc (List.mem_append_left _ hmem)
    cases hrefuses.symm.trans (hopen.takes _)

/-- **The lines of a log.** An entry is kept and shown as one line if and only if its fields show no
newline bare, and each newline that they do show begins another line. So the file of a log that
nobody locks holds after its header one line for each entry and those that the fields add, and there
are as many lines as entries if and only if every entry is one line. -/
theorem newlines_of_log (note : Note) (hnames : note.NamesOnOneLine) :
    (∀ w : World, runIn (Journal.write note) w =
      runIn (match w.journal.file with
        | none => pure ()
        | some file => Journal.keep file (note.keptText w.now))
        (w.printed (if w.journal.isVerbose then note.shownText w.now else ""))) ∧
    (∀ now, newlines (note.keptText now) = note.bareNewlines + 1 ∧
      newlines (note.shownText now) = note.bareNewlines + 1 ∧
      (IsLine (note.keptText now) ↔ note.bareNewlines = 0) ∧
      (IsLine (note.shownText now) ↔ note.bareNewlines = 0)) ∧
    ∀ (asked opened : World) (config : Option JournalConfig) (projectDir path : String)
      (events : List Event), asked.journal.isConfigured = false →
      asked.OpensLog config projectDir path opened →
      (∀ locked loc, Event.setLock locked loc ∉ events) →
      (∀ note ∈ Journal.notesOf events, note.NamesOnOneLine) →
      ∃ loc, let tail := String.join (opened.moment.kept events)
        opened.disk.text? loc = some (Journal.header projectDir asked.now) ∧
        (opened.through events).disk.text? loc =
          some (Journal.header projectDir asked.now ++ tail) ∧
        newlines tail = (Journal.notesOf events).length +
          ((Journal.notesOf events).map Note.bareNewlines).sum ∧
        (newlines tail = (Journal.notesOf events).length ↔
          ∀ note ∈ Journal.notesOf events, note.bareNewlines = 0) := by
  refine ⟨fun w ↦ Journal.runIn_write_eq note w, fun now ↦ ?_,
    fun asked opened config projectDir path events hunasked hopens hunlocked hnames ↦ ?_⟩
  · have htimestamp := Instant.isOneLine_timestamp now
    have hclock := Instant.isOneLine_clockTime now
    exact ⟨note.newlines_text hnames htimestamp, note.newlines_text hnames hclock,
      note.isLine_text_iff hnames htimestamp, note.isLine_text_iff hnames hclock⟩
  · obtain ⟨hnul, loc, hbegins⟩ := hopens.begins hunasked
    have hgoesOn := hbegins.goesOn hnul hunlocked
    have htail := opened.moment.newlines_kept hnames
    refine ⟨loc, text?_of_node? hbegins.node, hgoesOn.records.text, htail, ?_⟩
    rw [htail, Nat.add_eq_left, List.sum_eq_zero_iff_forall_eq_nat]
    exact List.forall_mem_map

section Small

/-- An entry about a failure. -/
def failedWith (fields : Fields) : Note := ⟨.error, "cli", "Command failed", fields⟩

theorem namesOnOneLine_failedWith {fields : Fields} (h : ∀ field ∈ fields, IsOneLine field.1) :
    (failedWith fields).NamesOnOneLine :=
  ⟨(by decide : IsOneLine "cli"), (by decide : IsOneLine "Command failed"), h⟩

/-- A log can be opened at the root. -/
theorem opensLog_rootLogged :
    rootWorld.OpensLog (some ⟨true, some "/l"⟩) "/p" "/l" rootLogged :=
  ⟨_, rfl, rfl, rfl, runIn_configure_rootWorld⟩

end Small

/-- An entry with a text inside a list is one line. -/
theorem newlines_of_nested :
    let note := failedWith [("args", .list [.text "first\nsecond", .null])]
    note.NamesOnOneLine ∧ IsLine (note.keptText 0) ∧ IsLine (note.shownText 0) ∧
    ∃ loc tail, rootLogged.disk.text? loc = some (Journal.header "/p" 0) ∧
      (rootLogged.through [.write note]).disk.text? loc = some (Journal.header "/p" 0 ++ tail) ∧
      newlines tail = 1 := by
  intro note
  have hnames : note.NamesOnOneLine :=
    namesOnOneLine_failedWith (by simp [show IsOneLine "args" by decide])
  obtain ⟨-, hline, hlog⟩ := newlines_of_log note hnames
  obtain ⟨-, -, hkept, hshown⟩ := hline 0
  obtain ⟨loc, hheader, htext, -, hlines⟩ := hlog rootWorld rootLogged _ "/p" "/l" [.write note] rfl
    opensLog_rootLogged (by simp) (List.forall_mem_singleton.2 hnames)
  exact ⟨hnames, hkept.2 rfl, hshown.2 rfl, loc, _, hheader, htext,
    hlines.2 (List.forall_mem_singleton.2 rfl)⟩

/-- **An entry need not be one line**: a text of two lines stands in it as it is. -/
theorem newlines_of_two_lines :
    let note := failedWith [("error", .text "first\nsecond")]
    note.NamesOnOneLine ∧ newlines (note.keptText 0) = 2 ∧ newlines (note.shownText 0) = 2 ∧
    ∃ loc tail, rootLogged.disk.text? loc = some (Journal.header "/p" 0) ∧
      (rootLogged.through [.write note]).disk.text? loc = some (Journal.header "/p" 0 ++ tail) ∧
      newlines tail = 2 := by
  intro note
  have hnames : note.NamesOnOneLine :=
    namesOnOneLine_failedWith (by simp [show IsOneLine "error" by decide])
  have hbare : note.bareNewlines + 1 = 2 := by decide
  obtain ⟨hnul, loc, hbegins⟩ := opensLog_rootLogged.begins rfl
  have hgoesOn : rootLogged.GoesOn "/l" loc _ [.write note] _ := hbegins.goesOn hnul (by simp)
  refine ⟨hnames, (note.newlines_text hnames (Instant.isOneLine_timestamp 0)).trans hbare,
    (note.newlines_text hnames (Instant.isOneLine_clockTime 0)).trans hbare, loc, _,
    text?_of_node? hbegins.node, hgoesOn.records.text, ?_⟩
  have htail : newlines (String.join (rootLogged.moment.kept [.write note])) =
      [note].length + ([note].map Note.bareNewlines).sum :=
    Moment.newlines_kept _ (List.forall_mem_singleton.2 hnames)
  exact htail.trans (by decide)

end World

end ResourceLocator
