import Mathlib
import ResourceLocator.Proofs.Log.FirstRequest

/-!
# The history of a debug log

A debug log is configured, told to show its entries or not, and given entries, in any order and any
number of times (`Journal.Event`). Meanwhile the clock goes on, and somebody may lock or unlock what
stands on the disk.

What comes of it is told by the events alone: an entry is written, for the file and for the console,
as it is at its moment (`Moment.kept`, `Moment.shown`), with its kind, component, message and fields
(`Note.ShowsFields`) behind the time. As long as no file has been opened, nothing is kept
(`World.KeepsNothing`). Once one has been opened, the entries are in it one after the other
(`World.Records`), up to the first that the file does not take (`World.GivesUp`); from then on
nothing is kept again.

The induction over the events carries one invariant: the file that has been made is there, and
wherever the path of the log can be opened, it leads to that file (`World.LogStands`). Locks cannot
break it (`FileSystem.SameLayout.eq_of_openNew`).
-/

namespace ResourceLocator

open FileSystem Session

/-! ### Events -/

/-- What happens to a debug log: what is asked of it, and what goes on around it. -/
inductive Journal.Event where
  /-- It is asked to keep entries, or not to. -/
  | configure (config : Option JournalConfig) (projectDir : String)
  /-- It is asked to show entries, or not to. -/
  | setVerbose (isVerbose : Bool)
  /-- An entry is made. -/
  | write (note : Note)
  /-- Somebody locks or unlocks what stands at a location. -/
  | setLock (locked : Bool) (loc : Location)
  /-- Time passes, or is set. -/
  | setClock (now : Instant)

namespace Journal.Event

/-- An event as a session. -/
def happen : Event → Session Unit
  | .configure config projectDir => Journal.configure config projectDir
  | .setVerbose isVerbose => Journal.setVerbose isVerbose
  | .write note => Journal.write note
  | .setLock locked loc => modify fun w ↦ { w with disk := w.disk.setLock locked loc }
  | .setClock now => modify fun w ↦ { w with now }

/-- Whether the log is asked to keep entries, or not to. -/
def isConfigure : Event → Bool
  | .configure _ _ => true
  | _ => false

end Journal.Event

open Journal (Event)

/-- The world after an event, whether that ends well or fails. -/
def World.afterEvent (w : World) (event : Event) : World := (runIn event.happen w).2

/-- The world after events, one after the other. -/
def World.through (w : World) (events : List Event) : World := events.foldl World.afterEvent w

variable {w mid asked opened after : World} {path old head : String} {loc other : Location}
  {event : Event} {events more : List Event}

theorem World.through_append (w : World) (events more : List Event) :
    w.through (events ++ more) = (w.through events).through more :=
  List.foldl_append

/-! ### What events give -/

/-- What matters of a moment for the entry that is made in it. -/
structure Moment where
  /-- Whether entries are shown on the console. -/
  isVerbose : Bool
  /-- What the clock shows. -/
  now : Instant

namespace Moment

/-- The moment after an event. -/
def next (m : Moment) : Event → Moment
  | .setVerbose isVerbose => { m with isVerbose }
  | .setClock now => { m with now }
  | _ => m

/-- The moment after events. -/
def through (m : Moment) (events : List Event) : Moment := events.foldl next m

/-- What an event gives the file to keep. -/
def keptAt (m : Moment) : Event → List String
  | .write note => [note.keptText m.now]
  | _ => []

/-- What an event gives the console to show. -/
def shownAt (m : Moment) : Event → List String
  | .write note => if m.isVerbose then [note.shownText m.now] else []
  | _ => []

/-- What events give, each at its moment. -/
def collect (given : Moment → Event → List String) : Moment → List Event → List String
  | _, [] => []
  | m, event :: events => given m event ++ collect given (m.next event) events

/-- The entries that events give the file to keep. -/
def kept (m : Moment) (events : List Event) : List String := m.collect keptAt events

/-- The entries that events give the console to show. -/
def shown (m : Moment) (events : List Event) : List String := m.collect shownAt events

variable {m : Moment}

theorem kept_cons (m : Moment) (event : Event) (events : List Event) :
    m.kept (event :: events) = m.keptAt event ++ (m.next event).kept events := rfl

theorem shown_cons (m : Moment) (event : Event) (events : List Event) :
    m.shown (event :: events) = m.shownAt event ++ (m.next event).shown events := rfl

theorem kept_singleton (m : Moment) (event : Event) : m.kept [event] = m.keptAt event :=
  List.append_nil _

theorem shown_singleton (m : Moment) (event : Event) : m.shown [event] = m.shownAt event :=
  List.append_nil _

theorem collect_append (given : Moment → Event → List String) (m : Moment)
    (events more : List Event) : m.collect given (events ++ more) =
      m.collect given events ++ (m.through events).collect given more := by
  induction events generalizing m with
  | nil => rfl
  | cons event events ih =>
    rw [List.cons_append, collect, collect, ih, List.append_assoc]
    rfl

theorem shown_append (m : Moment) (events more : List Event) :
    m.shown (events ++ more) = m.shown events ++ (m.through events).shown more :=
  collect_append shownAt m events more

end Moment

namespace World

/-- The moment of a world. -/
def moment (w : World) : Moment := ⟨w.journal.isVerbose, w.now⟩

theorem join_shownAt_moment (w : World) (note : Note) :
    String.join (w.moment.shownAt (.write note)) = w.shownOf note := by
  cases hverbose : w.journal.isVerbose <;>
    simp [moment, Moment.shownAt, shownOf, hverbose]

/-! ### What an event leaves -/

/-- A request to keep entries makes the choice, and does not change the moment. -/
theorem afterEvent_configure (w : World) (config : Option JournalConfig) (projectDir : String) :
    (w.afterEvent (.configure config projectDir)).moment = w.moment ∧
      (w.afterEvent (.configure config projectDir)).journal.isConfigured = true := by
  show (runIn (Journal.configure config projectDir) w).2.moment = w.moment ∧
    (runIn (Journal.configure config projectDir) w).2.journal.isConfigured = true
  cases hasked : w.journal.isConfigured with
  | true =>
    rw [Journal.runIn_configure_of_asked hasked]
    exact ⟨rfl, hasked⟩
  | false =>
    rcases Journal.configure_cases hasked config projectDir with
      ⟨_, _, _, ⟨_, -, -, -, hrun⟩, hbegins⟩ | ⟨-, hnothing⟩
    · rw [hrun, moment, moment, hbegins.journal, hbegins.now]
      exact ⟨rfl, rfl⟩
    · rw [moment, moment, hnothing.journal, hnothing.now]
      exact ⟨rfl, rfl⟩

/-- An entry changes neither the moment nor the choice, whatever becomes of the file. -/
theorem afterEvent_write (w : World) (note : Note) :
    (w.afterEvent (.write note)).moment = w.moment ∧
      (w.afterEvent (.write note)).journal.isConfigured = w.journal.isConfigured := by
  show (w.noted note).moment = w.moment ∧
    (w.noted note).journal.isConfigured = w.journal.isConfigured
  cases hfile : w.journal.file with
  | none =>
    rw [noted_of_none hfile]
    exact ⟨rfl, rfl⟩
  | some path =>
    rcases noted_cases hfile note with ⟨-, _, _, -, hnoted⟩ | ⟨_, -, hnoted⟩ <;>
      rw [hnoted] <;> exact ⟨rfl, rfl⟩

/-- The moment goes on as the events say, whatever becomes of the files. -/
theorem moment_afterEvent (w : World) (event : Event) :
    (w.afterEvent event).moment = w.moment.next event := by
  cases event with
  | configure config projectDir => exact (w.afterEvent_configure config projectDir).1
  | write note => exact (w.afterEvent_write note).1
  | setVerbose | setLock | setClock => rfl

theorem moment_through (w : World) (events : List Event) :
    (w.through events).moment = w.moment.through events := by
  induction events generalizing w with
  | nil => rfl
  | cons event events ih => exact (ih _).trans (by rw [moment_afterEvent]; rfl)

/-- Only a request to keep entries makes the choice. -/
theorem isConfigured_afterEvent (w : World) (event : Event) :
    (w.afterEvent event).journal.isConfigured = (w.journal.isConfigured || event.isConfigure) := by
  cases event with
  | configure config projectDir =>
    exact (w.afterEvent_configure config projectDir).2.trans (Bool.or_true _).symm
  | write note => exact (w.afterEvent_write note).2.trans (Bool.or_false _).symm
  | setVerbose | setLock | setClock => exact (Bool.or_false _).symm

theorem isConfigured_through (w : World) (events : List Event) :
    (w.through events).journal.isConfigured =
      (w.journal.isConfigured || events.any Event.isConfigure) := by
  induction events generalizing w with
  | nil => exact (Bool.or_false _).symm
  | cons event events ih =>
    rw [List.any_cons, ← Bool.or_assoc, ← isConfigured_afterEvent]
    exact ih _

/-! ### Without a file -/

/-- Events leave every file as it is, and none is open afterwards. -/
structure KeepsNothing (w : World) (events : List Event) (after : World) : Prop where
  /-- No file is open. -/
  file : after.journal.file = none
  /-- Every text stays. -/
  texts : ∀ loc, after.disk.text? loc = w.disk.text? loc
  /-- Nothing is written. -/
  written : after.effects.written = w.effects.written
  /-- The entries are shown that are made while entries are shown. -/
  errors : after.effects.errors = w.effects.errors ++ String.join (w.moment.shown events)

namespace KeepsNothing

theorem refl (h : w.journal.file = none) : w.KeepsNothing [] w :=
  ⟨h, fun _ ↦ rfl, rfl, (String.append_empty).symm⟩

theorem append (h : w.KeepsNothing events mid) (hmid : mid.moment = w.moment.through events)
    (h' : mid.KeepsNothing more after) : w.KeepsNothing (events ++ more) after where
  file := h'.file
  texts loc := (h'.texts loc).trans (h.texts loc)
  written := h'.written.trans h.written
  errors := by
    rw [h'.errors, h.errors, hmid, Moment.shown_append, String.join_append, String.append_assoc]

end KeepsNothing

/-- Without a file, nothing is kept, unless a file is opened. -/
theorem keepsNothing_afterEvent (hfile : w.journal.file = none)
    (h : w.journal.isConfigured = true ∨ event.isConfigure = false) :
    w.KeepsNothing [event] (w.afterEvent event) := by
  have hshown := Moment.shown_singleton w.moment event
  cases event with
  | configure config projectDir =>
    have hasked : w.journal.isConfigured = true := h.resolve_right (by simp [Event.isConfigure])
    show w.KeepsNothing _ (runIn (Journal.configure config projectDir) w).2
    rw [Journal.runIn_configure_of_asked hasked]
    exact ⟨hfile, fun _ ↦ rfl, rfl, by rw [hshown]; exact (String.append_empty).symm⟩
  | write note =>
    show w.KeepsNothing _ (w.noted note)
    rw [noted_of_none hfile]
    exact ⟨hfile, fun _ ↦ rfl, rfl, by rw [hshown, join_shownAt_moment]; rfl⟩
  | setLock locked loc =>
    exact ⟨hfile, text?_setLock w.disk locked loc, rfl,
      by rw [hshown]; exact (String.append_empty).symm⟩
  | setVerbose | setClock =>
    exact ⟨hfile, fun _ ↦ rfl, rfl, by rw [hshown]; exact (String.append_empty).symm⟩

/-- **Without a file, nothing is kept**, as long as no first request comes. -/
theorem keepsNothing_through (hfile : w.journal.file = none)
    (h : w.journal.isConfigured = true ∨ ∀ event ∈ events, event.isConfigure = false) :
    w.KeepsNothing events (w.through events) := by
  induction events generalizing w with
  | nil => exact .refl hfile
  | cons event events ih =>
    have hstep : w.KeepsNothing [event] (w.afterEvent event) :=
      keepsNothing_afterEvent hfile (h.imp_right fun h ↦ h event List.mem_cons_self)
    refine hstep.append (moment_afterEvent w event) (ih hstep.file (h.imp (fun h ↦ ?_) ?_))
    · rw [isConfigured_afterEvent, h, Bool.true_or]
    · exact fun h event hevent ↦ h event (List.mem_cons_of_mem _ hevent)

/-! ### With a file -/

/-- Entries are kept in a file that holds a text, and no other place can be meant by its path. -/
structure LogStands (w : World) (path : String) (loc : Location) (text : String) : Prop where
  /-- Entries are kept under the path. -/
  file : w.journal.file = some path
  /-- The choice has been made. -/
  isConfigured : w.journal.isConfigured = true
  /-- The text is there. -/
  text : w.disk.text? loc = some text
  /-- The path has led there, and the layout is as it was. -/
  leads : ∃ disk : FileSystem, SameLayout disk w.disk ∧ disk.openNew w.cwd path = .ok loc

/-- From one world to another the file at a location has got the entries of the events that it has
been asked to take, one after the other, and it has taken them all. -/
structure Records (opened : World) (path : String) (loc : Location) (head : String)
    (events : List Event) (after : World) : Prop where
  /-- Each entry has been taken. -/
  takes : ∀ before note more, events = before ++ .write note :: more →
    (opened.through before).Takes path (note.keptText (opened.through before).now)
  /-- The file holds the entries. -/
  text : after.disk.text? loc = some (head ++ String.join (opened.moment.kept events))
  /-- No other file is changed. -/
  other : ∀ other, other ≠ loc → after.disk.text? other = opened.disk.text? other
  /-- The file is written once for each entry, and no other is written. -/
  written : after.effects.written =
    opened.effects.written ++ List.replicate (opened.moment.kept events).length loc

/-- The file has taken every entry of events, and it goes on doing so. -/
structure GoesOn (opened : World) (path : String) (loc : Location) (head : String)
    (events : List Event) (after : World) : Prop where
  /-- All entries are in the file. -/
  records : opened.Records path loc head events after
  /-- The next entry goes to it. -/
  file : after.journal.file = some path
  /-- The entries are shown that are made while entries are shown. -/
  errors : after.effects.errors =
    opened.effects.errors ++ String.join (opened.moment.shown events)

/-- One of the entries of events has not been taken, so that the file is given up. -/
structure GivesUp (opened : World) (path : String) (loc : Location) (head : String)
    (before : List Event) (note : Note) (more : List Event) (after : World) : Prop where
  /-- The entries before it are in the file. -/
  records : opened.Records path loc head before after
  /-- The file is open no more. -/
  file : after.journal.file = none
  /-- The entry has not been taken for a reason, and the reason is told once, between the entries
  shown. -/
  refuses : ∃ reason,
    (opened.through before).Refuses path (note.keptText (opened.through before).now) reason ∧
    after.effects.errors = opened.effects.errors ++
      String.join (opened.moment.shown (before ++ [.write note])) ++ Journal.notice reason ++
      String.join ((opened.moment.through (before ++ [.write note])).shown more)

/-- The file takes all entries of events, or all up to the first that it does not take. -/
def KeepsInOrder (opened : World) (path : String) (loc : Location) (head : String)
    (events : List Event) (after : World) : Prop :=
  opened.GoesOn path loc head events after ∨ ∃ before note more,
    events = before ++ .write note :: more ∧ opened.GivesUp path loc head before note more after

/-! ### One event after the other -/

theorem Records.nil (htext : w.disk.text? loc = some old) (hdisk : after.disk = w.disk)
    (hwritten : after.effects.written = w.effects.written) :
    w.Records path loc old [] after where
  takes before _ more heq := by simp at heq
  text := by
    rw [hdisk, htext]
    exact congrArg some (String.append_empty).symm
  other _ _ := by rw [hdisk]
  written := hwritten.trans (List.append_nil _).symm

/-- The first event, and then the others. -/
theorem Records.cons (h : w.Records path loc old [event] (w.afterEvent event))
    (h' : (w.afterEvent event).Records path loc (old ++ String.join (w.moment.kept [event])) events
      after) : w.Records path loc old (event :: events) after where
  takes before note more heq := by
    cases before with
    | nil =>
      obtain ⟨rfl, rfl⟩ := List.cons_eq_cons.1 heq
      exact h.takes [] note [] rfl
    | cons first before =>
      obtain ⟨rfl, rfl⟩ := List.cons_eq_cons.1 heq
      exact h'.takes before note more rfl
  text := by
    rw [h'.text, moment_afterEvent, String.append_assoc, ← String.join_append,
      Moment.kept_singleton, ← Moment.kept_cons]
  other other hother := (h'.other other hother).trans (h.other other hother)
  written := by
    rw [h'.written, h.written, moment_afterEvent, List.append_assoc,
      List.replicate_append_replicate, ← List.length_append, Moment.kept_singleton,
      ← Moment.kept_cons]

theorem GoesOn.cons (h : w.GoesOn path loc old [event] (w.afterEvent event))
    (h' : (w.afterEvent event).GoesOn path loc (old ++ String.join (w.moment.kept [event])) events
      after) : w.GoesOn path loc old (event :: events) after where
  records := h.records.cons h'.records
  file := h'.file
  errors := by
    rw [h'.errors, h.errors, moment_afterEvent, String.append_assoc, ← String.join_append,
      Moment.shown_singleton, ← Moment.shown_cons]

theorem GivesUp.cons {before : List Event} {note : Note}
    (h : w.GoesOn path loc old [event] (w.afterEvent event))
    (h' : (w.afterEvent event).GivesUp path loc (old ++ String.join (w.moment.kept [event])) before
      note more after) : w.GivesUp path loc old (event :: before) note more after where
  records := h.records.cons h'.records
  file := h'.file
  refuses := by
    obtain ⟨reason, hrefuses, herrors⟩ := h'.refuses
    refine ⟨reason, hrefuses, ?_⟩
    rw [herrors, h.errors, moment_afterEvent, Moment.shown_singleton, List.cons_append,
      Moment.shown_cons, String.join_append]
    simp only [String.append_assoc]
    rfl

/-- Once the file has been given up, nothing is kept. -/
theorem GivesUp.append {note : Note}
    (h : w.GivesUp path loc old [] note [] (w.afterEvent (.write note)))
    (h' : (w.afterEvent (.write note)).KeepsNothing more after) :
    w.GivesUp path loc old [] note more after where
  records := by
    refine ⟨fun before note more heq ↦ ?_, (h'.texts loc).trans h.records.text,
      fun other hother ↦ (h'.texts other).trans (h.records.other other hother),
      h'.written.trans h.records.written⟩
    simp at heq
  file := h'.file
  refuses := by
    obtain ⟨reason, hrefuses, herrors⟩ := h.refuses
    refine ⟨reason, hrefuses, ?_⟩
    rw [h'.errors, herrors, moment_afterEvent]
    exact congrArg (· ++ _) String.append_empty

namespace LogStands

/-- What is no entry gives nothing to keep and nothing to show. -/
theorem goesOn_of_silent (h : w.LogStands path loc old) (hevent : ∀ note, event ≠ .write note)
    (hafter : ∀ loc, (w.afterEvent event).disk.text? loc = w.disk.text? loc)
    (hlayout : SameLayout w.disk (w.afterEvent event).disk)
    (hcwd : (w.afterEvent event).cwd = w.cwd)
    (heffects : (w.afterEvent event).effects = w.effects)
    (hfile : (w.afterEvent event).journal.file = w.journal.file) :
    w.GoesOn path loc old [event] (w.afterEvent event) ∧
      (w.afterEvent event).LogStands path loc (old ++ String.join (w.moment.kept [event])) := by
  have hkept : w.moment.kept [event] = [] := by
    rw [Moment.kept_singleton]
    cases event with
    | write note => exact absurd rfl (hevent note)
    | _ => rfl
  have hshown : w.moment.shown [event] = [] := by
    rw [Moment.shown_singleton]
    cases event with
    | write note => exact absurd rfl (hevent note)
    | _ => rfl
  have htext : (w.afterEvent event).disk.text? loc = some (old ++ String.join []) :=
    ((hafter loc).trans h.text).trans (congrArg some (String.append_empty).symm)
  obtain ⟨disk, hsame, hopen⟩ := h.leads
  rw [hkept]
  refine ⟨⟨⟨fun before note more heq ↦ ?_, ?_, fun other _ ↦ hafter other, ?_⟩,
    hfile.trans h.file, ?_⟩, hfile.trans h.file, ?_, htext, disk, hsame.trans hlayout,
    hcwd ▸ hopen⟩
  · cases before with
    | nil => exact absurd (List.cons_eq_cons.1 heq).1 (hevent note)
    | cons first before => simp at heq
  · rw [hkept, htext]
  · rw [hkept, heffects]
    exact (List.append_nil _).symm
  · rw [hshown, heffects]
    exact (String.append_empty).symm
  · rw [isConfigured_afterEvent, h.isConfigured, Bool.true_or]

/-- An entry that is put into a file is put into the one that stands. -/
theorem goesOn_of_append {note : Note} {disk : FileSystem} {place : Location}
    (h : w.LogStands path loc old) (htakes : w.Takes path (note.keptText w.now))
    (happend : w.disk.append w.cwd path (note.keptText w.now) = .ok (disk, place))
    (hafter : w.afterEvent (.write note) =
      { w.showing note with disk, effects.written := w.effects.written ++ [place] }) :
    w.GoesOn path loc old [.write note] (w.afterEvent (.write note)) ∧
      (w.afterEvent (.write note)).LogStands path loc
        (old ++ String.join (w.moment.kept [.write note])) := by
  obtain ⟨before, hsame, hopen⟩ := h.leads
  obtain ⟨hplace, rfl⟩ := eq_set_of_update happend
  obtain rfl : place = loc := hsame.eq_of_openNew hopen hplace
  have htext : (w.afterEvent (.write note)).disk.text? place =
      some (old ++ String.join (w.moment.kept [.write note])) := by
    rw [hafter, h.text]
    simp [text?_set_self, Moment.kept_singleton, Moment.keptAt, moment]
  have hlayout : SameLayout w.disk (w.afterEvent (.write note)).disk := by
    rw [hafter]
    exact sameLayout_set_of_text? h.text _
  refine ⟨⟨⟨fun start note' more heq ↦ ?_, htext, fun other hother ↦ ?_, ?_⟩, ?_, ?_⟩,
    ⟨?_, ?_, htext, before, hsame.trans hlayout, ?_⟩⟩
  · cases start with
    | nil =>
      obtain rfl : note = note' := Event.write.inj (List.cons_eq_cons.1 heq).1
      exact htakes
    | cons first start => simp at heq
  · rw [hafter]
    exact text?_set_of_ne _ _ hother
  · rw [hafter]
    rfl
  · rw [hafter]
    exact h.file
  · rw [hafter, Moment.shown_singleton, join_shownAt_moment]
    rfl
  · rw [hafter]
    exact h.file
  · rw [hafter]
    exact h.isConfigured
  · rw [hafter]
    exact hopen

/-- An entry that is not taken leaves the file as it is, and open no more. -/
theorem givesUp_of_refuses {note : Note} {reason : String} (h : w.LogStands path loc old)
    (hrefuses : w.Refuses path (note.keptText w.now) reason)
    (hafter : w.afterEvent (.write note) =
      { (w.showing note).printed (Journal.notice reason) with journal.file := none }) :
    w.GivesUp path loc old [] note [] (w.afterEvent (.write note)) := by
  rw [hafter]
  refine ⟨.nil h.text rfl rfl, rfl, reason, hrefuses, ?_⟩
  rw [List.nil_append, Moment.shown_singleton, join_shownAt_moment]
  exact (String.append_empty).symm

/-- **An event goes into the file, or the file is given up.** -/
theorem afterEvent (h : w.LogStands path loc old) (event : Event) :
    (w.GoesOn path loc old [event] (w.afterEvent event) ∧
      (w.afterEvent event).LogStands path loc (old ++ String.join (w.moment.kept [event]))) ∨
    ∃ note, event = .write note ∧ w.GivesUp path loc old [] note [] (w.afterEvent event) := by
  cases event with
  | configure config projectDir =>
    have hsame : w.afterEvent (.configure config projectDir) = w :=
      congrArg Prod.snd (Journal.runIn_configure_of_asked h.isConfigured config projectDir)
    exact .inl <| h.goesOn_of_silent (fun _ h ↦ nomatch h) (fun _ ↦ by rw [hsame])
      (by rw [hsame]; exact .refl _) (by rw [hsame]) (by rw [hsame]) (by rw [hsame])
  | setVerbose | setClock =>
    exact .inl <| h.goesOn_of_silent (fun _ h ↦ nomatch h) (fun _ ↦ rfl) (.refl _) rfl rfl rfl
  | setLock locked place =>
    exact .inl <| h.goesOn_of_silent (fun _ h ↦ nomatch h) (text?_setLock w.disk locked place)
      (sameLayout_setLock w.disk locked place) rfl rfl rfl
  | write note =>
    rcases noted_cases h.file note with
      ⟨htakes, disk, place, happend, hnoted⟩ | ⟨reason, hrefuses, hnoted⟩
    · exact .inl (h.goesOn_of_append htakes happend hnoted)
    · exact .inr ⟨note, rfl, h.givesUp_of_refuses hrefuses hnoted⟩

/-- **The entries of a run go into the file, up to the first that it does not take.** -/
theorem through (h : w.LogStands path loc old) (events : List Event) :
    w.KeepsInOrder path loc old events (w.through events) := by
  induction events generalizing w old with
  | nil => exact .inl ⟨.nil h.text rfl rfl, h.file, (String.append_empty).symm⟩
  | cons event events ih =>
    rcases h.afterEvent event with ⟨hstep, hstands⟩ | ⟨note, rfl, hstep⟩
    · rcases ih hstands with hrest | ⟨before, note, more, rfl, hrest⟩
      · exact .inl (hstep.cons hrest)
      · exact .inr ⟨event :: before, note, more, rfl, hrest.cons hstep⟩
    · have hasked : (w.afterEvent (.write note)).journal.isConfigured = true := by
        rw [isConfigured_afterEvent, h.isConfigured, Bool.true_or]
      exact .inr ⟨[], note, events, rfl,
        hstep.append (keepsNothing_through hstep.file (.inl hasked))⟩

end LogStands

/-- Once the file has been made, it stands. -/
theorem Begins.logStands (h : asked.Begins path loc head opened) :
    opened.LogStands path loc head where
  file := by rw [h.journal]
  isConfigured := by rw [h.journal]
  text := text?_of_node? h.node
  leads := ⟨opened.disk, .refl _, h.leads⟩

/-- If nothing is opened at first, nothing is kept. -/
theorem OpensNothing.keepsNothing {config : Option JournalConfig} {projectDir : String}
    (h : asked.OpensNothing after) (hfile : asked.journal.file = none) :
    asked.KeepsNothing [.configure config projectDir] after where
  file := by rw [h.journal, hfile]
  texts := h.texts
  written := h.written
  errors := h.errors.trans (String.append_empty).symm

/-! ### A whole history -/

/-- **The history of a fresh log.** An entry is kept after its timestamp, and shown after the time
of day in it, by its kind, its component, its message and its fields. Nothing is kept before the
first request to keep entries. That request decides, whether it ends well or fails: either a file is
made for entries, and it takes what is written afterwards, in order, up to the first entry that it
does not take; or nothing is ever kept. Later requests change nothing, and no entry that is made
fails. -/
theorem history (hfresh : w.journal = {}) {before : List Event}
    (hbefore : ∀ event ∈ before, event.isConfigure = false) :
    (∀ note : Note, ∃ fields, Note.ShowsFields note.fields fields ∧
      let word := match note.kind with
        | .debug => "DEBUG"
        | .info => "INFO"
        | .error => "ERROR"
      let line := word ++ " [" ++ note.component ++ "] " ++ note.message ++ fields ++ "\n"
      ∀ now : Instant, note.keptText now = String.ofList now.timestamp ++ " " ++ line ∧
        note.shownText now = String.ofList ((now.timestamp.drop 11).take 12) ++ " " ++ line) ∧
    (∀ projectDir (now : Instant), Journal.header projectDir now =
      "# reloc debug log started " ++ String.ofList now.timestamp ++ " in " ++ projectDir ++ "\n") ∧
    (∀ reason, Journal.notice reason = "reloc: debug log disabled: " ++ reason ++ "\n") ∧
    (∀ (journal : JournalConfig) projectDir (now : Instant),
      let stamp := (now.timestamp.map fun c ↦ if c = ':' || c = '.' then '-' else c).take 19
      Journal.logPath journal projectDir now = journal.logFile.getD
        (Path.join [projectDir, ".reloc", "logs", "debug-" ++ String.ofList stamp ++ ".log"])) ∧
    (∀ events note, (runIn (Journal.write note) (w.through events)).1 = .ok ()) ∧
    w.KeepsNothing before (w.through before) ∧
    ∀ config projectDir events,
      let asked := w.through before
      let after := w.through (before ++ .configure config projectDir :: events)
      (∀ config projectDir, after.afterEvent (.configure config projectDir) = after) ∧
      ((∃ path opened loc, asked.OpensLog config projectDir path opened ∧
          asked.Begins path loc (Journal.header projectDir asked.now) opened ∧
          opened.KeepsInOrder path loc (Journal.header projectDir asked.now) events after) ∨
        (∀ path opened, ¬asked.OpensLog config projectDir path opened) ∧
          w.KeepsNothing (before ++ .configure config projectDir :: events) after) := by
  have hnothing : w.KeepsNothing before (w.through before) :=
    keepsNothing_through (by rw [hfresh]) (.inr hbefore)
  refine ⟨fun note ↦ ?_, fun _ _ ↦ rfl, fun _ ↦ rfl, fun _ _ _ ↦ rfl,
    fun events note ↦ by rw [Journal.runIn_write], hnothing, fun config projectDir events ↦ ?_⟩
  · obtain ⟨fields, hfields, hline⟩ := note.exists_line_eq
    refine ⟨fields, hfields, fun now ↦ ?_⟩
    rw [Note.keptText, Note.shownText, hline]
    exact ⟨String.append_assoc, String.append_assoc⟩
  intro asked after
  have hunasked : asked.journal.isConfigured = false := by
    rw [isConfigured_through, hfresh, List.any_eq_false.2 (by simpa using hbefore)]
    rfl
  set chosen : World := asked.afterEvent (.configure config projectDir) with hchosen
  have hasked : chosen.journal.isConfigured = true := by
    rw [hchosen, isConfigured_afterEvent]
    exact Bool.or_true _
  have hafter : after = chosen.through events := w.through_append before _
  have hlater : after.journal.isConfigured = true := by
    rw [hafter, isConfigured_through, hasked, Bool.true_or]
  refine ⟨fun config projectDir ↦ congrArg Prod.snd
    (Journal.runIn_configure_of_asked hlater config projectDir), ?_⟩
  rw [hafter]
  rcases Journal.configure_cases hunasked config projectDir with
    ⟨path, opened, loc, hopens, hbegins⟩ | ⟨hnone, hfirst⟩
  · obtain ⟨_, -, -, -, hrun⟩ := id hopens
    obtain rfl : chosen = opened := congrArg Prod.snd hrun
    exact .inl ⟨path, chosen, loc, hopens, hbegins, hbegins.logStands.through events⟩
  · have hfirst : asked.KeepsNothing [.configure config projectDir] chosen :=
      hfirst.keepsNothing hnothing.file
    exact .inr ⟨hnone, hnothing.append (moment_through w before)
      (hfirst.append (moment_afterEvent _ _) (keepsNothing_through hfirst.file (.inl hasked)))⟩

section Small

/-- A world in which a log can be made at the root. -/
def rootWorld : World where
  disk := .empty
  cwd := "/"
  home := "/home"
  now := 0
  env := fun _ ↦ none
  argv := []
  replies := []
  hasColours := false

/-- That world after the log has been made. -/
def rootLogged : World :=
  { rootWorld with
    disk := FileSystem.empty.set ["l"] (.file (Journal.header "/p" 0) false)
    journal := { file := some "/l", isConfigured := true }
    effects.written := [["l"]] }

/-- That world at some moment, after something has been shown. -/
def rootWorldAt (m : Moment) (shown : String) : World :=
  { rootWorld with now := m.now, journal := { isVerbose := m.isVerbose }, effects.errors := shown }

/-- The same, after the log has been made. -/
def rootLoggedAt (m : Moment) (shown head : String) : World :=
  { rootWorldAt m shown with
    disk := FileSystem.empty.set ["l"] (.file head false)
    journal := { file := some "/l", isVerbose := m.isVerbose, isConfigured := true }
    effects.written := [["l"]] }

theorem runIn_configure_rootWorldAt (m : Moment) (shown : String) :
    runIn (Journal.configure (some ⟨true, some "/l"⟩) "/p") (rootWorldAt m shown) =
      (.ok (), rootLoggedAt m shown (Journal.header "/p" m.now)) := by
  rw [Journal.runIn_configure_of_unasked rfl rfl]
  set begun : World :=
    { rootWorldAt m shown with journal := { isVerbose := m.isVerbose, isConfigured := true } }
  have hmade : runIn (makeDirectory (Path.dirname "/l")) begun = (.ok (), begun) := by cbv
  have hwrite : FileSystem.empty.write "/" "/l" (Journal.header "/p" m.now) =
      .ok (FileSystem.empty.set ["l"] (.file (Journal.header "/p" m.now) false), ["l"]) := by
    generalize Journal.header "/p" m.now = text
    cbv
  have hwritten : runIn (writeFile "/l" (Journal.header "/p" m.now)) begun =
      (.ok (), { rootLoggedAt m shown (Journal.header "/p" m.now) with
        journal := { isVerbose := m.isVerbose, isConfigured := true } }) :=
    runIn_changeFile_of_ok (by decide) hwrite
  exact (runIn_bind_of_ok hmade _).trans (runIn_bind_of_ok hwritten _)

theorem runIn_configure_rootWorld :
    runIn (Journal.configure (some ⟨true, some "/l"⟩) "/p") rootWorld = (.ok (), rootLogged) :=
  runIn_configure_rootWorldAt ⟨false, 0⟩ ""

/-- A moment in which entries are shown. -/
def shownMoment : Moment := ⟨true, 1700000000123⟩

/-- An entry that is made before the log. -/
def starting : Note := ⟨.info, "cli", "Starting", []⟩

/-- An entry with fields of several kinds. -/
def searching : Note :=
  ⟨.debug, "resources", "Search path built",
    [("source", .text "relocatable"), ("hint", .undefined),
      ("dirs", .list [.text "/a", .text "/b"]), ("size", .integer 2)]⟩

/-- An entry about a failure. -/
def failing : Note := ⟨.error, "cli", "Command failed", [("error", .text "boom")]⟩

/-- What happens before the log is made. -/
def startingUp : List Event := [.setClock 1700000000123, .setVerbose true, .write starting]

/-- The log takes a first entry, is locked, is asked to take another one, and is unlocked again. -/
def lockedMeanwhile : List Event :=
  [.write searching, .configure (some ⟨true, some "/m"⟩) "/q", .setVerbose false,
    .setLock true ["l"], .write failing, .setLock false ["l"], .write failing]

theorem through_startingUp : rootWorld.through startingUp =
    rootWorldAt shownMoment (starting.shownText 1700000000123) := by
  show (rootWorldAt shownMoment "").noted starting = _
  rw [noted_of_none rfl, showing, printed, shownOf]
  show rootWorldAt shownMoment ("" ++ starting.shownText 1700000000123) = _
  rw [String.empty_append]

theorem showsFields_searching : Note.ShowsFields searching.fields
    " source=relocatable dirs=[\"/a\",\"/b\"] size=[unserializable]" := by
  have hdirs : Json.write? (.list [.text "/a", .text "/b"]) = .ok (some "[\"/a\",\"/b\"]") := by cbv
  have hsize : Json.write? (.integer 2) = .error .integer := rfl
  have hfields := Note.ShowsFields.shown "source" (.text "relocatable") <| .absent "hint" <|
    .shown "dirs" (.json (by simp) hdirs) <| .shown "size" (.unwritable hsize) .nil
  exact hfields

/-- Before it is locked, the log takes anything. -/
theorem takes_rootLoggedAt (m : Moment) (shown head text : String) :
    (rootLoggedAt m shown head).Takes "/l" text := by
  have happend : (rootLoggedAt m shown head).disk.append (rootLoggedAt m shown head).cwd "/l" text =
      .ok (FileSystem.empty.set ["l"] (.file (head ++ text) false), ["l"]) := by
    show (FileSystem.empty.set ["l"] (.file head false)).append "/" "/l" text = _
    cbv
  rw [Takes, outcome_appendFile, happend]
  rfl

/-- While it is locked, it takes nothing. -/
theorem outcome_appendFile_locked (shown head text : String) :
    (runIn (appendFile "/l" text)
      ((rootLoggedAt shownMoment shown head).through (lockedMeanwhile.take 4))).1 =
        .error (.call ⟨.denied, "open", some "/l"⟩) := by
  set locked := (rootLoggedAt shownMoment shown head).through (lockedMeanwhile.take 4) with hlocked
  have happend : locked.disk.append locked.cwd "/l" text = .error ⟨.denied, "open", some "/l"⟩ := by
    rw [hlocked, lockedMeanwhile, shownMoment]
    generalize searching = note
    cbv
  rw [outcome_appendFile, happend]
  rfl

/-- The entry that is made while the log is locked ends the keeping. -/
theorem givesUp_lockedMeanwhile {shown : String}
    (h : (rootLoggedAt shownMoment shown head).KeepsInOrder "/l" ["l"] head lockedMeanwhile after) :
    (rootLoggedAt shownMoment shown head).GivesUp "/l" ["l"] head (lockedMeanwhile.take 4) failing
      (lockedMeanwhile.drop 5) after := by
  have hnot : ∀ text, ¬((rootLoggedAt shownMoment shown head).through
      (lockedMeanwhile.take 4)).Takes "/l" text := fun text htakes ↦ by
    cases htakes.symm.trans (outcome_appendFile_locked shown head text)
  rcases h with hgoesOn | ⟨before, note, more, heq, hgivesUp⟩
  · exact absurd (hgoesOn.records.takes (lockedMeanwhile.take 4) failing _ rfl) (hnot _)
  -- Of the three entries the first is taken, and the last comes after one that is not.
  · rcases before with _ | ⟨e0, _ | ⟨e1, _ | ⟨e2, _ | ⟨e3, _ | ⟨e4, before⟩⟩⟩⟩⟩ <;>
      simp [lockedMeanwhile] at heq
    · obtain ⟨rfl, rfl⟩ := heq
      obtain ⟨_, ⟨_, hrefuses, -⟩, -⟩ := hgivesUp.refuses
      cases hrefuses.symm.trans (takes_rootLoggedAt shownMoment shown head _)
    · obtain ⟨rfl, rfl, rfl, rfl, rfl, rfl⟩ := heq
      exact hgivesUp
    · obtain ⟨rfl, rfl, rfl, rfl, rfl, -⟩ := heq
      exact absurd (hgivesUp.records.takes (lockedMeanwhile.take 4) failing _ rfl) (hnot _)

end Small

/-- An entry that comes while the log is locked is the last one that the log is asked to take. -/
theorem history_of_locked :
    rootWorld.journal = {} ∧ (∀ event ∈ startingUp, event.isConfigure = false) ∧
    let after := rootWorld.through
      (startingUp ++ .configure (some ⟨true, some "/l"⟩) "/p" :: lockedMeanwhile)
    after.disk.text? ["l"] = some (
      "# reloc debug log started 2023-11-14T22:13:20.123Z in /p\n" ++
      "2023-11-14T22:13:20.123Z DEBUG [resources] Search path built source=relocatable " ++
      "dirs=[\"/a\",\"/b\"] size=[unserializable]\n") ∧
    after.effects.errors =
      "22:13:20.123 INFO [cli] Starting\n" ++
      "22:13:20.123 DEBUG [resources] Search path built source=relocatable " ++
      "dirs=[\"/a\",\"/b\"] size=[unserializable]\n" ++
      "reloc: debug log disabled: EACCES: permission denied, open '/l'\n" ∧
    after.journal.file = none ∧ after.effects.written = [["l"], ["l"]] := by
  have hfresh : rootWorld.journal = {} := rfl
  have hearly : ∀ event ∈ startingUp, event.isConfigure = false := by decide
  refine ⟨hfresh, hearly, ?_⟩
  intro after
  obtain ⟨htexts, hheader, hnotice, -, -, -, hall⟩ := history hfresh hearly
  obtain ⟨-, hmade | ⟨hnone, -⟩⟩ := hall (some ⟨true, some "/l"⟩) "/p" lockedMeanwhile
  · obtain ⟨path, opened, loc, ⟨journal, hconfig, -, hpath, hrun⟩, hbegins, hkeeps⟩ := hmade
    obtain rfl := Option.some.inj hconfig
    obtain rfl : path = "/l" := hpath
    rw [through_startingUp] at hrun hbegins hkeeps
    obtain rfl := congrArg Prod.snd ((runIn_configure_rootWorldAt shownMoment _).symm.trans hrun)
    have hleads : FileSystem.openNew (FileSystem.empty.set ["l"]
        (.file (Journal.header "/p" shownMoment.now) false)) "/" "/l" = .ok ["l"] := by
      generalize Journal.header "/p" shownMoment.now = head
      cbv
    obtain rfl : loc = ["l"] := Except.ok.inj (hbegins.leads.symm.trans hleads)
    have hgivesUp := givesUp_lockedMeanwhile hkeeps
    obtain ⟨reason, ⟨failure, houtcome, hreason⟩, herrors⟩ := hgivesUp.refuses
    obtain rfl := Except.error.inj ((outcome_appendFile_locked _ _ _).symm.trans houtcome)
    obtain rfl : "EACCES: permission denied, open '/l'" = reason := Except.ok.inj hreason
    obtain ⟨fields, hfields, hsearching⟩ := htexts searching
    obtain rfl := hfields.unique showsFields_searching
    obtain ⟨fields, hfields, hstarting⟩ := htexts starting
    obtain rfl := hfields.unique .nil
    have hstamp : String.ofList (Instant.timestamp 1700000000123) =
        "2023-11-14T22:13:20.123Z" := by cbv
    have hclock : String.ofList (((Instant.timestamp 1700000000123).drop 11).take 12) =
        "22:13:20.123" := by cbv
    refine ⟨hgivesUp.records.text.trans ?_, herrors.trans ?_, hgivesUp.file,
      hgivesUp.records.written⟩
    · show some (Journal.header "/p" 1700000000123 ++
        String.join [searching.keptText 1700000000123]) = _
      rw [(hsearching _).1, hheader, hstamp]
      simp [searching, String.join]
    · show starting.shownText 1700000000123 ++ String.join [searching.shownText 1700000000123] ++
        Journal.notice _ ++ String.join [] = _
      rw [(hsearching _).2, (hstarting _).2, hnotice, hclock]
      simp [searching, starting, String.join]
  · rw [through_startingUp] at hnone
    exact absurd ⟨_, rfl, rfl, rfl, runIn_configure_rootWorldAt _ _⟩ (hnone "/l" _)

end World

end ResourceLocator
