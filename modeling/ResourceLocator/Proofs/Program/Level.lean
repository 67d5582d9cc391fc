import ResourceLocator.Proofs.Program.Output
import ResourceLocator.Proofs.Program.Parts
import ResourceLocator.Proofs.Text.Pieces

/-!
# The threshold of the console log

The threshold decides which messages are shown on the standard error and nothing else. To say so, a
run is given the configuration that it loads in another form (`runWith`): two runs whose
configurations differ in the level of the console log alone have the same outcome, the same standard
output, the same child processes and the same files, and the lines on the standard error at the
higher level are among those at the lower one, in the same order (`run_ignores_level`).

Two worlds in which such runs are at the same point are `Louder`: they differ in the threshold and
in the standard error. Every act of a run keeps worlds so.
-/

namespace ResourceLocator

open Session

/-! ### Louder worlds -/

/-- Two worlds that differ in the threshold and in what has been shown since `start`: at the lower
threshold, in the first world, all lines are shown that are shown in the second. -/
inductive Louder (start : String) : World → World → Prop where
  /-- Nothing else differs. -/
  | intro (w : World) {level level' : Level} {shown shown' : List String}
      (hlevel : level.weight ≤ level'.weight) (hshown : shown'.Sublist shown) :
      Louder start
        { w with threshold := level, effects.errors := start ++ Console.text shown }
        { w with threshold := level', effects.errors := start ++ Console.text shown' }

namespace Louder

variable {start : String} {w w' : World}

theorem refl (w : World) : Louder w.effects.errors w w := by
  have hsame : w.effects.errors ++ Console.text [] = w.effects.errors := String.append_empty
  have hlouder : Louder w.effects.errors _ _ :=
    .intro w (Nat.le_refl w.threshold.weight) (List.Sublist.refl [])
  rwa [hsame] at hlouder

/-- Everything else that has been done is the same. -/
theorem done_eq (h : Louder start w w') :
    w'.effects.output = w.effects.output ∧ w'.effects.runs = w.effects.runs ∧ w'.disk = w.disk ∧
      w'.effects.made = w.effects.made ∧ w'.effects.written = w.effects.written := by
  cases h
  exact ⟨rfl, rfl, rfl, rfl, rfl⟩

end Louder

/-- In worlds of which one is louder a session does the same. -/
abbrev Session.IgnoresLevel {α : Type} (start : String) (session : Session α) : Prop :=
  Alike (Louder start) session session

theorem Console.text_concat (lines : List String) (line : String) :
    Console.text (lines ++ [line]) = Console.text lines ++ (line ++ "\n") := by
  simp [Console.text]

/-! ### Acts -/

section Acts

variable {start : String} {α : Type}

/-- A line that is shown is shown in both worlds. -/
theorem ignoresLevel_printError (line : String) :
    IgnoresLevel start (printError (line ++ "\n")) := by
  rintro _ _ ⟨w, hlevel, hshown⟩
  refine ⟨rfl, ?_⟩
  have hlouder : Louder start _ _ := .intro w hlevel (hshown.append_right [line])
  simp only [Console.text_concat, ← String.append_assoc] at hlouder
  simpa only [runIn_printError, ← String.append_assoc] using hlouder

theorem ignoresLevel_ask {session : Session α}
    (answer : FileSystem → String → String → Except Failure α)
    (h : ∀ w, runIn session w = (answer w.disk w.cwd w.home, w)) : IgnoresLevel start session := by
  rintro _ _ ⟨w, hlevel, hshown⟩
  rw [h, h]
  exact ⟨rfl, .intro w hlevel hshown⟩

theorem ignoresLevel_ofExcept (outcome : Except Failure α) :
    IgnoresLevel start (Session.ofExcept outcome) :=
  ignoresLevel_ask (fun _ _ _ ↦ outcome) fun w ↦ runIn_ofExcept outcome w

theorem ignoresLevel_print (text : String) : IgnoresLevel start (Session.print text) := by
  rintro _ _ ⟨w, hlevel, hshown⟩
  exact ⟨rfl, .intro { w with effects.output := w.effects.output ++ text } hlevel hshown⟩

theorem ignoresLevel_status (label value : String) (colour : Colour) :
    IgnoresLevel start (Console.status label value colour) := by
  rintro _ _ ⟨w, hlevel, hshown⟩
  rw [Console.status, runIn_bind_of_ok (runIn_get _), runIn_bind_of_ok (runIn_get _)]
  exact ignoresLevel_print _ _ _ (.intro w hlevel hshown)

/-- **A message that is shown at the higher threshold is shown at the lower one.** -/
theorem ignoresLevel_log (level : Level) (message : String) :
    IgnoresLevel start (Console.log level message) := by
  intro _ _ hlouder
  cases hlouder with | @intro w lower higher shown shown' hlevel hshown =>
  unfold Console.log
  rw [runIn_bind_of_ok (runIn_get _), runIn_bind_of_ok (runIn_get _)]
  dsimp only
  set line := Console.paint w.hasColours (Console.colourOf level) (Console.tagOf level ++ message)
  have hlouder : Louder start _ _ := .intro w hlevel hshown
  have hboth := ignoresLevel_printError line _ _ hlouder
  cases hhigher : level.passes higher with
  | true =>
    have hlower : level.passes lower = true :=
      decide_eq_true (hlevel.trans (of_decide_eq_true hhigher))
    rw [hlower]
    exact hboth
  | false =>
    cases level.passes lower with
    | true =>
      refine ⟨rfl, ?_⟩
      have hlouder : Louder start _ _ := .intro w hlevel
        (hshown.trans (List.sublist_append_left shown [line]))
      rw [Console.text_concat, ← String.append_assoc] at hlouder
      exact hlouder
    | false => exact ⟨rfl, .intro w hlevel hshown⟩

theorem ignoresLevel_execute (run : ChildRun) : IgnoresLevel start (execute run) := by
  rintro _ _ ⟨w, hlevel, hshown⟩
  unfold execute
  rw [runIn_bind_of_ok (runIn_get _), runIn_bind_of_ok (runIn_get _)]
  dsimp only
  cases w.replies with
  | nil =>
    exact ⟨rfl, .intro { w with replies := [], effects.runs := w.effects.runs ++ [run] } hlevel
      hshown⟩
  | cons reply replies =>
    have hlouder : Louder start _ _ := .intro
      { w with replies, effects.runs := w.effects.runs ++ [run] } hlevel hshown
    cases reply with
    | output text => exact ⟨rfl, hlouder⟩
    | failure value => exact ⟨rfl, hlouder⟩

theorem ignoresLevel_changeFile
    (call : FileSystem → String → Except CallFault (FileSystem × Location)) (path : String) :
    IgnoresLevel start (changeFile call path) := by
  refine (ignoresLevel_ofExcept _).bind fun _ ↦ ?_
  rintro _ _ ⟨w, hlevel, hshown⟩
  rw [runIn_bind_of_ok (runIn_get _), runIn_bind_of_ok (runIn_get _)]
  dsimp only
  cases call w.disk w.cwd with
  | ok changed =>
    exact ⟨rfl, .intro { w with
      disk := changed.1
      effects.written := w.effects.written ++ [changed.2] } hlevel hshown⟩
  | error fault => exact ⟨rfl, .intro w hlevel hshown⟩

theorem ignoresLevel_makeDirectory (path : String) : IgnoresLevel start (makeDirectory path) := by
  refine (ignoresLevel_ofExcept _).bind fun _ ↦ ?_
  rintro _ _ ⟨w, hlevel, hshown⟩
  rw [runIn_bind_of_ok (runIn_get _), runIn_bind_of_ok (runIn_get _)]
  have hlouder : Louder start _ _ := .intro { w with
    disk := (w.disk.makeDirectory w.cwd path).disk
    effects.made := w.effects.made ++ (w.disk.makeDirectory w.cwd path).made } hlevel hshown
  rw [runIn_bind_of_ok (runIn_set _ _), runIn_bind_of_ok (runIn_set _ _)]
  dsimp only
  cases (w.disk.makeDirectory w.cwd path).outcome with
  | ok => exact ⟨rfl, hlouder⟩
  | error errno => exact ⟨rfl, hlouder⟩

/-- A change of the debug log alone. -/
theorem ignoresLevel_modify_journal (change : Journal → Journal) :
    IgnoresLevel start (modify fun w ↦ { w with journal := change w.journal }) := by
  rintro _ _ ⟨w, hlevel, hshown⟩
  exact ⟨rfl, .intro { w with journal := change w.journal } hlevel hshown⟩

theorem ignoresLevel_keep (file text : String) : IgnoresLevel start (Journal.keep file text) := by
  refine (ignoresLevel_changeFile _ _).tryCatch fun failure ↦
    (ignoresLevel_ofExcept failure.message).bind fun reason ↦ ?_
  exact (ignoresLevel_printError ("reloc: debug log disabled: " ++ reason)).bind fun _ ↦
    ignoresLevel_modify_journal fun journal ↦ { journal with file := none }

theorem ignoresLevel_write (note : Note) : IgnoresLevel start (Journal.write note) := by
  rintro _ _ ⟨w, hlevel, hshown⟩
  unfold Journal.write
  rw [runIn_bind_of_ok (runIn_get _), runIn_bind_of_ok (runIn_get _)]
  dsimp only
  -- Whether the entry is shown and whether it is kept is the same in both worlds.
  cases w.journal.file with
  | none =>
    have hkept : IgnoresLevel start (pure ()) := ignoresLevel_ofExcept (.ok ())
    cases w.journal.isVerbose with
    | false => exact hkept _ _ (.intro w hlevel hshown)
    | true => exact (ignoresLevel_printError _).bind (fun _ ↦ hkept) _ _ (.intro w hlevel hshown)
  | some file =>
    have hkept : IgnoresLevel start
        (Journal.keep file (String.ofList w.now.timestamp ++ " " ++ note.line ++ "\n")) :=
      ignoresLevel_keep _ _
    cases w.journal.isVerbose with
    | false => exact hkept _ _ (.intro w hlevel hshown)
    | true => exact (ignoresLevel_printError _).bind (fun _ ↦ hkept) _ _ (.intro w hlevel hshown)

/-- **Every act of a run does the same** in worlds of which one is louder. -/
theorem Session.Deed.ignoresLevel {session : Session α} (h : Deed session) :
    IgnoresLevel start session := by
  cases h with
  | inquiry h =>
    cases h with
    | ask answer h => exact ignoresLevel_ask answer h
    | note note => exact ignoresLevel_write note
  | log level message => exact ignoresLevel_log level message
  | print text => exact ignoresLevel_print text
  | status label value colour => exact ignoresLevel_status label value colour
  | execute run => exact ignoresLevel_execute run

theorem Session.MadeOf.ignoresLevel {session : Session α} (h : MadeOf Deed session) :
    IgnoresLevel start session :=
  h.alike fun h ↦ h.ignoresLevel

theorem ignoresLevel_configure (config : Option JournalConfig) (projectDir : String) :
    IgnoresLevel start (Journal.configure config projectDir) := by
  rintro _ _ ⟨w, hlevel, hshown⟩
  unfold Journal.configure
  rw [runIn_bind_of_ok (runIn_get _), runIn_bind_of_ok (runIn_get _)]
  dsimp only
  cases w.journal.isConfigured with
  | true => exact ⟨rfl, .intro w hlevel hshown⟩
  | false =>
    simp only [Bool.false_eq_true, if_false]
    rw [runIn_bind_of_ok (runIn_set _ _), runIn_bind_of_ok (runIn_set _ _)]
    have hlouder : Louder start _ _ := .intro
      { w with journal.isConfigured := true } hlevel hshown
    have hpure : IgnoresLevel start (pure () : Session Unit) := ignoresLevel_ofExcept (.ok ())
    cases config with
    | none => exact hpure _ _ hlouder
    | some config =>
      refine Alike.ite ?_ hpure _ _ hlouder
      exact (ignoresLevel_makeDirectory _).bind fun _ ↦ (ignoresLevel_changeFile _ _).bind fun _ ↦
        ignoresLevel_modify_journal fun journal ↦ { journal with file := some _ }

/-- Thresholds are set in the order in which they are. -/
theorem alike_setThreshold {level level' : Level} (h : level.weight ≤ level'.weight) :
    Alike (Louder start) (Console.setThreshold level) (Console.setThreshold level') := by
  rintro _ _ ⟨w, -, hshown⟩
  exact ⟨rfl, .intro w h hshown⟩

end Acts

/-! ### Runs -/

/-- A configuration with another level of the console log. -/
def Config.atLevel (config : Config) (level : Level) : Config := { config with logLevel := level }

namespace Program

/-- Runs a command with the configuration that is loaded in another form. -/
def runActionWith (change : Config → Config) (invocation : Invocation)
    (options : CommandLine.Options) (action : CommandLine.Action) : Session Int :=
  tryCatch (do
    let cwd ← World.cwd <$> get
    let config ← Config.load (Path.resolve cwd [invocation.directory]) invocation.env
    opening invocation options cwd (change config)
    announce invocation options cwd (change config)
    return (← perform (invocation.contextWith options cwd (change config)) action).toInt)
    fun failure ↦ do
      explain failure
      return failure.exitCode

/-- Runs the program with the configuration that is loaded in another form. -/
def runWith (change : Config → Config) (invocation : Invocation) : Session Int :=
  match CommandLine.readRequest invocation.userArguments with
  | .run options action => runActionWith change invocation options action
  | _ => run invocation

/-- The configuration as it is loaded makes the run that it is. -/
theorem runWith_id (invocation : Invocation) : runWith id invocation = run invocation := by
  unfold runWith
  split
  · next options action hrequest =>
    rw [run_of_request hrequest, runActionWith, runAction, prepare_eq]
    simp only [map_eq_pure_bind, bind_assoc, pure_bind, id]
  · rfl

section Levels

variable {start : String} {level level' : Level}

theorem alike_announce (h : level.weight ≤ level'.weight) (invocation : Invocation)
    (options : CommandLine.Options) (cwd : String) (config : Config) :
    Alike (Louder start) (announce invocation options cwd (config.atLevel level))
      (announce invocation options cwd (config.atLevel level')) := by
  refine .ite ?_ ?_
  · exact (ignoresLevel_modify_journal fun journal ↦ { journal with isVerbose := true }).bind
      fun _ ↦ (alike_setThreshold (Nat.le_refl _)).bind fun _ ↦ ignoresLevel_write _
  · exact (alike_setThreshold h).bind fun _ ↦ ignoresLevel_write _

/-- No command looks at the level. -/
theorem perform_atLevel (invocation : Invocation) (options : CommandLine.Options) (cwd : String)
    (config : Config) (level : Level) (action : CommandLine.Action) :
    perform (invocation.contextWith options cwd (config.atLevel level)) action =
      perform (invocation.contextWith options cwd config) action := by
  cases action <;> rfl

theorem alike_runActionWith (h : level.weight ≤ level'.weight) (invocation : Invocation)
    (options : CommandLine.Options) (action : CommandLine.Action) :
    Alike (Louder start) (runActionWith (·.atLevel level) invocation options action)
      (runActionWith (·.atLevel level') invocation options action) := by
  have hcwd : IgnoresLevel start (World.cwd <$> get) :=
    ignoresLevel_ask (fun _ cwd _ ↦ .ok cwd) fun _ ↦ rfl
  have hperform : ∀ cwd (config : Config), Alike (Louder start)
      (perform (invocation.contextWith options cwd (config.atLevel level)) action >>= fun code ↦
        pure code.toInt)
      (perform (invocation.contextWith options cwd (config.atLevel level')) action >>= fun code ↦
        pure code.toInt) := by
    intro cwd config
    rw [perform_atLevel, perform_atLevel]
    exact (madeOf_perform _ action).ignoresLevel.bind fun code ↦
      ignoresLevel_ofExcept (.ok code.toInt)
  have hexplain : ∀ failure, IgnoresLevel start (explain failure >>= fun _ ↦
      pure failure.exitCode) := fun failure ↦
    (madeOf_explain failure).ignoresLevel.bind fun _ ↦ ignoresLevel_ofExcept (.ok failure.exitCode)
  refine Alike.tryCatch ?_ hexplain
  refine hcwd.bind fun cwd ↦ ?_
  refine (Config.madeOf_load _ _).ignoresLevel.bind fun config ↦ ?_
  refine (ignoresLevel_configure _ _).bind fun _ ↦ ?_
  exact (alike_announce h invocation options cwd config).bind fun _ ↦ hperform cwd config

end Levels

/-- The lines of a text. -/
def linesOf (text : String) : List String := Text.split (· == '\n') text

/-- What is shown line by line has these lines, and what they are broken into. -/
theorem linesOf_text (lines : List String) :
    linesOf (Console.text lines) = lines.flatMap linesOf ++ [""] := by
  induction lines with
  | nil => rfl
  | cons line lines ih =>
    have hcons : (Console.text (line :: lines)).toList =
        line.toList ++ '\n' :: (Console.text lines).toList := by
      simp [Console.text]
    rw [linesOf, Text.split, hcons, Text.pieces_append_cons (by decide), List.map_append,
      List.flatMap_cons, List.append_assoc, ← ih]
    rfl

/-- A louder world shows the lines of the other, among others and in the same order. -/
theorem exists_text_of_louder {start : String} {w w' : World} (h : Louder start w w') :
    ∃ text text', w.effects.errors = start ++ text ∧ w'.effects.errors = start ++ text' ∧
      (linesOf text').Sublist (linesOf text) := by
  cases h with | @intro w level level' shown shown' hlevel hshown =>
  refine ⟨_, _, rfl, rfl, ?_⟩
  rw [linesOf_text, linesOf_text]
  exact (hshown.flatMap _).append_right [""]

/-- Without a command the configuration is not even loaded, and the standard error is only added
to. -/
theorem exists_text_of_not_run {invocation : Invocation}
    (h : ∀ options action, CommandLine.readRequest invocation.userArguments ≠ .run options action)
    (w : World) : (∀ change, runWith change invocation = run invocation) ∧
      ∃ text, ((run invocation).runIn w).2.effects.errors = w.effects.errors ++ text := by
  unfold runWith run
  cases hrequest : CommandLine.readRequest invocation.userArguments with
  | answer text => exact ⟨fun _ ↦ rfl, "", String.append_empty.symm⟩
  | refuse complaint => exact ⟨fun _ ↦ rfl, complaint.message, rfl⟩
  | run options action => exact absurd hrequest (h options action)

/-- **The threshold of the console log decides what is shown on the standard error, and nothing
else**: two runs whose configurations differ in it alone have the same outcome, the same standard
output, the same child processes and the same files, made and written alike; and the lines on the
standard error at the higher level are among those at the lower one, in the same order. -/
theorem run_ignores_level (invocation : Invocation) (level level' : Level) (w : World) :
    let ran := (runWith (·.atLevel level) invocation).runIn w
    let ran' := (runWith (·.atLevel level') invocation).runIn w
    (ran'.1 = ran.1 ∧ ran'.2.effects.output = ran.2.effects.output ∧
      ran'.2.effects.runs = ran.2.effects.runs ∧ ran'.2.disk = ran.2.disk ∧
      ran'.2.effects.made = ran.2.effects.made ∧
      ran'.2.effects.written = ran.2.effects.written) ∧
    (level.weight ≤ level'.weight → ∃ text text', ran.2.effects.errors = w.effects.errors ++ text ∧
      ran'.2.effects.errors = w.effects.errors ++ text' ∧
      (linesOf text').Sublist (linesOf text)) := by
  by_cases hasked : ∃ options action,
      CommandLine.readRequest invocation.userArguments = .run options action
  · obtain ⟨options, action, hrequest⟩ := hasked
    have hruns : ∀ change, runWith change invocation =
        runActionWith change invocation options action := fun _ ↦ by rw [runWith, hrequest]
    have hlouder : ∀ {level level' : Level}, level.weight ≤ level'.weight →
        ((runWith (·.atLevel level) invocation).runIn w).1 =
          ((runWith (·.atLevel level') invocation).runIn w).1 ∧
        Louder w.effects.errors ((runWith (·.atLevel level) invocation).runIn w).2
          ((runWith (·.atLevel level') invocation).runIn w).2 := by
      intro level level' h
      rw [hruns, hruns]
      exact alike_runActionWith h invocation options action w w (.refl w)
    refine ⟨?_, fun h ↦ exists_text_of_louder (hlouder h).2⟩
    -- One of the two is the louder one.
    rcases Nat.le_total level.weight level'.weight with h | h
    · exact ⟨(hlouder h).1.symm, (hlouder h).2.done_eq⟩
    · obtain ⟨houtput, hchildren, hdisk, hmade, hwritten⟩ := (hlouder h).2.done_eq
      exact ⟨(hlouder h).1, houtput.symm, hchildren.symm, hdisk.symm, hmade.symm, hwritten.symm⟩
  · obtain ⟨hsame, text, htext⟩ := exists_text_of_not_run
      (fun options action h ↦ hasked ⟨options, action, h⟩) w
    have herrors : ∀ change, ((runWith change invocation).runIn w).2.effects.errors =
        w.effects.errors ++ text := fun change ↦ by rw [hsame, htext]
    refine ⟨?_, fun _ ↦ ⟨text, text, herrors _, herrors _, List.Sublist.refl _⟩⟩
    rw [hsame, hsame]
    exact ⟨rfl, rfl, rfl, rfl, rfl, rfl⟩

end Program

end ResourceLocator
