import ResourceLocator.Proofs.Locate.Parts
import ResourceLocator.Proofs.Program.Exit

/-!
# What a session leaves as it is

A part of the world is *preserved* by a session if every run of the session, whether it ends well or
fails, leaves that part as it was (`Session.Preserves`). A session that is built of others preserves
what all of them preserve.

What a program reports is what it writes to the standard output and the child processes that it
starts (`World.reported`). Only printing and starting a process change it: to ask the file system,
to keep a log, to prepare the work of a command and to locate resources all preserve it, and so does
the explanation of a failure.
-/

namespace ResourceLocator

namespace Session

variable {α β γ δ : Type} {f : World → γ} {session : Session α} {next : α → Session β}

/-! ### Preservation -/

/-- Every run of a session leaves a part of the world as it was. -/
def Preserves (f : World → γ) (session : Session α) : Prop := ∀ w, f (runIn session w).2 = f w

theorem Preserves.eq_of_runIn (h : Preserves f session) {w after : World}
    {outcome : Except Failure α} (hrun : runIn session w = (outcome, after)) : f after = f w := by
  have hw := h w
  rwa [hrun] at hw

/-- What is read off a part that is preserved is preserved. -/
theorem Preserves.comp (h : Preserves f session) (g : γ → δ) :
    Preserves (fun w ↦ g (f w)) session :=
  fun w ↦ congrArg g (h w)

/-- A session that only asks preserves everything. -/
theorem IsQuestion.preserves (h : IsQuestion session) : Preserves f session := fun w ↦ by rw [h w]

theorem preserves_pure (a : α) : Preserves f (pure a : Session α) := fun _ ↦ rfl

theorem preserves_throw (failure : Failure) : Preserves f (throw failure : Session α) :=
  fun _ ↦ rfl

theorem preserves_get : Preserves f (get : Session World) := fun _ ↦ rfl

theorem preserves_modify {change : World → World} (h : ∀ w, f (change w) = f w) :
    Preserves f (modify change : Session PUnit) := h

theorem preserves_ofExcept (outcome : Except Failure α) : Preserves f (ofExcept outcome) :=
  (isQuestion_ofExcept outcome).preserves

theorem Preserves.bind (h : Preserves f session) (hnext : ∀ a, Preserves f (next a)) :
    Preserves f (session >>= next) :=
  Leads.bind (T := fun w after ↦ f after = f w) (fun h h' ↦ h'.trans h) h hnext

/-- After the world has been asked for, it is enough to look at the runs in that world. -/
theorem preserves_get_bind {next : World → Session β} (h : ∀ w, f (runIn (next w) w).2 = f w) :
    Preserves f (get >>= next) := fun w ↦ by
  rw [runIn_bind_of_ok (runIn_get w)]
  exact h w

/-- A world that takes the place of another has to have the same part. -/
theorem preserves_set_bind {w after : World} {next : PUnit → Session β} (hafter : f after = f w)
    (hnext : Preserves f (next ())) : f (runIn (set after >>= next) w).2 = f w := by
  rw [runIn_bind_of_ok (runIn_set after w), hnext after, hafter]

theorem Preserves.ite {condition : Prop} [Decidable condition] {other : Session α}
    (h : Preserves f session) (hother : Preserves f other) :
    Preserves f (if condition then session else other) := by
  split
  · exact h
  · exact hother

/-- What has been changed before a failure is preserved too, if it is recovered from. -/
theorem Preserves.tryCatch {recover : Failure → Session α} (h : Preserves f session)
    (hrecover : ∀ failure, Preserves f (recover failure)) :
    Preserves f (tryCatch session recover) :=
  Leads.tryCatch (T := fun w after ↦ f after = f w) (fun h h' ↦ h'.trans h) h hrecover

/-- **What every act preserves**, a session made of such acts preserves. -/
theorem MadeOf.preserves {Act : ∀ ⦃α : Type⦄, Session α → Prop} (h : MadeOf Act session)
    (hact : ∀ {α} {session : Session α}, Act session → Preserves f session) : Preserves f session :=
  h.leads (T := fun w after ↦ f after = f w) (fun h h' ↦ h'.trans h) hact

end Session

/-! ### What is reported -/

/-- A part of the world that no log has to do with: neither the disk belongs to it, nor what has
been done to the disk, nor what has been shown, nor the state of the debug log. -/
def World.IsApart {γ : Type} (f : World → γ) : Prop :=
  ∀ (w : World) (disk : FileSystem) (journal : Journal) (errors : String)
    (made written : List Location),
    f { w with disk, journal, effects := { w.effects with errors, made, written } } = f w

/-- What a program reports: its standard output, and the child processes that it starts. -/
def World.reported (w : World) : String × List ChildRun := (w.effects.output, w.effects.runs)

theorem World.isApart_reported : IsApart World.reported := fun _ _ _ _ _ _ ↦ rfl

namespace Session

variable {γ : Type} {f : World → γ}

theorem preserves_printError (hf : World.IsApart f) (text : String) :
    Preserves f (printError text) :=
  preserves_modify fun w ↦ hf w w.disk w.journal _ _ _

theorem preserves_messageOf (failure : Failure) : Preserves f (messageOf failure) :=
  preserves_ofExcept _

theorem preserves_makeDirectory (path : String) :
    Preserves World.reported (makeDirectory path) := by
  refine (preserves_ofExcept _).bind fun _ ↦ preserves_get_bind fun w ↦ ?_
  rw [runIn_bind_of_ok (runIn_set _ w)]
  cases (w.disk.makeDirectory w.cwd path).outcome <;> rfl

theorem preserves_changeFile (hf : World.IsApart f)
    (call : FileSystem → String → Except CallFault (FileSystem × Location)) (path : String) :
    Preserves f (changeFile call path) := by
  refine (preserves_ofExcept _).bind fun _ ↦ preserves_get_bind fun w ↦ ?_
  cases call w.disk w.cwd with
  | ok changed => exact hf w changed.1 w.journal _ _ _
  | error fault => rfl

end Session

open Session

namespace Console

theorem preserves_setThreshold (level : Level) : Preserves World.reported (setThreshold level) :=
  preserves_modify fun _ ↦ rfl

theorem preserves_log (level : Level) (message : String) :
    Preserves World.reported (log level message) :=
  preserves_get.bind fun _ ↦ .ite (preserves_printError World.isApart_reported _) (preserves_pure _)

end Console

namespace Journal

variable {γ : Type} {f : World → γ}

theorem preserves_setVerbose (isVerbose : Bool) : Preserves World.reported (setVerbose isVerbose) :=
  preserves_modify fun _ ↦ rfl

theorem preserves_keep (hf : World.IsApart f) (file text : String) : Preserves f (keep file text) :=
  (preserves_changeFile hf _ _).tryCatch fun failure ↦ (preserves_messageOf failure).bind fun _ ↦
    (preserves_printError hf _).bind fun _ ↦ preserves_modify fun w ↦ hf w w.disk _ _ _ _

/-- **Making an entry** preserves what no log has to do with. -/
theorem preserves_write_of_isApart (hf : World.IsApart f) (note : Note) :
    Preserves f (write note) := by
  refine preserves_get.bind fun w ↦ ?_
  cases w.journal.file with
  | none =>
    exact .ite ((preserves_printError hf _).bind fun _ ↦ preserves_pure _) (preserves_pure _)
  | some file =>
    have hkept := preserves_keep hf file (String.ofList w.now.timestamp ++ " " ++ note.line ++ "\n")
    exact .ite ((preserves_printError hf _).bind fun _ ↦ hkept) hkept

theorem preserves_write (note : Note) : Preserves World.reported (write note) :=
  preserves_write_of_isApart World.isApart_reported note

theorem preserves_configure (config : Option JournalConfig) (projectDir : String) :
    Preserves World.reported (configure config projectDir) := by
  refine preserves_get_bind fun w ↦ ?_
  cases w.journal.isConfigured with
  | true => rfl
  | false =>
    simp only [Bool.false_eq_true, if_false]
    refine preserves_set_bind rfl ?_
    cases config with
    | none => exact preserves_pure _
    | some config =>
      refine .ite ?_ (preserves_pure _)
      exact (preserves_makeDirectory _).bind fun _ ↦
        (preserves_changeFile World.isApart_reported _ _).bind fun _ ↦ preserves_modify fun _ ↦ rfl

end Journal

/-! ### Locating resources -/

/-- To ask the surroundings and to make an entry preserves what is reported. -/
theorem Session.Inquiry.preserves {α : Type} {session : Session α} (h : Inquiry session) :
    Preserves World.reported session := by
  cases h with
  | ask answer hanswer =>
    intro w
    rw [hanswer w]
  | note note => exact Journal.preserves_write note

/-- **To locate resources preserves what is reported.** -/
theorem Program.Context.preserves_locate (context : Context) :
    Preserves World.reported context.locate :=
  context.madeOf_locate.preserves fun h ↦ h.inquiry.preserves

/-! ### Preparing and failing -/

theorem Config.preserves_load (dir : String) (env : Environment) :
    Preserves World.reported (load dir env) :=
  preserves_get.bind fun _ ↦ (preserves_ofExcept _).bind fun _ ↦
    (Journal.preserves_write _).bind fun _ ↦ preserves_pure _

namespace Program

variable {w started after : World} {invocation : Invocation} {options : CommandLine.Options}
  {action : CommandLine.Action} {context : Context}

theorem preserves_prepare (invocation : Invocation) (options : CommandLine.Options) :
    Preserves World.reported (prepare invocation options) := by
  refine preserves_get.bind fun w ↦ (Config.preserves_load _ _).bind fun config ↦
    (Journal.preserves_configure _ _).bind fun _ ↦ .ite ?_ ?_
  · exact (Journal.preserves_setVerbose true).bind fun _ ↦
      (Console.preserves_setThreshold _).bind fun _ ↦ (Journal.preserves_write _).bind fun _ ↦
        preserves_pure _
  · exact (Console.preserves_setThreshold _).bind fun _ ↦
      (Journal.preserves_write _).bind fun _ ↦ preserves_pure _

theorem preserves_explain (failure : Failure) : Preserves World.reported (explain failure) :=
  .ite ((preserves_messageOf failure).bind fun _ ↦ (Console.preserves_log _ _).bind fun _ ↦
    Journal.preserves_write _) (preserves_pure _)

/-- A run that is asked for a command performs it. -/
theorem run_of_request
    (h : CommandLine.readRequest invocation.userArguments = .run options action) :
    run invocation = runAction invocation options action := by
  simp only [run, h]

/-- A run whose command cannot be prepared explains the failure, and reports no more. -/
theorem reported_runAction_of_error {failure : Failure}
    (h : (prepare invocation options).runIn w = (.error failure, started))
    (action : CommandLine.Action) :
    ((runAction invocation options action).runIn w).2.reported = started.reported := by
  rw [runAction, runIn_tryCatch_of_error (runIn_bind_of_error h _)]
  exact ((preserves_explain failure).bind fun _ ↦ preserves_pure _) started

/-- **A run reports what its command reports**, whether that ends well or fails. -/
theorem reported_runAction_of_ok
    (h : (prepare invocation options).runIn w = (.ok context, started))
    (action : CommandLine.Action) : ((runAction invocation options action).runIn w).2.reported =
      ((perform context action).runIn started).2.reported := by
  rcases hperform : (perform context action).runIn started with ⟨outcome, after⟩
  cases outcome with
  | ok code =>
    rw [runAction, runIn_tryCatch_of_ok
      ((runIn_bind_of_ok h _).trans (runIn_bind_of_ok hperform _))]
  | error failure =>
    rw [runAction, runIn_tryCatch_of_error
      ((runIn_bind_of_ok h _).trans (runIn_bind_of_error hperform _))]
    exact ((preserves_explain failure).bind fun _ ↦ preserves_pure _) after

end Program

end ResourceLocator
