import ResourceLocator.Proofs.Program.Reported

/-!
# What comes of a trace command

A session *starts* a child process if every run of it does, whatever comes of the process
(`Session.Starts`). Only the execution does so, and everything around it preserves what has been
started; so a trace command starts one process.

What comes of the command depends on the process alone. The text of a process that ends well is
handed on, and so is a failure, unless it says that the program is not there (`Value.TellsMissing`):
it has the code of a missing file, or the exit status of a launcher that has not found its program.
The status counts whichever program has been started, so that a program that is there and ends with
this status is overlooked too (`run_overlooks_status_of_override`).
-/

namespace ResourceLocator

/-- The child processes started. -/
def World.runs (w : World) : List ChildRun := w.effects.runs

theorem World.runs_eq_of_reported_eq {w after : World} (h : after.reported = w.reported) :
    after.runs = w.runs :=
  congrArg Prod.snd h

/-- Not even the debug log has to do with what will come of child processes. -/
theorem World.isApart_replies : IsApart World.replies := fun _ _ _ _ _ _ ↦ rfl

/-- What will come of the next child process. A program for which there is no reply cannot be
started. -/
def World.nextOutcome (w : World) (command : String) : Except Failure String :=
  match w.replies with
  | [] => .error (.noProgram command)
  | .output text :: _ => .ok text
  | .failure v :: _ => .error (.outside v)

/-- A value that a child process fails with if its program is not there. -/
def Value.TellsMissing (v : Value) : Prop :=
  ∃ fields, v.fields? = some fields ∧
    (Fields.get? fields "code" = some (.text "ENOENT") ∨
      Fields.get? fields "status" = some (.number (Number.ofInt 127)))

namespace Session

variable {α β : Type} {run : ChildRun} {session : Session α}

theorem Preserves.runs (h : Preserves World.reported session) : Preserves World.runs session :=
  h.comp Prod.snd

/-- A session that starts one child process, and may fail then. -/
def Starts (run : ChildRun) (session : Session α) : Prop :=
  ∀ w, (runIn session w).2.runs = w.runs ++ [run]

theorem starts_execute (run : ChildRun) : Starts run (execute run) := by
  intro w
  rw [execute, runIn_bind_of_ok (runIn_get w)]
  cases w.replies with
  | nil => rfl
  | cons reply replies => cases reply <;> rfl

/-- What is done first does not fail and starts nothing. -/
theorem Starts.of_bind {first : Session β} {next : β → Session α} (hsucceeds : Succeeds first)
    (hpreserves : Preserves World.runs first) (hnext : ∀ b, Starts run (next b)) :
    Starts run (first >>= next) := by
  intro w
  obtain ⟨b, after, hrun⟩ := hsucceeds.exists_ok w
  rw [runIn_bind_of_ok hrun, ← hpreserves.eq_of_runIn hrun]
  exact hnext b after

/-- What is done afterwards starts nothing. -/
theorem Starts.bind {next : α → Session β} (h : Starts run session)
    (hnext : ∀ a, Preserves World.runs (next a)) : Starts run (session >>= next) := by
  intro w
  have hw := h w
  rcases hrun : runIn session w with ⟨outcome, after⟩
  rw [hrun] at hw
  cases outcome with
  | ok a => rw [runIn_bind_of_ok hrun, hnext a after, hw]
  | error failure => rw [runIn_bind_of_error hrun, hw]

theorem Starts.tryCatch {recover : Failure → Session α} (h : Starts run session)
    (hrecover : ∀ failure, Preserves World.runs (recover failure)) :
    Starts run (tryCatch session recover) := by
  intro w
  have hw := h w
  rcases hrun : runIn session w with ⟨outcome, after⟩
  rw [hrun] at hw
  cases outcome with
  | ok a => rw [runIn_tryCatch_of_ok hrun, hw]
  | error failure => rw [runIn_tryCatch_of_error hrun, hrecover failure after, hw]

end Session

open Session

namespace TraceCommand

variable {w : World} {trace : TraceCommand} {args : List String} {dir : String} {v : Value}
  {failure : Failure}

/-- A trace command is started once, be it there or not. -/
theorem starts_run (command : TraceCommand) (args : List String) (dir : String) :
    Starts ⟨command.command, command.args ++ args, dir⟩ (command.run args dir) := by
  have hexecuted : Starts ⟨command.command, command.args ++ args, dir⟩ (do
      return ⟨true, ← execute ⟨command.command, command.args ++ args, dir⟩⟩ :
        Session TraceResult) :=
    (starts_execute _).bind fun _ ↦ preserves_pure _
  refine .of_bind (Journal.succeeds_write _) (Journal.preserves_write _).runs fun _ ↦
    hexecuted.tryCatch fun failure ↦ .ite ?_ (preserves_throw failure)
  exact (Console.preserves_log _ _).runs.bind fun _ ↦ (Journal.preserves_write _).runs.bind fun _ ↦
    preserves_pure _

/-! ### What is overlooked -/

theorem same_notFoundStatus_iff {n : Number} :
    n.same notFoundStatus = true ↔ n = Number.ofInt 127 := by
  have hstatus : Number.ofInt 127 = .finite false 8936830510563328 (-46) := by decide +kernel
  rw [notFoundStatus, hstatus]
  cases n <;> simp [Number.same, and_assoc]

theorem thrownCode?_eq_some_iff {code : String} : v.thrownCode? = some code ↔
    ∃ fields, v.fields? = some fields ∧ Fields.get? fields "code" = some (.text code) := by
  rw [Value.thrownCode?, ← Option.bind_eq_some_iff]
  split
  · next text hcode => simp [hcode]
  · next hno => exact iff_of_false (by simp) (hno code)

theorem thrownStatus?_eq_some_iff {n : Number} : v.thrownStatus? = some n ↔
    ∃ fields, v.fields? = some fields ∧ Fields.get? fields "status" = some (.number n) := by
  rw [Value.thrownStatus?, ← Option.bind_eq_some_iff]
  split
  · next status hstatus => simp [hstatus]
  · next hno => exact iff_of_false (by simp) (hno n)

/-- **A failure is overlooked if its value says that the program is not there.** -/
theorem meansNotFound_outside_iff : meansNotFound (.outside v) = true ↔ v.TellsMissing := by
  have hstatus : v.thrownStatus?.any (·.same notFoundStatus) = true ↔
      v.thrownStatus? = some (Number.ofInt 127) := by
    simp [Option.any_eq_true, same_notFoundStatus_iff]
  have hcode : (v.thrownCode? == some Errno.missing.code) = true ↔ v.thrownCode? = some "ENOENT" :=
    beq_iff_eq
  rw [meansNotFound, Bool.or_eq_true, Failure.code?, Failure.status?, hstatus, hcode,
    thrownCode?_eq_some_iff, thrownStatus?_eq_some_iff, Value.TellsMissing]
  simp only [and_or_left, exists_or]

/-! ### The outcome -/

/-- A child process ends as the next reply says. -/
theorem outcome_execute (run : ChildRun) (w : World) :
    (runIn (execute run) w).1 = w.nextOutcome run.command := by
  rw [execute, runIn_bind_of_ok (runIn_get w), World.nextOutcome]
  rcases w.replies with - | ⟨text | v, rest⟩ <;> rfl

/-- **What comes of a trace command** is what comes of its child process, but for a program that is
not there. -/
theorem outcome_run (trace : TraceCommand) (args : List String) (dir : String) (w : World) :
    (runIn (trace.run args dir) w).1 = match w.nextOutcome trace.command with
      | .ok text => .ok ⟨true, text⟩
      | .error failure => if meansNotFound failure then .ok ⟨false, ""⟩ else .error failure := by
  have hnoted : ∀ note, (w.noted note).replies = w.replies := fun note ↦
    (Journal.preserves_write_of_isApart World.isApart_replies note).eq_of_runIn
      (Journal.runIn_write note w)
  rw [run, runIn_bind_of_ok (Journal.runIn_write _ w), World.nextOutcome, ← hnoted]
  generalize w.noted _ = started
  have hexecute := outcome_execute ⟨trace.command, trace.args ++ args, dir⟩ started
  rcases hrun : runIn (execute ⟨trace.command, trace.args ++ args, dir⟩) started with
    ⟨outcome, after⟩
  rw [hrun, World.nextOutcome] at hexecute
  rw [← hexecute]
  cases outcome with
  | ok text => rw [runIn_tryCatch_of_ok (runIn_bind_of_ok hrun _)]
  | error failure =>
    rw [runIn_tryCatch_of_error (runIn_bind_of_error hrun _)]
    dsimp only
    split
    · obtain ⟨_, logged, hlog⟩ := (Console.succeeds_log .warn
        ("Trace tool not found: " ++ trace.line)).exists_ok after
      rw [runIn_bind_of_ok hlog, runIn_bind_of_ok (Journal.runIn_write _ logged)]
      rfl
    · rfl

/-- **A trace command starts one child process**, with its own arguments and then those given, and
hands on what comes of it: its text, if it ends well, and its failure, unless the value that it
fails with says that the program is not there. -/
theorem run_overlooks_missing_program (trace : TraceCommand) (args : List String) (dir : String)
    (w : World) :
    let result := runIn (trace.run args dir) w
    result.2.runs = w.runs ++ [⟨trace.command, trace.args ++ args, dir⟩] ∧
    (∀ text rest, w.replies = .output text :: rest → result.1 = .ok ⟨true, text⟩) ∧
    (∀ v rest, w.replies = .failure v :: rest →
      (result.1 = .ok ⟨false, ""⟩ ↔ v.TellsMissing) ∧
      (¬v.TellsMissing → result.1 = .error (.outside v))) ∧
    (w.replies = [] → result.1 = .ok ⟨false, ""⟩) := by
  intro result
  have houtcome : result.1 = _ := outcome_run trace args dir w
  refine ⟨trace.starts_run args dir w, fun text rest hreplies ↦ ?_, fun v rest hreplies ↦ ?_,
    fun hreplies ↦ ?_⟩
  · rw [houtcome, World.nextOutcome, hreplies]
  · simp only [World.nextOutcome, hreplies] at houtcome
    rw [houtcome, ← meansNotFound_outside_iff]
    split
    · next hmissing => exact ⟨iff_of_true rfl hmissing, fun h ↦ absurd hmissing h⟩
    · next hthere => exact ⟨iff_of_false (fun h ↦ by cases h) hthere, fun _ ↦ rfl⟩
  · rw [houtcome, World.nextOutcome, hreplies]
    rfl

/-- **A program that is there is overlooked if it ends with the status of a launcher** that has not
found its program. -/
theorem run_overlooks_status_of_override :
    let trace : TraceCommand := ⟨"/opt/bin/autom4te", [], .override⟩
    let v := Value.ofError .plain "Command failed: /opt/bin/autom4te"
      [("status", .number (Number.ofInt 127))]
    let w := { Program.emptyWorld with replies := [.failure v] }
    TraceTool.command ⟨"AUTOM4TE", "autom4te"⟩ (.ofList [("AUTOM4TE", "/opt/bin/autom4te")]) =
      trace ∧
    trace.command ≠ launcher ∧ v.thrownCode? ≠ some "ENOENT" ∧
    (runIn (trace.run [] "/p") w).1 = .ok ⟨false, ""⟩ := by
  intro trace v w
  have hcommand : TraceTool.command ⟨"AUTOM4TE", "autom4te"⟩
      (.ofList [("AUTOM4TE", "/opt/bin/autom4te")]) = trace := by cbv
  have hcode : v.thrownCode? = none := by decide
  have hmissing : v.TellsMissing := ⟨_, rfl, .inr rfl⟩
  refine ⟨hcommand, by decide, by simp [hcode], ?_⟩
  rw [outcome_run]
  exact if_pos (meansNotFound_outside_iff.2 hmissing)

end TraceCommand

end ResourceLocator
