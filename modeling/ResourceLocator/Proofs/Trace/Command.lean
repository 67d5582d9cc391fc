import ResourceLocator.Proofs.Text.Words
import ResourceLocator.Trace.Command

/-!
# The words of a trace command

The variable of a trace tool names a command if it has a character that is no blank. The command and
its arguments are then the words that the value is spaced into, so that only the words of a value
count (`command_eq_of_isSpaced`). The line of a command is spaced into the same words again: a
command that is put into the variable as a line comes out of it.
-/

namespace ResourceLocator

variable {tool : TraceTool} {env : Environment} {value : String} {trace : TraceCommand}

/-- The program of a trace command and its arguments. -/
def TraceCommand.words (trace : TraceCommand) : List String := trace.command :: trace.args

namespace TraceTool

open Text

/-- The line of the command that a value of the variable gives. -/
def respelled (tool : TraceTool) (value : String) : String :=
  (tool.command (.ofList [(tool.variableName, value)])).line

/-- **Only the words of a value count.** -/
theorem command_eq_of_isSpaced (henv : env tool.variableName = some value)
    (hspaced : IsSpaced value.toList (trace.words.map String.toList))
    (hsource : trace.source = .override) : tool.command env = trace := by
  obtain ⟨command, args, source⟩ := trace
  obtain rfl : source = .override := hsource
  have hwords : Text.words value = command :: args := words_eq_iff.2 hspaced
  rw [TraceTool.command, henv, Option.getD_some, hwords]

/-- **What the variable gives**: the launcher with the companion if no value has anything but
blanks, and otherwise the words of the value. -/
theorem command_cases (tool : TraceTool) (env : Environment) :
    ((∀ value, env tool.variableName = some value → IsGap value.toList) ∧
      tool.command env = ⟨launcher, [tool.companion], .companion⟩) ∨
    ∃ value, env tool.variableName = some value ∧ ¬IsGap value.toList ∧
      (tool.command env).source = .override ∧
      IsSpaced value.toList ((tool.command env).words.map String.toList) := by
  cases henv : env tool.variableName with
  | none =>
    refine .inl ⟨fun _ h ↦ (by cases h), ?_⟩
    rw [TraceTool.command, henv]
    rfl
  | some value =>
    cases hwords : Text.words value with
    | nil =>
      have hgap := isSpaced_nil_iff.1 (words_eq_iff.1 hwords)
      refine .inl ⟨fun _ h ↦ Option.some.inj h ▸ hgap, ?_⟩
      rw [TraceTool.command, henv, Option.getD_some, hwords]
    | cons command args =>
      have hspaced := words_eq_iff.1 hwords
      have hgap : ¬IsGap value.toList := fun hgap ↦ by
        cases (isSpaced_nil_iff.2 hgap).runs_eq.symm.trans hspaced.runs_eq
      have hcommand : tool.command env = ⟨command, args, .override⟩ := by
        rw [TraceTool.command, henv, Option.getD_some, hwords]
      rw [hcommand]
      exact .inr ⟨value, rfl, hgap, rfl, hspaced⟩

/-- A value that is not only blanks is spaced into the words of the command. -/
theorem command_of_not_isGap (henv : env tool.variableName = some value)
    (h : ¬IsGap value.toList) : (tool.command env).source = .override ∧
      IsSpaced value.toList ((tool.command env).words.map String.toList) := by
  rcases tool.command_cases env with ⟨hgap, -⟩ | ⟨other, hother, -, hsource, hspaced⟩
  · exact absurd (hgap value henv) h
  · obtain rfl : value = other := Option.some.inj (henv.symm.trans hother)
    exact ⟨hsource, hspaced⟩

theorem source_command_eq_override_iff : (tool.command env).source = .override ↔
    ∃ value, env tool.variableName = some value ∧ ¬IsGap value.toList := by
  constructor
  · intro hsource
    rcases tool.command_cases env with ⟨-, hcommand⟩ | ⟨value, henv, hgap, -⟩
    · rw [hcommand] at hsource
      cases hsource
    · exact ⟨value, henv, hgap⟩
  · rintro ⟨value, henv, hgap⟩
    exact (command_of_not_isGap henv hgap).1

/-! ### The line of a command -/

/-- The line of a command is spaced into its words. -/
theorem isSpaced_line (hspaced : IsSpaced value.toList (trace.words.map String.toList)) :
    IsSpaced trace.line.toList (trace.words.map String.toList) :=
  isSpaced_intercalate fun _ hword ↦ hspaced.of_mem hword

/-- **A command that is put into the variable as a line comes out of it.** -/
theorem command_of_line {env' : Environment} (hsource : (tool.command env).source = .override)
    (henv : env' tool.variableName = some (tool.command env).line) :
    tool.command env' = tool.command env := by
  obtain ⟨value, hvalue, hgap⟩ := source_command_eq_override_iff.1 hsource
  exact command_eq_of_isSpaced henv (isSpaced_line (command_of_not_isGap hvalue hgap).2) hsource

theorem ofList_variable (tool : TraceTool) (value : String) :
    Environment.ofList [(tool.variableName, value)] tool.variableName = some value := by
  simp [Environment.ofList]

/-- A value that is not only blanks gives a line that is not only blanks. -/
theorem not_isGap_respelled (h : ¬IsGap value.toList) : ¬IsGap (tool.respelled value).toList := by
  have hline := isSpaced_line (command_of_not_isGap (tool.ofList_variable value) h).2
  exact fun hgap ↦ by cases (isSpaced_nil_iff.2 hgap).runs_eq.symm.trans hline.runs_eq

/-- Respelling a value again changes nothing. -/
theorem respelled_respelled (h : ¬IsGap value.toList) :
    tool.respelled (tool.respelled value) = tool.respelled value :=
  congrArg TraceCommand.line (command_of_line
    (command_of_not_isGap (tool.ofList_variable value) h).1 (tool.ofList_variable _))

/-- **The command of a trace tool has the words of its variable.** It comes from the variable if the
value has a character that is no blank, and else it is the launcher with the companion. The words
are what the value is spaced into, and so any other value that is spaced into them gives the same
command; the line of the command is such a value. So the map from a value to the line of its command
is idempotent. -/
theorem command_has_words_of_variable (tool : TraceTool) (env : Environment) :
    let trace := tool.command env
    (trace.source = .override ↔ ∃ value, env tool.variableName = some value ∧
      ∃ c ∈ value.toList, isBlank c = false) ∧
    (trace.source ≠ .override → trace = ⟨launcher, [tool.companion], .companion⟩) ∧
    (trace.source = .override →
      (∀ value, env tool.variableName = some value → ∀ words,
        IsSpaced value.toList (words.map String.toList) ↔ words = trace.command :: trace.args) ∧
      (∀ word ∈ trace.command :: trace.args, word ≠ "" ∧ ∀ c ∈ word.toList, isBlank c = false) ∧
      (∀ (env' : Environment) value, env' tool.variableName = some value →
        IsSpaced value.toList ((trace.command :: trace.args).map String.toList) →
        tool.command env' = trace) ∧
      ∀ env' : Environment, env' tool.variableName = some trace.line → tool.command env' = trace) ∧
    ∀ value : String, (∃ c ∈ value.toList, isBlank c = false) →
      (∃ c ∈ (tool.respelled value).toList, isBlank c = false) ∧
      tool.respelled (tool.respelled value) = tool.respelled value := by
  intro trace
  have hblank : ∀ cs : List Char, (∃ c ∈ cs, isBlank c = false) ↔ ¬IsGap cs := fun cs ↦ by
    simp [IsGap]
  simp only [hblank]
  refine ⟨source_command_eq_override_iff, fun hsource ↦ ?_, fun hsource ↦ ?_,
    fun value hvalue ↦ ⟨not_isGap_respelled hvalue, respelled_respelled hvalue⟩⟩
  · rcases tool.command_cases env with ⟨-, hcommand⟩ | ⟨-, -, -, hother, -⟩
    · exact hcommand
    · exact absurd hother hsource
  · obtain ⟨value, henv, hgap⟩ := source_command_eq_override_iff.1 hsource
    have hspaced := (command_of_not_isGap henv hgap).2
    refine ⟨fun other hother words ↦ ?_, fun word hword ↦ hspaced.of_mem hword,
      fun env' other hother hsame ↦ command_eq_of_isSpaced hother hsame hsource,
      fun env' hline ↦ command_of_line hsource hline⟩
    obtain rfl : value = other := Option.some.inj (henv.symm.trans hother)
    rw [← words_eq_iff, words_eq_iff.2 hspaced, eq_comm]
    rfl

end TraceTool

end ResourceLocator
