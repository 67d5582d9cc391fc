import ResourceLocator.Proofs.CommandLine.Scan

/-!
# The settings that arguments hold

The flags of the program are taken wherever they stand, up to an argument `--`. `Sets` says which
settings that makes, by the arguments alone; all arguments make some (`exists_sets`). If a command
is asked for, it is asked for with the options that these settings make (`Sets.options_eq`); with
one more flag it is asked for all the same (`readRequest_verbose`).
-/

namespace ResourceLocator.CommandLine

variable {arg : String} {args rest : List String} {flag : Flag} {setting : Setting}
  {settings : List Setting} {options : Options} {action : Action}

/-- Arguments hold settings of the program. What an argument that asks for the version may hold
besides is not counted: the version is all that is told then. -/
inductive Sets : List String → List Setting → Prop where
  /-- There are no arguments. -/
  | nil : Sets [] []
  /-- Flags end here. -/
  | dashes (rest : List String) : Sets ("--" :: rest) []
  /-- A setting is written. -/
  | own {setting : Setting} {written rest : List String} {settings : List Setting}
      (hwrites : Writes setting written) (hrest : Sets rest settings) :
      Sets (written ++ rest) (setting :: settings)
  /-- An argument is not for the program. -/
  | other {arg : String} {rest : List String} {settings : List Setting} (harg : ¬IsOwn arg)
      (hne : arg ≠ "--") (hrest : Sets rest settings) : Sets (arg :: rest) settings
  /-- The version is asked for. -/
  | version {arg : String} {rest : List String} {settings : List Setting}
      (harg : AsksForVersion arg) (hrest : Sets rest settings) : Sets (arg :: rest) settings
  /-- A value is missing at the end. -/
  | missing {flag : Flag} {arg : String} (harg : Awaits flag arg) : Sets [arg] []

/-- **All arguments hold settings**, if only none. -/
theorem exists_sets (args : List String) : ∃ settings, Sets args settings := by
  match args with
  | [] => exact ⟨[], .nil⟩
  | arg :: rest =>
    by_cases hne : arg = "--"
    · exact ⟨[], hne ▸ .dashes rest⟩
    have hreads := reads arg
    generalize read Flag.ofProgram arg = reading at hreads
    cases hreads with
    | version hversion =>
      obtain ⟨settings, hrest⟩ := exists_sets rest
      exact ⟨settings, .version hversion hrest⟩
    | @setting setting hwrites =>
      obtain ⟨settings, hrest⟩ := exists_sets rest
      exact ⟨setting :: settings, .own hwrites hrest⟩
    | @awaiting flag hawaits =>
      match rest with
      | [] => exact ⟨[], .missing hawaits⟩
      | value :: rest =>
        obtain ⟨settings, hrest⟩ := exists_sets rest
        exact ⟨(flag, value) :: settings,
          .own (.apart value hawaits.mem hawaits.takesValue hawaits.isSpelling) hrest⟩
    | other harg =>
      obtain ⟨settings, hrest⟩ := exists_sets rest
      exact ⟨settings, .other harg hne hrest⟩
termination_by args.length

/-! ### Scanning for settings -/

/-- A scan has found the settings, or something that keeps a command from being asked for. -/
def Scan.Holds (scan : Scan) (settings : List Setting) : Prop :=
  isSet .version scan.settings = true ∨ scan.unmet?.isSome = true ∨ scan.settings = settings

namespace Scan.Holds

variable {scan : Scan}

theorem addSettings (h : scan.Holds settings) (setting : Setting) :
    (scan.addSettings [setting]).Holds (setting :: settings) := by
  rcases h with hversion | hunmet | hsettings
  · refine .inl ?_
    rw [Scan.addSettings, isSet_append, hversion, Bool.or_true]
  · exact .inr (.inl hunmet)
  · exact .inr (.inr (congrArg (setting :: ·) hsettings))

theorem addArgument (h : scan.Holds settings) (isStray : Bool) (arg : String) :
    (scan.addArgument isStray arg).Holds settings := by
  cases isStray <;> exact h

end Scan.Holds

/-- **A scan finds the settings that the arguments hold.** -/
theorem Sets.holds (h : Sets args settings) (astray : Bool) :
    (scanFrom Flag.ofProgram astray args).Holds settings := by
  induction h generalizing astray with
  | nil => exact .inr (.inr rfl)
  | dashes rest =>
    refine .inr (.inr ?_)
    rw [scanFrom, if_pos rfl]
    cases astray <;> rfl
  | @own setting written rest settings hwrites _ ih =>
    rw [hwrites.scanFrom_append]
    exact (ih astray).addSettings setting
  | @other arg rest settings harg hne _ ih =>
    rw [scanFrom_cons_of_not_isOwn harg hne]
    exact (ih _).addArgument _ arg
  | @version arg rest settings harg _ _ =>
    have hne : arg ≠ "--" := fun h ↦ not_isOwn_dashes (.inl (h ▸ harg))
    refine .inl ?_
    rw [scanFrom, if_neg hne, Scan.addSettings, isSet_append, isSet_version_read harg, Bool.true_or]
  | @missing flag arg harg =>
    have hne : arg ≠ "--" := fun h ↦ not_isOwn_dashes (h ▸ harg.isOwn)
    refine .inr (.inl ?_)
    rw [scanFrom, if_neg hne, read_of_awaits harg]
    rfl

/-! ### Options -/

/-- A command that is asked for with some options is asked for with any others. -/
theorem readCommand_of_run {c : Command} {given : Options} {operands strays : List String}
    (h : readCommand given c operands strays = .run options action) (other : Options) :
    readCommand other c operands strays = .run other action := by
  simp only [readCommand] at h ⊢
  split at h
  · cases h
  next hunmet =>
  split at h
  · cases h
  next hhelp =>
  rw [if_neg hhelp]
  split at h
  · cases h
  split at h
  · cases h
  next action' haction =>
  obtain rfl : action' = action := (Request.run.inj h).2
  rfl

/-- A command is given the options that it is read with. -/
theorem options_eq_of_readCommand {c : Command} {given : Options} {operands strays : List String}
    (h : readCommand given c operands strays = .run options action) : options = given :=
  (Request.run.inj (h.symm.trans (readCommand_of_run h given))).1

/-- **A command is asked for** only if no version is, no value is missing, and an operand names
it. -/
theorem exists_command_of_readRequest (h : readRequest args = .run options action) :
    isSet .version (scan Flag.ofProgram args).settings = false ∧
    (scan Flag.ofProgram args).unmet? = none ∧
    ∃ c word operands, (scan Flag.ofProgram args).operands = word :: operands ∧
      Command.ofName? word = some c ∧
      readCommand (.ofSettings (scan Flag.ofProgram args).settings) c operands
        (scan Flag.ofProgram args).strays = .run options action := by
  have hrest : ∀ operands strays, readRest operands strays ≠ .run options action := by
    intro operands strays heq
    unfold readRest at heq
    split at heq
    · cases heq
    · split at heq
      · cases heq
      · split at heq <;> cases heq
  have hhelp : ∀ word, readHelp word ≠ .run options action := by
    intro word heq
    unfold readHelp at heq
    split at heq
    · cases heq
    · cases heq
    · split at heq <;> cases heq
  simp only [readRequest] at h
  split at h
  · cases h
  next hversion =>
  split at h
  · cases h
  next hunmet =>
  split at h
  · exact absurd h (hrest _ _)
  next word operands hoperands =>
  split at h
  · next c hword =>
    exact ⟨Bool.eq_false_iff.2 hversion, hunmet, c, word, operands, hoperands, hword, h⟩
  · split at h
    · exact absurd h (hhelp _)
    · exact absurd h (hrest _ _)

/-- Then it is read as a command. -/
theorem readRequest_of_command {c : Command} {word : String} {operands : List String}
    (hversion : isSet .version (scan Flag.ofProgram args).settings = false)
    (hunmet : (scan Flag.ofProgram args).unmet? = none)
    (hoperands : (scan Flag.ofProgram args).operands = word :: operands)
    (hword : Command.ofName? word = some c) :
    readRequest args = readCommand (.ofSettings (scan Flag.ofProgram args).settings) c operands
      (scan Flag.ofProgram args).strays := by
  simp only [readRequest, hversion, hunmet, hoperands, hword, Bool.false_eq_true, if_false]

/-- **A command is asked for with the options that the arguments hold.** -/
theorem Sets.options_eq (hsets : Sets args settings)
    (h : readRequest args = .run options action) : options = .ofSettings settings := by
  obtain ⟨hversion, hunmet, c, word, operands, -, -, hcommand⟩ := exists_command_of_readRequest h
  rw [options_eq_of_readCommand hcommand]
  rcases hsets.holds false with hset | hmissing | hsettings
  · cases hset.symm.trans hversion
  · have hnone : (scan Flag.ofProgram args).unmet?.isSome = false := by rw [hunmet]; rfl
    cases hmissing.symm.trans hnone
  · exact congrArg Options.ofSettings hsettings

/-- **Settings change the options of a command and nothing else**: it is the one that is asked for
by the arguments between them. -/
theorem Mixes.readRequest_eq {given : Options} {kept : List String}
    (h : Mixes args settings kept) (hdashes : "--" ∉ kept)
    (hkept : readRequest kept = .run given action) :
    readRequest args = .run (.ofSettings settings) action := by
  obtain ⟨hversion, hunmet, c, word, operands, hoperands, hword, hcommand⟩ :=
    exists_command_of_readRequest hkept
  have hnone : (scan Flag.ofProgram kept).settings = [] := (h.finds_kept hdashes false).settings
  have hscan : scan Flag.ofProgram args = (scan Flag.ofProgram kept).addSettings settings :=
    h.scanFrom_eq hdashes false
  have hsettings : (scan Flag.ofProgram args).settings = settings := by
    rw [hscan, Scan.addSettings, hnone, List.append_nil]
  have hunmet' : (scan Flag.ofProgram args).unmet? = none := by
    rw [hscan]
    exact hunmet
  have hoperands' : (scan Flag.ofProgram args).operands = word :: operands := by
    rw [hscan]
    exact hoperands
  rw [readRequest_of_command (hsettings ▸ h.isSet_version) hunmet' hoperands' hword, hsettings,
    hscan]
  exact readCommand_of_run hcommand _

/-! ### Asking for everything to be shown -/

section Verbose

variable {before : List String}

theorem writes_verbose : Writes (.verbose, "") ["--verbose"] :=
  .alone (by decide) (by decide) (by decide)

/-- Another setting among the settings asks for everything to be shown, and changes nothing else. -/
theorem Options.ofSettings_verbose (settings more : List Setting) :
    ofSettings (settings ++ (.verbose, "") :: more) =
      { ofSettings (settings ++ more) with isVerbose := true } := by
  have hverbose : isSet .verbose (settings ++ (.verbose, "") :: more) = true := by
    simp [isSet]
  have hvalues : ∀ flag, flag ≠ .verbose →
      valuesOf flag (settings ++ (.verbose, "") :: more) = valuesOf flag (settings ++ more) := by
    intro flag hflag
    simp [valuesOf, hflag.symm]
  simp only [ofSettings, hverbose, hvalues .includeDir (by decide), hvalues .executable (by decide)]

/-- **With one more flag before it the same command is asked for**, and everything is to be
shown. -/
theorem readRequest_verbose (hbefore : Mixes before settings [])
    (h : readRequest (before ++ rest) = .run options action) :
    readRequest (before ++ "--verbose" :: rest) =
      .run { options with isVerbose := true } action := by
  obtain ⟨hversion, hunmet, c, word, operands, hoperands, hword, hcommand⟩ :=
    exists_command_of_readRequest h
  have hoptions := options_eq_of_readCommand hcommand
  have hscan : scan Flag.ofProgram (before ++ rest) =
      (scan Flag.ofProgram rest).addSettings settings :=
    hbefore.scanFrom_append List.not_mem_nil false rest
  have hscan' : scan Flag.ofProgram (before ++ "--verbose" :: rest) =
      (scan Flag.ofProgram rest).addSettings (settings ++ [(.verbose, "")]) := by
    rw [scan, hbefore.scanFrom_append List.not_mem_nil, List.nil_append, ← List.singleton_append,
      writes_verbose.scanFrom_append, Scan.addSettings, Scan.addSettings, Scan.addSettings,
      List.append_assoc]
    rfl
  rw [hscan] at hversion hunmet hoperands hcommand hoptions
  have hversion' : isSet .version
      (settings ++ [(.verbose, "")] ++ (scan Flag.ofProgram rest).settings) = false := by
    rw [Scan.addSettings, isSet_append] at hversion
    rw [isSet_append, isSet_append, writes_verbose.isSet_version, Bool.or_false, hversion]
  have hmore : Options.ofSettings
      (settings ++ [(.verbose, "")] ++ (scan Flag.ofProgram rest).settings) =
        { options with isVerbose := true } := by
    rw [List.append_assoc, List.singleton_append, Options.ofSettings_verbose, hoptions]
    rfl
  have hunmet' : (scan Flag.ofProgram (before ++ "--verbose" :: rest)).unmet? = none := by
    rw [hscan']
    exact hunmet
  have hoperands' : (scan Flag.ofProgram (before ++ "--verbose" :: rest)).operands =
      word :: operands := by
    rw [hscan']
    exact hoperands
  rw [readRequest_of_command (hscan' ▸ hversion') hunmet' hoperands' hword, ← hmore, hscan']
  exact readCommand_of_run hcommand _

end Verbose

end ResourceLocator.CommandLine
