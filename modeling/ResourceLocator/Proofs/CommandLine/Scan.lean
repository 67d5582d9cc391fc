import ResourceLocator.Proofs.CommandLine.Read

/-!
# What the program takes from its arguments

The flags of the program are taken wherever they stand: `Mixes` says that arguments are settings of
the program with other arguments between them, which keep their order. An argument that asks for the
version, or the lack of a value at the end, ends the reading (`Ends`). There are no other arguments
(`mixes_or_ends`).

A scan takes the settings wherever they stand and goes on as with the others alone
(`Mixes.scanFrom_append`), or is forced to the request that the arguments end with (`Ends.forces`).
A command that takes every argument is therefore asked for with those that are not the program's
(`readRequest_trace_of_mixes`).
-/

namespace ResourceLocator.CommandLine

variable {arg : String} {args rest kept : List String} {flag : Flag} {setting : Setting}
  {settings : List Setting}

/-! ### Arguments in a row -/

/-- Arguments that hold settings of the program, and others between them in the same order. -/
inductive Mixes : List String → List Setting → List String → Prop where
  /-- There are no arguments. -/
  | nil : Mixes [] [] []
  /-- A setting is written. -/
  | own {setting : Setting} {written rest kept : List String} {settings : List Setting}
      (hwrites : Writes setting written) (hrest : Mixes rest settings kept) :
      Mixes (written ++ rest) (setting :: settings) kept
  /-- An argument is not for the program. -/
  | other {arg : String} {rest kept : List String} {settings : List Setting} (harg : ¬IsOwn arg)
      (hrest : Mixes rest settings kept) : Mixes (arg :: rest) settings (arg :: kept)

namespace Mixes

/-- Where nothing is for the program, everything is kept. -/
theorem of_forall_not_isOwn (h : ∀ arg ∈ args, ¬IsOwn arg) : Mixes args [] args := by
  induction args with
  | nil => exact .nil
  | cons arg rest ih =>
    exact .other (h arg List.mem_cons_self) (ih fun arg harg ↦ h arg (List.mem_cons_of_mem _ harg))

/-- What is kept are arguments, in the same order. -/
theorem sublist (h : Mixes args settings kept) : kept.Sublist args := by
  induction h with
  | nil => exact .slnil
  | own _ _ ih => exact ih.trans (List.sublist_append_right _ _)
  | other _ _ ih => exact ih.cons_cons _

/-- Nothing that is kept is for the program. -/
theorem not_isOwn (h : Mixes args settings kept) (harg : arg ∈ kept) : ¬IsOwn arg := by
  induction h with
  | nil => exact absurd harg List.not_mem_nil
  | own _ _ ih => exact ih harg
  | other hother _ ih =>
    rcases List.mem_cons.1 harg with rfl | hrest
    · exact hother
    · exact ih hrest

end Mixes

/-- Arguments end for the program before their end: one asks for the version, or the last one lacks
the value that it waits for. -/
inductive Ends : List String → Request → Prop where
  /-- The version is asked for. -/
  | version {front rest kept : List String} {arg : String} {settings : List Setting}
      (hfront : Mixes front settings kept) (harg : AsksForVersion arg) :
      Ends (front ++ arg :: rest) (.answer (programVersion ++ "\n"))
  /-- A value is missing. -/
  | missing {front kept : List String} {arg : String} {flag : Flag} {settings : List Setting}
      (hfront : Mixes front settings kept) (harg : Awaits flag arg) :
      Ends (front ++ [arg]) (.refuse (.missingValue flag))

/-! ### The scan -/

/-- A scan has found settings and kept the other arguments, in two lists of which the first one is
empty if a stray stands before them. -/
structure Scan.Finds (scan : Scan) (astray : Bool) (settings : List Setting) (kept : List String) :
    Prop where
  /-- These are the settings. -/
  settings : scan.settings = settings
  /-- The other arguments are in order. -/
  kept : scan.operands ++ scan.strays = kept
  /-- No value is missing. -/
  unmet : scan.unmet? = none
  /-- After a stray there are no operands. -/
  astray : astray = true → scan.operands = []

theorem Scan.Finds.addArgument {scan : Scan} {isStray : Bool}
    (h : scan.Finds isStray settings kept) (arg : String) (astray : Bool)
    (hastray : astray = true → isStray = true) :
    (scan.addArgument isStray arg).Finds astray settings (arg :: kept) := by
  obtain ⟨hsettings, hkept, hunmet, hoperands⟩ := h
  cases isStray with
  | true =>
    rw [hoperands rfl, List.nil_append] at hkept
    refine ⟨hsettings, ?_, hunmet, fun _ ↦ hoperands rfl⟩
    show scan.operands ++ arg :: scan.strays = arg :: kept
    rw [hoperands rfl, hkept, List.nil_append]
  | false =>
    refine ⟨hsettings, congrArg (arg :: ·) hkept, hunmet, fun h ↦ ?_⟩
    cases hastray h

theorem scanFrom_cons_of_text {flags : List Flag} (hread : read flags arg = ⟨[], .text arg⟩)
    (hne : arg ≠ "--") (astray : Bool) (rest : List String) :
    scanFrom flags astray (arg :: rest) =
      (scanFrom flags (astray || looksLikeFlag arg) rest).addArgument
        (astray || looksLikeFlag arg) arg := by
  rw [scanFrom, if_neg hne, hread]
  rfl

theorem scanFrom_cons_of_setting (hread : read Flag.ofProgram arg = ⟨[setting], .nothing⟩)
    (hne : arg ≠ "--") (astray : Bool) (rest : List String) :
    scanFrom Flag.ofProgram astray (arg :: rest) =
      (scanFrom Flag.ofProgram astray rest).addSettings [setting] := by
  rw [scanFrom, if_neg hne, hread]

theorem scanFrom_cons_of_awaiting (hread : read Flag.ofProgram arg = ⟨[], .awaiting flag⟩)
    (hne : arg ≠ "--") (astray : Bool) (value : String) (rest : List String) :
    scanFrom Flag.ofProgram astray (arg :: value :: rest) =
      (scanFrom Flag.ofProgram astray rest).addSettings [(flag, value)] := by
  rw [scanFrom, if_neg hne, hread]
  rfl

theorem Writes.isSet_version (h : Writes setting args) : isSet .version [setting] = false := by
  have hall : ∀ flag ∈ Flag.ofOptions, decide (flag = .version) = false := by decide
  have hflag : setting.1 ∈ Flag.ofOptions := by cases h <;> assumption
  simp [isSet, hall _ hflag]

theorem isSet_append (flag : Flag) (settings more : List Setting) :
    isSet flag (settings ++ more) = (isSet flag settings || isSet flag more) :=
  List.any_append

theorem Mixes.isSet_version (h : Mixes args settings kept) : isSet .version settings = false := by
  induction h with
  | nil => rfl
  | @own setting written rest kept settings hwrites _ ih =>
    rw [← List.singleton_append, isSet_append, hwrites.isSet_version, ih]
    rfl
  | other _ _ ih => exact ih

namespace Ends

variable {request : Request} {written : List String}

theorem own (hwrites : Writes setting written) (h : Ends rest request) :
    Ends (written ++ rest) request := by
  cases h with
  | version hfront harg =>
    rw [← List.append_assoc]
    exact .version (.own hwrites hfront) harg
  | missing hfront harg =>
    rw [← List.append_assoc]
    exact .missing (.own hwrites hfront) harg

theorem other (harg : ¬IsOwn arg) (h : Ends rest request) : Ends (arg :: rest) request := by
  cases h with
  | version hfront hversion =>
    rw [← List.cons_append]
    exact .version (.other harg hfront) hversion
  | missing hfront hawaits =>
    rw [← List.cons_append]
    exact .missing (.other harg hfront) hawaits

end Ends

/-- A scan makes a request before any command is looked for. -/
inductive Scan.Forces (scan : Scan) : Request → Prop where
  /-- The version is asked for. -/
  | version (hset : isSet .version scan.settings = true) :
      Forces scan (.answer (programVersion ++ "\n"))
  /-- A value is missing, and the version is not asked for. -/
  | missing {flag : Flag} (hset : isSet .version scan.settings = false)
      (hunmet : scan.unmet? = some flag) : Forces scan (.refuse (.missingValue flag))

namespace Scan

variable {scan : Scan} {request : Request} {astray : Bool}

theorem Forces.addSettings (h : scan.Forces request) (hset : isSet .version settings = false) :
    (scan.addSettings settings).Forces request := by
  have hsettings : isSet .version (scan.addSettings settings).settings =
      isSet .version scan.settings := by
    rw [Scan.addSettings, isSet_append, hset, Bool.false_or]
  cases h with
  | version hversion => exact .version (hsettings.trans hversion)
  | missing hversion hunmet => exact .missing (hsettings.trans hversion) hunmet

theorem Forces.addArgument (h : scan.Forces request) (isStray : Bool) (arg : String) :
    (scan.addArgument isStray arg).Forces request := by
  have hsame : (scan.addArgument isStray arg).settings = scan.settings ∧
      (scan.addArgument isStray arg).unmet? = scan.unmet? := by
    cases isStray <;> exact ⟨rfl, rfl⟩
  cases h with
  | version hversion => exact .version (hsame.1 ▸ hversion)
  | missing hversion hunmet => exact .missing (hsame.1 ▸ hversion) (hsame.2.trans hunmet)

theorem Finds.addSettings (h : scan.Finds astray settings kept) (more : List Setting) :
    (scan.addSettings more).Finds astray (more ++ settings) kept :=
  ⟨congrArg (more ++ ·) h.settings, h.kept, h.unmet, h.astray⟩

theorem addArgument_addSettings (scan : Scan) (settings : List Setting) (isStray : Bool)
    (arg : String) : (scan.addSettings settings).addArgument isStray arg =
      (scan.addArgument isStray arg).addSettings settings := by
  cases isStray <;> rfl

end Scan

theorem not_isOwn_dashes : ¬IsOwn "--" := fun h ↦ read_ne_text h (by decide)

/-- A setting is scanned from what is written for it. -/
theorem Writes.scanFrom_append {written : List String} (h : Writes setting written)
    (astray : Bool) (rest : List String) :
    scanFrom Flag.ofProgram astray (written ++ rest) =
      (scanFrom Flag.ofProgram astray rest).addSettings [setting] := by
  have hne : ∀ {arg more}, Writes setting (arg :: more) → arg ≠ "--" := by
    rintro _ more hwrites rfl
    exact not_isOwn_dashes (.inr ⟨setting, more, hwrites⟩)
  have hone : ∀ {arg}, Writes setting [arg] →
      scanFrom Flag.ofProgram astray ([arg] ++ rest) =
        (scanFrom Flag.ofProgram astray rest).addSettings [setting] :=
    fun h ↦ scanFrom_cons_of_setting (read_of_writes h) (hne h) astray rest
  cases h with
  | alone hflag htakes hspelling => exact hone (.alone hflag htakes hspelling)
  | @apart flag spelling value hflag htakes hspelling =>
    exact scanFrom_cons_of_awaiting (read_of_awaits ⟨hflag, htakes, hspelling⟩)
      (hne (.apart value hflag htakes hspelling)) astray value rest
  | joined hflag htakes hletter hvalue => exact hone (.joined hflag htakes hletter hvalue)
  | assigned value hflag htakes => exact hone (.assigned value hflag htakes)

theorem scanFrom_cons_of_not_isOwn (harg : ¬IsOwn arg) (hne : arg ≠ "--") (astray : Bool)
    (rest : List String) : scanFrom Flag.ofProgram astray (arg :: rest) =
      (scanFrom Flag.ofProgram (astray || looksLikeFlag arg) rest).addArgument
        (astray || looksLikeFlag arg) arg :=
  scanFrom_cons_of_text (read_of_not_isOwn harg) hne astray rest

/-- **Settings are taken wherever they stand**: what is left to scan are the other arguments. -/
theorem Mixes.scanFrom_append (h : Mixes args settings kept) (hdashes : "--" ∉ kept)
    (astray : Bool) (rest : List String) : scanFrom Flag.ofProgram astray (args ++ rest) =
      (scanFrom Flag.ofProgram astray (kept ++ rest)).addSettings settings := by
  -- An argument that looks like a flag leads astray, so it is not fixed whether one has done so.
  induction h generalizing astray with
  | nil => rfl
  | own hwrites _ ih =>
    rw [List.append_assoc, hwrites.scanFrom_append, ih hdashes]
    rfl
  | other harg _ ih =>
    obtain ⟨hne, hrest⟩ := not_or.1 (mt List.mem_cons.2 hdashes)
    rw [List.cons_append, List.cons_append, scanFrom_cons_of_not_isOwn harg (Ne.symm hne),
      scanFrom_cons_of_not_isOwn harg (Ne.symm hne), ih hrest, Scan.addArgument_addSettings]

/-- Where nothing is for a flag, everything is kept. -/
theorem finds_scanFrom_of_text {flags : List Flag}
    (htext : ∀ arg ∈ args, read flags arg = ⟨[], .text arg⟩) (hdashes : "--" ∉ args)
    (astray : Bool) : (scanFrom flags astray args).Finds astray [] args := by
  induction args generalizing astray with
  | nil => exact ⟨rfl, rfl, rfl, fun _ ↦ rfl⟩
  | cons arg rest ih =>
    obtain ⟨hne, hrest⟩ := not_or.1 (mt List.mem_cons.2 hdashes)
    obtain ⟨hread, hreads⟩ := List.forall_mem_cons.1 htext
    rw [scanFrom_cons_of_text hread (Ne.symm hne)]
    refine (ih hreads hrest _).addArgument arg astray fun h ↦ ?_
    rw [h, Bool.true_or]

namespace Mixes

/-- **What is left to scan** are the arguments that are kept. -/
theorem scanFrom_eq (h : Mixes args settings kept) (hdashes : "--" ∉ kept) (astray : Bool) :
    scanFrom Flag.ofProgram astray args =
      (scanFrom Flag.ofProgram astray kept).addSettings settings := by
  have hscan := h.scanFrom_append hdashes astray []
  rwa [List.append_nil, List.append_nil] at hscan

theorem finds_kept (h : Mixes args settings kept) (hdashes : "--" ∉ kept) (astray : Bool) :
    (scanFrom Flag.ofProgram astray kept).Finds astray [] kept :=
  finds_scanFrom_of_text (fun _ harg ↦ read_of_not_isOwn (h.not_isOwn harg)) hdashes astray

/-- **A scan finds what the arguments hold.** -/
theorem finds (h : Mixes args settings kept) (hdashes : "--" ∉ kept) (astray : Bool) :
    (scanFrom Flag.ofProgram astray args).Finds astray settings kept := by
  have hfinds := (h.finds_kept hdashes astray).addSettings settings
  rwa [List.append_nil, ← h.scanFrom_eq hdashes] at hfinds

end Mixes

/-- What a scan is forced to later it is forced to from the beginning. -/
theorem Mixes.forces_append {request : Request} (h : Mixes args settings kept)
    (hdashes : "--" ∉ args)
    (hrest : ∀ astray, (scanFrom Flag.ofProgram astray rest).Forces request) (astray : Bool) :
    (scanFrom Flag.ofProgram astray (args ++ rest)).Forces request := by
  induction h generalizing astray with
  | nil => exact hrest astray
  | @own setting written more kept settings hwrites _ ih =>
    have hmore : "--" ∉ more := mt (List.mem_append_right written) hdashes
    rw [List.append_assoc, hwrites.scanFrom_append]
    exact (ih hmore astray).addSettings hwrites.isSet_version
  | @other arg more kept settings harg _ ih =>
    obtain ⟨hne, hmore⟩ := not_or.1 (mt List.mem_cons.2 hdashes)
    rw [List.cons_append, scanFrom_cons_of_not_isOwn harg (Ne.symm hne)]
    exact (ih hmore _).addArgument _ arg

/-- **A scan is forced to the request that the arguments end with.** -/
theorem Ends.forces {request : Request} (h : Ends args request) (hdashes : "--" ∉ args)
    (astray : Bool) : (scanFrom Flag.ofProgram astray args).Forces request := by
  cases h with
  | @version front rest kept arg settings hfront harg =>
    obtain ⟨hfrontDashes, hrest⟩ := not_or.1 (mt List.mem_append.2 hdashes)
    have hne : arg ≠ "--" := fun h ↦ hrest (h ▸ List.mem_cons_self)
    refine hfront.forces_append hfrontDashes (fun astray ↦ .version ?_) astray
    rw [scanFrom, if_neg hne, Scan.addSettings, isSet_append, isSet_version_read harg]
    rfl
  | @missing front kept arg flag settings hfront harg =>
    obtain ⟨hfrontDashes, hrest⟩ := not_or.1 (mt List.mem_append.2 hdashes)
    have hne : arg ≠ "--" := fun h ↦ hrest (h ▸ List.mem_cons_self)
    refine hfront.forces_append hfrontDashes (fun astray ↦ ?_) astray
    rw [scanFrom, if_neg hne, read_of_awaits harg]
    exact .missing rfl rfl

/-- **There are no other arguments** than those that settings are mixed into and those that end. -/
theorem mixes_or_ends (args : List String) :
    (∃ settings kept, Mixes args settings kept) ∨ ∃ request, Ends args request := by
  have hown : ∀ {setting written rest}, Writes setting written →
      (∃ settings kept, Mixes rest settings kept) ∨ (∃ request, Ends rest request) →
      (∃ settings kept, Mixes (written ++ rest) settings kept) ∨
        ∃ request, Ends (written ++ rest) request := by
    rintro setting written rest hwrites (⟨settings, kept, hmixes⟩ | ⟨request, hends⟩)
    · exact .inl ⟨_, _, .own hwrites hmixes⟩
    · exact .inr ⟨request, hends.own hwrites⟩
  match args with
  | [] => exact .inl ⟨[], [], .nil⟩
  | arg :: rest =>
    have hreads := reads arg
    generalize read Flag.ofProgram arg = reading at hreads
    cases hreads with
    | version hversion => exact .inr ⟨_, .version .nil hversion⟩
    | setting hwrites => exact hown hwrites (mixes_or_ends rest)
    | awaiting hawaits =>
      -- The next argument is the value, whatever it looks like.
      match rest with
      | [] => exact .inr ⟨_, .missing .nil hawaits⟩
      | value :: rest =>
        exact hown (.apart value hawaits.mem hawaits.takesValue hawaits.isSpelling)
          (mixes_or_ends rest)
    | other harg =>
      rcases mixes_or_ends rest with ⟨settings, kept, hmixes⟩ | ⟨request, hends⟩
      · exact .inl ⟨settings, arg :: kept, .other harg hmixes⟩
      · exact .inr ⟨request, hends.other harg⟩
termination_by args.length

/-! ### A command that takes every argument -/

theorem asksForHelp_of_sublist {strays : List String} (h : strays.Sublist args)
    (hshort : "-h" ∉ args) (hlong : "--help" ∉ args) : asksForHelp strays = false := by
  refine List.any_eq_false.2 fun stray hstray hspelling ↦ ?_
  have hmem := h.subset hstray
  rcases Flag.isSpelling_iff.1 hspelling with rfl | ⟨c, hc, hletter⟩
  · exact hlong hmem
  · obtain rfl : 'h' = c := Option.some.inj hc
    obtain rfl : stray = "-h" := String.toList_inj.1 hletter
    exact hshort hmem

/-- The trace tool is given operands and strays alike. -/
theorem readCommand_trace (options : Options) (operands : List String) {strays : List String}
    (hdashes : "--" ∉ strays) (hshort : "-h" ∉ strays) (hlong : "--help" ∉ strays) :
    readCommand options .trace operands strays = .run options (.trace (operands ++ strays)) := by
  have hfinds : (scan Command.trace.flags strays).Finds false [] strays :=
    finds_scanFrom_of_text (fun arg _ ↦ read_nil arg) hdashes false
  have hhelp := asksForHelp_of_sublist
    (hfinds.kept ▸ List.sublist_append_right _ (scan Command.trace.flags strays).strays)
    hshort hlong
  have hargs : operands ++ (scan Command.trace.flags strays).operands ++
      (scan Command.trace.flags strays).strays = operands ++ strays := by
    rw [List.append_assoc, hfinds.kept]
  simp only [readCommand, hfinds.unmet, hhelp, hargs, Command.allowsStrays, Action.of?,
    Bool.false_eq_true, if_false]
  split
  · next heq => cases heq
  · rfl

/-- The name of the command is its first operand. -/
theorem scan_trace (args : List String) : scan Flag.ofProgram (Command.trace.name :: args) =
    (scanFrom Flag.ofProgram false args).addArgument false Command.trace.name := by
  have hname : read Flag.ofProgram Command.trace.name = ⟨[], .text Command.trace.name⟩ := by decide
  exact scanFrom_cons_of_text hname (by decide) false args

section Trace

variable (hdashes : "--" ∉ args)
include hdashes

/-- **The trace tool is asked for with the arguments that are not the program's**, as long as none
of them asks for help. -/
theorem readRequest_trace_of_mixes (hmixes : Mixes args settings kept) (hshort : "-h" ∉ args)
    (hlong : "--help" ∉ args) : readRequest (Command.trace.name :: args) =
      .run (Options.ofSettings settings) (.trace kept) := by
  obtain ⟨hsettings, hkept, hunmet, -⟩ :=
    hmixes.finds (mt (hmixes.sublist.subset ·) hdashes) false
  have hscan := scan_trace args
  have hversion : isSet .version (scan Flag.ofProgram (Command.trace.name :: args)).settings =
      false := by
    rw [hscan]
    exact hsettings ▸ hmixes.isSet_version
  have hstrays : ∀ stray ∈ (scanFrom Flag.ofProgram false args).strays, stray ∈ args :=
    fun stray h ↦ hmixes.sublist.subset (hkept ▸ List.mem_append_right _ h)
  have hcommand := readCommand_trace (Options.ofSettings settings)
    (scanFrom Flag.ofProgram false args).operands (fun h ↦ hdashes (hstrays _ h))
    (fun h ↦ hshort (hstrays _ h)) fun h ↦ hlong (hstrays _ h)
  rw [hkept] at hcommand
  rw [← hcommand, readRequest, hversion]
  simp only [hscan, Scan.addArgument, hunmet, hsettings, Bool.false_eq_true, if_false,
    Command.ofName?_name]

/-- **No command is asked for** if the arguments end for the program before. -/
theorem readRequest_trace_of_ends {request : Request} (hends : Ends args request) :
    readRequest (Command.trace.name :: args) = request := by
  have hforces := (hends.forces hdashes false).addArgument false Command.trace.name
  rw [← scan_trace args] at hforces
  cases hforces with
  | version hset => rw [readRequest, if_pos hset]
  | missing hset hunmet => simp only [readRequest, hset, hunmet, Bool.false_eq_true, if_false]

end Trace

end ResourceLocator.CommandLine
