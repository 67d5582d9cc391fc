import ResourceLocator.CommandLine.Request

/-!
# What one argument is to the program

The flags of the program have few spellings, all of them different. What is written for one of them,
with its value, is said by `Writes`, without any reading; an argument that begins such a setting,
or asks for the version, is the program's own (`IsOwn`). Reading an argument tells what it is
(`reads`): exactly what is not the program's own is left over, and it is left over as it stands.
-/

namespace ResourceLocator.CommandLine

variable {arg spelling : String} {flag : Flag} {setting : Setting} {c : Char} {cs : List Char}

/-! ### Spellings -/

/-- The flags that say how a command is to be run. -/
def Flag.ofOptions : List Flag := [.verbose, .includeDir, .executable]

namespace Flag

theorem mem_ofProgram_of_mem_ofOptions (h : flag ∈ ofOptions) : flag ∈ ofProgram :=
  List.mem_cons_of_mem _ h

theorem exists_toList_long (flag : Flag) : ∃ cs, flag.long.toList = '-' :: '-' :: cs := by
  cases flag <;> exact ⟨_, rfl⟩

theorem letter_ne_dash (h : flag.letter? = some c) : c ≠ '-' := by
  rintro rfl
  cases flag <;> simp [letter?] at h

theorem not_mem_long (flag : Flag) : '=' ∉ flag.long.toList := by
  cases flag <;> decide

theorem isSpelling_iff : flag.isSpelling arg = true ↔
    arg = flag.long ∨ ∃ c, flag.letter? = some c ∧ arg.toList = ['-', c] := by
  simp [isSpelling, Option.any_eq_true, String.ext_iff]

theorem of_find?_eq_some {flags : List Flag} (h : find? flags arg = some flag) :
    flag ∈ flags ∧ flag.isSpelling arg = true := by
  have hfirst : flags.find? (fun flag ↦ flag.isSpelling arg) = some flag := h
  have hspelling := List.find?_some hfirst
  exact ⟨List.mem_of_find?_eq_some hfirst, hspelling⟩

theorem mem_ofOptions_of_takesValue (hflag : flag ∈ ofProgram)
    (h : flag.takesValue = true) : flag ∈ ofOptions := by
  have hall : ∀ flag ∈ ofProgram, flag.takesValue = true → flag ∈ ofOptions := by decide
  exact hall flag hflag h

theorem takesValue_of_letter (hflag : flag ∈ ofOptions)
    (h : flag.letter? = some c) : flag.takesValue = true := by
  have hall : ∀ flag ∈ ofOptions, flag.letter?.isSome → flag.takesValue = true := by decide
  exact hall flag hflag (by rw [h]; rfl)

theorem eq_version_or_mem (hflag : flag ∈ ofProgram) :
    flag = .version ∨ flag ∈ ofOptions :=
  List.mem_cons.1 hflag

/-- The flags of the program have different spellings. -/
theorem find?_eq_some (hflag : flag ∈ ofProgram) (h : flag.isSpelling spelling = true) :
    find? ofProgram spelling = some flag := by
  have hspelling : spelling = flag.long ∨ ∃ c, flag.letter? = some c ∧
      spelling = String.ofList ['-', c] := by
    simpa [isSpelling, Option.any_eq_true] using h
  have hlong : ∀ flag ∈ ofProgram, find? ofProgram flag.long = some flag := by decide
  have hletter : ∀ flag ∈ ofProgram, flag.letter?.all fun c ↦
      find? ofProgram (String.ofList ['-', c]) == some flag := by decide
  rcases hspelling with rfl | ⟨c, hc, rfl⟩
  · exact hlong flag hflag
  · exact beq_iff_eq.1 ((Option.all_eq_true _ _).1 (hletter flag hflag) c hc)

theorem ofLetter?_eq_some (hflag : flag ∈ ofProgram) (h : flag.letter? = some c) :
    ofLetter? ofProgram c = some flag := by
  have hletter : ∀ flag ∈ ofProgram, flag.letter?.all fun c ↦
      ofLetter? ofProgram c == some flag := by decide
  exact beq_iff_eq.1 ((Option.all_eq_true _ _).1 (hletter flag hflag) c h)

theorem of_ofLetter?_eq_some {flags : List Flag} (h : ofLetter? flags c = some flag) :
    flag ∈ flags ∧ flag.letter? = some c := by
  have hfirst : flags.find? (fun flag ↦ flag.letter? == some c) = some flag := h
  have hletter := List.find?_some hfirst
  exact ⟨List.mem_of_find?_eq_some hfirst, beq_iff_eq.1 hletter⟩

/-- A spelling is a long one or one letter. -/
theorem find?_eq_none_of_cluster (h : arg.toList = '-' :: c :: cs) (hc : c ≠ '-') (hcs : cs ≠ [])
    (flags : List Flag) : find? flags arg = none := by
  refine List.find?_eq_none.2 fun flag _ hspelling ↦ ?_
  rcases isSpelling_iff.1 hspelling with rfl | ⟨d, -, hd⟩
  · obtain ⟨ds, hds⟩ := flag.exists_toList_long
    rw [hds] at h
    exact hc (List.cons.inj (List.cons.inj h).2).1.symm
  · rw [hd] at h
    exact hcs (List.cons.inj (List.cons.inj h).2).2.symm

/-- No spelling has an equals sign. -/
theorem find?_eq_none_of_mem (h : '=' ∈ arg.toList) (hdashes : arg.toList = '-' :: '-' :: cs)
    (flags : List Flag) : find? flags arg = none := by
  refine List.find?_eq_none.2 fun flag _ hspelling ↦ ?_
  rcases isSpelling_iff.1 hspelling with rfl | ⟨c, hc, hletter⟩
  · exact flag.not_mem_long h
  · rw [hletter] at hdashes
    exact letter_ne_dash hc (List.cons.inj (List.cons.inj hdashes).2).1

end Flag

/-! ### What is written for a setting -/

/-- A setting of the program is written in some arguments. -/
inductive Writes : Setting → List String → Prop where
  /-- A flag without a value. -/
  | alone {flag : Flag} {spelling : String} (hflag : flag ∈ Flag.ofOptions)
      (htakes : flag.takesValue = false) (hspelling : flag.isSpelling spelling = true) :
      Writes (flag, "") [spelling]
  /-- The value is the next argument. -/
  | apart {flag : Flag} {spelling : String} (value : String) (hflag : flag ∈ Flag.ofOptions)
      (htakes : flag.takesValue = true) (hspelling : flag.isSpelling spelling = true) :
      Writes (flag, value) [spelling, value]
  /-- The value follows the letter. -/
  | joined {flag : Flag} {c : Char} {value : String} (hflag : flag ∈ Flag.ofOptions)
      (htakes : flag.takesValue = true) (hletter : flag.letter? = some c) (hvalue : value ≠ "") :
      Writes (flag, value) [String.ofList ['-', c] ++ value]
  /-- The value follows an equals sign. -/
  | assigned {flag : Flag} (value : String) (hflag : flag ∈ Flag.ofOptions)
      (htakes : flag.takesValue = true) : Writes (flag, value) [flag.long ++ "=" ++ value]

/-- **A directory of the user layer is written** in four ways. -/
theorem writes_includeDir_iff (dir : String) (written : List String) :
    Writes (.includeDir, dir) written ↔
      written = ["-I", dir] ∨ (dir ≠ "" ∧ written = ["-I" ++ dir]) ∨
        written = ["--include", dir] ∨ written = ["--include=" ++ dir] := by
  have htakes : Flag.includeDir.takesValue = true := by decide
  have hmem : Flag.includeDir ∈ Flag.ofOptions := by decide
  have hletter : "-I".toList = ['-', 'I'] := rfl
  constructor
  · intro h
    cases h with
    | alone _ hnone _ => cases hnone.symm.trans htakes
    | apart _ _ _ hspelling =>
      rcases Flag.isSpelling_iff.1 hspelling with rfl | ⟨c, hc, hchars⟩
      · exact .inr (.inr (.inl rfl))
      · obtain rfl : 'I' = c := Option.some.inj hc
        rw [← hletter, String.toList_inj] at hchars
        rw [hchars]
        exact .inl rfl
    | joined _ _ hc hvalue =>
      obtain rfl := Option.some.inj hc
      exact .inr (.inl ⟨hvalue, rfl⟩)
    | assigned => exact .inr (.inr (.inr rfl))
  · rintro (rfl | ⟨hdir, rfl⟩ | rfl | rfl)
    · exact .apart dir hmem htakes (by decide)
    · exact .joined (c := 'I') hmem htakes rfl hdir
    · exact .apart dir hmem htakes (by decide)
    · exact .assigned dir hmem htakes

/-- An argument waits for the value of a flag. -/
structure Awaits (flag : Flag) (arg : String) : Prop where
  /-- The flag is one of those that make options. -/
  mem : flag ∈ Flag.ofOptions
  /-- It takes a value. -/
  takesValue : flag.takesValue = true
  /-- The argument is one of its spellings. -/
  isSpelling : flag.isSpelling arg = true

/-- An argument asks for the version: by the long spelling, or by the letter and whatever follows
it. -/
def AsksForVersion (arg : String) : Prop :=
  arg = Flag.version.long ∨ ∃ more, arg = "-V" ++ more

/-- An argument is for the program and not for a command. -/
def IsOwn (arg : String) : Prop :=
  AsksForVersion arg ∨ ∃ setting rest, Writes setting (arg :: rest)

theorem Awaits.isOwn (h : Awaits flag arg) : IsOwn arg :=
  .inr ⟨(flag, ""), [""], .apart "" h.mem h.takesValue h.isSpelling⟩

/-! ### Reading one argument -/

theorem read_of_find? (h : Flag.find? Flag.ofProgram arg = some flag) :
    read Flag.ofProgram arg =
      if flag.takesValue then ⟨[], .awaiting flag⟩ else ⟨[(flag, "")], .nothing⟩ := by
  rw [read, h]

theorem read_of_cluster {flags : List Flag} (hfind : Flag.find? flags arg = none)
    (h : arg.toList = '-' :: c :: cs) (hc : c ≠ '-') :
    read flags arg = readLetters flags (c :: cs) := by
  simp only [read, hfind, h]

theorem read_of_dashes {flags : List Flag} (hfind : Flag.find? flags arg = none)
    (h : arg.toList = '-' :: '-' :: cs) : read flags arg = match readAssignment? flags arg with
      | some setting => ⟨[setting], .nothing⟩
      | none => ⟨[], .text arg⟩ := by
  cases hassignment : readAssignment? flags arg <;> simp only [read, hfind, h, hassignment]

/-- Without flags nothing is read. -/
theorem read_nil (arg : String) : read [] arg = ⟨[], .text arg⟩ := by
  have hnone : ∀ s, Flag.find? [] s = none := fun _ ↦ rfl
  have hassignment : readAssignment? [] arg = none := by
    unfold readAssignment?
    simp only [hnone]
    split <;> rfl
  simp only [read, hnone, hassignment]
  split
  · rfl
  · next c cs _ h =>
    have hletter : Flag.ofLetter? [] c = none := rfl
    rw [readLetters, hletter, ← h, String.ofList_toList]
  · rfl

theorem read_of_awaits (h : Awaits flag arg) : read Flag.ofProgram arg = ⟨[], .awaiting flag⟩ := by
  rw [read_of_find? (Flag.find?_eq_some (Flag.mem_ofProgram_of_mem_ofOptions h.mem) h.isSpelling),
    if_pos h.takesValue]

/-- What stands before the first equals sign is the flag. -/
theorem readAssignment?_assigned (hflag : flag ∈ Flag.ofProgram) (htakes : flag.takesValue = true)
    (value : String) :
    readAssignment? Flag.ofProgram (flag.long ++ "=" ++ value) = some (flag, value) := by
  have hlist : (flag.long ++ "=" ++ value).toList = flag.long.toList ++ '=' :: value.toList := by
    simp
  have hname : ∀ c ∈ flag.long.toList, decide (c ≠ '=') = true := fun c hc ↦
    decide_eq_true fun heq ↦ flag.not_mem_long (heq ▸ hc)
  have hspelling : flag.isSpelling flag.long = true := by simp [Flag.isSpelling]
  rw [readAssignment?, hlist, List.takeWhile_append_of_pos hname,
    List.dropWhile_append_of_pos hname]
  simp [Flag.find?_eq_some hflag hspelling, htakes]

/-- A setting in one argument is read from it. -/
theorem read_of_writes (h : Writes setting [arg]) :
    read Flag.ofProgram arg = ⟨[setting], .nothing⟩ := by
  cases h with
  | alone hflag htakes hspelling =>
    rw [read_of_find? (Flag.find?_eq_some (Flag.mem_ofProgram_of_mem_ofOptions hflag) hspelling),
      htakes]
    rfl
  | @joined flag c value hflag htakes hletter hvalue =>
    have hlist : (String.ofList ['-', c] ++ value).toList = '-' :: c :: value.toList := by simp
    have hne : value.toList ≠ [] := by simpa using hvalue
    have hc := Flag.letter_ne_dash hletter
    have hfind := Flag.ofLetter?_eq_some (Flag.mem_ofProgram_of_mem_ofOptions hflag) hletter
    rw [read_of_cluster (Flag.find?_eq_none_of_cluster hlist hc hne _) hlist hc, readLetters,
      hfind]
    simp [htakes, hne]
  | @assigned flag value hflag htakes =>
    obtain ⟨cs, hcs⟩ := flag.exists_toList_long
    have hlist : (flag.long ++ "=" ++ value).toList = flag.long.toList ++ '=' :: value.toList := by
      simp
    have hdashes : (flag.long ++ "=" ++ value).toList =
        '-' :: '-' :: (cs ++ '=' :: value.toList) := by rw [hlist, hcs]; rfl
    rw [read_of_dashes (Flag.find?_eq_none_of_mem (by simp) hdashes _) hdashes,
      readAssignment?_assigned (Flag.mem_ofProgram_of_mem_ofOptions hflag) htakes]

/-- An argument that asks for the version is read as doing so, whatever else it holds. -/
theorem isSet_version_read (h : AsksForVersion arg) :
    isSet .version (read Flag.ofProgram arg).settings = true := by
  rcases h with rfl | ⟨more, rfl⟩
  · decide
  · rcases hmore : more.toList with - | ⟨c, cs⟩
    · obtain rfl : more = "" := String.toList_inj.1 hmore
      decide
    · have hlist : ("-V" ++ more).toList = '-' :: 'V' :: c :: cs := by simp [hmore]
      have hletter : Flag.ofLetter? Flag.ofProgram 'V' = some .version := by decide
      have hfind := Flag.find?_eq_none_of_cluster hlist (by decide) (by simp) Flag.ofProgram
      rw [read_of_cluster hfind hlist (by decide), readLetters, hletter]
      rfl

/-- What is for the program is not left over by it. -/
theorem read_ne_text (h : IsOwn arg) : read Flag.ofProgram arg ≠ ⟨[], .text arg⟩ := by
  intro hread
  rcases h with hversion | ⟨setting, rest, hwrites⟩
  · have hset := isSet_version_read hversion
    rw [hread] at hset
    cases hset
  · cases hwrites with
    | alone hflag htakes hspelling =>
      cases hread.symm.trans (read_of_writes (.alone hflag htakes hspelling))
    | apart value hflag htakes hspelling =>
      cases hread.symm.trans (read_of_awaits ⟨hflag, htakes, hspelling⟩)
    | joined hflag htakes hletter hvalue =>
      cases hread.symm.trans (read_of_writes (.joined hflag htakes hletter hvalue))
    | assigned value hflag htakes =>
      cases hread.symm.trans (read_of_writes (.assigned value hflag htakes))

/-- Nothing but the long spelling of a flag with a value stands before an equals sign. -/
theorem eq_of_readAssignment?_eq_some (h : arg.toList = '-' :: '-' :: cs)
    (hread : readAssignment? Flag.ofProgram arg = some setting) :
    setting.1 ∈ Flag.ofProgram ∧ setting.1.takesValue = true ∧
      arg = setting.1.long ++ "=" ++ setting.2 := by
  have hsplit := List.takeWhile_append_dropWhile (p := fun c ↦ decide (c ≠ '=')) (l := arg.toList)
  unfold readAssignment? at hread
  simp only at hread
  split at hread
  · next value hdrop =>
    split at hread
    · next flag hfind =>
      split at hread
      · next htakes =>
        obtain rfl := Option.some.inj hread
        rw [hdrop] at hsplit
        obtain ⟨hflag, hspelling⟩ := Flag.of_find?_eq_some hfind
        refine ⟨hflag, htakes, ?_⟩
        rcases Flag.isSpelling_iff.1 hspelling with hlong | ⟨c, hc, hletter⟩
        · rw [← hlong]
          refine String.toList_inj.1 (hsplit.symm.trans ?_)
          simp
        · rw [String.toList_ofList] at hletter
          rw [← hsplit, hletter] at h
          exact absurd (List.cons.inj (List.cons.inj h).2).1 (Flag.letter_ne_dash hc)
      · cases hread
    · cases hread
  · cases hread

theorem asksForVersion_of_isSpelling (h : Flag.version.isSpelling arg = true) :
    AsksForVersion arg := by
  rcases Flag.isSpelling_iff.1 h with hlong | ⟨c, hc, hletter⟩
  · exact .inl hlong
  · obtain rfl : 'V' = c := Option.some.inj hc
    exact .inr ⟨"", String.toList_inj.1 hletter⟩

/-- What an argument is to the program, and how it is read. -/
inductive Reads (arg : String) : Reading → Prop where
  /-- It asks for the version, and may hold more. -/
  | version {reading : Reading} (h : AsksForVersion arg)
      (hset : isSet .version reading.settings = true) : Reads arg reading
  /-- A setting is written in it. -/
  | setting {setting : Setting} (h : Writes setting [arg]) : Reads arg ⟨[setting], .nothing⟩
  /-- It waits for a value. -/
  | awaiting {flag : Flag} (h : Awaits flag arg) : Reads arg ⟨[], .awaiting flag⟩
  /-- It is not for the program. -/
  | other (h : ¬IsOwn arg) : Reads arg ⟨[], .text arg⟩

namespace Reads

theorem of_version (h : AsksForVersion arg) : Reads arg (read Flag.ofProgram arg) :=
  .version h (isSet_version_read h)

theorem of_writes (h : Writes setting [arg]) : Reads arg (read Flag.ofProgram arg) :=
  read_of_writes h ▸ .setting h

theorem of_text (h : read Flag.ofProgram arg = ⟨[], .text arg⟩) :
    Reads arg (read Flag.ofProgram arg) := by
  rw [h]
  exact .other fun hown ↦ read_ne_text hown h

/-- A spelling is a setting, waits for a value, or asks for the version. -/
theorem of_find? (h : Flag.find? Flag.ofProgram arg = some flag) :
    Reads arg (read Flag.ofProgram arg) := by
  obtain ⟨hflag, hspelling⟩ := Flag.of_find?_eq_some h
  cases htakes : flag.takesValue with
  | true =>
    have hawaits : Awaits flag arg :=
      ⟨Flag.mem_ofOptions_of_takesValue hflag htakes, htakes, hspelling⟩
    exact read_of_awaits hawaits ▸ .awaiting hawaits
  | false =>
    rcases Flag.eq_version_or_mem hflag with rfl | hoptions
    · exact .of_version (asksForVersion_of_isSpelling hspelling)
    · exact .of_writes (.alone hoptions htakes hspelling)

/-- Two dashes and no spelling: a value is assigned, or nothing is known. -/
theorem of_dashes (hfind : Flag.find? Flag.ofProgram arg = none)
    (h : arg.toList = '-' :: '-' :: cs) : Reads arg (read Flag.ofProgram arg) := by
  have hread := read_of_dashes hfind h
  cases hassignment : readAssignment? Flag.ofProgram arg with
  | none =>
    rw [hassignment] at hread
    exact .of_text hread
  | some setting =>
    obtain ⟨hflag, htakes, harg⟩ := eq_of_readAssignment?_eq_some h hassignment
    have hwrites : Writes setting [arg] :=
      harg ▸ .assigned setting.2 (Flag.mem_ofOptions_of_takesValue hflag htakes) htakes
    exact .of_writes hwrites

/-- One dash and no spelling: a value is joined, the version is asked for, or nothing is known. -/
theorem of_cluster (hfind : Flag.find? Flag.ofProgram arg = none)
    (h : arg.toList = '-' :: c :: cs) (hc : c ≠ '-') : Reads arg (read Flag.ofProgram arg) := by
  have hread := read_of_cluster hfind h hc
  cases hfound : Flag.ofLetter? Flag.ofProgram c with
  | none =>
    rw [readLetters, hfound, ← h, String.ofList_toList] at hread
    exact .of_text hread
  | some flag =>
    obtain ⟨hflag, hletter⟩ := Flag.of_ofLetter?_eq_some hfound
    rcases Flag.eq_version_or_mem hflag with rfl | hoptions
    · obtain rfl : 'V' = c := Option.some.inj hletter
      exact .of_version (.inr ⟨String.ofList cs, String.toList_inj.1 (by simp [h])⟩)
    · have harg : arg = String.ofList ['-', c] ++ String.ofList cs :=
        String.toList_inj.1 (by simp [h])
      -- A letter alone would have been a spelling.
      have hvalue : String.ofList cs ≠ "" := by
        intro hempty
        rw [hempty, String.append_empty] at harg
        have hspelling : flag.isSpelling arg = true := by simp [Flag.isSpelling, hletter, harg]
        cases hfind.symm.trans (Flag.find?_eq_some hflag hspelling)
      have hwrites : Writes (flag, String.ofList cs) [arg] :=
        harg ▸ .joined hoptions (Flag.takesValue_of_letter hoptions hletter) hletter hvalue
      exact .of_writes hwrites

end Reads

/-- **What one argument is to the program.** -/
theorem reads (arg : String) : Reads arg (read Flag.ofProgram arg) := by
  cases hfind : Flag.find? Flag.ofProgram arg with
  | some flag => exact .of_find? hfind
  | none =>
    by_cases hdash : ∃ c cs, arg.toList = '-' :: c :: cs
    · obtain ⟨c, cs, h⟩ := hdash
      by_cases hc : c = '-'
      · exact .of_dashes hfind (hc ▸ h)
      · exact .of_cluster hfind h hc
    · refine .of_text ?_
      simp only [read, hfind]
      split
      · next heq => exact absurd ⟨_, _, heq⟩ hdash
      · next heq => exact absurd ⟨_, _, heq⟩ hdash
      · rfl

/-- **What is not for the program is left over** as it stands. -/
theorem read_of_not_isOwn (h : ¬IsOwn arg) : read Flag.ofProgram arg = ⟨[], .text arg⟩ := by
  have hreads := reads arg
  generalize read Flag.ofProgram arg = reading at hreads ⊢
  cases hreads with
  | version hversion => exact absurd (.inl hversion) h
  | setting hwrites => exact absurd (.inr ⟨_, [], hwrites⟩) h
  | awaiting hawaits => exact absurd hawaits.isOwn h
  | other => rfl

end ResourceLocator.CommandLine
