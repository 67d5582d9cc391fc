import Mathlib.Logic.Relation
import ResourceLocator.Locate.Dirlist
import ResourceLocator.Proofs.Path.Location
import ResourceLocator.Proofs.Text.Lines

/-!
# What the text of a directory list says

The lines of a list are read one by one, so that the text before a newline and the text behind it
are read by themselves (`names_append_newline`). From this it follows place by place that some
changes of a text do not count (`Edit`): a carriage return before a newline, blanks at an end of a
line, and lines that are left out (`names_eq_of_edit`); nor do any number of them, made or taken
back.

What is read is resolved, and so normalized. A normalized path is resolved to itself, whatever the
directory of the list is; so normalized paths that are written one to a line are read back, if none
of them has a newline or ends in a blank (`parse_intercalate`).
-/

namespace ResourceLocator.Dirlist

open Text (isBlank isNewline IsGap trim)

variable {cs ds before after pad line : List Char} {path : String}

/-! ### Lines that name a directory -/

/-- Whether a line without blanks at its ends names a directory. -/
def isNaming (line : List Char) : Bool := !line.isEmpty && line.head? != some '#'

/-- What the lines of a text name. -/
def names (cs : List Char) : List (List Char) :=
  ((Text.pieces isNewline cs).map trim).filter isNaming

theorem entries_eq (content : String) :
    entries content = (names content.toList).map String.ofList := by
  rw [names, ← Text.map_trim_lines]
  rfl

theorem names_nil : names [] = [] := rfl

/-- **A newline keeps two texts apart.** -/
theorem names_append_newline (cs ds : List Char) :
    names (cs ++ '\n' :: ds) = names cs ++ names ds := by
  have hsep : isNewline '\n' = true := rfl
  rw [names, Text.pieces_append_cons hsep, List.map_append, List.filter_append]
  rfl

/-- A line that is left out: its first character that is no blank, if there is one, is `#`. -/
structure IsIgnored (line : List Char) : Prop where
  /-- It is one line. -/
  no_newline : '\n' ∉ line
  /-- It is blank, or a comment. -/
  comment : ∀ c ∈ line.find? (!isBlank ·), c = '#'

theorem isNewline_eq_false (h : '\n' ∉ cs) : ∀ c ∈ cs, isNewline c = false := fun _ hc ↦
  beq_eq_false_iff_ne.2 fun hnewline ↦ h (hnewline ▸ hc)

theorem names_of_no_newline (h : '\n' ∉ line) : names line = [trim line].filter isNaming := by
  rw [names, Text.pieces_eq_singleton (isNewline_eq_false h), List.map_singleton]

theorem names_of_isIgnored (h : IsIgnored line) : names line = [] := by
  have hhead : ∀ c ∈ (trim line).head?, c = '#' := by
    rw [Text.head?_trim]
    exact h.comment
  rw [names_of_no_newline h.no_newline]
  cases htrim : trim line with
  | nil => rfl
  | cons c rest =>
    rw [hhead c (by rw [htrim]; rfl)]
    rfl

/-! ### Changes that do not count -/

/-- Blanks that end no line. -/
structure IsPad (pad : List Char) : Prop where
  /-- They are blanks. -/
  gap : IsGap pad
  /-- None of them is a newline. -/
  no_newline : '\n' ∉ pad

/-- A place where a line starts, by the text before it. -/
def StartsLine (before : List Char) : Prop := before = [] ∨ ∃ cs, before = cs ++ ['\n']

/-- A place where a line ends, by the text behind it. -/
def EndsLine (after : List Char) : Prop :=
  after = [] ∨ (∃ cs, after = '\n' :: cs) ∨ ∃ cs, after = '\r' :: '\n' :: cs

/-- One change of a text that does not count. -/
inductive Edit : List Char → List Char → Prop where
  /-- A carriage return is put before a newline. -/
  | crlf (before after : List Char) :
    Edit (before ++ '\n' :: after) (before ++ '\r' :: '\n' :: after)
  /-- Blanks are put at the start of a line. -/
  | indent {before pad : List Char} (h : StartsLine before) (hpad : IsPad pad)
      (after : List Char) :
    Edit (before ++ after) (before ++ pad ++ after)
  /-- Blanks are put at the end of a line. -/
  | trail {pad after : List Char} (before : List Char) (hpad : IsPad pad) (h : EndsLine after) :
    Edit (before ++ after) (before ++ pad ++ after)
  /-- A line that is left out is put before another line. -/
  | insert {before line : List Char} (h : StartsLine before) (hline : IsIgnored line)
      (after : List Char) :
    Edit (before ++ after) (before ++ line ++ '\n' :: after)
  /-- A line that is left out is put behind the last line. -/
  | append {line : List Char} (before : List Char) (hline : IsIgnored line) :
    Edit before (before ++ '\n' :: line)

theorem names_pad_append (hpad : IsPad pad) (cs : List Char) : names (pad ++ cs) = names cs := by
  rw [names, Text.map_trim_pieces_append hpad.gap (isNewline_eq_false hpad.no_newline), names]

theorem names_append_pad (hpad : IsPad pad) (cs : List Char) : names (cs ++ pad) = names cs := by
  have htrim := Text.map_trimEnd_pieces_append hpad.gap (isNewline_eq_false hpad.no_newline) cs
  rw [names, Text.map_trim_congr htrim, names]

theorem isPad_carriageReturn : IsPad ['\r'] where
  gap c hc := by
    rw [List.mem_singleton.1 hc]
    rfl
  no_newline := by decide

/-- What stands before the start of a line is read by itself. -/
theorem names_append_of_startsLine (h : StartsLine before) (after : List Char) :
    names (before ++ after) = names before ++ names after := by
  rcases h with rfl | ⟨cs, rfl⟩
  · rw [List.nil_append, names_nil, List.nil_append]
  · rw [List.append_assoc, List.singleton_append, names_append_newline, names_append_newline,
      names_nil, List.append_nil]

/-- What stands behind the end of a line is read by itself. -/
theorem names_append_of_endsLine (before : List Char) (h : EndsLine after) :
    names (before ++ after) = names before ++ names after := by
  have hnewline : ∀ cs, names ('\n' :: cs) = names cs := fun cs ↦ names_append_newline [] cs
  rcases h with rfl | ⟨cs, rfl⟩ | ⟨cs, rfl⟩
  · rw [List.append_nil, names_nil, List.append_nil]
  · rw [names_append_newline, hnewline]
  · have hbefore : before ++ '\r' :: '\n' :: cs = before ++ ['\r'] ++ '\n' :: cs := by simp
    have hpad : names ('\r' :: '\n' :: cs) = names ('\n' :: cs) :=
      names_pad_append isPad_carriageReturn _
    rw [hbefore, names_append_newline, names_append_pad isPad_carriageReturn, hpad, hnewline]

/-- **One change that does not count** makes no difference. -/
theorem names_eq_of_edit (h : Edit cs ds) : names cs = names ds := by
  cases h with
  | crlf before after =>
    have hends : ∀ {cs}, EndsLine cs → names (before ++ cs) = names before ++ names cs :=
      names_append_of_endsLine before
    have hpad : names ('\r' :: '\n' :: after) = names ('\n' :: after) :=
      names_pad_append isPad_carriageReturn _
    rw [hends (.inr (.inl ⟨after, rfl⟩)), hends (.inr (.inr ⟨after, rfl⟩)), hpad]
  | indent h hpad after =>
    rw [List.append_assoc, names_append_of_startsLine h, names_append_of_startsLine h,
      names_pad_append hpad]
  | trail before hpad h =>
    rw [names_append_of_endsLine _ h, names_append_of_endsLine _ h, names_append_pad hpad]
  | insert h hline after =>
    rw [List.append_assoc, names_append_of_startsLine h, names_append_of_startsLine h,
      names_append_newline, names_of_isIgnored hline, List.nil_append]
  | append before hline =>
    rw [names_append_newline, names_of_isIgnored hline, List.append_nil]

/-- **Changes that do not count** make no difference, however many are made or taken back. -/
theorem names_eq_of_edits (h : Relation.EqvGen Edit cs ds) : names cs = names ds := by
  induction h with
  | rel _ _ hedit => exact names_eq_of_edit hedit
  | refl _ => rfl
  | symm _ _ _ ih => exact ih.symm
  | trans _ _ _ _ _ ih ih' => exact ih.trans ih'

example : names "/a \r\n\t# b\n\n c".toList = names "/a\nc".toList := by decide

/-- A text with a carriage return before each of its newlines. -/
def withCarriageReturns (cs : List Char) : List Char :=
  cs.flatMap fun c ↦ if c = '\n' then ['\r', '\n'] else [c]

/-- Carriage returns can be put before the newlines one by one. -/
theorem edits_withCarriageReturns (before cs : List Char) :
    Relation.EqvGen Edit (before ++ cs) (before ++ withCarriageReturns cs) := by
  induction cs generalizing before with
  | nil => exact .refl _
  | cons c cs ih =>
    rw [withCarriageReturns, List.flatMap_cons]
    split
    · next hc =>
      subst hc
      have hrest := ih (before ++ ['\r', '\n'])
      rw [List.append_assoc, List.append_assoc] at hrest
      exact .trans _ _ _ (.rel _ _ (.crlf before cs)) hrest
    · have hrest := ih (before ++ [c])
      rwa [List.append_assoc, List.append_assoc] at hrest

/-! ### Directories -/

theorem parse_eq (cwd content base : String) : parse cwd content base =
    (names content.toList).map fun line ↦ Path.resolve cwd [base, String.ofList line] := by
  rw [parse, entries_eq, List.map_map]
  rfl

/-- **What a list names** are the trimmed lines of its text, without those that are blank or start
with `#`. The carriage return that may stand before a newline is a blank, and trimmed with the
others. -/
theorem parse_eq_splitOnP (cwd content base : String) : parse cwd content base =
    (((content.toList.splitOnP (· == '\n')).map fun line ↦
      (line.dropWhile isBlank).rdropWhile isBlank).filter fun line ↦
        !line.isEmpty && line.head? != some '#').map fun line ↦
          Path.resolve cwd [base, String.ofList line] := by
  rw [parse_eq, names, Text.pieces_eq_splitOnP]
  rfl

theorem parse_append_newline (cwd a b base : String) :
    parse cwd (a ++ "\n" ++ b) base = parse cwd a base ++ parse cwd b base := by
  have hcs : (a ++ "\n" ++ b).toList = a.toList ++ '\n' :: b.toList := by simp
  rw [parse_eq, hcs, names_append_newline, List.map_append, ← parse_eq, ← parse_eq]

/-- A path that can be a line of a list: it is normalized, has no newline and does not end in a
blank. -/
structure IsEntry (path : String) : Prop where
  /-- It is absolute and normalized. -/
  normalized : Path.IsNormalized path
  /-- It is one line. -/
  no_newline : '\n' ∉ path.toList
  /-- It does not end in a blank. -/
  last : ∀ c ∈ path.toList.getLast?, isBlank c = false

theorem IsEntry.parse_eq (h : IsEntry path) (cwd base : String) : parse cwd path base = [path] := by
  obtain ⟨rest, hpath⟩ : ∃ rest, path.toList = '/' :: rest := by
    have habsolute := h.normalized.isAbsolute
    rw [Path.isAbsolute, beq_iff_eq] at habsolute
    exact List.head?_eq_some_iff.1 habsolute
  have htrim : trim path.toList = path.toList := by
    refine Text.trim_of_isTrimmed ⟨fun c hc ↦ ?_, h.last⟩
    rw [hpath, List.head?_cons, Option.mem_some_iff] at hc
    rw [← hc]
    rfl
  have hnaming : isNaming path.toList = true := by
    rw [hpath]
    rfl
  rw [Dirlist.parse_eq, names_of_no_newline h.no_newline, htrim, List.filter_singleton, hnaming,
    Bool.cond_true, List.map_singleton, String.ofList_toList, h.normalized.resolve_eq]

/-- **Paths that are written one to a line are read back.** -/
theorem parse_intercalate {paths : List String} (h : ∀ path ∈ paths, IsEntry path)
    (cwd base : String) : parse cwd (String.intercalate "\n" paths) base = paths := by
  induction paths with
  | nil => rfl
  | cons path paths ih =>
    rw [List.forall_mem_cons] at h
    cases paths with
    | nil => rw [String.intercalate_singleton, h.1.parse_eq]
    | cons next paths =>
      rw [String.intercalate_cons_cons, parse_append_newline, h.1.parse_eq, ih h.2,
        List.singleton_append]

/-- **How lists are read**, whatever directory they are in: two texts with a newline between them
are read one after the other; carriage returns before newlines do not count, nor do blanks at the
ends of lines and lines that are left out; what is read is absolute and normalized; and such paths
are read back from their lines. -/
theorem parse_reads_lines (cwd base : String) :
    (∀ a b, parse cwd (a ++ "\n" ++ b) base = parse cwd a base ++ parse cwd b base) ∧
      (∀ content : String,
        parse cwd (String.ofList (withCarriageReturns content.toList)) base =
          parse cwd content base) ∧
      (∀ a b : String, Relation.EqvGen Edit a.toList b.toList →
        parse cwd a base = parse cwd b base) ∧
      (∀ content, ∀ path ∈ parse cwd content base,
        Path.isAbsolute path = true ∧ Path.IsNormalized path) ∧
      ∀ paths : List String, (∀ path ∈ paths, IsEntry path) →
        parse cwd (String.intercalate "\n" paths) base = paths := by
  have hedits : ∀ a b : String, Relation.EqvGen Edit a.toList b.toList →
      parse cwd a base = parse cwd b base := by
    intro a b h
    rw [parse_eq, parse_eq, names_eq_of_edits h]
  refine ⟨fun a b ↦ parse_append_newline cwd a b base, fun content ↦ ?_, hedits,
    fun content path hpath ↦ ?_, fun paths h ↦ parse_intercalate h cwd base⟩
  · refine (hedits _ _ ?_).symm
    rw [String.toList_ofList]
    exact edits_withCarriageReturns [] content.toList
  · obtain ⟨entry, -, rfl⟩ := List.mem_map.1 hpath
    have hnormalized := Path.isNormalized_resolve cwd [base, entry]
    exact ⟨hnormalized.isAbsolute, hnormalized⟩

end ResourceLocator.Dirlist
