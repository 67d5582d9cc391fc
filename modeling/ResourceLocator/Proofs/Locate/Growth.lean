import ResourceLocator.CommandLine.Request
import ResourceLocator.Proofs.FileSystem.Answers
import ResourceLocator.Proofs.Locate.Parts
import ResourceLocator.Proofs.Locate.Scan

/-!
# Resources on a disk that grows

On a disk on which more stands than on another everything is found that is found there. So resources
are located, found and listed as on the smaller disk if what is looked for there in vain is looked
for in vain on the larger one too: when they are located (`Program.Context.MissesAlike`), and when
the search path is scanned (`ScansAlike`).
-/

namespace ResourceLocator

open FileSystem

variable {fs fs' : FileSystem} {cwd : String}

/-! ### Scanning a search path -/

namespace Resource

variable {isFile isFile' : String → Except Failure Bool}
  {entries entries' : String → Except Failure (List String)} {wanted : Option String}
  {name dir : String} {names names' searchPath : List String}

theorem find_congr
    (h : ∀ dir ∈ searchPath, isFile' (Path.join [dir, name]) = isFile (Path.join [dir, name])) :
    find cwd isFile' name searchPath = find cwd isFile name searchPath := by
  induction searchPath with
  | nil => rfl
  | cons dir rest ih =>
    obtain ⟨hdir, hrest⟩ := List.forall_mem_cons.1 h
    simp only [find, hdir, ih hrest]

theorem listFrom_congr
    (h : ∀ dir ∈ searchPath, ∀ seen, (entries' dir >>= listIn isFile' wanted dir seen) =
      (entries dir >>= listIn isFile wanted dir seen)) (seen : List String) :
    listFrom entries' isFile' wanted seen searchPath =
      listFrom entries isFile wanted seen searchPath := by
  induction searchPath generalizing seen with
  | nil => rfl
  | cons dir rest ih =>
    obtain ⟨hdir, hrest⟩ := List.forall_mem_cons.1 h
    simp only [listFrom, ← bind_assoc, hdir, ih hrest]

/-- A name that has been seen, is not wanted or is no file is passed over. -/
theorem listIn_cons_of_passed {seen : List String}
    (h : seen.contains name = true ∨ hasExtension wanted name = false ∨
      isFile (Path.join [dir, name]) = .ok false) :
    listIn isFile wanted dir seen (name :: names) = listIn isFile wanted dir seen names := by
  rw [listIn]
  rcases h with hseen | hunwanted | hfile
  · simp only [hseen, Bool.true_or, if_true]
  · simp only [hunwanted, Bool.not_false, Bool.or_true, if_true]
  · split
    · rfl
    · simp only [hfile]
      rfl

/-- **More names list the same** if those that come in addition are no files that are wanted. -/
theorem listIn_of_sublist (hsub : names.Sublist names') (hnodup : names'.Nodup)
    (hsame : ∀ name ∈ names, hasExtension wanted name = true →
      isFile' (Path.join [dir, name]) = isFile (Path.join [dir, name]))
    (hmore : ∀ name ∈ names', name ∉ names → hasExtension wanted name = true →
      isFile' (Path.join [dir, name]) = .ok false) (seen : List String) :
    listIn isFile' wanted dir seen names' = listIn isFile wanted dir seen names := by
  induction hsub generalizing seen with
  | slnil => rfl
  | @cons names names' name hsub ih =>
    obtain ⟨hname, hnodup⟩ := List.nodup_cons.1 hnodup
    rw [listIn_cons_of_passed]
    · exact ih hnodup hsame (fun other hother ↦ hmore other (List.mem_cons_of_mem _ hother)) seen
    · refine .inr ?_
      cases hwanted : hasExtension wanted name with
      | false => exact .inl rfl
      | true => exact .inr (hmore name List.mem_cons_self (mt (hsub.subset ·) hname) hwanted)
  | @cons_cons names names' name hsub ih =>
    obtain ⟨hname, hnodup⟩ := List.nodup_cons.1 hnodup
    obtain ⟨hfile, hsame⟩ := List.forall_mem_cons.1 hsame
    have hrest := ih hnodup hsame fun other hother hnew ↦
      hmore other (List.mem_cons_of_mem _ hother) fun hmem ↦ by
        rcases List.mem_cons.1 hmem with rfl | hmem
        · exact hname hother
        · exact hnew hmem
    rw [listIn, listIn]
    split
    · exact hrest seen
    · next hpassed =>
      have hwanted : hasExtension wanted name = true := by
        simp only [Bool.or_eq_true, not_or, Bool.not_eq_true, Bool.not_eq_false'] at hpassed
        exact hpassed.2
      simp only [hfile hwanted, hrest]

end Resource

open Resource

/-- What a scan of some directories does not find on one disk it does not find on another: no
directory shows a file there that it does not show here. -/
def ScansAlike (fs fs' : FileSystem) (cwd : String) (dirs : List String) :
    CommandLine.Action → Prop
  | .find name => ∀ dir ∈ dirs, (fs.probe cwd).isFile (Path.join [dir, name]) = .ok false →
      (fs'.probe cwd).isFile (Path.join [dir, name]) = .ok false
  | .list extension => ∀ dir ∈ dirs,
      (∀ failure, (fs'.probe cwd).entries dir = .error failure →
        (fs.probe cwd).entries dir = .error failure) ∧
      ∀ names', (fs'.probe cwd).entries dir = .ok names' → ∀ name ∈ names',
        hasExtension (wantedExtension? extension) name = true →
        (fs'.probe cwd).isFile (Path.join [dir, name]) = .ok false ∨
          (fs.probe cwd).isFile (Path.join [dir, name]) ≠ .ok false ∧
            ∃ names, (fs.probe cwd).entries dir = .ok names ∧ name ∈ names
  | _ => True

section Scans

variable {dirs : List String} {name : String} {extension : Option String}

theorem Resource.find_eq_of_grows (h : Grows fs fs')
    (hscan : ScansAlike fs fs' cwd dirs (.find name)) :
    find cwd (fs'.probe cwd).isFile name dirs = find cwd (fs.probe cwd).isFile name dirs := by
  refine find_congr fun dir hdir ↦ ?_
  rcases h.isFile_cases cwd (Path.join [dir, name]) with ⟨-, hnone⟩ | hsame
  · rw [hnone, hscan dir hdir hnone]
  · exact hsame

theorem Resource.list_eq_of_grows (h : Grows fs fs')
    (hscan : ScansAlike fs fs' cwd dirs (.list extension)) :
    list (fs'.probe cwd).entries (fs'.probe cwd).isFile extension dirs =
      list (fs.probe cwd).entries (fs.probe cwd).isFile extension dirs := by
  refine listFrom_congr (fun dir hdir seen ↦ ?_) []
  obtain ⟨hfails, hshows⟩ := hscan dir hdir
  have hsame : ∀ {names names' : List String}, (fs'.probe cwd).entries dir = .ok names' →
      (fs.probe cwd).entries dir = .ok names → names.Sublist names' → names'.Nodup →
      listIn (fs'.probe cwd).isFile (wantedExtension? extension) dir seen names' =
        listIn (fs.probe cwd).isFile (wantedExtension? extension) dir seen names := by
    intro names names' hnames' hnames hsub hnodup
    refine listIn_of_sublist hsub hnodup (fun name hname hwanted ↦ ?_)
      (fun name hname hnew hwanted ↦ ?_) seen
    · rcases h.isFile_cases cwd (Path.join [dir, name]) with ⟨-, hnone⟩ | hsame
      · rcases hshows names' hnames' name (hsub.subset hname) hwanted with hnone' | ⟨hfile, -⟩
        · rw [hnone, hnone']
        · exact absurd hnone hfile
      · exact hsame
    · rcases hshows names' hnames' name hname hwanted with hnone | ⟨-, names'', hnames'', hmem⟩
      · exact hnone
      · obtain rfl := Except.ok.inj (hnames.symm.trans hnames'')
        exact absurd hmem hnew
  rcases h.entries_cases cwd dir with ⟨-, hnone⟩ | ⟨loc, hnames, hnames'⟩ | heq
  · rw [hnone]
    cases hnames' : (fs'.probe cwd).entries dir with
    | error failure => cases (hfails failure hnames').symm.trans hnone
    | ok names' => exact hsame hnames' hnone (List.nil_sublist _) (nodup_of_entries hnames')
  · rw [hnames, hnames']
    exact hsame hnames' hnames (h.childNames_sublist loc) (nodup_of_entries hnames')
  · rw [heq]
    cases hnames : (fs.probe cwd).entries dir with
    | error failure => rfl
    | ok names =>
      exact hsame (heq.trans hnames) hnames (List.Sublist.refl _) (nodup_of_entries hnames)

end Scans

/-! ### Locating resources -/

/-- What is asked for in vain on one disk, when resources are located, is asked for in vain on
another. -/
structure Program.Context.MissesAlike (context : Program.Context) (fs fs' : FileSystem)
    (cwd : String) : Prop where
  /-- The path of the executable cannot be made canonical there if it cannot here. -/
  executable : ∀ path failure, context.executable = .ok path →
    (fs.probe cwd).realpath path = .error failure → (fs'.probe cwd).realpath path = .error failure
  /-- A list of directories is not there if it is not here. -/
  lists : ∀ dir ∈ context.config.systemDirs,
    (fs.probe cwd).readText (Path.join [dir, Dirlist.fileName]) = .ok none →
      (fs'.probe cwd).readText (Path.join [dir, Dirlist.fileName]) = .ok none
  /-- A path that the environment adds is no directory there if it is none here. -/
  extra : ∀ piece ∈ context.extraPieces, (fs.probe cwd).isDirectory piece = .ok false →
    (fs'.probe cwd).isDirectory piece = .ok false

namespace Program.Context.MissesAlike

variable {context : Program.Context}

theorem refl (context : Program.Context) (fs : FileSystem) (cwd : String) :
    context.MissesAlike fs fs cwd :=
  ⟨fun _ _ _ h ↦ h, fun _ _ h ↦ h, fun _ _ h ↦ h⟩

/-- The path of the executable has the same canonical path. -/
theorem realpath_eq (hmisses : context.MissesAlike fs fs' cwd) (h : Grows fs fs') {path : String}
    (hpath : context.executable = .ok path) :
    (fs'.probe cwd).realpath path = (fs.probe cwd).realpath path := by
  rcases h.realpath_cases cwd path with ⟨-, failure, hfailure⟩ | hsame
  · rw [hfailure, hmisses.executable path failure hpath hfailure]
  · exact hsame

/-- A list of directories that stays as it is has the same text. -/
theorem readText_eq (hmisses : context.MissesAlike fs fs' cwd) (h : Grows fs fs') {dir : String}
    (hdir : dir ∈ context.config.systemDirs)
    (hnode : ∀ loc node,
      fs'.walk cwd .followLink (Path.join [dir, Dirlist.fileName]) = .ok loc →
        fs.node? loc = some node → fs'.node? loc = some node) :
    (fs'.probe cwd).readText (Path.join [dir, Dirlist.fileName]) =
      (fs.probe cwd).readText (Path.join [dir, Dirlist.fileName]) := by
  rcases h.readText_cases hnode with ⟨-, hnone⟩ | hsame
  · rw [hnone, hmisses.lists dir hdir hnone]
  · exact hsame

theorem isDirectory_eq (hmisses : context.MissesAlike fs fs' cwd) (h : Grows fs fs')
    {piece : String} (hpiece : piece ∈ context.extraPieces) :
    (fs'.probe cwd).isDirectory piece = (fs.probe cwd).isDirectory piece := by
  rcases h.isDirectory_cases cwd piece with ⟨-, hnone⟩ | hsame
  · rw [hnone, hmisses.extra piece hpiece hnone]
  · exact hsame

end Program.Context.MissesAlike

end ResourceLocator
