import ResourceLocator.Program.Action
import ResourceLocator.Proofs.Config.Precedence
import ResourceLocator.Proofs.FileSystem.Spelling
import ResourceLocator.Proofs.Locate.Layers
import ResourceLocator.Proofs.Locate.Scan

/-!
# Finding and listing on a search path

A directory of a search path is resolved, or it is one that is taken as it is *spelled*: what the
user asks for, the value of the variable that names the directory of the resources, and the pieces
of the variable that adds directories (`Context.mem_spelled_or_isResolved`). Resolved directories
lead where their clean spellings do, so that a file is found in them if and only if it is listed
there. For those that are spelled this has to be asked (`FileSystem.LeadsAsWritten`): a file may be
found along a directory that is not there, where nothing is listed (`find_differs_from_list`).
-/

namespace ResourceLocator

variable {cwd dir : String} {config : Config}

/-- A path has been resolved. -/
def Path.IsResolved (path : String) : Prop := ∃ cwd paths, path = Path.resolve cwd paths

/-! ### Resolved directories -/

/-- **The directories of a configuration that is loaded are resolved.** -/
theorem Config.isResolved_of_ofDisk {disk : FileSystem} {home : String} {env : Environment}
    (h : Config.ofDisk disk cwd home dir env = .ok config) :
    (∀ d ∈ config.includes, Path.IsResolved d) ∧ (∀ d ∈ config.systemDirs, Path.IsResolved d) ∧
      ∀ d ∈ config.developmentDirs, Path.IsResolved d := by
  obtain ⟨fields, -, hconfig⟩ := bind_eq_ok_iff.1 h
  obtain ⟨package, apiVersion, -, -, rfl⟩ := Config.ofFile_eq_ok_iff.1 hconfig
  have hmap : ∀ dirs : List String, ∀ d ∈ dirs.map fun d ↦ Path.resolve cwd [dir, d],
      Path.IsResolved d := by
    intro dirs d hd
    obtain ⟨text, -, rfl⟩ := List.mem_map.1 hd
    exact ⟨_, _, rfl⟩
  exact ⟨hmap _, hmap _, hmap _⟩

namespace Root

variable {context : RootContext Session} {w after : World}

/-- The directory beside the executable is resolved. -/
theorem isResolved_of_runIn_beside (h : (context.beside.runIn w).1 = .ok dir) :
    Path.IsResolved dir := by
  rcases hrun : context.beside.runIn w with ⟨outcome, after⟩
  rw [hrun] at h
  obtain rfl : outcome = .ok dir := h
  obtain ⟨executable, mid, -, hrelocated⟩ := Session.exists_of_runIn_bind_eq_ok hrun
  unfold relocated at hrelocated
  split at hrelocated
  · cases (congrArg Prod.fst hrelocated)
  · obtain ⟨canonical, mid', -, hresolve⟩ := Session.exists_of_runIn_bind_eq_ok hrelocated
    exact ⟨_, _, (Except.ok.inj (congrArg Prod.fst hresolve)).symm⟩

/-- **The directories of a root** are the one that a variable spells, the development directories,
or resolved. -/
theorem mem_dirs_cases {root : Root} (h : (search context RootSource.all w).outcome = .ok root)
    (hdir : dir ∈ root.dirs) :
    context.env.nonempty? context.tool.libdirVariable = some dir ∨ dir ∈ context.developmentDirs ∨
      Path.IsResolved dir := by
  cases hfirst : RootSource.all.find? context.applies with
  | none =>
    rw [search_of_find_eq_none hfirst] at h
    cases h
  | some source => cases source with
    | libdir =>
      obtain ⟨spelled, hset, hne, houtcome⟩ := outcome_search_libdir hfirst
      obtain rfl := Except.ok.inj (houtcome.symm.trans h)
      obtain rfl := List.mem_singleton.1 hdir
      exact .inl (Environment.nonempty?_eq_some_iff.2 ⟨hset, hne⟩)
    | uninstalled =>
      obtain rfl := Except.ok.inj ((outcome_search_uninstalled hfirst).symm.trans h)
      exact .inr (.inl hdir)
    | relocatable =>
      rw [outcome_search_relocatable hfirst] at h
      cases hbeside : (context.beside.runIn w).1 with
      | error failure =>
        rw [hbeside] at h
        cases h
      | ok resolved =>
        rw [hbeside] at h
        obtain rfl := Except.ok.inj h
        obtain rfl := List.mem_singleton.1 hdir
        exact .inr (.inr (isResolved_of_runIn_beside hbeside))

end Root

namespace Program.Context

variable {context : Context} {w mid after : World} {located : Located} {name projectDir : String}

/-- The directories that are taken as they are spelled: those that the user asks for, that of the
resources, if a variable names it, and those that another variable adds. -/
def spelled (context : Context) : List String :=
  context.userIncludes ++
    (context.env.nonempty? context.config.tool.libdirVariable).toList ++
    ((context.env context.config.tool.extraVariable).map Extra.pieces).getD []

/-- The directories of the first part that are not spelled. -/
theorem mem_base_cases {base : Root × List String}
    (h : ((context.host w.cwd).base context.config context.userIncludes).runIn w =
      (.ok base, mid)) (hdir : dir ∈ base.1.dirs ++ base.2) :
    context.env.nonempty? context.config.tool.libdirVariable = some dir ∨
      dir ∈ context.config.developmentDirs ∨ dir ∈ context.config.systemDirs ∨
      Path.IsResolved dir := by
  obtain ⟨-, -, hsystem⟩ := eq_rooted_of_runIn_base h
  obtain ⟨_, started, -, h⟩ := Session.exists_of_runIn_bind_eq_ok h
  obtain ⟨root, found, hroot, h⟩ := Session.exists_of_runIn_bind_eq_ok h
  obtain ⟨system, later, -, h⟩ := Session.exists_of_runIn_bind_eq_ok h
  obtain rfl := Except.ok.inj (congrArg Prod.fst h)
  have houtcome := congrArg Prod.fst
    ((Root.runIn_resolve ((context.host w.cwd).rootContext context.config) RootSource.all
      started).symm.trans hroot)
  rcases List.mem_append.1 hdir with hdir | hdir
  · rcases Root.mem_dirs_cases houtcome hdir with hlibdir | hdevelopment | hresolved
    · exact .inl hlibdir
    · exact .inr (.inl hdevelopment)
    · exact .inr (.inr (.inr hresolved))
  · rw [hsystem] at hdir
    obtain ⟨base, hbase, hdir⟩ := List.mem_flatMap.1 hdir
    rcases List.mem_cons.1 hdir with rfl | hdir
    · exact .inr (.inr (.inl hbase))
    · cases hcontent : Dirlist.content? mid.disk w.cwd base with
      | none =>
        rw [hcontent] at hdir
        exact absurd hdir List.not_mem_nil
      | some content =>
        rw [hcontent] at hdir
        obtain ⟨entry, -, rfl⟩ := List.mem_map.1 hdir
        exact .inr (.inr (.inr ⟨_, _, rfl⟩))

/-- **The directories of a search path** are spelled, those of the configuration, or resolved. -/
theorem mem_searchPath_cases (h : context.locate.runIn w = (.ok located, after))
    (hdir : dir ∈ located.searchPath) :
    dir ∈ context.spelled ∨ dir ∈ context.config.includes ∨
      dir ∈ context.config.developmentDirs ∨ dir ∈ context.config.systemDirs ∨
      Path.IsResolved dir := by
  obtain ⟨base, hbase, rfl⟩ := exists_base_of_runIn_locate h
  rw [Located.searchPath, Layers.searchPath_eq, List.mem_append, List.append_assoc,
    List.mem_append] at hdir
  simp only [spelled, List.mem_append]
  rcases hdir with (huser | hbaseDir) | hextra
  · rcases List.mem_append.1 huser with huser | hincludes
    · exact .inl (.inl (.inl huser))
    · exact .inr (.inl hincludes)
  · rcases mem_base_cases hbase hbaseDir with hlibdir | hrest
    · exact .inl (.inl (.inr (by simp [hlibdir])))
    · exact .inr (.inr hrest)
  · exact .inl (.inr (List.mem_of_mem_filter hextra))

/-- **Every directory of a search path is spelled or resolved**, for a configuration that has been
loaded. -/
theorem mem_spelled_or_isResolved {disk : FileSystem} {home : String} {env : Environment}
    {loadCwd : String}
    (hconfig : Config.ofDisk disk loadCwd home projectDir env = .ok context.config)
    (hlocate : context.locate.runIn w = (.ok located, after)) (hdir : dir ∈ located.searchPath) :
    dir ∈ context.spelled ∨ Path.IsResolved dir := by
  obtain ⟨hincludes, hsystem, hdevelopment⟩ := Config.isResolved_of_ofDisk hconfig
  rcases mem_searchPath_cases hlocate hdir with h | h | h | h | h
  · exact .inl h
  · exact .inr (hincludes dir h)
  · exact .inr (hdevelopment dir h)
  · exact .inr (hsystem dir h)
  · exact .inr h

/-! ### Agreement -/

/-- **Every directory of a search path leads as it is written**, if the spelled ones do. -/
theorem leadsAsWritten_of_mem_searchPath {disk : FileSystem} {home : String} {env : Environment}
    {fs : FileSystem} {loadCwd : String}
    (hconfig : Config.ofDisk disk loadCwd home projectDir env = .ok context.config)
    (hlocate : context.locate.runIn w = (.ok located, after))
    (hspelled : ∀ dir ∈ located.searchPath, dir ∈ context.spelled → fs.LeadsAsWritten cwd dir)
    (hdir : dir ∈ located.searchPath) : fs.LeadsAsWritten cwd dir := by
  rcases mem_spelled_or_isResolved hconfig hlocate hdir with h | ⟨base, paths, rfl⟩
  · exact hspelled dir hdir h
  · exact FileSystem.leadsAsWritten_of_takesNothingBack (Path.takesNothingBack_resolve base paths) _

section Small

/-- A disk with one file in one directory. -/
def smallDisk : FileSystem := ⟨[(["a"], .directory false), (["a", "n"], .file "" false)]⟩

/-- A world with that disk. -/
def smallWorld : World where
  disk := smallDisk
  cwd := "/"
  home := "/home"
  now := 0
  env := fun _ ↦ none
  argv := []
  replies := []
  hasColours := false

/-- A context in which a variable names the directory of the resources. -/
def inDirectory (dir : String) : Context where
  config := Config.ofTwoVariables
  env := .ofList [("TOOL_LIBDIR", dir)]
  directory := "/p"
  userIncludes := []
  executable := .ok "/tool"

/-- What is located there. -/
def locatedIn (dir : String) : Located := ⟨⟨.libdir, [dir]⟩, ⟨[], [dir], [], []⟩⟩

theorem walkOn_smallDisk (names : List String) :
    smallDisk.walkOn .followLink FileSystem.maxLinks [] ("a" :: names) =
      smallDisk.walkOn .followLink FileSystem.maxLinks ["a"] names := by
  have hnext : smallDisk.node? ([] ++ ["a"]) = some (.directory false) := rfl
  exact FileSystem.walkOn_node rfl (by decide) (by decide) (by decide) hnext
    fun _ h ↦ by cases h

/-- A path that is walked by the names of the file leads to it. -/
theorem isFile_smallDisk_of_walkNames {path : String} (hguard : guardPath path = .ok ())
    (hne : path ≠ "") (hshort : FileSystem.pathIsTooLong path = false)
    (hslash : Path.endsInSlash path = false)
    (hnames : FileSystem.walkNames path = ["a", "n"]) (hstart : FileSystem.startOf "/" path = []) :
    (smallDisk.probe "/").isFile path = .ok true := by
  have hnext : smallDisk.node? (["a"] ++ ["n"]) = some (.file "" false) := rfl
  have hwalk : smallDisk.walk "/" .followLink path = .ok ["a", "n"] := by
    rw [FileSystem.walk_of_no_slash hne hshort hslash, hnames, hstart, walkOn_smallDisk,
      FileSystem.walkOn_node rfl (by decide) (by decide) (by decide) hnext (fun _ h ↦ by cases h),
      FileSystem.walkOn]
    rfl
  simp only [FileSystem.probe, FileSystem.stat?, hguard, FileSystem.stat, FileSystem.nodeAt, hwalk]
  rfl

theorem isFile_smallDisk : (smallDisk.probe "/").isFile "/a/n" = .ok true :=
  isFile_smallDisk_of_walkNames (guardPath_of_not_nul (by decide)) (by decide) (by decide)
    (by decide) (by decide) (by decide)

theorem entries_smallDisk : (smallDisk.probe "/").entries "/a" = .ok ["n"] := by
  have hguard : guardPath "/a" = .ok () := guardPath_of_not_nul (by decide)
  have hnames : FileSystem.walkNames "/a" = ["a"] := by decide
  have hwalk : smallDisk.walk "/" .followLink "/a" = .ok ["a"] := by
    rw [FileSystem.walk_of_no_slash (by decide) (by decide) (by decide), hnames]
    have hstart : FileSystem.startOf "/" "/a" = [] := by decide
    rw [hstart, walkOn_smallDisk, FileSystem.walkOn]
    rfl
  simp only [FileSystem.probe, hguard, FileSystem.list, hwalk]
  rfl

theorem walk_smallDisk_missing :
    smallDisk.walk "/" .followLink "/a/missing/.." = .error .missing := by
  have hnames : FileSystem.walkNames "/a/missing/.." = ["a", "missing", ".."] := by decide
  have hstart : FileSystem.startOf "/" "/a/missing/.." = [] := by decide
  rw [FileSystem.walk_of_no_slash (by decide) (by decide) (by decide), hnames, hstart,
    walkOn_smallDisk, FileSystem.walkOn_missing rfl (by decide) (by decide) (by decide) rfl]
  rfl

end Small

/-- **Finding and listing agree.** On the search path that has been located for a loaded
configuration, let a proper name be looked up and all files be listed, both without failure. A name
that is listed is found. If moreover the directories that are spelled lead as they are written,
then what is found is exactly the listed entry of that name, and nothing is found if and only if
the list has no such entry. -/
theorem find_agrees_with_list {disk : FileSystem} {loadCwd home : String} {env : Environment}
    {listed : List Resource} {found : Option Resource} {afterList afterFind : World}
    (hconfig : Config.ofDisk disk loadCwd home projectDir env = .ok context.config)
    (hlocate : context.locate.runIn w = (.ok located, after)) (hname : Path.IsName name)
    (hlist : (Resource.list Session.probe.entries Session.probe.isFile none
      located.searchPath).runIn after = (.ok listed, afterList))
    (hfind : (Resource.find after.cwd Session.probe.isFile name located.searchPath).runIn after =
      (.ok found, afterFind)) :
    (∀ resource ∈ listed, resource.name = name → found.isSome) ∧
    ((∀ dir ∈ located.searchPath, dir ∈ context.spelled →
        after.disk.LeadsAsWritten after.cwd dir) →
      (∀ resource, found = some resource ↔ resource ∈ listed ∧ resource.name = name) ∧
      (found = none ↔ ∀ resource ∈ listed, resource.name ≠ name)) := by
  rw [Resource.runIn_list] at hlist
  rw [Resource.runIn_find] at hfind
  have hlist := congrArg Prod.fst hlist
  have hfind := congrArg Prod.fst hfind
  refine ⟨fun resource hmem heq ↦ Resource.isSome_find_of_mem_list hlist hfind hmem heq,
    fun hspelled ↦ ?_⟩
  -- A directory that holds the file is read along its spelling, and so has to lead as written.
  have hshows : ∀ dir ∈ located.searchPath,
      Resource.holds (after.disk.probe after.cwd).isFile name dir = true →
      Resource.shows (after.disk.probe after.cwd).entries (after.disk.probe after.cwd).isFile name
        dir = true := by
    intro dir hdir hholds
    obtain ⟨names, hentries⟩ := Resource.exists_entries_of_list hlist hdir
    have hleads := leadsAsWritten_of_mem_searchPath hconfig hlocate hspelled hdir
    have hmem := FileSystem.mem_entries_of_isFile_join hname hleads
      (Resource.isFile_of_holds hholds) hentries
    rw [Resource.shows_of_entries hentries, hholds, Bool.and_true, List.contains_iff_mem]
    exact hmem
  have hagree : ∀ resource, found = some resource ↔ resource ∈ listed ∧ resource.name = name :=
    fun resource ↦ Resource.find_eq_some_iff_mem_list hlist hfind hshows
  refine ⟨hagree, ?_⟩
  constructor
  · rintro rfl resource hmem hsame
    cases (hagree resource).2 ⟨hmem, hsame⟩
  · intro hnot
    cases found with
    | none => rfl
    | some resource =>
      obtain ⟨hmem, hsame⟩ := (hagree resource).1 rfl
      exact absurd hsame (hnot resource hmem)

/-- In a directory that leads as it is written, the file is listed and found. -/
theorem find_agrees_with_list_in_directory :
    (inDirectory "/a").locate.runIn smallWorld = (.ok (locatedIn "/a"), smallWorld) ∧
    ∃ listed, (Resource.list Session.probe.entries Session.probe.isFile none
        (locatedIn "/a").searchPath).runIn smallWorld = (.ok listed, smallWorld) ∧
      ∀ resource, some (Resource.ofName "n" "/a") = some resource ↔
        resource ∈ listed ∧ resource.name = "n" := by
  have hlocate : (inDirectory "/a").locate.runIn smallWorld = (.ok (locatedIn "/a"), smallWorld) :=
    rfl
  have hlist : Resource.list (smallDisk.probe "/").entries (smallDisk.probe "/").isFile none
      ["/a"] = .ok [Resource.ofName "n" "/a"] := by
    have hjoin : Path.join ["/a", "n"] = "/a/n" := by decide
    rw [Resource.list, Resource.listFrom, entries_smallDisk]
    simp only [bind, Except.bind, Resource.listIn, hjoin, isFile_smallDisk]
    rfl
  have hfind : Resource.find "/" (smallDisk.probe "/").isFile "n" ["/a"] =
      .ok (some (Resource.ofName "n" "/a")) :=
    Resource.find_cons_of_isFile (by decide) isFile_smallDisk
  have hlistRun := (Resource.runIn_list ["/a"] none smallWorld).trans
    (congrArg (·, smallWorld) hlist)
  have hfindRun := (Resource.runIn_find "/" "n" ["/a"] smallWorld).trans
    (congrArg (·, smallWorld) hfind)
  have hname : Path.IsName "n" := by decide
  obtain ⟨-, hagree⟩ :=
    find_agrees_with_list Config.ofDisk_twoVariables hlocate hname hlistRun hfindRun
  refine ⟨hlocate, _, hlistRun, (hagree fun dir hdir _ ↦ ?_).1⟩
  obtain rfl : dir = "/a" := List.mem_singleton.1 hdir
  exact FileSystem.leadsAsWritten_of_takesNothingBack
    (Path.takesNothingBack_of_no_dotDot (by decide) (by decide)) _

/-- **Finding and listing differ** where a variable names a directory that is not there and whose
clean spelling is: the file is found, and nothing is listed. -/
theorem find_differs_from_list :
    Config.ofDisk .empty "/" "/home" "/p" Config.twoVariables =
      .ok (inDirectory "/a/missing/..").config ∧
    (inDirectory "/a/missing/..").locate.runIn smallWorld =
      (.ok (locatedIn "/a/missing/.."), smallWorld) ∧
    (Resource.list Session.probe.entries Session.probe.isFile none
      (locatedIn "/a/missing/..").searchPath).runIn smallWorld = (.ok [], smallWorld) ∧
    (Resource.find smallWorld.cwd Session.probe.isFile "n"
        (locatedIn "/a/missing/..").searchPath).runIn smallWorld =
      (.ok (some ⟨"n", "/a/n", "/a/missing/.."⟩), smallWorld) := by
  have hentries : (smallDisk.probe "/").entries "/a/missing/.." = .ok [] := by
    have hlist : smallDisk.list "/" "/a/missing/.." =
        .error ⟨.missing, "scandir", some "/a/missing/.."⟩ := by
      rw [FileSystem.list, walk_smallDisk_missing]
      rfl
    have hguard : guardPath "/a/missing/.." = .ok () := guardPath_of_not_nul (by decide)
    simp only [FileSystem.probe, hguard, hlist]
    rfl
  have hlist : Resource.list (smallDisk.probe "/").entries (smallDisk.probe "/").isFile none
      ["/a/missing/.."] = .ok [] := by
    rw [Resource.list, Resource.listFrom, hentries]
    rfl
  have hjoin : Path.join ["/a/missing/..", "n"] = "/a/n" := by decide
  have hfind : Resource.find "/" (smallDisk.probe "/").isFile "n" ["/a/missing/.."] =
      .ok (some ⟨"n", "/a/n", "/a/missing/.."⟩) := by
    rw [Resource.find_cons_of_isFile (by decide) (hjoin ▸ isFile_smallDisk), Resource.ofName, hjoin]
  exact ⟨Config.ofDisk_twoVariables, rfl,
    (Resource.runIn_list _ none smallWorld).trans (congrArg (·, smallWorld) hlist),
    (Resource.runIn_find "/" "n" _ smallWorld).trans (congrArg (·, smallWorld) hfind)⟩

end Program.Context

end ResourceLocator
