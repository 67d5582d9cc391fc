import ResourceLocator.Proofs.Locate.Agreement
import ResourceLocator.Proofs.Locate.Lookup

/-!
# Absolute paths of resources

The path of a resource is its name joined to the directory that provides it, and nothing resolves
it: it is absolute if and only if the directory is (`Resource.Provided.isAbsolute_path_eq`).
Directories that are resolved are. Those that are spelled are what they are spelled to be, so that a
relative one gives resources relative paths (`isAbsolute_path_fails`), and no other directory does
(`isAbsolute_path_iff`).
-/

namespace ResourceLocator

namespace Resource

variable {searchPath : List String} {w : World} {resource : Resource}

/-- What a search path provides in a world: what is found of any name, and what is listed of any
extension. -/
inductive Provided (searchPath : List String) (w : World) : Resource → Prop where
  /-- It is found. -/
  | found {name : String} {resource : Resource} {after : World}
    (h : (find w.cwd Session.probe.isFile name searchPath).runIn w = (.ok (some resource), after)) :
    Provided searchPath w resource
  /-- It is listed. -/
  | listed {extension : Option String} {listed : List Resource} {after : World}
    {resource : Resource}
    (h : (list Session.probe.entries Session.probe.isFile extension searchPath).runIn w =
      (.ok listed, after)) (hmem : resource ∈ listed) : Provided searchPath w resource

/-- What is found has a relative name, in a directory of the search path. -/
theorem of_runIn_find {isFile : String → Session Bool} {cwd name : String} {after : World}
    (h : (find cwd isFile name searchPath).runIn w = (.ok (some resource), after)) :
    resource = ofName resource.name resource.dir ∧ resource.dir ∈ searchPath ∧
      Path.isAbsolute resource.name = false := by
  obtain ⟨passed, rest, last, outcome, later, rfl, -, -, hrun, hends⟩ :=
    goes cwd name isFile searchPath w []
  obtain rfl : outcome = .ok (some resource) := congrArg Prod.fst (hrun.symm.trans h)
  obtain ⟨heq, hdir, hinside⟩ := hends.of_some
  have hname : resource.name = name := congrArg Resource.name heq
  rw [← hname] at heq hinside
  exact ⟨heq, List.mem_append_right _ hdir, (isInside_iff.1 hinside).2.1⟩

/-- **What is provided** stands in a directory of the search path, and is as absolute as that. -/
theorem Provided.isAbsolute_path_eq (h : Provided searchPath w resource) :
    resource = ofName resource.name resource.dir ∧ resource.dir ∈ searchPath ∧
      Path.isAbsolute resource.path = Path.isAbsolute resource.dir := by
  cases h with
  | found h =>
    obtain ⟨heq, hdir, hname⟩ := of_runIn_find h
    refine ⟨heq, hdir, ?_⟩
    rw [congrArg Resource.path heq]
    exact Path.isAbsolute_join hname resource.dir
  | listed h hmem =>
    rw [runIn_list] at h
    obtain ⟨heq, hdir, names, hnames, hname⟩ := of_mem_listFrom (congrArg Prod.fst h) hmem
    refine ⟨heq, hdir, ?_⟩
    have hne : resource.dir ≠ "" := by
      intro hempty
      rw [hempty, FileSystem.entries_empty] at hnames
      rw [← Except.ok.inj hnames] at hname
      exact absurd hname List.not_mem_nil
    rw [congrArg Resource.path heq]
    exact (Path.isAbsolute_join_pair _ _).trans (if_neg hne)

end Resource

theorem Path.IsResolved.isAbsolute {path : String} (h : IsResolved path) :
    Path.isAbsolute path = true := by
  obtain ⟨cwd, paths, rfl⟩ := h
  exact Location.isAbsolute_toPath _

namespace Program.Context

variable {context : Context} {w after : World} {located : Located}

/-- **What has an absolute path.** Along the search path that has been located for a loaded
configuration, everything that is found or listed, then or later, stands in a directory of the
search path, and its path is relative if and only if that directory is both spelled and relative. -/
theorem isAbsolute_path_iff {disk : FileSystem} {loadCwd home projectDir : String}
    {env : Environment}
    (hconfig : Config.ofDisk disk loadCwd home projectDir env = .ok context.config)
    (hlocate : context.locate.runIn w = (.ok located, after)) :
    (∀ dir ∈ located.searchPath, dir ∈ context.spelled ∨ Path.isAbsolute dir = true) ∧
    ∀ later resource, Resource.Provided located.searchPath later resource →
      resource.path = Path.join [resource.dir, resource.name] ∧
      resource.dir ∈ located.searchPath ∧
      (Path.isAbsolute resource.path = false ↔
        resource.dir ∈ context.spelled ∧ Path.isAbsolute resource.dir = false) := by
  have hdirs : ∀ dir ∈ located.searchPath, dir ∈ context.spelled ∨ Path.isAbsolute dir = true :=
    fun dir hdir ↦ (mem_spelled_or_isResolved hconfig hlocate hdir).imp_right (·.isAbsolute)
  refine ⟨hdirs, fun later resource hprovided ↦ ?_⟩
  obtain ⟨heq, hdir, habsolute⟩ := hprovided.isAbsolute_path_eq
  refine ⟨congrArg Resource.path heq, hdir, ?_⟩
  rw [habsolute]
  constructor
  · intro hrelative
    rcases hdirs resource.dir hdir with hspelled | habs
    · exact ⟨hspelled, hrelative⟩
    · exact absurd (habs.symm.trans hrelative) (by decide)
  · exact And.right

/-- In a directory that is spelled absolutely, what is found has an absolute path. -/
theorem isAbsolute_path_in_directory :
    (inDirectory "/a").locate.runIn smallWorld = (.ok (locatedIn "/a"), smallWorld) ∧
    Resource.Provided (locatedIn "/a").searchPath smallWorld (Resource.ofName "n" "/a") ∧
    (Path.isAbsolute (Resource.ofName "n" "/a").path = false ↔
      "/a" ∈ (inDirectory "/a").spelled ∧ Path.isAbsolute "/a" = false) := by
  have hlocate : (inDirectory "/a").locate.runIn smallWorld = (.ok (locatedIn "/a"), smallWorld) :=
    rfl
  have hfind : Resource.find "/" (smallDisk.probe "/").isFile "n" ["/a"] =
      .ok (some (Resource.ofName "n" "/a")) :=
    Resource.find_cons_of_isFile (by decide) isFile_smallDisk
  have hprovided : Resource.Provided (locatedIn "/a").searchPath smallWorld
      (Resource.ofName "n" "/a") :=
    .found ((Resource.runIn_find "/" "n" ["/a"] smallWorld).trans (congrArg (·, smallWorld) hfind))
  exact ⟨hlocate, hprovided,
    ((isAbsolute_path_iff Config.ofDisk_twoVariables hlocate).2 smallWorld _ hprovided).2.2⟩

/-- **A path may be relative**: it is where a variable names the directory of the resources, and
spells it from the working directory. -/
theorem isAbsolute_path_fails :
    Config.ofDisk .empty "/" "/home" "/p" Config.twoVariables = .ok (inDirectory "a").config ∧
    (inDirectory "a").locate.runIn smallWorld = (.ok (locatedIn "a"), smallWorld) ∧
    Resource.Provided (locatedIn "a").searchPath smallWorld ⟨"n", "a/n", "a"⟩ ∧
    Path.isAbsolute "a/n" = false := by
  have hjoin : Path.join ["a", "n"] = "a/n" := by decide
  have hfile : (smallDisk.probe "/").isFile "a/n" = .ok true :=
    isFile_smallDisk_of_walkNames (guardPath_of_not_nul (by decide)) (by decide) (by decide)
      (by decide) (by decide) (by decide)
  have hfind : Resource.find "/" (smallDisk.probe "/").isFile "n" ["a"] =
      .ok (some ⟨"n", "a/n", "a"⟩) := by
    rw [Resource.find_cons_of_isFile (by decide) (hjoin ▸ hfile), Resource.ofName, hjoin]
  exact ⟨Config.ofDisk_twoVariables, rfl,
    .found ((Resource.runIn_find "/" "n" ["a"] smallWorld).trans (congrArg (·, smallWorld) hfind)),
    rfl⟩

end Program.Context

end ResourceLocator
