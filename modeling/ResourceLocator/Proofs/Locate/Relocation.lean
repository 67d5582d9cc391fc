import Mathlib
import ResourceLocator.Locate.Root
import ResourceLocator.Proofs.FileSystem.Realpath
import ResourceLocator.Proofs.Path.Inside

/-!
# The root beside the executable

The root that is found from the executable depends on the canonical path of the executable alone
(`relocated_eq_ok_iff`). Two things follow.

* **Links do not matter.** On a disk, every path with the same canonical path gives the same root:
  the canonical path itself, and what any number of links in front of the executable lead to.
* **The root moves with the installation.** What stands before the installation is copied into the
  root, and nothing else in the root depends on where the installation is, as long as no `..`
  leads out of the installation on the way.
-/

namespace ResourceLocator

/-! ### The name of the directory of resources -/

theorem Tool.toList_resourceName (tool : Tool) :
    tool.resourceName.toList = tool.package.toList ++ '-' :: tool.apiVersion.toList := by
  simp [resourceName]

/-- The dash in it makes the name of the resources a proper one. -/
theorem Tool.isName_resourceName {tool : Tool} (hpackage : '/' ∉ tool.package.toList)
    (hversion : '/' ∉ tool.apiVersion.toList) : Path.IsName tool.resourceName := by
  have hdash : '-' ∈ tool.resourceName.toList := by simp [toList_resourceName]
  refine ⟨?_, ?_, ?_, ?_⟩
  · exact fun h ↦ absurd (h ▸ hdash) (by decide)
  · exact fun h ↦ absurd (h ▸ hdash) (by decide)
  · exact fun h ↦ absurd (h ▸ hdash) (by decide)
  · simpa [toList_resourceName] using ⟨hpackage, hversion⟩

namespace Root

variable {cwd offset executable root : String} {tool : Tool}
  {realpath : String → Except Failure String}

/-! ### From the canonical path to the root -/

theorem relocated_of_relative (h : Path.isAbsolute executable = false) :
    relocated cwd realpath tool offset executable =
      .error (.startup (.relativePath executable)) := by
  simp only [relocated, h]
  rfl

theorem relocated_of_failure {failure : Failure} (habsolute : Path.isAbsolute executable = true)
    (h : realpath executable = .error failure) :
    relocated cwd realpath tool offset executable =
      failure.message.bind fun reason ↦ .error (.startup (.notCanonical executable reason)) := by
  simp only [relocated, habsolute, h, tryCatch, tryCatchThe, MonadExceptOf.tryCatch,
    Except.tryCatch]
  cases failure.message <;> rfl

theorem relocated_of_realpath {canonical : String} (habsolute : Path.isAbsolute executable = true)
    (h : realpath executable = .ok canonical) :
    relocated cwd realpath tool offset executable =
      .ok (Path.resolve cwd [Path.dirname canonical, offset, tool.resourceName]) := by
  simp only [relocated, habsolute, h]
  rfl

/-- **Only the canonical path of the executable counts.** -/
theorem relocated_eq_ok_iff :
    relocated cwd realpath tool offset executable = .ok root ↔
      Path.isAbsolute executable = true ∧ ∃ canonical, realpath executable = .ok canonical ∧
        Path.resolve cwd [Path.dirname canonical, offset, tool.resourceName] = root := by
  constructor
  · intro h
    cases habsolute : Path.isAbsolute executable with
    | false =>
      rw [relocated_of_relative habsolute] at h
      cases h
    | true =>
      cases hreal : realpath executable with
      | error failure =>
        rw [relocated_of_failure habsolute hreal] at h
        cases hreason : failure.message <;> rw [hreason] at h <;> cases h
      | ok canonical =>
        rw [relocated_of_realpath habsolute hreal] at h
        exact ⟨rfl, canonical, rfl, Except.ok.inj h⟩
  · rintro ⟨habsolute, canonical, hreal, rfl⟩
    exact relocated_of_realpath habsolute hreal

/-- The resources stand directly in the directory that the offset leads to. -/
theorem resolve_resourceName {canonical : String} (hname : Path.IsName tool.resourceName) :
    Path.resolve cwd [Path.dirname canonical, offset, tool.resourceName] =
      Location.toPath (Path.locate cwd [Path.dirname canonical, offset] ++
        [tool.resourceName]) := by
  rw [Path.resolve, ← Location.descend_of_isName hname, ← Path.locate_append]
  rfl

/-! ### Links do not matter -/

/-- The directory of resources at an offset from an executable on a disk. -/
def relocatedOn (fs : FileSystem) (cwd : String) (tool : Tool) (offset executable : String) :
    Except Failure String :=
  relocated cwd (fs.probe cwd).realpath tool offset executable

/-- The probe refuses a path with a NUL character, and so does the search for the root. -/
theorem relocatedOn_of_nul {fs : FileSystem} (habsolute : Path.isAbsolute executable = true)
    (hnul : '\x00' ∈ executable.toList) :
    relocatedOn fs cwd tool offset executable =
      .error (.startup (.notCanonical executable (NulPath.message executable))) :=
  relocated_of_failure habsolute (FileSystem.probe_realpath_of_nul hnul)

/-- **Links in front of the executable do not matter.** An executable with a root has a canonical
path, and the root stands at the offset from the directory of that path. Every absolute path with
the same canonical path has the same root. Among them are the canonical path itself and whatever
any number of hops leads to, as long as they have no NUL character; and they have none if no link
on the disk has one in its target. Without a slash in the name of its directory, the root is
directly in the directory that the offset leads to. -/
theorem relocatedOn_ignores_links {fs : FileSystem}
    (h : relocatedOn fs cwd tool offset executable = .ok root) :
    ∃ canonical, (fs.probe cwd).realpath executable = .ok canonical ∧
      root = Path.resolve cwd [Path.dirname canonical, offset, tool.resourceName] ∧
      (∀ other, Path.isAbsolute other = true → (fs.probe cwd).realpath other = .ok canonical →
        relocatedOn fs cwd tool offset other = .ok root) ∧
      ('\x00' ∉ canonical.toList → relocatedOn fs cwd tool offset canonical = .ok root) ∧
      (∀ last, Relation.ReflTransGen (fs.Hop cwd) executable last → '\x00' ∉ last.toList →
        relocatedOn fs cwd tool offset last = .ok root) ∧
      (fs.LinksArePlain → '\x00' ∉ canonical.toList ∧
        ∀ last, Relation.ReflTransGen (fs.Hop cwd) executable last → '\x00' ∉ last.toList) ∧
      ('/' ∉ tool.package.toList → '/' ∉ tool.apiVersion.toList →
        Path.dirname root = Path.resolve cwd [Path.dirname canonical, offset] ∧
        Path.basename root = tool.resourceName) := by
  obtain ⟨habsolute, canonical, hprobe, rfl⟩ := relocated_eq_ok_iff.1 h
  obtain ⟨hnul, hreal⟩ := FileSystem.probe_realpath_eq_ok_iff.1 hprobe
  refine ⟨canonical, hprobe, rfl, fun other hother hsame ↦ ?_, fun hplain ↦ ?_,
    fun last hops hplain ↦ ?_, fun hfs ↦ ⟨?_, fun last hops ↦ ?_⟩, fun hpackage hversion ↦ ?_⟩
  · exact relocated_of_realpath hother hsame
  · have hself := FileSystem.probe_realpath_eq_ok_iff.2
      ⟨hplain, FileSystem.realpath_idem hreal⟩
    exact relocated_of_realpath (FileSystem.isAbsolute_of_realpath hreal) hself
  · have hlast : Path.isAbsolute last = true := by
      cases hops with
      | refl => exact habsolute
      | tail _ hop => exact hop.isAbsolute
    have hsame := FileSystem.probe_realpath_eq_ok_iff.2
      ⟨hplain, FileSystem.realpath_of_hops hops hreal⟩
    exact relocated_of_realpath hlast hsame
  · exact FileSystem.no_nul_of_realpath hfs habsolute hnul hreal
  · exact FileSystem.no_nul_of_hops hfs hops hnul
  · have hname := Tool.isName_resourceName hpackage hversion
    rw [resolve_resourceName hname]
    exact ⟨Location.dirname_toPath (Path.locate_isNormal _ _) hname,
      Location.basename_toPath _ hname⟩

/-- A disk with a link in front of an executable. -/
def linkedDisk : FileSystem :=
  ⟨[(["opt"], .directory false), (["opt", "m4"], .file "" false), (["m4"], .link "opt/m4")]⟩

theorem hop_linkedDisk : linkedDisk.Hop "/" "/m4" "/opt/m4" where
  normalized := by decide
  directory := by cbv
  link := ⟨"opt/m4", by cbv, by decide⟩

theorem relocatedOn_linkedDisk :
    relocatedOn linkedDisk "/" ⟨"aclocal", "1.16", "ACLOCAL"⟩ "../share" "/m4" =
      .ok "/share/aclocal-1.16" ∧
    linkedDisk.Hop "/" "/m4" "/opt/m4" ∧
    relocatedOn linkedDisk "/" ⟨"aclocal", "1.16", "ACLOCAL"⟩ "../share" "/opt/m4" =
      .ok "/share/aclocal-1.16" := by
  have hroot : relocatedOn linkedDisk "/" ⟨"aclocal", "1.16", "ACLOCAL"⟩ "../share" "/m4" =
      .ok "/share/aclocal-1.16" :=
    relocated_eq_ok_iff.2 ⟨by decide, "/opt/m4", by cbv, by decide⟩
  obtain ⟨_, -, -, -, -, hhops, -⟩ := relocatedOn_ignores_links hroot
  exact ⟨hroot, hop_linkedDisk, hhops _ (.single hop_linkedDisk) (by decide)⟩

/-- A disk with a NUL character in a name and in the target of a link. -/
def nulDisk : FileSystem :=
  ⟨[(["a\x00b"], .file "" false), (["l"], .link "a\x00b")]⟩

/-- The canonical path of an executable with a root need not have one, if it has a NUL
character. -/
theorem relocatedOn_nulDisk :
    (nulDisk.probe "/").realpath "/l" = .ok "/a\x00b" ∧
    relocatedOn nulDisk "/" ⟨"aclocal", "1.16", "ACLOCAL"⟩ "res" "/l" =
      .ok "/res/aclocal-1.16" ∧
    relocatedOn nulDisk "/" ⟨"aclocal", "1.16", "ACLOCAL"⟩ "res" "/a\x00b" ≠
      .ok "/res/aclocal-1.16" := by
  have hreal : (nulDisk.probe "/").realpath "/l" = .ok "/a\x00b" := by cbv
  refine ⟨hreal, relocated_eq_ok_iff.2 ⟨by decide, _, hreal, by decide⟩, fun h ↦ ?_⟩
  rw [relocatedOn_of_nul (by decide) (by decide)] at h
  cases h

/-! ### The root moves with the installation -/

/-- Where the resources are inside an installation whose executable is at `suffix` in it, if
nothing on the way from the directory of the executable leads out of the installation. -/
def insideOf? (suffix offset : String) (tool : Tool) : Option Location :=
  Location.readWithin? [] (Path.names (Path.dirname suffix) ++ Path.names offset ++
    Path.names tool.resourceName)

/-- The root of one installation: the place, and the location inside. -/
theorem relocated_of_isPlace {place suffix : String} {inside : Location}
    (hplace : Path.IsPlace place) (hsuffix : Path.IsSuffix suffix)
    (hoffset : Path.isAbsolute offset = false)
    (hresources : Path.isAbsolute tool.resourceName = false)
    (hinside : insideOf? suffix offset tool = some inside) (hne : inside ≠ [])
    (habsolute : Path.isAbsolute executable = true)
    (hreal : realpath executable = .ok (place ++ "/" ++ suffix)) :
    relocated cwd realpath tool offset executable =
      .ok (place ++ "/" ++ String.intercalate "/" inside) := by
  obtain ⟨loc, hloc, hpath⟩ := hplace.exists_location
  obtain ⟨init, name, hinit, hname, hdirname⟩ := hsuffix.exists_dirname
  have hdirectory : Path.dirname (place ++ "/" ++ suffix) = (loc ++ init).toPath := by
    rw [hdirname, hpath _ (by simp), ← List.append_assoc,
      Location.dirname_toPath (hloc.append hinit) hname]
  have hstart : Location.readWithin? [] (Path.names (Path.dirname suffix)) = some init := by
    have hsame : Path.dirname suffix = Path.dirname (String.intercalate "/" (init ++ [name])) := by
      simpa using hdirname ""
    rw [hsame, Path.readWithin?_dirname hinit hname]
  have hrest : init.readWithin? (Path.names offset ++ Path.names tool.resourceName) =
      some inside := by
    rwa [insideOf?, List.append_assoc, Location.readWithin?_append, hstart] at hinside
  rw [relocated_of_realpath habsolute hreal, hdirectory, Path.resolve,
    Path.locate_of_isAbsolute (Location.isAbsolute_toPath _), List.foldl_cons, List.foldl_cons,
    List.foldl_nil, Location.descend_toPath (hloc.append hinit),
    Location.descend_of_relative hoffset, Location.descend_of_relative hresources,
    ← List.foldl_append, Location.foldl_step_of_readWithin hrest, hpath inside hne]

/-- **The root moves with the installation.** For an executable at `suffix` inside an installation,
and resources that are reached from its directory without leaving the installation, there is one
path inside the installation at which the root is, wherever the installation stands and however
the executable is called there. -/
theorem relocated_moves_with_installation {suffix offset : String} {tool : Tool}
    {inside : Location} (hsuffix : Path.IsSuffix suffix)
    (hoffset : Path.isAbsolute offset = false)
    (hresources : Path.isAbsolute tool.resourceName = false)
    (hinside : insideOf? suffix offset tool = some inside) (hne : inside ≠ []) :
    ∃ resources : String, ∀ (place₁ place₂ : String), Path.IsPlace place₁ → Path.IsPlace place₂ →
      ∀ (cwd₁ cwd₂ : String) (realpath₁ realpath₂ : String → Except Failure String)
        (executable₁ executable₂ : String),
        Path.isAbsolute executable₁ = true → Path.isAbsolute executable₂ = true →
        realpath₁ executable₁ = .ok (place₁ ++ "/" ++ suffix) →
        realpath₂ executable₂ = .ok (place₂ ++ "/" ++ suffix) →
        relocated cwd₁ realpath₁ tool offset executable₁ = .ok (place₁ ++ "/" ++ resources) ∧
        relocated cwd₂ realpath₂ tool offset executable₂ = .ok (place₂ ++ "/" ++ resources) := by
  refine ⟨String.intercalate "/" inside, ?_⟩
  intro place₁ place₂ hplace₁ hplace₂ cwd₁ cwd₂ realpath₁ realpath₂ executable₁ executable₂
    habsolute₁ habsolute₂ hreal₁ hreal₂
  exact ⟨relocated_of_isPlace hplace₁ hsuffix hoffset hresources hinside hne habsolute₁ hreal₁,
    relocated_of_isPlace hplace₂ hsuffix hoffset hresources hinside hne habsolute₂ hreal₂⟩

theorem relocated_moves_from_opt :
    Path.IsSuffix "libexec/bin/aclocal" ∧
    insideOf? "libexec/bin/aclocal" "..//./../share" ⟨"aclocal", "1.16", "ACLOCAL"⟩ =
      some ["share", "aclocal-1.16"] ∧
    ∃ resources : String,
      relocated "/" (fun _ ↦ .ok "/opt/pkg/libexec/bin/aclocal" : String → Except Failure String)
        ⟨"aclocal", "1.16", "ACLOCAL"⟩ "..//./../share" "/usr/bin/aclocal" =
          .ok ("/opt/pkg" ++ "/" ++ resources) ∧
      relocated "/" (fun _ ↦ .ok "/libexec/bin/aclocal" : String → Except Failure String)
        ⟨"aclocal", "1.16", "ACLOCAL"⟩ "..//./../share" "/bin/aclocal" =
          .ok ("" ++ "/" ++ resources) := by
  have hsuffix : Path.IsSuffix "libexec/bin/aclocal" :=
    ⟨by decide, by decide, by decide, "bin", by decide, by decide⟩
  have hinside : insideOf? "libexec/bin/aclocal" "..//./../share"
      ⟨"aclocal", "1.16", "ACLOCAL"⟩ = some ["share", "aclocal-1.16"] := by cbv
  have hopt : Path.IsPlace "/opt/pkg" := .inr (by decide)
  obtain ⟨resources, h⟩ := relocated_moves_with_installation hsuffix (by decide) (by decide)
    hinside (by decide)
  refine ⟨hsuffix, hinside, resources, ?_⟩
  exact h "/opt/pkg" "" hopt (.inl rfl) "/" "/" _ _ "/usr/bin/aclocal" "/bin/aclocal"
    (by decide) (by decide) rfl rfl

end Root

end ResourceLocator
