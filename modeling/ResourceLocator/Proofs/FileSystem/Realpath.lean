import Mathlib.Data.List.Induction
import Mathlib.Logic.Relation
import ResourceLocator.Proofs.Path.Location
import ResourceLocator.Proofs.Probe

/-!
# Canonical locations

`FileSystem.realpathFrom` goes down a path, and starts again at the root each time it has put the
target of a link in the place of what led there. `Reaches` is the same as a relation, one
constructor for each thing that can happen at a name; `realpathFrom_eq_ok_iff` says that the two
agree, so that each law of `realpath` is one induction on `Reaches`.

A location is *canonical* when everything on the way to it has been examined and found to be no
link. The invariant of the loop is that the part already done is canonical. It holds at every
restart, since the root is canonical; so whatever the loop gives is canonical
(`Reaches.isCanonical`), and on what is canonical the loop changes nothing (`IsCanonical.reaches`).
Idempotence of `realpath` is the two together.

Which links were replaced on the way does not show in the outcome, but a replaced link uses up
budget: `Reaches.mono` is what lets a path with one link less be canonicalized too.
-/

namespace ResourceLocator.FileSystem

variable {fs : FileSystem} {cwd : String}

/-- Examines what stands at a location, without following a link there. -/
def lstat (fs : FileSystem) (cwd : String) (loc : Location) : Except CallFault Node :=
  asCall "lstat" loc.toPath (fs.nodeAt cwd .keepLink loc.toPath)

/-! ### Canonicalization as a relation -/

/-- Canonicalizing the names from `done` on, with at most `budget` links to replace, gives the
last location. -/
inductive Reaches (fs : FileSystem) (cwd : String) :
    Nat → Location → List String → Location → Prop where
  /-- All names are examined. -/
  | nil (budget : Nat) (done : Location) : Reaches fs cwd budget done [] done
  /-- What stands at the next name is no link. -/
  | keep {budget : Nat} {done loc : Location} {name : String} {rest : List String} {node : Node}
    (hnode : fs.lstat cwd (done ++ [name]) = .ok node) (hlink : ∀ target, node ≠ .link target)
    (hrest : Reaches fs cwd budget (done ++ [name]) rest loc) :
    Reaches fs cwd budget done (name :: rest) loc
  /-- A link stands there that leads somewhere; its target comes in the place of what led there,
  and everything is examined anew. -/
  | follow {budget : Nat} {done loc : Location} {name target : String} {rest : List String}
    {node : Node} (hlink : fs.lstat cwd (done ++ [name]) = .ok (.link target))
    (hstat : fs.stat cwd (done ++ [name]).toPath = .ok node)
    (hrest : Reaches fs cwd budget [] (done.descend target ++ rest) loc) :
    Reaches fs cwd (budget + 1) done (name :: rest) loc

section Step

variable {budget : Nat} {done loc : Location} {name target : String} {rest : List String}

theorem realpathFrom_nil (budget : Nat) (done : Location) :
    fs.realpathFrom cwd budget done [] = .ok done := by
  rw [realpathFrom]

theorem realpathFrom_of_error {fault : CallFault}
    (h : fs.lstat cwd (done ++ [name]) = .error fault) :
    fs.realpathFrom cwd budget done (name :: rest) = .error fault := by
  rw [lstat] at h
  rw [realpathFrom, h]
  rfl

theorem realpathFrom_of_not_link {node : Node} (h : fs.lstat cwd (done ++ [name]) = .ok node)
    (hlink : ∀ target, node ≠ .link target) :
    fs.realpathFrom cwd budget done (name :: rest) =
      fs.realpathFrom cwd budget (done ++ [name]) rest := by
  rw [lstat] at h
  rw [realpathFrom, h]
  cases node with
  | directory => rfl
  | file => rfl
  | link target => exact absurd rfl (hlink target)

theorem realpathFrom_of_link (h : fs.lstat cwd (done ++ [name]) = .ok (.link target)) :
    fs.realpathFrom cwd budget done (name :: rest) =
      (fs.stat cwd (done ++ [name]).toPath).bind fun _ ↦ match budget with
        | 0 => failing "stat" (done ++ [name]).toPath .tooManyLinks
        | budget + 1 => fs.realpathFrom cwd budget [] (done.descend target ++ rest) := by
  rw [lstat] at h
  rw [realpathFrom, h]
  rfl

end Step

theorem Reaches.realpathFrom_eq {budget : Nat} {done loc : Location} {names : List String}
    (h : Reaches fs cwd budget done names loc) :
    fs.realpathFrom cwd budget done names = .ok loc := by
  induction h with
  | nil budget done => exact realpathFrom_nil budget done
  | keep hnode hlink _ ih => rw [realpathFrom_of_not_link hnode hlink, ih]
  | follow hlink hstat _ ih =>
    rw [realpathFrom_of_link hlink, hstat]
    exact ih

/-- **The function and the relation agree.** -/
theorem realpathFrom_eq_ok_iff {budget : Nat} {done loc : Location} {names : List String} :
    fs.realpathFrom cwd budget done names = .ok loc ↔ Reaches fs cwd budget done names loc := by
  refine ⟨fun h ↦ ?_, Reaches.realpathFrom_eq⟩
  induction budget, done, names using realpathFrom.induct generalizing loc with
  | case1 budget done =>
    rw [realpathFrom_nil] at h
    obtain rfl : done = loc := Except.ok.inj h
    exact .nil budget done
  | case2 budget done name rest here ihFollow =>
    rename_i ihKeep
    cases hnode : fs.lstat cwd (done ++ [name]) with
    | error fault => simp [realpathFrom_of_error hnode] at h
    | ok node =>
      by_cases hlink : ∀ target, node ≠ .link target
      · rw [realpathFrom_of_not_link hnode hlink] at h
        exact .keep hnode hlink (ihKeep h)
      · obtain ⟨target, rfl⟩ := by simpa using hlink
        rw [realpathFrom_of_link hnode] at h
        cases hstat : fs.stat cwd (done ++ [name]).toPath with
        | error fault => rw [hstat] at h; cases h
        | ok node =>
          rw [hstat] at h
          cases budget with
          | zero => cases h
          | succ budget => exact .follow hnode hstat (ihFollow target h)

/-! ### What the loop keeps -/

/-- Everything on the way to a location, itself included, has been examined and is no link. -/
inductive IsCanonical (fs : FileSystem) (cwd : String) : Location → Prop where
  /-- The root is. -/
  | root : IsCanonical fs cwd []
  /-- So is what stands directly below a canonical location, unless it is a link. -/
  | child {loc : Location} {name : String} {node : Node} (hloc : IsCanonical fs cwd loc)
    (hnode : fs.lstat cwd (loc ++ [name]) = .ok node) (hlink : ∀ target, node ≠ .link target) :
    IsCanonical fs cwd (loc ++ [name])

/-- What is below a canonical location can only be canonical if each step to it is no link. -/
theorem IsCanonical.of_append {loc below : Location} (h : IsCanonical fs cwd (loc ++ below)) :
    IsCanonical fs cwd loc := by
  induction below using List.reverseRecOn with
  | nil => rwa [List.append_nil] at h
  | append_singleton below name ih =>
    rw [← List.append_assoc] at h
    generalize hwhole : loc ++ below ++ [name] = whole at h
    cases h with
    | root => simp at hwhole
    | child hloc _ _ =>
      obtain ⟨hinit, -⟩ := List.append_inj' hwhole rfl
      exact ih (hinit ▸ hloc)

theorem IsCanonical.lstat_eq {loc : Location} {name : String}
    (h : IsCanonical fs cwd (loc ++ [name])) :
    ∃ node, fs.lstat cwd (loc ++ [name]) = .ok node ∧ ∀ target, node ≠ .link target := by
  generalize hwhole : loc ++ [name] = whole at h
  cases h with
  | root => simp at hwhole
  | child _ hnode hlink => exact ⟨_, hnode, hlink⟩

/-- **The loop keeps what is done canonical**, so that its outcome is. -/
theorem Reaches.isCanonical {budget : Nat} {done loc : Location} {names : List String}
    (h : Reaches fs cwd budget done names loc) (hdone : IsCanonical fs cwd done) :
    IsCanonical fs cwd loc := by
  induction h with
  | nil => exact hdone
  | keep hnode hlink _ ih => exact ih (.child hdone hnode hlink)
  | follow _ _ _ ih => exact ih .root

/-- **On what is canonical the loop changes nothing**, whatever its budget. -/
theorem IsCanonical.reaches {done : Location} {names : List String}
    (h : IsCanonical fs cwd (done ++ names)) (budget : Nat) :
    Reaches fs cwd budget done names (done ++ names) := by
  induction names generalizing done with
  | nil => simpa using Reaches.nil budget done
  | cons name rest ih =>
    rw [List.append_cons] at h ⊢
    obtain ⟨node, hnode, hlink⟩ := h.of_append.lstat_eq
    exact .keep hnode hlink (ih h)

/-- A larger budget does no harm. -/
theorem Reaches.mono {budget more : Nat} {done loc : Location} {names : List String}
    (h : Reaches fs cwd budget done names loc) (hle : budget ≤ more) :
    Reaches fs cwd more done names loc := by
  induction h generalizing more with
  | nil budget done => exact .nil more done
  | keep hnode hlink _ ih => exact .keep hnode hlink (ih hle)
  | follow hlink hstat _ ih =>
    cases more with
    | zero => exact absurd hle (Nat.not_succ_le_zero _)
    | succ more => exact .follow hlink hstat (ih (Nat.le_of_succ_le_succ hle))

/-- The part that is canonical already needs no budget: the loop comes to what is after it. -/
theorem Reaches.of_canonical_append {budget : Nat} {done loc : Location}
    {names rest : List String} (h : Reaches fs cwd budget done (names ++ rest) loc)
    (hcanonical : IsCanonical fs cwd (done ++ names)) :
    Reaches fs cwd budget (done ++ names) rest loc := by
  induction names generalizing done with
  | nil => simpa using h
  | cons name names ih =>
    rw [List.append_cons] at hcanonical ⊢
    obtain ⟨node, hnode, hnotLink⟩ := hcanonical.of_append.lstat_eq
    rw [List.cons_append] at h
    cases h with
    | keep _ _ hrest => exact ih hrest hcanonical
    | follow hlink _ _ =>
      rw [hnode] at hlink
      exact absurd (Except.ok.inj hlink) (hnotLink _)

/-! ### Where the names of the outcome come from -/

theorem asCall_eq_ok_iff {α : Type} {call path : String} {outcome : Except Errno α} {a : α} :
    asCall call path outcome = .ok a ↔ outcome = .ok a := by
  cases outcome with
  | ok b => exact ⟨fun h ↦ congrArg _ (Except.ok.inj h), fun h ↦ congrArg _ (Except.ok.inj h)⟩
  | error errno => exact ⟨fun h ↦ (by cases h), fun h ↦ (by cases h)⟩

/-- **What a call finds at the end of a path stands where the walk ends.** -/
theorem nodeAt_eq_ok_iff {last : LastName} {path : String} {node : Node} :
    fs.nodeAt cwd last path = .ok node ↔
      ∃ loc, fs.walk cwd last path = .ok loc ∧ fs.node? loc = some node := by
  cases hwalk : fs.walk cwd last path with
  | error errno => simp [nodeAt, hwalk, bind, Except.bind]
  | ok loc =>
    cases hnode : fs.node? loc with
    | none => simp [nodeAt, hwalk, hnode, bind, Except.bind]
    | some found => simp [nodeAt, hwalk, hnode, bind, Except.bind, pure, Except.pure]

theorem stat_eq_ok_iff {path : String} {node : Node} : fs.stat cwd path = .ok node ↔
    ∃ loc, fs.walk cwd .followLink path = .ok loc ∧ fs.node? loc = some node :=
  asCall_eq_ok_iff.trans nodeAt_eq_ok_iff

theorem exists_node_of_lstat {loc : Location} {node : Node} (h : fs.lstat cwd loc = .ok node) :
    ∃ place, fs.node? place = some node := by
  obtain ⟨place, -, hplace⟩ := nodeAt_eq_ok_iff.1 (asCall_eq_ok_iff.1 h)
  exact ⟨place, hplace⟩

/-- **A name of the outcome was given, or is a proper name in the target of a link.** -/
theorem Reaches.forall_mem {P : String → Prop} {budget : Nat} {done loc : Location}
    {names : List String} (h : Reaches fs cwd budget done names loc) (hdone : ∀ n ∈ done, P n)
    (hnames : ∀ n ∈ names, P n)
    (htarget : ∀ place target, fs.node? place = some (.link target) →
      ∀ n ∈ Path.names target, Path.IsName n → P n) : ∀ n ∈ loc, P n := by
  induction h with
  | nil => exact hdone
  | @keep budget done loc name rest node _ _ _ ih =>
    refine ih (fun n hn ↦ ?_) fun n hn ↦ hnames n (List.mem_cons_of_mem _ hn)
    rcases List.mem_append.1 hn with hn | hn
    · exact hdone n hn
    · exact hnames n (List.mem_singleton.1 hn ▸ List.mem_cons_self)
  | @follow budget done loc name target rest node hlink _ _ ih =>
    obtain ⟨place, hplace⟩ := exists_node_of_lstat hlink
    refine ih (fun n hn ↦ absurd hn List.not_mem_nil) fun n hn ↦ ?_
    rcases List.mem_append.1 hn with hn | hn
    · rcases Location.mem_descend hn with hn | ⟨hn, hname⟩
      · exact hdone n hn
      · exact htarget place target hplace n hn hname
    · exact hnames n (List.mem_cons_of_mem _ hn)

theorem Reaches.isNormal {budget : Nat} {loc : Location} {names : List String}
    (h : Reaches fs cwd budget [] names loc) (hnames : Location.IsNormal names) : loc.IsNormal :=
  h.forall_mem Location.IsNormal.nil hnames fun _ _ _ _ _ hname ↦ hname

/-! ### The call -/

theorem realpath_eq_ok_iff {path canonical : String} :
    fs.realpath cwd path = .ok canonical ↔
      ∃ loc, Reaches fs cwd maxReplacements [] (Path.locate cwd [path]) loc ∧
        loc.toPath = canonical := by
  rw [realpath]
  cases hrun : fs.realpathFrom cwd maxReplacements [] (Path.locate cwd [path]) with
  | error fault =>
    refine ⟨fun h ↦ (by cases h), fun ⟨loc, hloc, _⟩ ↦ ?_⟩
    rw [hloc.realpathFrom_eq] at hrun
    cases hrun
  | ok found =>
    have hfound := realpathFrom_eq_ok_iff.1 hrun
    constructor
    · intro h
      exact ⟨found, hfound, Except.ok.inj h⟩
    · rintro ⟨loc, hloc, rfl⟩
      obtain rfl : loc = found := Except.ok.inj (hloc.realpathFrom_eq.symm.trans hrun)
      rfl

/-- **What `realpath` gives is the path of a canonical location.** -/
theorem exists_canonical_of_realpath {path canonical : String}
    (h : fs.realpath cwd path = .ok canonical) :
    ∃ loc, IsCanonical fs cwd loc ∧ loc.IsNormal ∧ loc.toPath = canonical := by
  obtain ⟨loc, hloc, rfl⟩ := realpath_eq_ok_iff.1 h
  exact ⟨loc, hloc.isCanonical .root, hloc.isNormal (Path.locate_isNormal cwd [path]), rfl⟩

/-- **A canonical location is what its path leads to.** -/
theorem IsCanonical.realpath_toPath {loc : Location} (h : IsCanonical fs cwd loc)
    (hloc : loc.IsNormal) : fs.realpath cwd loc.toPath = .ok loc.toPath := by
  refine realpath_eq_ok_iff.2 ⟨loc, ?_, rfl⟩
  rw [Path.locate_toPath hloc]
  have hroot : IsCanonical fs cwd ([] ++ loc) := h
  exact hroot.reaches maxReplacements

/-- **`realpath` is idempotent.** -/
theorem realpath_idem {path canonical : String} (h : fs.realpath cwd path = .ok canonical) :
    fs.realpath cwd canonical = .ok canonical := by
  obtain ⟨loc, hcanonical, hloc, rfl⟩ := exists_canonical_of_realpath h
  exact hcanonical.realpath_toPath hloc

/-! ### Hops

A link in front of a file is one way more to the same file. The law is about the path that the
link is read as, with its target put in place of its last name. -/

/-- One link further: `path` is normalized and ends in a link whose directory is canonical, and
`next` is what the target of the link gives there. -/
structure Hop (fs : FileSystem) (cwd path next : String) : Prop where
  /-- The path is absolute and lexically normalized. -/
  normalized : Path.IsNormalized path
  /-- Its directory is canonical. -/
  directory : fs.realpath cwd (Path.dirname path) = .ok (Path.dirname path)
  /-- It ends in a link, which is read in that directory. -/
  link : ∃ target, fs.nodeAt cwd .keepLink path = .ok (.link target) ∧
    next = Path.resolve cwd [Path.dirname path, target]

/-- The root is no link, whatever stands in its place: its path ends in a slash, which asks for a
directory. -/
theorem nodeAt_root_ne_link (last : LastName) (target : String) :
    fs.nodeAt cwd last "/" ≠ .ok (.link target) := by
  have hnames : walkNames "/" = [] := by decide
  have hstart : startOf cwd "/" = [] := by simp [startOf, Path.isAbsolute]
  have hslash : Path.endsInSlash "/" = true := by decide
  have hshort : pathIsTooLong "/" = false := by decide
  intro h
  simp only [nodeAt, walk, hnames, hstart, hslash, hshort, walkFrom, walkOn, isDirectoryAt] at h
  cases hnode : fs.node? [] with
  | none => simp [hnode, bind, Except.bind, Except.map] at h
  | some node => cases node <;> simp [hnode, bind, Except.bind, Except.map, pure, Except.pure] at h

/-- What is canonical as a path is canonical as a location. -/
theorem isCanonical_of_realpath_toPath {loc : Location} (hloc : loc.IsNormal)
    (h : fs.realpath cwd loc.toPath = .ok loc.toPath) : IsCanonical fs cwd loc := by
  obtain ⟨found, hcanonical, hfound, hpath⟩ := exists_canonical_of_realpath h
  rwa [← Location.toPath_injective hfound hloc hpath]

/-- A hop, read in locations: the link stands at a proper name in a canonical directory. -/
theorem Hop.exists_locations {path next : String} (hop : Hop fs cwd path next) :
    ∃ (dir : Location) (name target : String), Location.IsNormal (dir ++ [name]) ∧
      path = Location.toPath (dir ++ [name]) ∧ IsCanonical fs cwd dir ∧
      fs.lstat cwd (dir ++ [name]) = .ok (.link target) ∧ next = (dir.descend target).toPath := by
  obtain ⟨target, hlink, rfl⟩ := hop.link
  have hdirectory := hop.directory
  have hloc := Path.locate_isNormal cwd [path]
  have hpath : (Path.locate cwd [path]).toPath = path :=
    Path.resolve_eq_self_iff.2 hop.normalized
  generalize Path.locate cwd [path] = loc at hloc hpath
  subst hpath
  have hne : loc ≠ [] := by
    rintro rfl
    exact nodeAt_root_ne_link .keepLink target hlink
  obtain ⟨dir, name, rfl⟩ := Location.exists_last hne
  have hdir : Location.IsNormal dir := fun n hn ↦ hloc n (List.mem_append_left _ hn)
  rw [Location.dirname_toPath hdir (hloc name (by simp))] at hdirectory ⊢
  refine ⟨dir, name, target, hloc, rfl, isCanonical_of_realpath_toPath hdir hdirectory,
    asCall_eq_ok_iff.2 hlink, ?_⟩
  rw [Path.resolve, Path.locate_of_isAbsolute dir.isAbsolute_toPath, List.foldl_cons,
    List.foldl_nil, Location.descend_toPath hdir]

/-- **A hop leads to the same canonical path.** The link is the first one that the loop meets, so
what is left of its run is a run for the next path, of a smaller budget. -/
theorem Hop.realpath_eq {path next canonical : String} (hop : Hop fs cwd path next)
    (h : fs.realpath cwd path = .ok canonical) : fs.realpath cwd next = .ok canonical := by
  obtain ⟨dir, name, target, hnormal, rfl, hdir, hlink, rfl⟩ := hop.exists_locations
  obtain ⟨reached, hreached, rfl⟩ := realpath_eq_ok_iff.1 h
  rw [Path.locate_toPath hnormal] at hreached
  have hrest : Reaches fs cwd maxReplacements ([] ++ dir) [name] reached :=
    hreached.of_canonical_append hdir
  rw [List.nil_append] at hrest
  have hnext : (dir.descend target).IsNormal :=
    Location.descend_isNormal (fun n hn ↦ hnormal n (List.mem_append_left _ hn)) target
  refine realpath_eq_ok_iff.2 ⟨reached, ?_, rfl⟩
  rw [Path.locate_toPath hnext]
  cases hrest with
  | keep hnode hnotLink _ =>
    rw [hlink] at hnode
    exact absurd (Except.ok.inj hnode).symm (hnotLink target)
  | follow hfound _ hrun =>
    rw [hlink] at hfound
    obtain rfl : target = _ := Node.link.inj (Except.ok.inj hfound)
    rw [List.append_nil] at hrun
    exact hrun.mono (by decide)

theorem realpath_of_hops {path last canonical : String}
    (hops : Relation.ReflTransGen (Hop fs cwd) path last)
    (h : fs.realpath cwd path = .ok canonical) : fs.realpath cwd last = .ok canonical := by
  induction hops with
  | refl => exact h
  | tail _ hop ih => exact hop.realpath_eq ih

theorem isAbsolute_of_realpath {path canonical : String}
    (h : fs.realpath cwd path = .ok canonical) : Path.isAbsolute canonical = true := by
  obtain ⟨loc, -, -, rfl⟩ := exists_canonical_of_realpath h
  exact loc.isAbsolute_toPath

theorem Hop.isAbsolute {path next : String} (hop : Hop fs cwd path next) :
    Path.isAbsolute next = true := by
  obtain ⟨dir, name, target, -, -, -, -, rfl⟩ := hop.exists_locations
  exact Location.isAbsolute_toPath _

/-! ### Through the probe

The probe refuses a path with a NUL character before anything is examined. On a disk whose links
have none in their targets, no such path comes out of one that was let through. -/

/-- No link has a NUL character in its target, which no system call could have put there. -/
def LinksArePlain (fs : FileSystem) : Prop :=
  ∀ loc target, fs.node? loc = some (.link target) → '\x00' ∉ target.toList

theorem probe_realpath_of_nul {path : String} (h : '\x00' ∈ path.toList) :
    (fs.probe cwd).realpath path = .error (.nulPath path) := by
  simp only [probe, guardPath_of_nul h, bind, Except.bind]

theorem probe_realpath_eq_ok_iff {path canonical : String} :
    (fs.probe cwd).realpath path = .ok canonical ↔
      '\x00' ∉ path.toList ∧ fs.realpath cwd path = .ok canonical := by
  by_cases hnul : '\x00' ∈ path.toList
  · simp [probe_realpath_of_nul hnul, hnul]
  · simp only [probe, guardPath_of_not_nul hnul, bind, Except.bind]
    cases fs.realpath cwd path <;> simp [hnul, Except.mapError]

theorem no_nul_toPath {loc : Location} (h : ∀ name ∈ loc, '\x00' ∉ name.toList) :
    '\x00' ∉ loc.toPath.toList := by
  intro hnul
  rcases Location.mem_toList_toPath hnul with hslash | ⟨name, hname, hmem⟩
  · exact absurd hslash (by decide)
  · exact h name hname hmem

theorem no_nul_of_mem_names {path name : String} (hpath : '\x00' ∉ path.toList)
    (hname : name ∈ Path.names path) : '\x00' ∉ name.toList := fun hnul ↦
  hpath (Path.mem_and_ne_slash_of_mem_names hname hnul).1

theorem no_nul_locate (cwd : String) {path : String} (habsolute : Path.isAbsolute path = true)
    (hpath : '\x00' ∉ path.toList) : ∀ name ∈ Path.locate cwd [path], '\x00' ∉ name.toList := by
  rw [Path.locate_of_isAbsolute habsolute, List.foldl_nil]
  intro name hname
  rcases Location.mem_descend hname with hname | ⟨hname, -⟩
  · exact absurd hname List.not_mem_nil
  · exact no_nul_of_mem_names hpath hname

/-- The canonical path of a path that is let through is let through. -/
theorem no_nul_of_realpath (hfs : fs.LinksArePlain) {path canonical : String}
    (habsolute : Path.isAbsolute path = true) (hpath : '\x00' ∉ path.toList)
    (h : fs.realpath cwd path = .ok canonical) : '\x00' ∉ canonical.toList := by
  obtain ⟨loc, hloc, rfl⟩ := realpath_eq_ok_iff.1 h
  refine no_nul_toPath (hloc.forall_mem (fun name hname ↦ absurd hname List.not_mem_nil)
    (no_nul_locate cwd habsolute hpath) fun place target hplace name hname _ ↦ ?_)
  exact no_nul_of_mem_names (hfs place target hplace) hname

/-- So is what a hop leads to. -/
theorem Hop.no_nul (hfs : fs.LinksArePlain) {path next : String} (hop : Hop fs cwd path next)
    (hpath : '\x00' ∉ path.toList) : '\x00' ∉ next.toList := by
  obtain ⟨dir, name, target, hnormal, rfl, -, hlink, rfl⟩ := hop.exists_locations
  obtain ⟨place, hplace⟩ := exists_node_of_lstat hlink
  have hnames := no_nul_locate cwd (Location.isAbsolute_toPath _) hpath
  rw [Path.locate_toPath hnormal] at hnames
  refine no_nul_toPath fun n hn ↦ ?_
  rcases Location.mem_descend hn with hn | ⟨hn, -⟩
  · exact hnames n (List.mem_append_left _ hn)
  · exact no_nul_of_mem_names (hfs place target hplace) hn

theorem no_nul_of_hops (hfs : fs.LinksArePlain) {path last : String}
    (hops : Relation.ReflTransGen (Hop fs cwd) path last) (hpath : '\x00' ∉ path.toList) :
    '\x00' ∉ last.toList := by
  induction hops with
  | refl => exact hpath
  | tail _ hop ih => exact hop.no_nul hfs ih

end ResourceLocator.FileSystem
