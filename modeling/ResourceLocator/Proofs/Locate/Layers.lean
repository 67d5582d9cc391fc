import ResourceLocator.Program.Context
import ResourceLocator.Proofs.Locate.Dirlist
import ResourceLocator.Proofs.Locate.RootChain

/-!
# The layers of a search path

Locating resources is done in two parts (`locate_eq`). The first part finds the root and the system
layer. It depends on two variables of the environment and may fail. The second part adds what a
third variable names. It cannot fail, whatever the file system answers: a question that does is
taken for a no, and the entry about it in the debug log is made without fail. So that third variable
changes the last layer and nothing else, and a failure is always one of the first part.

Entries are made all along, and may go to a file on the same disk. They change no directory, so that
it does not matter for the last layer when a directory is asked for; lists are read from the disk as
it is after two entries.
-/

namespace ResourceLocator

/-! ### The variables of a tool -/

theorem Tool.libdirVariable_ne_extraVariable (tool : Tool) :
    tool.libdirVariable ≠ tool.extraVariable := by
  intro h
  have hchars := congrArg String.toList h
  simp [libdirVariable, extraVariable] at hchars

theorem Tool.uninstalledVariable_ne_extraVariable (tool : Tool) :
    tool.uninstalledVariable ≠ tool.extraVariable := by
  intro h
  have hchars := congrArg String.toList h
  simp [uninstalledVariable, extraVariable] at hchars

/-! ### Pieces of a value -/

namespace Extra

/-- What is kept is what has not been seen, without repetitions. -/
theorem distinctFrom_eq (seen xs : List String) :
    distinctFrom seen xs = (xs.filter fun x ↦ !seen.contains x).eraseDups := by
  induction xs generalizing seen with
  | nil => rfl
  | cons x xs ih =>
    rw [distinctFrom]
    cases hseen : seen.contains x with
    | true =>
      rw [if_pos rfl, ih, List.filter_cons_of_neg (by simpa using hseen)]
    | false =>
      have hrest : xs.filter (fun y ↦ !(x :: seen).contains y) =
          (xs.filter fun y ↦ !seen.contains y).filter fun y ↦ !y == x := by
        rw [List.filter_filter]
        refine List.filter_congr fun y _ ↦ ?_
        rw [List.contains_cons, Bool.not_or]
      rw [if_neg (by decide), ih, List.filter_cons_of_pos (by simpa using hseen),
        List.eraseDups_cons, hrest]

/-- **The pieces of a value** are the distinct texts between its separators that are not empty, in
the order of their first occurrences. -/
theorem pieces_eq (raw : String) :
    pieces raw = (((raw.toList.splitOnP isSeparator).map String.ofList).filter
      (· ≠ "")).eraseDups := by
  rw [pieces, distinctFrom_eq, Text.split, Text.pieces_eq_splitOnP]
  simp

end Extra

/-! ### Lists of directories -/

namespace Dirlist

/-- The text of the list in a directory, if there is one that can be read. -/
def content? (fs : FileSystem) (cwd dir : String) : Option String :=
  match (fs.probe cwd).readText (Path.join [dir, fileName]) with
  | .ok content => content
  | .error _ => none

theorem content?_eq {fs : FileSystem} {cwd dir : String} {content : Option String}
    (h : (fs.probe cwd).readText (Path.join [dir, fileName]) = .ok content) :
    content? fs cwd dir = content := by
  unfold content?
  rw [h]

/-- A directory, followed by those that its list names. -/
def block (cwd : String) (content : Option String) (dir : String) : List String :=
  dir :: (content.map fun text ↦ parse cwd text dir).getD []

section Expand

variable {m : Type → Type} [Monad m] [LawfulMonad m]

theorem expand_cons (cwd : String) (readText : String → m (Option String)) (dir : String)
    (dirs : List String) :
    expand cwd readText (dir :: dirs) = do
      let content ← readText (Path.join [dir, fileName])
      let rest ← expand cwd readText dirs
      return block cwd content dir ++ rest := by
  simp only [expand, List.mapM_cons, bind_assoc, pure_bind]
  congr 1
  funext content
  cases content <;> simp [block]

end Expand

theorem isQuestion_expand (cwd : String) (dirs : List String) :
    Session.IsQuestion (expand cwd Session.probe.readText dirs) := by
  induction dirs with
  | nil => exact Session.isQuestion_pure []
  | cons dir dirs ih =>
    rw [expand_cons]
    exact (Session.isQuestion_probe_readText _).bind fun _ ↦ ih.bind fun _ ↦
      Session.isQuestion_pure _

/-- **The system layer**: each directory, followed by what its own list names. No list that is
there fails to be read. -/
theorem runIn_expand_eq_ok {cwd : String} {dirs system : List String} {w after : World}
    (h : (expand cwd Session.probe.readText dirs).runIn w = (.ok system, after)) :
    (∀ dir ∈ dirs, (w.disk.probe w.cwd).readText (Path.join [dir, fileName]) =
      .ok (content? w.disk w.cwd dir)) ∧
    system = dirs.flatMap fun dir ↦ block cwd (content? w.disk w.cwd dir) dir := by
  induction dirs generalizing system after with
  | nil =>
    obtain ⟨hsystem, -⟩ := Prod.mk.inj h
    exact ⟨fun dir hdir ↦ absurd hdir List.not_mem_nil, (Except.ok.inj hsystem).symm⟩
  | cons dir dirs ih =>
    rw [expand_cons] at h
    obtain ⟨content, mid, hread, h⟩ := Session.exists_of_runIn_bind_eq_ok h
    rw [Session.runIn_probe_readText] at hread
    obtain ⟨hcontent, rfl⟩ := Prod.mk.inj hread
    obtain ⟨rest, later, hrest, h⟩ := Session.exists_of_runIn_bind_eq_ok h
    obtain ⟨hreads, rfl⟩ := ih hrest
    obtain ⟨hsystem, -⟩ := Prod.mk.inj h
    have hsame := content?_eq hcontent
    refine ⟨fun other hother ↦ ?_, ?_⟩
    · rcases List.mem_cons.1 hother with rfl | hother
      · rw [hcontent, hsame]
      · exact hreads other hother
    · rw [List.flatMap_cons, hsame, ← Except.ok.inj hsystem]

end Dirlist

/-! ### What the environment adds -/

/-- The directories that a value adds on a disk. -/
def Extra.usable (fs : FileSystem) (cwd : String) (raw : Option String) : List String :=
  ((raw.map Extra.pieces).getD []).filter (fs.leadsToDirectory cwd)

/-- An absent value adds as little as an empty one. -/
theorem Extra.usable_eq (fs : FileSystem) (cwd : String) (raw : Option String) :
    usable fs cwd raw =
      (((((raw.getD "").toList.splitOnP isSeparator).map String.ofList).filter
        (· ≠ "")).eraseDups).filter (fs.leadsToDirectory cwd) := by
  cases raw with
  | none => rfl
  | some raw =>
    rw [← Extra.pieces_eq]
    rfl

/-- Entries change nothing about which of some paths lead to a directory. -/
theorem World.Logged.filter_eq {w after : World} (h : w.Logged after) (paths : List String) :
    paths.filter (after.disk.leadsToDirectory after.cwd) =
      paths.filter (w.disk.leadsToDirectory w.cwd) :=
  List.filter_congr fun path _ ↦ h.leadsToDirectory_eq path

namespace Program.Context

variable (context : Context)

/-- **A question whether a directory is there is always answered.** -/
theorem exists_runIn_isUsable (cwd path : String) (w : World) :
    ∃ after, ((context.host cwd).isUsable path).runIn w =
      (.ok (w.disk.leadsToDirectory w.cwd path), after) ∧ w.Logged after := by
  have hask := Session.runIn_probe_isDirectory path w
  unfold Host.isUsable FileSystem.leadsToDirectory
  cases hdirectory : (w.disk.probe w.cwd).isDirectory path with
  | ok answer =>
    rw [hdirectory] at hask
    exact ⟨w, Session.runIn_tryCatch_of_ok hask _, .refl w⟩
  | error failure =>
    rw [hdirectory] at hask
    obtain ⟨reason, hreason⟩ := FileSystem.exists_message_of_isDirectory hdirectory
    refine ⟨w.noted (Located.droppedNote path reason), ?_, w.logged_noted _⟩
    refine (Session.runIn_tryCatch_of_error hask _).trans ?_
    rw [hreason]
    exact Session.runIn_bind_of_ok (Journal.runIn_write _ w) _

/-- **The last layer is always found**, and is that of the disk at the beginning. -/
theorem exists_runIn_select (cwd : String) (pieces : List String) (w : World) :
    ∃ after, (Extra.select (context.host cwd).isUsable pieces).runIn w =
      (.ok (pieces.filter (w.disk.leadsToDirectory w.cwd)), after) ∧ w.Logged after := by
  induction pieces generalizing w with
  | nil => exact ⟨w, rfl, .refl w⟩
  | cons piece rest ih =>
    obtain ⟨mid, hpiece, hmid⟩ := context.exists_runIn_isUsable cwd piece w
    obtain ⟨after, hrest, hafter⟩ := ih mid
    refine ⟨after, ?_, hmid.trans hafter⟩
    rw [hmid.filter_eq] at hrest
    rw [Extra.select, Session.runIn_bind_of_ok hpiece, Session.runIn_bind_of_ok hrest,
      List.filter_cons, Session.runIn_pure]

end Program.Context

/-! ### The two parts -/

section Parts

variable {m : Type → Type} [Monad m] [LawfulMonad m] [MonadExceptOf Failure m]

/-- The first part: the root, and the system layer. -/
def Host.base (host : Host m) (config : Config) (userIncludes : List String) :
    m (Root × List String) := do
  host.note (Located.startNote config userIncludes)
  let root ← Root.resolve (host.rootContext config) RootSource.all
  let system ← Dirlist.expand host.cwd host.probe.readText config.systemDirs
  return (root, system)

/-- The second part: what the environment adds. -/
def Host.complete (host : Host m) (config : Config) (userIncludes : List String)
    (base : Root × List String) : m Located := do
  let extra ← Extra.parse host.isUsable (host.env config.tool.extraVariable)
  let located : Located :=
    ⟨base.1, ⟨userIncludes ++ config.includes, base.1.dirs, base.2, extra⟩⟩
  host.note located.builtNote
  return located

theorem Host.locate_eq (host : Host m) (config : Config) (userIncludes : List String) :
    host.locate config userIncludes =
      host.base config userIncludes >>= host.complete config userIncludes := by
  simp only [locate, base, complete, bind_assoc, pure_bind]

end Parts

namespace Program.Context

variable {context : Context} {cwd : String} {w mid : World}

/-- What is located, from the first part and the disk on which the second looks. -/
def completed (context : Context) (fs : FileSystem) (cwd : String) (base : Root × List String) :
    Located :=
  ⟨base.1, ⟨context.userIncludes ++ context.config.includes, base.1.dirs, base.2,
    Extra.usable fs cwd (context.env context.config.tool.extraVariable)⟩⟩

/-- **The second part does not fail.** -/
theorem exists_runIn_complete (context : Context) (cwd : String) (base : Root × List String)
    (w : World) :
    ∃ after, ((context.host cwd).complete context.config context.userIncludes base).runIn w =
      (.ok (context.completed w.disk w.cwd base), after) := by
  obtain ⟨mid, hextra, -⟩ := context.exists_runIn_select cwd
    (((context.env context.config.tool.extraVariable).map Extra.pieces).getD []) w
  let located := context.completed w.disk w.cwd base
  refine ⟨mid.noted located.builtNote, (Session.runIn_bind_of_ok hextra _).trans ?_⟩
  exact Session.runIn_bind_of_ok (Journal.runIn_write located.builtNote mid) _

/-- The world in which a root has been found: an entry has been made when the search began, and one
about the root. -/
def rooted (context : Context) (w : World) (root : Root) : World :=
  (w.noted (Located.startNote context.config context.userIncludes)).noted root.foundNote

theorem logged_rooted (context : Context) (w : World) (root : Root) :
    w.Logged (context.rooted w root) :=
  (w.logged_noted _).trans (World.logged_noted _ _)

/-- Without a file for entries the disk is the one at the beginning. -/
theorem disk_rooted (h : w.journal.file = none) (root : Root) :
    (context.rooted w root).disk = w.disk := by
  obtain ⟨hdisk, hfile⟩ := World.disk_noted h
    (Located.startNote context.config context.userIncludes)
  exact (World.disk_noted hfile root.foundNote).1.trans hdisk

/-- **The first part leaves the world in which the root has been found**, and reads the lists
there. -/
theorem eq_rooted_of_runIn_base {base : Root × List String}
    (h : ((context.host w.cwd).base context.config context.userIncludes).runIn w =
      (.ok base, mid)) :
    mid = context.rooted w base.1 ∧
    (∀ dir ∈ context.config.systemDirs,
      (mid.disk.probe w.cwd).readText (Path.join [dir, Dirlist.fileName]) =
        .ok (Dirlist.content? mid.disk w.cwd dir)) ∧
    base.2 = context.config.systemDirs.flatMap fun dir ↦
      Dirlist.block w.cwd (Dirlist.content? mid.disk w.cwd dir) dir := by
  obtain ⟨_, started, hstart, h⟩ := Session.exists_of_runIn_bind_eq_ok h
  obtain ⟨-, rfl⟩ := Prod.mk.inj ((Journal.runIn_write _ w).symm.trans hstart)
  obtain ⟨root, found, hroot, h⟩ := Session.exists_of_runIn_bind_eq_ok h
  have hfound : found = context.rooted w root :=
    Root.eq_noted_of_runIn_resolve ((context.host w.cwd).rootContext context.config)
      (Session.isQuestion_ofExcept _) Session.isQuestion_probe_realpath hroot
  obtain ⟨system, later, hsystem, h⟩ := Session.exists_of_runIn_bind_eq_ok h
  obtain ⟨hbase, rfl⟩ := Prod.mk.inj h
  obtain rfl := Except.ok.inj hbase
  have hsame := Dirlist.isQuestion_expand w.cwd context.config.systemDirs found
  have hlater : later = found := (congrArg Prod.snd hsystem).symm.trans hsame
  have hcwd : found.cwd = w.cwd := hfound ▸ (context.logged_rooted w root).cwd
  obtain ⟨hreads, hsystem⟩ := Dirlist.runIn_expand_eq_ok hsystem
  rw [hcwd] at hreads hsystem
  rw [hlater]
  exact ⟨hfound, hreads, hsystem⟩

/-- The same context in another environment. -/
def withEnv (context : Context) (env : Environment) : Context := { context with env }

/-- The first part does not see what the environment adds. -/
theorem base_withEnv {env : Environment}
    (henv : ∀ name, name ≠ context.config.tool.extraVariable → env name = context.env name) :
    ((context.withEnv env).host cwd).base context.config context.userIncludes =
      (context.host cwd).base context.config context.userIncludes := by
  have hresolve := Root.resolve_congr_env ((context.host cwd).rootContext context.config)
    (henv _ (Tool.libdirVariable_ne_extraVariable _))
    (henv _ (Tool.uninstalledVariable_ne_extraVariable _)) RootSource.all
  rw [Host.base, Host.base]
  have hcontext : ((context.withEnv env).host cwd).rootContext context.config =
    { (context.host cwd).rootContext context.config with env } := rfl
  rw [hcontext, hresolve]
  rfl

/-- **A search ends as its first part does**, and completes what that gives. -/
theorem runIn_locate (context : Context) (w : World) :
    (∃ failure after,
      ((context.host w.cwd).base context.config context.userIncludes).runIn w =
        (.error failure, after) ∧
      context.locate.runIn w = (.error failure, after)) ∨
    ∃ base after,
      ((context.host w.cwd).base context.config context.userIncludes).runIn w =
        (.ok base, context.rooted w base.1) ∧
      context.locate.runIn w = (.ok (context.completed w.disk w.cwd base), after) := by
  have hlocate : context.locate.runIn w =
      ((context.host w.cwd).base context.config context.userIncludes >>=
        (context.host w.cwd).complete context.config context.userIncludes).runIn w := by
    rw [← Host.locate_eq]
    exact Session.runIn_bind_of_ok (Session.runIn_get w) _
  rw [hlocate]
  rcases hbase : ((context.host w.cwd).base context.config context.userIncludes).runIn w with
    ⟨outcome, mid⟩
  cases outcome with
  | error failure => exact .inl ⟨failure, mid, rfl, Session.runIn_bind_of_error hbase _⟩
  | ok base =>
    obtain ⟨rfl, -, -⟩ := eq_rooted_of_runIn_base hbase
    obtain ⟨after, hcomplete⟩ := context.exists_runIn_complete w.cwd base (context.rooted w base.1)
    refine .inr ⟨base, after, rfl, ?_⟩
    rw [Session.runIn_bind_of_ok hbase, hcomplete, completed, Extra.usable,
      (context.logged_rooted w base.1).filter_eq]
    rfl

/-- **What is located** completes what the first part gives. -/
theorem exists_base_of_runIn_locate {located : Located} {after : World}
    (h : context.locate.runIn w = (.ok located, after)) :
    ∃ base, ((context.host w.cwd).base context.config context.userIncludes).runIn w =
        (.ok base, context.rooted w base.1) ∧
      located = context.completed w.disk w.cwd base := by
  rcases context.runIn_locate w with ⟨failure, _, -, hfailure⟩ | ⟨base, _, hbase, hcompleted⟩
  · cases h.symm.trans hfailure
  · obtain ⟨hlocated, -⟩ := Prod.mk.inj (h.symm.trans hcompleted)
    exact ⟨base, hbase, Except.ok.inj hlocated⟩

/-- What is located begins with the directories that the user asks for. -/
theorem user_of_runIn_locate {located : Located} {after : World}
    (h : context.locate.runIn w = (.ok located, after)) :
    located.layers.user = context.userIncludes ++ context.config.includes := by
  obtain ⟨base, -, rfl⟩ := exists_base_of_runIn_locate h
  rfl

/-- **Another value of the variable** changes the last layer and nothing else: a search that fails
does so in the same way, and one that ends well gives the same first part. -/
theorem runIn_locate_withEnv {env : Environment} (w : World)
    (henv : ∀ name, name ≠ context.config.tool.extraVariable → env name = context.env name) :
    (∃ failure after, context.locate.runIn w = (.error failure, after) ∧
      (context.withEnv env).locate.runIn w = (.error failure, after)) ∨
    ∃ base after later,
      context.locate.runIn w = (.ok (context.completed w.disk w.cwd base), after) ∧
      (context.withEnv env).locate.runIn w =
        (.ok ((context.withEnv env).completed w.disk w.cwd base), later) := by
  have hsame :
      (((context.withEnv env).host w.cwd).base context.config context.userIncludes).runIn w =
      ((context.host w.cwd).base context.config context.userIncludes).runIn w := by
    rw [base_withEnv henv]
  rcases context.runIn_locate w with
    ⟨failure, after, hbase, hlocate⟩ | ⟨base, after, hbase, hlocate⟩ <;>
    rcases (context.withEnv env).runIn_locate w with
      ⟨failure', after', hbase', hlocate'⟩ | ⟨base', after', hbase', hlocate'⟩
  · obtain ⟨hfailure, rfl⟩ := Prod.mk.inj (hbase'.symm.trans (hsame.trans hbase))
    obtain rfl := Except.error.inj hfailure
    exact .inl ⟨_, _, hlocate, hlocate'⟩
  · cases hbase'.symm.trans (hsame.trans hbase)
  · cases hbase'.symm.trans (hsame.trans hbase)
  · obtain ⟨hok, -⟩ := Prod.mk.inj (hbase'.symm.trans (hsame.trans hbase))
    obtain rfl := Except.ok.inj hok
    exact .inr ⟨_, _, _, hlocate, hlocate'⟩

/-- **The layers of a search path, and what they depend on.** The search path is made of the four
layers one after the other: what the user asks for; the directories of the root; the directories of
the system, each followed by what its own list names, one directory for each trimmed line that is
neither blank nor a comment; and the distinct pieces of a variable that lead to a directory. The
lists are read when the root has been found, from the disk as it was at the beginning unless entries
are kept in a file. A piece whose question fails leads to no directory. In an environment with
another value of that variable, either the search fails in the same way, or it gives the same root
and the same layers but the last one. -/
theorem locate_layers (context : Context) (env : Environment) (w : World) :
    (∀ located after, context.locate.runIn w = (.ok located, after) →
      let fs := (context.rooted w located.root).disk
      located.searchPath = located.layers.user ++ located.layers.bundled ++
        located.layers.system ++ located.layers.extra ∧
      located.layers.user = context.userIncludes ++ context.config.includes ∧
      located.layers.bundled = located.root.dirs ∧
      (∀ dir ∈ context.config.systemDirs,
        (fs.probe w.cwd).readText (Path.join [dir, Dirlist.fileName]) =
          .ok (Dirlist.content? fs w.cwd dir)) ∧
      located.layers.system = (context.config.systemDirs.flatMap fun dir ↦
        dir :: ((Dirlist.content? fs w.cwd dir).map fun text ↦
          Dirlist.parse w.cwd text dir).getD []) ∧
      (∀ text dir, Dirlist.parse w.cwd text dir =
        (((text.toList.splitOnP (· == '\n')).map fun line ↦
          (line.dropWhile Text.isBlank).rdropWhile Text.isBlank).filter fun line ↦
            !line.isEmpty && line.head? != some '#').map fun line ↦
              Path.resolve w.cwd [dir, String.ofList line]) ∧
      (w.journal.file = none → fs = w.disk) ∧
      located.layers.extra =
        (((((context.env context.config.tool.extraVariable).getD "").toList.splitOnP
          Extra.isSeparator).map String.ofList).filter (· ≠ "")).eraseDups.filter
            (w.disk.leadsToDirectory w.cwd)) ∧
    ((∀ name, name ≠ context.config.tool.extraVariable → env name = context.env name) →
      (∃ failure after, context.locate.runIn w = (.error failure, after) ∧
        (context.withEnv env).locate.runIn w = (.error failure, after)) ∨
      ∃ located after other later, context.locate.runIn w = (.ok located, after) ∧
        (context.withEnv env).locate.runIn w = (.ok other, later) ∧
        other.root = located.root ∧ other.layers.user = located.layers.user ∧
        other.layers.bundled = located.layers.bundled ∧
        other.layers.system = located.layers.system ∧
        ∃ common, located.searchPath = common ++ located.layers.extra ∧
          other.searchPath = common ++ other.layers.extra) := by
  constructor
  · intro located after h fs
    rcases context.runIn_locate w with ⟨failure, _, -, hfailure⟩ | ⟨base, _, hbase, hcompleted⟩
    · rw [hfailure] at h
      cases h
    · rw [hcompleted] at h
      obtain ⟨hlocated, -⟩ := Prod.mk.inj h
      obtain rfl := Except.ok.inj hlocated
      obtain ⟨-, hreads, hsystem⟩ := eq_rooted_of_runIn_base hbase
      exact ⟨Layers.searchPath_eq _, rfl, rfl, hreads, hsystem, Dirlist.parse_eq_splitOnP w.cwd,
        fun hfile ↦ disk_rooted hfile _, Extra.usable_eq _ _ _⟩
  · intro henv
    rcases runIn_locate_withEnv w henv with hfailure | ⟨base, after, later, hlocate, hother⟩
    · exact .inl hfailure
    · exact .inr ⟨_, _, _, _, hlocate, hother, rfl, rfl, rfl, rfl, _, Layers.searchPath_eq _,
        Layers.searchPath_eq _⟩

end Program.Context

end ResourceLocator
