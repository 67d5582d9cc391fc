import ResourceLocator.Proofs.Locate.Growth
import ResourceLocator.Proofs.Log.Opening
import ResourceLocator.Proofs.Program.Output

/-!
# A command beside itself

A command is performed in two worlds, in the second of which more stands on the disk, and entries
are made in both. As long as nothing but entries changes the disks (`World.LoggedSince`), the two
are beside each other (`World.Beside`). Then the command comes to the same and shows the same in
both, if what it looks for in the first world in vain it looks for in vain in the second one, and
reads no list of directories from a log (`Program.sameResult_perform`).
-/

namespace ResourceLocator

open FileSystem Session

variable {base base' w w' after after' : World}

namespace World

/-- Since a time at which the world was `base` nothing has changed on the disk but entries. -/
structure LoggedSince (base w : World) : Prop where
  /-- Nothing else has changed. -/
  keeps : base.Keeps base.LogsIn w
  /-- Entries are still kept there, if at all. -/
  logsAt : w.LogsAt base.LogsIn

theorem LoggedSince.trans (h : base.LoggedSince w) (hlogs : w.LogsOnly base.LogsIn after) :
    base.LoggedSince after :=
  ⟨h.keeps.trans (hlogs h.logsAt).1, (hlogs h.logsAt).2⟩

/-- More stands in the second world, and more entries may be kept there. -/
structure Widens (base base' : World) : Prop where
  /-- The working directory is the same. -/
  cwd : base'.cwd = base.cwd
  /-- The console shows colours in both worlds or in none. -/
  colours : base'.hasColours = base.hasColours
  /-- The same has been reported. -/
  reported : base'.reported = base.reported
  /-- Everything that stands in the first world stands in the second. -/
  grows : Grows base.disk base'.disk
  /-- What is no log stays as it is. -/
  other : ∀ loc node, ¬base'.LogsIn loc → base.disk.node? loc = some node →
    base'.disk.node? loc = some node
  /-- A log in the first world is one in the second. -/
  logs : ∀ loc, base.LogsIn loc → base'.LogsIn loc

namespace LoggedSince

/-- What is a file stays one, and nothing else becomes one. -/
theorem isFile_eq (h : base.LoggedSince w) :
    (w.disk.probe w.cwd).isFile = (base.disk.probe base.cwd).isFile :=
  funext fun path ↦ by rw [h.keeps.cwd, h.keeps.shape.isFile_eq]

theorem entries_eq (h : base.LoggedSince w) :
    (w.disk.probe w.cwd).entries = (base.disk.probe base.cwd).entries :=
  funext fun path ↦ by rw [h.keeps.cwd, h.keeps.shape.entries_eq]

end LoggedSince

theorem Widens.refl (base : World) : base.Widens base :=
  ⟨rfl, rfl, rfl, .refl _, fun _ _ _ h ↦ h, fun _ h ↦ h⟩

/-- Two worlds since a time at which they were `base` and `base'`: nothing has changed on the disks
but entries, and the same has been reported. -/
structure Beside (base base' w w' : World) : Prop where
  /-- The first world. -/
  first : base.LoggedSince w
  /-- The second world. -/
  second : base'.LoggedSince w'
  /-- The same has been reported. -/
  reported : w'.reported = w.reported

end World

open World

/-! ### Locating resources -/

namespace Program.Context

variable {context : Context} {α : Type} {session : Session α} {located : Located}

/-- No list of directories of the system is a log. -/
def ReadsNoLog (context : Context) (w : World) : Prop :=
  ∀ dir ∈ context.config.systemDirs, ∀ loc,
    w.disk.walk w.cwd .followLink (Path.join [dir, Dirlist.fileName]) = .ok loc → ¬w.LogsIn loc

/-- The text of a list of directories stays, whatever entries are made. -/
theorem ReadsNoLog.readText_eq (hlists : context.ReadsNoLog base) (h : base.LoggedSince w)
    {dir : String} (hdir : dir ∈ context.config.systemDirs) :
    (w.disk.probe w.cwd).readText (Path.join [dir, Dirlist.fileName]) =
      (base.disk.probe base.cwd).readText (Path.join [dir, Dirlist.fileName]) := by
  have hshape := h.keeps.shape
  rw [h.keeps.cwd]
  refine (hshape.grows.readText_cases fun loc node hwalk hnode ↦ ?_).resolve_left fun hlost ↦
    hshape.not_hasNew hlost.1
  rw [hshape.walk_eq (by decide)] at hwalk
  rw [h.keeps.other loc (hlists dir hdir loc hwalk), hnode]

/-- No list is a log in the first world if none is in the second. -/
theorem ReadsNoLog.of_widens (hlists : context.ReadsNoLog base') (h : base.Widens base') :
    context.ReadsNoLog base := by
  intro dir hdir loc hwalk hlogs
  have hwalk' : base'.disk.walk base'.cwd .followLink (Path.join [dir, Dirlist.fileName]) =
      .ok loc := by
    rw [h.cwd]
    rcases h.grows.walk_cases (by decide : LastName.followLink ≠ .mayBeNew) base.cwd
      (Path.join [dir, Dirlist.fileName]) with ⟨-, errno, herror, -⟩ | hsame
    · cases hwalk.symm.trans herror
    · exact hsame.trans hwalk
  exact hlists dir hdir loc hwalk' (h.logs loc hlogs)

section Alike

variable (hwidens : base.Widens base')
  (hmisses : context.MissesAlike base.disk base'.disk base.cwd) (hlists : context.ReadsNoLog base')

include hwidens hmisses hlists

/-- **Every part of locating resources is answered alike.** -/
theorem Part.alike (h : context.Part session) : Alike (Beside base base') session session := by
  intro w w' hbeside
  obtain ⟨hfirst, hsecond, hreported⟩ := hbeside
  have hcwd : w'.cwd = w.cwd := by rw [hsecond.keeps.cwd, hwidens.cwd, hfirst.keeps.cwd]
  cases h with
  | given outcome =>
    rw [runIn_ofExcept, runIn_ofExcept]
    exact ⟨rfl, hfirst, hsecond, hreported⟩
  | here => exact ⟨congrArg Except.ok hcwd.symm, hfirst, hsecond, hreported⟩
  | note note =>
    obtain ⟨_, after, hrun⟩ := (Journal.succeeds_write note).exists_ok w
    obtain ⟨_, after', hrun'⟩ := (Journal.succeeds_write note).exists_ok w'
    refine ⟨by rw [hrun, hrun'], hfirst.trans (Journal.leads_write note w),
      hsecond.trans (Journal.leads_write note w'), ?_⟩
    rw [Journal.preserves_write note w, Journal.preserves_write note w', hreported]
  | @relocate path hpath cwd =>
    have hreal : (w'.disk.probe w'.cwd).realpath path = (w.disk.probe w.cwd).realpath path := by
      rw [hsecond.keeps.cwd, hfirst.keeps.cwd, hsecond.keeps.shape.realpath_eq,
        hfirst.keeps.shape.realpath_eq, hwidens.cwd, hmisses.realpath_eq hwidens.grows hpath]
    rw [Root.runIn_relocated, Root.runIn_relocated]
    refine ⟨?_, hfirst, hsecond, hreported⟩
    simp only [Root.relocated, hreal]
  | @readList dir hdir =>
    have hread : (w'.disk.probe w'.cwd).readText (Path.join [dir, Dirlist.fileName]) =
        (w.disk.probe w.cwd).readText (Path.join [dir, Dirlist.fileName]) := by
      rw [hlists.readText_eq hsecond hdir, (hlists.of_widens hwidens).readText_eq hfirst hdir,
        hwidens.cwd]
      refine hmisses.readText_eq hwidens.grows hdir fun loc node hwalk hnode ↦ ?_
      exact hwidens.other loc node (hlists dir hdir loc (hwidens.cwd ▸ hwalk)) hnode
    rw [runIn_probe_readText, runIn_probe_readText, hread]
    exact ⟨rfl, hfirst, hsecond, hreported⟩
  | @isDirectory piece hpiece =>
    have hdirectory : (w'.disk.probe w'.cwd).isDirectory piece =
        (w.disk.probe w.cwd).isDirectory piece := by
      rw [hsecond.keeps.cwd, hfirst.keeps.cwd, hsecond.keeps.shape.isDirectory_eq,
        hfirst.keeps.shape.isDirectory_eq, hwidens.cwd,
        hmisses.isDirectory_eq hwidens.grows hpiece]
    rw [runIn_probe_isDirectory, runIn_probe_isDirectory, hdirectory]
    exact ⟨rfl, hfirst, hsecond, hreported⟩

/-- **Resources are located alike.** -/
theorem alike_locate : Alike (Beside base base') context.locate context.locate :=
  context.madeOf_locate.alike (Part.alike hwidens hmisses hlists)

end Alike

end Program.Context

/-! ### Looking around -/

section Around

variable (hwidens : base.Widens base') (hbeside : Beside base base' w w')

include hwidens hbeside

theorem World.Beside.cwd_eq : w'.cwd = w.cwd := by
  rw [hbeside.second.keeps.cwd, hwidens.cwd, hbeside.first.keeps.cwd]

theorem World.Beside.colours_eq : w'.hasColours = w.hasColours := by
  rw [hbeside.second.keeps.colours, hwidens.colours, hbeside.first.keeps.colours]

theorem World.Beside.find_eq {dirs : List String} {name : String}
    (hscan : ScansAlike base.disk base'.disk base.cwd dirs (.find name)) :
    Resource.find w'.cwd (w'.disk.probe w'.cwd).isFile name dirs =
      Resource.find w.cwd (w.disk.probe w.cwd).isFile name dirs := by
  rw [hbeside.second.isFile_eq, hbeside.first.isFile_eq, hbeside.cwd_eq hwidens, hwidens.cwd,
    hbeside.first.keeps.cwd]
  exact Resource.find_eq_of_grows hwidens.grows hscan

theorem World.Beside.list_eq {dirs : List String} {extension : Option String}
    (hscan : ScansAlike base.disk base'.disk base.cwd dirs (.list extension)) :
    Resource.list (w'.disk.probe w'.cwd).entries (w'.disk.probe w'.cwd).isFile extension dirs =
      Resource.list (w.disk.probe w.cwd).entries (w.disk.probe w.cwd).isFile extension dirs := by
  rw [hbeside.second.isFile_eq, hbeside.first.isFile_eq, hbeside.second.entries_eq,
    hbeside.first.entries_eq, hwidens.cwd]
  exact Resource.list_eq_of_grows hwidens.grows hscan

end Around

/-! ### Performing a command -/

/-- Two sessions have come to the same and have shown the same. -/
def Session.SameResult {α : Type} (ran ran' : Except Failure α × World) : Prop :=
  ran'.1 = ran.1 ∧ ran'.2.output = ran.2.output

theorem World.Beside.output_eq (h : Beside base base' w w') : w'.output = w.output :=
  output_eq_of_reported_eq h.reported

namespace Session

variable {α : Type} {lines : List String} {code : ExitCode}

theorem Prints.sameResult {session : Session ExitCode} (h : Prints lines session)
    (houtput : w'.output = w.output) : SameResult (runIn session w) (runIn session w') :=
  ⟨(h w').1.trans (h w).1.symm, by rw [(h w').2, (h w).2, houtput]⟩

theorem Gives.sameResult {session : Session ExitCode} (h : Gives code session)
    (hpreserves : Preserves World.output session) (houtput : w'.output = w.output) :
    SameResult (runIn session w) (runIn session w') :=
  ⟨(h w').trans (h w).symm, by rw [hpreserves w', hpreserves w, houtput]⟩

/-- **What goes on alike from what is alike** has the same result. -/
theorem Alike.sameResult_bind {session : Session α} {next : α → Session ExitCode}
    (h : Alike (Beside base base') session session) (hbeside : Beside base base' w w')
    (hnext : ∀ a after after', runIn session w = (.ok a, after) → Beside base base' after after' →
      SameResult (runIn (next a) after) (runIn (next a) after')) :
    SameResult (runIn (session >>= next) w) (runIn (session >>= next) w') := by
  obtain ⟨houtcome, hafter⟩ := h w w' hbeside
  rcases hrun : runIn session w with ⟨outcome, after⟩
  rcases hrun' : runIn session w' with ⟨outcome', after'⟩
  rw [hrun, hrun'] at houtcome hafter
  obtain rfl : outcome = outcome' := houtcome
  cases outcome with
  | ok a =>
    rw [runIn_bind_of_ok hrun, runIn_bind_of_ok hrun']
    exact hnext a after after' hrun hafter
  | error failure =>
    rw [runIn_bind_of_error hrun, runIn_bind_of_error hrun']
    exact ⟨rfl, hafter.output_eq⟩

/-- A question that is answered alike. -/
theorem sameResult_bind_of_question {session session' : Session α} {outcome : Except Failure α}
    {next : α → Session ExitCode} (h : runIn session w = (outcome, w))
    (h' : runIn session' w' = (outcome, w')) (houtput : w'.output = w.output)
    (hnext : ∀ a, SameResult (runIn (next a) w) (runIn (next a) w')) :
    SameResult (runIn (session >>= next) w) (runIn (session' >>= next) w') := by
  cases outcome with
  | ok a =>
    rw [runIn_bind_of_ok h, runIn_bind_of_ok h']
    exact hnext a
  | error failure =>
    rw [runIn_bind_of_error h, runIn_bind_of_error h']
    exact ⟨rfl, houtput⟩

end Session

namespace Program

variable {context : Context} {action : CommandLine.Action}

/-- What a command looks for in one world in vain it looks for in vain in another, and it reads no
list of directories from a log. -/
structure Context.Overlooks (context : Context) (action : CommandLine.Action) (base base' : World) :
    Prop where
  /-- Nothing more is found while the resources are located. -/
  misses : searchesResources action = true →
    context.MissesAlike base.disk base'.disk base.cwd
  /-- No list is a log. -/
  lists : searchesResources action = true → context.ReadsNoLog base'
  /-- Nothing more is found along the search path. -/
  scans : ∀ located, (context.locate.runIn base).1 = .ok located →
    ScansAlike base.disk base'.disk base.cwd located.searchPath action

section Perform

variable (hwidens : base.Widens base') (hbeside : Beside base base' w w')

include hwidens hbeside

/-- The variables are shown alike, whatever stands on the disk. -/
theorem sameResult_showVariables (context : Context) :
    SameResult ((showVariables context).runIn w) ((showVariables context).runIn w') := by
  let Shown (v v' : World) : Prop := v'.hasColours = v.hasColours ∧ v'.output = v.output
  have hstatus : ∀ label value colour, Alike Shown (Console.status label value colour)
      (Console.status label value colour) := by
    rintro label value colour v v' ⟨hcolours, houtput⟩
    refine ⟨rfl, hcolours, ?_⟩
    show v'.output ++ _ = v.output ++ _
    rw [hcolours, houtput]
  have hpure : ∀ {α : Type} (a : α), Alike Shown (pure a) (pure a) := fun _ _ _ h ↦ ⟨rfl, h⟩
  have hlines : MadeOf (fun _ session ↦ Alike Shown session session) (showVariables context) := by
    refine .bind (.forM (.act (hpure ())) fun name ↦ .act ?_) fun _ ↦ .act (hpure _)
    cases context.env.nonempty? name with
    | none => exact hstatus _ _ _
    | some value => exact hstatus _ _ _
  obtain ⟨houtcome, -, houtput⟩ :=
    hlines.alike id w w' ⟨hbeside.colours_eq hwidens, hbeside.output_eq⟩
  exact ⟨houtcome.symm, houtput⟩

/-- What is looked up is found alike. -/
theorem sameResult_findResource {name : String}
    (hlocate : Alike (Beside base base') context.locate context.locate)
    (hscan : ∀ located after, context.locate.runIn w = (.ok located, after) →
      ScansAlike base.disk base'.disk base.cwd located.searchPath (.find name)) :
    SameResult ((findResource context name).runIn w) ((findResource context name).runIn w') := by
  obtain ⟨shown, heq, hsilent, hnone, hshown⟩ := findResource_eq context name
  rw [heq]
  refine hlocate.sameResult_bind hbeside fun located after after' hrun hafter ↦ ?_
  rw [runIn_bind_of_ok (runIn_get after), runIn_bind_of_ok (runIn_get after')]
  have hask := Resource.runIn_find after.cwd name located.searchPath after
  rw [← hafter.find_eq hwidens (hscan located _ hrun)] at hask
  refine sameResult_bind_of_question hask (Resource.runIn_find _ _ _ after') hafter.output_eq
    fun found ↦ ?_
  cases found with
  | none => exact (hnone located).sameResult (hsilent located) hafter.output_eq
  | some resource => exact (hshown located resource).sameResult hafter.output_eq

/-- All that can be seen is listed alike. -/
theorem sameResult_listResources {extension : Option String}
    (hlocate : Alike (Beside base base') context.locate context.locate)
    (hscan : ∀ located after, context.locate.runIn w = (.ok located, after) →
      ScansAlike base.disk base'.disk base.cwd located.searchPath (.list extension)) :
    SameResult ((listResources context extension).runIn w)
      ((listResources context extension).runIn w') := by
  obtain ⟨shown, heq, hshown⟩ := listResources_eq context extension
  rw [heq]
  refine hlocate.sameResult_bind hbeside fun located after after' hrun hafter ↦ ?_
  have hask := Resource.runIn_list located.searchPath extension after
  rw [← hafter.list_eq hwidens (hscan located _ hrun)] at hask
  exact sameResult_bind_of_question hask (Resource.runIn_list _ _ after') hafter.output_eq
    fun resources ↦ (hshown resources).sameResult hafter.output_eq

/-- **A command comes to the same and shows the same.** -/
theorem sameResult_perform (hquery : ∀ args, action ≠ .trace args)
    (hoverlooks : context.Overlooks action base base') (hlogs : base.LogsAt base.LogsIn)
    (hreported : w.reported = base.reported) :
    SameResult ((perform context action).runIn w) ((perform context action).runIn w') := by
  have hlocate : searchesResources action = true →
      Alike (Beside base base') context.locate context.locate := fun hsearches ↦
    Context.alike_locate hwidens (hoverlooks.misses hsearches) (hoverlooks.lists hsearches)
  -- In the first world the resources are located as before any entry was made.
  have hscan : searchesResources action = true → ∀ located after,
      context.locate.runIn w = (.ok located, after) →
      ScansAlike base.disk base'.disk base.cwd located.searchPath action := by
    intro hsearches located after hrun
    have hstart : Beside base base base w :=
      ⟨⟨.refl base, hlogs⟩, hbeside.first, hreported⟩
    obtain ⟨houtcome, -⟩ := Context.alike_locate (.refl base) (.refl context _ _)
      ((hoverlooks.lists hsearches).of_widens hwidens) base w hstart
    exact hoverlooks.scans located (by rw [houtcome, hrun])
  cases action with
  | root =>
    obtain ⟨shown, heq, hshown⟩ := showRoot_eq context
    rw [perform, heq]
    exact (hlocate rfl).sameResult_bind hbeside fun located after after' _ hafter ↦
      (hshown located).sameResult hafter.output_eq
  | path withLayers =>
    obtain ⟨shown, heq, hshown⟩ := showPath_eq context withLayers
    rw [perform, heq]
    exact (hlocate rfl).sameResult_bind hbeside fun located after after' _ hafter ↦
      (hshown located).sameResult hafter.output_eq
  | find name => exact sameResult_findResource hwidens hbeside (hlocate rfl) (hscan rfl)
  | list extension => exact sameResult_listResources hwidens hbeside (hlocate rfl) (hscan rfl)
  | env => exact sameResult_showVariables hwidens hbeside context
  | trace args => exact absurd rfl (hquery args)

end Perform

end Program

end ResourceLocator
