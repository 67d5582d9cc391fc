import ResourceLocator.Config.Basic
import ResourceLocator.Locate.Dirlist
import ResourceLocator.Locate.Extra
import ResourceLocator.Locate.Root
import ResourceLocator.Locate.SearchPath

/-!
# Locating the resources of a tool

The search path has four layers: the directories that the user asks for, those of the root,
those of the system with the lists they hold, and those that the environment adds. A question
about one of the last that fails makes an entry in the debug log and leaves the directory out;
any other failure ends the search.
-/

namespace ResourceLocator

/-- What locating asks of its surroundings. -/
structure Host (m : Type → Type) where
  /-- The working directory. -/
  cwd : String
  /-- The environment. -/
  env : Environment
  /-- The path of the executable. -/
  executable : m String
  /-- The file system. -/
  probe : Probe m
  /-- Makes an entry of the debug log. -/
  note : Note → m Unit

/-- Where the resources of a tool are. -/
structure Located where
  /-- The root of the resources. -/
  root : Root
  /-- The directories of each layer. -/
  layers : Layers
  deriving DecidableEq, Repr

namespace Located

/-- The search path. -/
def searchPath (located : Located) : List String := located.layers.searchPath

/-- The entry made when the search begins. -/
def startNote (config : Config) (userIncludes : List String) : Note :=
  ⟨.debug, "resources", "Locating resources",
    [("tool", config.tool.toValue), ("userIncludes", Value.ofTexts userIncludes)]⟩

/-- The entry made for a directory that is left out. -/
def droppedNote (path reason : String) : Note :=
  ⟨.debug, "resources", "Dropping extra include",
    [("path", .text path), ("reason", .text reason)]⟩

/-- The entry made when the search path is complete. -/
def builtNote (located : Located) : Note :=
  ⟨.debug, "resources", "Search path built",
    [("source", .text located.root.source.name),
      ("searchPath", Value.ofTexts located.searchPath)]⟩

end Located

variable {m : Type → Type} [Monad m] [MonadExceptOf Failure m]

/-- Whether a path that the environment adds is a directory; a question that fails counts as
no. -/
def Host.isUsable (host : Host m) (path : String) : m Bool :=
  tryCatch (host.probe.isDirectory path) fun failure ↦ do
    let reason ← Root.lift failure.message
    host.note (Located.droppedNote path reason)
    return false

/-- What the search for the root goes by. -/
def Host.rootContext (host : Host m) (config : Config) : RootContext m where
  cwd := host.cwd
  env := host.env
  tool := config.tool
  offset := config.resourceOffset
  developmentDirs := config.developmentDirs
  executable := host.executable
  realpath := host.probe.realpath
  note := host.note

/-- Locates the resources of the configured tool. -/
def Host.locate (host : Host m) (config : Config) (userIncludes : List String) : m Located := do
  host.note (Located.startNote config userIncludes)
  let root ← Root.resolve (host.rootContext config) RootSource.all
  let system ← Dirlist.expand host.cwd host.probe.readText config.systemDirs
  let extra ← Extra.parse host.isUsable (host.env config.tool.extraVariable)
  let located : Located := ⟨root, ⟨userIncludes ++ config.includes, root.dirs, system, extra⟩⟩
  host.note located.builtNote
  return located

end ResourceLocator
