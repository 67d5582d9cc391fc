import ResourceLocator.Failure
import ResourceLocator.Log.Note
import ResourceLocator.Path
import ResourceLocator.Session
import ResourceLocator.Tool.Basic

/-!
# The root of the resources

The resources of a tool are found in one of three ways, tried in the order of `RootSource.all`:
a variable names their directory, a variable says that the tool is not installed and they are
in the development directories, or they stand at a fixed offset from the executable, wherever
that has been moved to. The last way asks for the executable and can fail; the others cannot.
-/

namespace ResourceLocator

/-- A way of finding the resources of a tool. -/
inductive RootSource where
  /-- The directory that a variable names. -/
  | libdir
  /-- The development directories. -/
  | uninstalled
  /-- The directory at an offset from the executable. -/
  | relocatable
  deriving DecidableEq, Repr

namespace RootSource

/-- The ways, in the order in which they are tried. -/
def all : List RootSource := [.libdir, .uninstalled, .relocatable]

/-- The name of a way. -/
def name : RootSource → String
  | .libdir => "libdir"
  | .uninstalled => "uninstalled"
  | .relocatable => "relocatable"

/-- The way of a name. -/
def ofName? (s : String) : Option RootSource := all.find? (·.name == s)

end RootSource

/-- The directories of the resources of a tool, and how they were found. -/
structure Root where
  /-- How they were found. -/
  source : RootSource
  /-- The directories. -/
  dirs : List String
  deriving DecidableEq, Repr

/-- What the search for a root goes by. -/
structure RootContext (m : Type → Type) where
  /-- The working directory, for canonical paths that are not absolute. -/
  cwd : String
  /-- The environment. -/
  env : Environment
  /-- The tool. -/
  tool : Tool
  /-- The way from the directory of the executable to the resources. -/
  offset : String
  /-- The development directories. -/
  developmentDirs : List String
  /-- The path of the executable. -/
  executable : m String
  /-- The absolute path without links of what a path leads to. -/
  realpath : String → m String
  /-- Makes an entry of the debug log. -/
  note : Note → m Unit

namespace Root

variable {m : Type → Type} [Monad m] [MonadExceptOf Failure m]

/-- The outcome of a computation without effects. -/
def lift {α : Type} : Except Failure α → m α
  | .ok a => pure a
  | .error failure => throw failure

/-- The directory of resources at an offset from the executable, whose links are followed
first. -/
def relocated (cwd : String) (realpath : String → m String) (tool : Tool)
    (offset executable : String) : m String := do
  if !Path.isAbsolute executable then
    throw (.startup (.relativePath executable))
  let canonical ← tryCatch (realpath executable) fun failure ↦ do
    let reason ← lift failure.message
    throw (.startup (.notCanonical executable reason))
  return Path.resolve cwd [Path.dirname canonical, offset, tool.resourceName]

/-- The root that a way gives, if it applies. -/
def ofSource? (context : RootContext m) : RootSource → m (Option Root)
  | .libdir =>
    return (context.env.nonempty? context.tool.libdirVariable).map fun dir ↦ ⟨.libdir, [dir]⟩
  | .uninstalled =>
    return (context.env.nonempty? context.tool.uninstalledVariable).map fun _ ↦
      ⟨.uninstalled, context.developmentDirs⟩
  | .relocatable => do
    let executable ← context.executable
    let dir ← relocated context.cwd context.realpath context.tool context.offset executable
    return some ⟨.relocatable, [dir]⟩

/-- The entry that a root which has been found makes. -/
def foundNote (root : Root) : Note :=
  ⟨.debug, "root-chain", "Resource root resolved",
    [("source", .text root.source.name), ("dirs", Value.ofTexts root.dirs)]⟩

/-- The root that the first applicable way gives. -/
def resolve (context : RootContext m) : List RootSource → m Root
  | [] => throw (.startup .noStrategy)
  | source :: rest => do
    match ← ofSource? context source with
    | some root =>
      context.note root.foundNote
      return root
    | none => resolve context rest

end Root

end ResourceLocator
