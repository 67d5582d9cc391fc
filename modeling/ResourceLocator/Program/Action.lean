import ResourceLocator.Locate.Resource
import ResourceLocator.Program.Context
import ResourceLocator.Trace.Run

/-!
# What the commands do

Each command writes its result to the standard output, one item to a line, and answers with an
exit code.
-/

namespace ResourceLocator.Program

/-- Shows the directories of the root. -/
def showRoot (context : Context) : Session ExitCode := do
  let located ← context.locate
  Console.log .debug ("Resource root source: " ++ located.root.source.name)
  if located.root.dirs.isEmpty then
    Console.log .warn "Uninstalled mode is active but no development_dirs are configured"
  located.root.dirs.forM Console.output
  return .success

/-- Shows the search path. -/
def showPath (context : Context) (withLayers : Bool) : Session ExitCode := do
  let located ← context.locate
  if withLayers then
    located.layers.labelled.forM fun (layer, dir) ↦ Console.output (layer.name ++ "\t" ++ dir)
  else
    located.searchPath.forM Console.output
  return .success

/-- Looks a resource up. -/
def findResource (context : Context) (name : String) : Session ExitCode := do
  let searchPath := (← context.locate).searchPath
  match ← Resource.find (← get).cwd Session.probe.isFile name searchPath with
  | some resource =>
    Console.output resource.path
    return .success
  | none =>
    Console.log .error ("Resource not found: " ++ name ++ " (searched " ++
      toString searchPath.length ++ " directories)")
    return .notFound

/-- Shows all resources. -/
def listResources (context : Context) (extension : Option String) : Session ExitCode := do
  let searchPath := (← context.locate).searchPath
  let resources ←
    Resource.list Session.probe.entries Session.probe.isFile extension searchPath
  if resources.isEmpty then
    Console.log .info "No resources found"
  resources.forM fun resource ↦ Console.output resource.path
  return .success

/-- The variables that concern the configured tool. -/
def variableNames (config : Config) : List String :=
  [config.tool.libdirVariable, config.tool.uninstalledVariable, config.tool.extraVariable] ++
    config.traceTool.toList.map (·.variableName)

/-- Shows the variables of the tool. -/
def showVariables (context : Context) : Session ExitCode := do
  (variableNames context.config).forM fun name ↦
    match context.env.nonempty? name with
    | some value => Console.status name value .green
    | none => Console.status name "(unset)"
  return .success

/-- Runs the trace tool. -/
def trace (context : Context) (args : List String) : Session ExitCode := do
  match context.config.traceTool with
  | none =>
    Console.log .error "No trace_tool configured"
    return .config
  | some tool =>
    let command := tool.command context.env
    Console.log .debug ("Trace command (" ++ command.source.name ++ "): " ++ command.line)
    let result ← command.run args context.directory
    Session.print result.output
    return .success

/-- Does what a command is asked to do. -/
def perform (context : Context) : CommandLine.Action → Session ExitCode
  | .root => showRoot context
  | .path withLayers => showPath context withLayers
  | .find name => findResource context name
  | .list extension => listResources context extension
  | .env => showVariables context
  | .trace args => trace context args

end ResourceLocator.Program
