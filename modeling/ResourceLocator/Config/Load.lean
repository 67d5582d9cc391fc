import ResourceLocator.Config.File
import ResourceLocator.Config.Location
import ResourceLocator.Config.Override

/-!
# Loading a configuration

The keys of the project file stand over those of the global file, section by section, and the
overrides of the environment over both. Each file is validated by itself and the whole once
more. Directories are read from the directory of the project.
-/

namespace ResourceLocator.Config

/-- The way from the executable to the resources, unless another is given. -/
def defaultOffset : String := "../res"

/-- The failure that a required key is nowhere set. -/
def missing (key : String) : Failure :=
  .config (.missingKey key (EnvName.ofKey key)) none

/-- The configuration that a file gives together with the defaults. -/
def ofFile (cwd dir : String) (file : ConfigFile) : Except Failure Config := do
  let some package := file.package | throw (missing "package")
  let some apiVersion := file.apiVersion | throw (missing "api_version")
  let resolveAll := fun (dirs : Option (List String)) ↦
    (dirs.getD []).map fun d ↦ Path.resolve cwd [dir, d]
  return {
    tool := ⟨package, apiVersion, file.envPrefix.getD (Tool.defaultPrefix package)⟩
    resourceOffset := file.resourceOffset.getD defaultOffset
    includes := resolveAll file.includes
    systemDirs := resolveAll file.systemDirs
    developmentDirs := resolveAll file.developmentDirs
    traceTool := file.traceTool
    logLevel := file.logLevel.getD .info
    debug := file.debug.map fun d ↦ ⟨d.enabled.getD false, d.logFile⟩
    verbose := file.verbose.getD false }

/-- The accepted fields of a configuration file. -/
def readValid (disk : FileSystem) (cwd path : String) : Except Failure Fields := do
  ConfigFile.validate (← ConfigFile.read disk cwd path) path

/-- The accepted fields of the files and the environment together. -/
def mergedFields (disk : FileSystem) (cwd home dir : String) (env : Environment) :
    Except Failure Fields := do
  let lower ← readValid disk cwd (globalPath home env)
  let upper ← readValid disk cwd (projectPath cwd dir)
  let outcome := Override.apply env (Fields.merge lower upper)
  match outcome.failure? with
  | some failure => throw failure
  | none => ConfigFile.validate outcome.fields Override.source

/-- The configuration of a project, as the disk and the environment have it. -/
def ofDisk (disk : FileSystem) (cwd home dir : String) (env : Environment) :
    Except Failure Config := do
  ofFile cwd dir (ConfigFile.ofFields (← mergedFields disk cwd home dir env))

/-- The entry that loading makes. -/
def loadedNote (globalPath projectPath : String) (config : Config) : Note :=
  ⟨.debug, "config", "Config loaded",
    [("globalPath", .text globalPath), ("projectPath", .text projectPath),
      ("tool", config.tool.toValue)]⟩

/-- Loads the configuration of a project. -/
def load (dir : String) (env : Environment) : Session Config := do
  let w ← get
  let config ← Session.ofExcept (ofDisk w.disk w.cwd w.home dir env)
  Journal.write (loadedNote (globalPath w.home env) (projectPath w.cwd dir) config)
  return config

end ResourceLocator.Config
