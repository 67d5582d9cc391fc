import ResourceLocator.Config.Basic
import ResourceLocator.Path

/-!
# Where configurations are

The global configuration is in a directory of its own, which a variable may name, and that of a
project in a directory of the project.
-/

namespace ResourceLocator.Config

/-- The name of a configuration file. -/
def fileName : String := "config.yaml"

/-- The variable that names the directory of the global configuration. -/
def directoryVariable : String := "RELOC_CONFIG_DIR"

/-- The directory of the global configuration. -/
def globalDir (home : String) (env : Environment) : String :=
  (env.nonempty? directoryVariable).getD (Path.join [home, configDirectoryName])

/-- The file of the global configuration. -/
def globalPath (home : String) (env : Environment) : String :=
  Path.join [globalDir home env, fileName]

/-- The directory of the configuration of a project. -/
def projectDir (cwd dir : String) : String :=
  Path.join [Path.resolve cwd [dir], configDirectoryName]

/-- The file of the configuration of a project. -/
def projectPath (cwd dir : String) : String :=
  Path.join [projectDir cwd dir, fileName]

end ResourceLocator.Config
