import ResourceLocator.Log.Journal
import ResourceLocator.Tool.Basic

/-!
# Configurations

A configuration says which tool resources are located for and how. It is made of the global
file, the project file and the environment by `Config.load`.
-/

namespace ResourceLocator

/-- The companion tool that traces. -/
structure TraceTool where
  /-- The variable that may hold another command for it. -/
  variableName : String
  /-- Its program, which the launcher finds. -/
  companion : String
  deriving DecidableEq, Repr

/-- A configuration. -/
structure Config where
  /-- The tool. -/
  tool : Tool
  /-- The way from the directory of the executable to the resources. -/
  resourceOffset : String
  /-- Directories of the user layer. -/
  includes : List String
  /-- Directories of the system layer. -/
  systemDirs : List String
  /-- Where the resources are while the tool is not installed. -/
  developmentDirs : List String
  /-- The companion tool, if there is one. -/
  traceTool : Option TraceTool
  /-- The threshold of the console log. -/
  logLevel : Level
  /-- How the debug log is kept, if anything says so. -/
  debug : Option JournalConfig
  /-- Whether everything is logged and shown. -/
  verbose : Bool
  deriving DecidableEq, Repr

end ResourceLocator
