import ResourceLocator.Tool.EnvName
import ResourceLocator.Value.Basic

/-!
# Tools

A tool is what resources belong to. Its name and version name the directory of its bundled
resources, and its prefix starts the names of the three variables that its users may set.
-/

namespace ResourceLocator

/-- A tool with bundled resources. -/
structure Tool where
  /-- The name of its package. -/
  package : String
  /-- The version of its interface. -/
  apiVersion : String
  /-- What the names of its variables start with. -/
  envPrefix : String
  deriving DecidableEq, Repr

namespace Tool

/-- The prefix of a package that has not been given one. -/
def defaultPrefix (package : String) : String := EnvName.segment package

/-- The name of the directory of bundled resources. -/
def resourceName (tool : Tool) : String := tool.package ++ "-" ++ tool.apiVersion

/-- The variable that, when set, takes the resources from the development directories. -/
def uninstalledVariable (tool : Tool) : String := tool.envPrefix ++ "_UNINSTALLED"

/-- The variable that names the directory of bundled resources. -/
def libdirVariable (tool : Tool) : String := tool.envPrefix ++ "_LIBDIR"

/-- The variable that adds directories at the end of the search path. -/
def extraVariable (tool : Tool) : String := tool.envPrefix ++ "_EXTRA_INCLUDES"

/-- A tool as a field of an entry of the debug log. -/
def toValue (tool : Tool) : Value :=
  .record [("packageName", .text tool.package), ("apiVersion", .text tool.apiVersion),
    ("envPrefix", .text tool.envPrefix)]

end Tool

end ResourceLocator
