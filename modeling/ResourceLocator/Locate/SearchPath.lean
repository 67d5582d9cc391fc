/-!
# Search paths

A search path is a list of directories, of which the first has the highest priority. It is made
of four layers, in the order of `Layer.all`.
-/

namespace ResourceLocator

/-- A layer of a search path. -/
inductive Layer where
  /-- What the user asks for. -/
  | user
  /-- The resources of the tool itself. -/
  | bundled
  /-- The resources of the system. -/
  | system
  /-- What the environment adds. -/
  | extra
  deriving DecidableEq, Repr

namespace Layer

/-- The layers, the one of the highest priority first. -/
def all : List Layer := [.user, .bundled, .system, .extra]

/-- The name of a layer. -/
def name : Layer → String
  | .user => "user"
  | .bundled => "bundled"
  | .system => "system"
  | .extra => "extra"

end Layer

/-- The directories of each layer. -/
structure Layers where
  /-- The directories that the user asks for. -/
  user : List String
  /-- The directories of the resources of the tool. -/
  bundled : List String
  /-- The directories of the system. -/
  system : List String
  /-- The directories that the environment adds. -/
  extra : List String
  deriving DecidableEq, Repr

namespace Layers

/-- The directories of a layer. -/
def dirs (layers : Layers) : Layer → List String
  | .user => layers.user
  | .bundled => layers.bundled
  | .system => layers.system
  | .extra => layers.extra

/-- The search path of the layers. -/
def searchPath (layers : Layers) : List String :=
  Layer.all.flatMap layers.dirs

/-- The directories of the search path, each with its layer. -/
def labelled (layers : Layers) : List (Layer × String) :=
  Layer.all.flatMap fun layer ↦ (layers.dirs layer).map (layer, ·)

theorem searchPath_eq (layers : Layers) :
    layers.searchPath = layers.user ++ layers.bundled ++ layers.system ++ layers.extra := by
  simp [searchPath, Layer.all, dirs]

/-- The labels add nothing to the search path and change nothing in it. -/
theorem labelled_map_snd (layers : Layers) :
    layers.labelled.map (·.2) = layers.searchPath := by
  simp [labelled, searchPath, Layer.all, Function.comp_def]

end Layers

end ResourceLocator
