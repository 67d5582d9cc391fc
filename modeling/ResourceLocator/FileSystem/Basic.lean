import ResourceLocator.Path
import ResourceLocator.Text.Units

/-!
# File systems

A file system says what stands at each location: a directory, a file with its text, or a
symbolic link with its target. A directory or a file may be *locked*: nothing can be looked up
in a locked directory, and a locked file cannot be opened, while both can still be examined.

The root is always a directory. `FileSystem.node?` is the view of a file system; `set` changes
it at one location and nowhere else (`node?_set_self`, `node?_set_of_ne`).
-/

namespace ResourceLocator

/-- What stands at a location. -/
inductive Node where
  /-- A directory. -/
  | directory (locked : Bool)
  /-- A file with its text. -/
  | file (text : String) (locked : Bool)
  /-- A symbolic link. -/
  | link (target : String)
  deriving DecidableEq, Repr

/-- A file system, as the nodes at its locations. -/
structure FileSystem where
  /-- The nodes; the first entry of a location counts. -/
  nodes : List (Location × Node)

namespace FileSystem

/-- The file system that holds the root alone. -/
def empty : FileSystem := ⟨[]⟩

/-- The node at a location. -/
def node? (fs : FileSystem) (loc : Location) : Option Node :=
  match fs.nodes.find? (·.1 == loc) with
  | some (_, node) => some node
  | none => if loc = [] then some (.directory false) else none

/-- Puts a node at a location, in place of the one there. -/
def set (fs : FileSystem) (loc : Location) (node : Node) : FileSystem :=
  ⟨(loc, node) :: fs.nodes.filter (·.1 ≠ loc)⟩

/-- Takes away what stands at a location and below it. -/
def remove (fs : FileSystem) (loc : Location) : FileSystem :=
  ⟨fs.nodes.filter fun entry ↦ !loc.isPrefixOf entry.1⟩

/-- The names of the nodes directly below a location, in the order of their units. -/
def childNames (fs : FileSystem) (loc : Location) : List String :=
  Text.sortNames (fs.nodes.filterMap fun entry ↦
    if entry.1.dropLast = loc then entry.1.getLast? else none)

/-- Makes every location on the way to `loc`, itself included, a directory where nothing
stands. -/
def makeDirectories (fs : FileSystem) (loc : Location) : FileSystem :=
  (List.range (loc.length + 1)).foldl (fun fs n ↦
    if (fs.node? (loc.take n)).isNone then fs.set (loc.take n) (.directory false) else fs) fs

@[simp]
theorem node?_set_self (fs : FileSystem) (loc : Location) (node : Node) :
    (fs.set loc node).node? loc = some node := by
  simp [node?, set]

theorem find?_filter_ne (nodes : List (Location × Node)) {loc other : Location}
    (h : other ≠ loc) :
    (nodes.filter (·.1 ≠ loc)).find? (·.1 == other) = nodes.find? (·.1 == other) := by
  rw [List.find?_filter]
  congr 1
  funext entry
  by_cases ho : entry.1 = other <;> simp [ho, h]

theorem node?_set_of_ne (fs : FileSystem) {loc other : Location} (node : Node)
    (h : other ≠ loc) : (fs.set loc node).node? other = fs.node? other := by
  have hne : (loc == other) = false := by simp [Ne.symm h]
  simp only [node?, set, List.find?_cons, hne, find?_filter_ne fs.nodes h]

end FileSystem

end ResourceLocator
