import ResourceLocator.Proofs.Config.Precedence
import ResourceLocator.Proofs.Config.Sound
import ResourceLocator.Proofs.Tool.EnvName

/-!
# The prefix of the variables of a tool

The prefix comes from the sources or from the package (`HasPrefix`). One that is given has been
checked, and so it makes well-formed names of variables. One that comes from the package has not: it
starts with a digit if no letter comes before the first digit of the package, and it is empty if
there is neither. In the first case no name of a variable is well-formed (`loaded_with_digit`).
-/

namespace ResourceLocator

variable {disk : FileSystem} {cwd home dir : String} {env : Environment} {config : Config}
  {tool : Tool}

namespace Tool

open EnvName

/-- What the names of the variables of a tool end in. -/
def variableSuffixes : List String := ["_UNINSTALLED", "_LIBDIR", "_EXTRA_INCLUDES"]

/-- The variables that the users of a tool may set. -/
def variableNames (tool : Tool) : List String :=
  [tool.uninstalledVariable, tool.libdirVariable, tool.extraVariable]

theorem variableNames_eq (tool : Tool) :
    tool.variableNames = variableSuffixes.map (tool.envPrefix ++ ·) := rfl

theorem isWellFormed_of_mem_variableSuffixes :
    ∀ suffix ∈ variableSuffixes, isWellFormed suffix = true := by decide

theorem isWellFormed_of_mem_variableNames (h : isWellFormed tool.envPrefix = true) :
    ∀ name ∈ tool.variableNames, isWellFormed name = true := by
  intro name hname
  rw [variableNames_eq] at hname
  obtain ⟨suffix, hsuffix, rfl⟩ := List.mem_map.1 hname
  exact isWellFormed_append h (isWellFormed_of_mem_variableSuffixes suffix hsuffix)

/-- With the prefix of the package, the names of variables are well-formed unless a digit is the
first letter or digit of the package. -/
theorem isWellFormed_variableNames_iff (h : tool.envPrefix = defaultPrefix tool.package) :
    ∀ name ∈ tool.variableNames, isWellFormed name = true ↔
      ∀ c ∈ tool.package.toList.find? isAlphanumeric, c.isAlpha = true := by
  intro name hname
  rw [variableNames_eq, h] at hname
  obtain ⟨suffix, hsuffix, rfl⟩ := List.mem_map.1 hname
  exact isWellFormed_segment_append_iff (isWellFormed_of_mem_variableSuffixes suffix hsuffix)

end Tool

namespace Config

open ConfigFile EnvName Override

/-- Where the prefix of a tool comes from, and what this means for the names of its variables. -/
inductive HasPrefix (env : Environment) (lower upper : Fields) (tool : Tool) : Prop where
  /-- It counts in the sources. -/
  | given (hgiven : picked env lower upper "env_prefix" = some (.text tool.envPrefix))
    (hform : isWellFormed tool.envPrefix = true)
    (hnames : ∀ name ∈ tool.variableNames, isWellFormed name = true)
  /-- It comes from the package. -/
  | derived (habsent : (picked env lower upper "env_prefix").getD .undefined = .undefined)
    (hderived : tool.envPrefix = Tool.defaultPrefix tool.package)
    (hform : isWellFormed tool.envPrefix = true ↔
      ∃ c ∈ tool.package.toList.find? isAlphanumeric, c.isAlpha = true)
    (hnames : ∀ name ∈ tool.variableNames, isWellFormed name = true ↔
      ∀ c ∈ tool.package.toList.find? isAlphanumeric, c.isAlpha = true)

/-- **The prefix of a configuration that is loaded** is given and well-formed, with all names of
variables; or it comes from the package, and is well-formed if the first letter or digit there is a
letter. -/
theorem hasPrefix_of_ofDisk (h : ofDisk disk cwd home dir env = .ok config) :
    ∃ lower upper, read disk cwd (globalPath home env) = .ok lower ∧
      read disk cwd (projectPath cwd dir) = .ok upper ∧
      HasPrefix env lower upper config.tool := by
  obtain ⟨lower, upper, fields, hlower, hupper, -, -, -, haccepts, halike, hconfig⟩ :=
    exists_sources h
  refine ⟨lower, upper, hlower, hupper, ?_⟩
  have hreads : Reads .text (picked env lower upper "env_prefix") (ofFields fields).envPrefix :=
    reads_picked (form_reading _ _) haccepts halike (.tail _ (.tail _ (.head _))) (by decide)
  obtain ⟨package, apiVersion, -, -, rfl⟩ := ofFile_eq_ok_iff.1 hconfig
  cases hform : (ofFields fields).envPrefix with
  | some s =>
    have hwellFormed := isWellFormed_of_envPrefix haccepts hform
    exact .given (hreads.eq_some hform) hwellFormed
      (Tool.isWellFormed_of_mem_variableNames hwellFormed)
  | none =>
    exact .derived (hreads.getD_eq_undefined hform) rfl isWellFormed_segment_iff
      (Tool.isWellFormed_variableNames_iff rfl)

/-- The prefix of a package that starts with a letter, where no file is there. -/
theorem hasPrefix_of_two_variables :
    ofDisk .empty "/" "/home" "/p" twoVariables = .ok ofTwoVariables ∧
      ∃ lower upper, read .empty "/" (globalPath "/home" twoVariables) = .ok lower ∧
        read .empty "/" (projectPath "/" "/p") = .ok upper ∧
        HasPrefix twoVariables lower upper ofTwoVariables.tool :=
  ⟨ofDisk_twoVariables, hasPrefix_of_ofDisk ofDisk_twoVariables⟩

/-- An environment that gives a package that starts with a digit. -/
def withDigit : Environment :=
  .ofList [("RELOC_PACKAGE", "7zip"), ("RELOC_API_VERSION", "1")]

/-- A package that starts with a digit is loaded, with a prefix that is not well-formed, and so are
the names of its variables. -/
theorem loaded_with_digit :
    ofDisk .empty "/" "/home" "/p" withDigit =
        .ok { ofTwoVariables with tool := ⟨"7zip", "1", "7ZIP"⟩ } ∧
      isWellFormed "7ZIP" = false ∧
      ∀ name ∈ (Tool.mk "7zip" "1" "7ZIP").variableNames, isWellFormed name = false := by
  have hlower := readValid_of_not_there (not_isThere_home withDigit rfl)
  have hupper := readValid_of_not_there not_isThere_project
  refine ⟨?_, by decide, by decide⟩
  rw [ofDisk, mergedFields_of_accepted hlower hupper]
  rfl

end Config

end ResourceLocator
