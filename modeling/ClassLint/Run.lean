import ClassLint.Config.Document
import ClassLint.Files.Walk
import ClassLint.Output
import ClassLint.Report.JsonText

/-!
# Runs in a file tree

A file tree makes surroundings: it has the files and the rules that a walk goes by, and the
documents in it are TOML.
-/

namespace ClassLint

/-- What a run in a file tree takes as given. -/
def FileTree.surroundings (tree : FileTree) : Surroundings where
  walk := tree.walk
  readText := tree.readText
  isFile := tree.isFile
  pattern := Glob.userPattern
  patternsFault? := Glob.userPatternsFault?
  document? := Toml.parseConfig
  jsonText := JsonValue.pretty

/-- A file tree stands for the surroundings that it makes. -/
instance : Coe FileTree Surroundings := ⟨FileTree.surroundings⟩

end ClassLint
