import ClassLint.Config
import ClassLint.Report.Json

/-!
# Surroundings

What a run takes as given: the files that are there, which paths a written pattern matches, the
configuration that a document holds, and how a report is written as JSON.  A run is a function of
its surroundings, and what is said about runs is said for all surroundings.

Where more has to be known about them, they are lawful: a walk reaches each file by one path only,
patterns that are usable one by one are usable together, and the text of a JSON value stands for
no other value.
-/

namespace ClassLint

/-- What a run takes as given. -/
structure Surroundings where
  /-- The paths of the files that a walk from a root reaches, in the order of the walk; it may go by
  the rules of version control. -/
  walk : (root : Text) → (useGitRules : Bool) → List Text
  /-- The text of the file at a path. -/
  readText : (path : Text) → Except AccessError Text
  /-- Whether a path leads to a file. -/
  isFile : (path : Text) → Bool
  /-- Which paths a written pattern matches, or what is wrong with the pattern. -/
  pattern : (written : Text) → Except Text (Text → Bool)
  /-- What is wrong with using some written patterns together, each of them well-formed. -/
  patternsFault? : (written : List Text) → Option Text
  /-- The configuration that the text of a document holds. -/
  document? : (text : Text) → Option Config
  /-- The text of a JSON value. -/
  jsonText : JsonValue → Text

namespace Surroundings

/-- Whether a written pattern is well-formed and can be used. -/
def isUsable (s : Surroundings) (written : Text) : Bool :=
  (s.pattern written).isOk && (s.patternsFault? [written]).isNone

/-- What a run may rely on. -/
structure Lawful (s : Surroundings) : Prop where
  /-- A walk does not reach a file by two paths. -/
  path_eq_of_mem_walk :
    ∀ root useGitRules, ∀ a ∈ s.walk root useGitRules, ∀ b ∈ s.walk root useGitRules,
      a.pathNames = b.pathNames → a = b
  /-- Patterns that are usable one by one are usable together. -/
  patternsFault?_eq_none :
    ∀ written, (∀ pattern ∈ written, s.isUsable pattern = true) →
      s.patternsFault? written = none
  /-- The text of a JSON value stands for no other value. -/
  jsonText_injective :
    ∀ v w, s.jsonText v = s.jsonText w → v = w

end Surroundings

end ClassLint
