import BaseLang.Path

/-!
# Artifacts

* `Artifact` : the five kinds of file derived from a language definition, in the order in which they
  are listed and checked;
* `Artifacts` : where those of one language are.
-/

namespace BaseLang

/-- The kinds of file derived from a language definition. -/
inductive Artifact where
  | grammar
  | transformation
  | editorServices
  | packagedGrammar
  | prettyTable
  deriving DecidableEq

namespace Artifact

def extension : Artifact → String
  | grammar => "sdf"
  | transformation => "str"
  | editorServices => "serv"
  | packagedGrammar => "def"
  | prettyTable => "pp"

def all : List Artifact := [grammar, transformation, editorServices, packagedGrammar, prettyTable]

theorem mem_all (a : Artifact) : a ∈ all := by cases a <;> decide

end Artifact

/-- The artifacts of one language in one directory. -/
structure Artifacts where
  dir : Path
  language : String
  deriving DecidableEq

namespace Artifacts

def path (as : Artifacts) (a : Artifact) : Path := as.dir.file (as.language ++ "." ++ a.extension)

def paths (as : Artifacts) : List Path := Artifact.all.map as.path

end Artifacts

end BaseLang
