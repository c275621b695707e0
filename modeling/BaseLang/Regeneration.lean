import BaseLang.Configuration
import BaseLang.Module.Augmentation
import BaseLang.Plugin
import BaseLang.Profile.Extraction
import BaseLang.Toolchain

/-!
# Regeneration

Bringing the artifacts of a language definition up to date.

* `Event`, `Run` : the services that a run has called and the artifacts that it has written, and its files;
* `Regeneration.transformation`, `Regeneration.grammar`, `Regeneration.derived` : the two modules in their
  canonical form, and what follows from the grammar;
* `Regeneration.regenerate`, `Regeneration.reload` : the profile of a language, from its definition or
  from artifacts that are fresh;
* `Plugin.process` : either of them, as the freshness of the artifacts asks for.
-/

namespace BaseLang

/-- A call to a service, or an artifact that has been written. -/
inductive Event where
  | generate (definition : Path) (language : String) (out : Path)
  | parse (table : String) (file : Path) (startSymbol : String)
  | print (kind : ModuleKind)
  | normalize
  | prettyTable
  | written (artifact : Artifact)
  deriving DecidableEq

/-- The files that a run works on, and what it has done so far. -/
structure Run where
  files : FileSystem
  events : List Event

abbrev Step (α : Type) := Action Run ProcessError α

namespace Step

/-- Puts down what is being done. -/
def record (e : Event) : Step Unit := .modify fun r => { r with events := r.events ++ [e] }

def onFiles {α : Type} (a : Disk ProcessError α) : Step α :=
  Action.within Run.files (fun files r => { r with files }) a

def look {α : Type} (f : FileSystem → Except ProcessError α) : Step α := .query fun r => f r.files

/-- A rewritten module. One that cannot be rewritten has been generated wrongly. -/
def ofShape {α : Type} (x : Except ShapeError α) : Step α :=
  .ofExcept (x.mapError fun e => .implementation (.shape e))

def write (artifacts : Artifacts) (a : Artifact) (text : String) : Step Unit := do
  onFiles ((Disk.write (artifacts.path a) text).mapFailure (.ofOs (.write (artifacts.path a))))
  record (.written a)

end Step

/-- What one run needs to know: its services and settings, and the language that it is about. -/
structure Regeneration where
  toolchain : Toolchain
  configuration : Configuration
  definition : Path
  language : String
  artifacts : Artifacts

namespace Regeneration

def generate (r : Regeneration) : Step Generated := do
  Step.record (.generate r.definition r.language r.artifacts.dir)
  Step.onFiles (r.toolchain.generate r.definition r.language r.artifacts.dir)

def table (r : Regeneration) : ModuleKind → String
  | .grammar => r.configuration.tables.grammar
  | .transformation => r.configuration.tables.transformation

/-- The module that a kind of module is made to import. -/
def canonical (r : Regeneration) : ModuleKind → String
  | .grammar => r.configuration.canonical.grammar
  | .transformation => r.configuration.canonical.transformation

def parse (r : Regeneration) (kind : ModuleKind) (file : Path) : Step Term := do
  Step.record (.parse (r.table kind) file kind.startSymbol)
  Step.look (r.toolchain.parse (r.table kind) file kind.startSymbol)

def print (r : Regeneration) (kind : ModuleKind) (module : Term) : Step String := do
  Step.record (.print kind)
  .ofExcept (r.toolchain.print kind module)

def profile (r : Regeneration) (module : Term) : Step Profile :=
  .ofExcept ((Profile.read module r.language r.artifacts).mapError (.ofExtract r.language))

/-- Writes the transformation module in its canonical form, and gives the profile in it. -/
def transformation (r : Regeneration) (file : Path) : Step Profile := do
  let module ← r.parse .transformation file
  let profile ← r.profile module
  let module ← Step.ofShape
    (ModuleKind.transformation.rewriteImports module (r.canonical .transformation))
  let text ← r.print .transformation module
  Step.write r.artifacts .transformation text
  return profile

/-- A grammar module with the production for the toplevel nonterminal, if the language has one. -/
def connect (r : Regeneration) (profile : Profile) (module : Term) : Except ShapeError Term :=
  match profile.toplevel with
  | some toplevel => r.configuration.augmentation.append module r.language toplevel
  | none => .ok module

/-- Brings a grammar module into the form that pretty-print tables are made from. -/
def normalize (r : Regeneration) (module : Term) : Step Term := do
  Step.record .normalize
  .ofExcept (r.toolchain.normalize module)

/-- Writes the grammar module in its canonical form, and gives that module and its text. -/
def grammar (r : Regeneration) (profile : Profile) (file : Path) : Step (Term × String) := do
  let module ← r.parse .grammar file
  let module ← Step.ofShape (ModuleKind.grammar.rewriteImports module (r.canonical .grammar))
  let module ← Step.ofShape (r.connect profile module)
  let module ← r.normalize module
  let text ← r.print .grammar module
  Step.write r.artifacts .grammar text
  return (module, text)

/-- What stands before a grammar in its packaged form. -/
def preamble : String := "definition\n\n"

def editorServices (language : String) : String := s!"module {language}\n"

/-- Writes the artifacts that follow from a grammar and its text. -/
def derived (r : Regeneration) (module : Term) (text : String) : Step Unit := do
  Step.write r.artifacts .editorServices (editorServices r.language)
  Step.write r.artifacts .packagedGrammar (preamble ++ text)
  Step.record .prettyTable
  let table ← .ofExcept (r.toolchain.prettyTable module)
  Step.write r.artifacts .prettyTable table

/-- Generates the modules of the language and writes all artifacts. Errors in the definition end the run
before anything is written. -/
def regenerate (r : Regeneration) : Step Profile := do
  let raw ← r.generate
  if raw.errors ≠ [] then throw (.definition r.language raw.errors)
  let profile ← r.transformation raw.transformation
  let (module, text) ← r.grammar profile raw.grammar
  r.derived module text
  return profile

/-- The profile in a transformation module that is up to date. Nothing is written. -/
def reload (r : Regeneration) : Step Profile := do
  r.profile (← r.parse .transformation (r.artifacts.path .transformation))

/-- The profile of the language, in the way that the freshness of its artifacts asks for. -/
def obtain (r : Regeneration) : Freshness → Step Profile
  | .stale => r.regenerate
  | .fresh => r.reload

end Regeneration

/-- Fails at the first support file that a language is missing. -/
def BaseLanguage.checkSupport (l : BaseLanguage) : List Path → Step Unit
  | [] => pure ()
  | file :: files => do
    let _ ← Step.look (l.locate file)
    l.checkSupport files

/-- Brings the artifacts of a definition up to date and gives the language. -/
def Plugin.process (p : Plugin) (toolchain : Toolchain) (c : Configuration) (definition : Path) :
    Step BaseLanguage := do
  let language ← .ofExcept (languageName definition)
  Step.onFiles p.ensureBin
  let artifacts := p.artifacts language
  let freshness ← Step.look fun fs => Freshness.of fs definition artifacts
  let r : Regeneration := ⟨toolchain, c, definition, language, artifacts⟩
  let profile ← r.obtain freshness
  let base : BaseLanguage := ⟨profile, p, freshness⟩
  base.checkSupport c.supportFiles
  return base

end BaseLang
