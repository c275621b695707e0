import BaseLang.Module.Augmentation
import BaseLang.Path
import BaseLang.Toml.Document
import BaseLang.Toml.Writer

/-!
# Configurations

* `Configuration` : what a regeneration can be told to do differently; `Configuration.standard` is what
  it does by itself;
* `Configuration.parse?` : the configuration in a TOML document. What it leaves out is as in the standard
  one, and what it says about other things is passed over;
* `Configuration.text` : a configuration as a TOML document.
-/

namespace BaseLang

/-- The module that each kind of generated module imports. -/
structure CanonicalModules where
  transformation : String
  grammar : String
  deriving DecidableEq

structure ParseTables where
  grammar : String
  transformation : String
  deriving DecidableEq

/-- The program that generates the modules of a language, and its arguments. -/
structure GeneratorCommand where
  program : String
  args : List String
  deriving DecidableEq

/-- The settings of a regeneration. Support files are files that every language of a plugin needs. -/
structure Configuration where
  groundMarker : String
  toplevelSort : String
  supportFiles : List Path
  canonical : CanonicalModules
  tables : ParseTables
  generator : GeneratorCommand
  deriving DecidableEq

namespace CanonicalModules

def standard : CanonicalModules := ⟨"basil/Common", "basil/Common"⟩

end CanonicalModules

namespace ParseTables

def standard : ParseTables := ⟨"Sdf2.tbl", "Stratego.tbl"⟩

end ParseTables

namespace GeneratorCommand

def standard : GeneratorCommand where
  program := "basil-gen"
  args := ["\x7bdefinition\x7d", "--out", "\x7bout\x7d", "--cache", "\x7bcache\x7d"]

end GeneratorCommand

namespace Configuration

def standard : Configuration where
  groundMarker := Augmentation.standard.marker
  toplevelSort := Augmentation.standard.toplevelSort
  supportFiles := [⟨"basil/Common.str"⟩, ⟨"basil/Common.sdf"⟩]
  canonical := .standard
  tables := .standard
  generator := .standard

/-- The names of the production that connects a grammar to the common toplevel sort. -/
def augmentation (c : Configuration) : Augmentation := ⟨c.groundMarker, c.toplevelSort⟩

end Configuration

/-! ## Reading -/

namespace Toml.Value

def string? : Value → Option String
  | string text => some text
  | _ => none

def strings? : Value → Option (List String)
  | array elems => elems.mapM string?
  | _ => none

/-- What a value gives to the fields of a record, if it can describe one: a table does so by their
names and an array by their order. A date counts as a record without any of the fields. -/
def fields? (names : List String) : Value → Option (List (Option Value))
  | table entries => some (names.map fun name => List.lookup name entries)
  | array elems => some ((List.range names.length).map fun i => elems[i]?)
  | date => some (names.map fun _ => none)
  | _ => none

/-- A field that may be left out. -/
def read {α : Type} (decode : Value → Option α) (standard : α) (v : Option Value) : Option α :=
  match v with
  | none => some standard
  | some v => decode v

end Toml.Value

open Toml (Value)

def CanonicalModules.ofValue? (v : Value) : Option CanonicalModules :=
  match v.fields? ["transformation", "grammar"] with
  | some [transformation, grammar] => do
    return {
      transformation := ← Value.read Value.string? standard.transformation transformation
      grammar := ← Value.read Value.string? standard.grammar grammar }
  | _ => none

def ParseTables.ofValue? (v : Value) : Option ParseTables :=
  match v.fields? ["grammar", "transformation"] with
  | some [grammar, transformation] => do
    return {
      grammar := ← Value.read Value.string? standard.grammar grammar
      transformation := ← Value.read Value.string? standard.transformation transformation }
  | _ => none

def GeneratorCommand.ofValue? (v : Value) : Option GeneratorCommand :=
  match v.fields? ["program", "args"] with
  | some [program, args] => do
    return {
      program := ← Value.read Value.string? standard.program program
      args := ← Value.read Value.strings? standard.args args }
  | _ => none

namespace Configuration

def paths? (v : Value) : Option (List Path) := v.strings?.map (·.map Path.mk)

def ofEntries? (entries : List (String × Value)) : Option Configuration := do
  return {
    groundMarker :=
      ← Value.read Value.string? standard.groundMarker (List.lookup "ground_marker" entries)
    toplevelSort :=
      ← Value.read Value.string? standard.toplevelSort (List.lookup "toplevel_sort" entries)
    supportFiles := ← Value.read paths? standard.supportFiles (List.lookup "support_files" entries)
    canonical := ← Value.read CanonicalModules.ofValue? .standard (List.lookup "canonical" entries)
    tables := ← Value.read ParseTables.ofValue? .standard (List.lookup "tables" entries)
    generator := ← Value.read GeneratorCommand.ofValue? .standard (List.lookup "generator" entries) }

def parse? (text : String) : Option Configuration := (Toml.parse? text).bind ofEntries?

/-! ## Writing -/

def stringLine (key value : String) : String := s!"{key} = {Toml.quote value}\n"

def listLine (key : String) (values : List String) : String :=
  s!"{key} = {Toml.quoteList values}\n"

/-- A configuration as a TOML document. -/
def text (c : Configuration) : String :=
  stringLine "ground_marker" c.groundMarker
  ++ stringLine "toplevel_sort" c.toplevelSort
  ++ listLine "support_files" (c.supportFiles.map Path.text)
  ++ "\n[canonical]\n"
  ++ stringLine "transformation" c.canonical.transformation
  ++ stringLine "grammar" c.canonical.grammar
  ++ "\n[tables]\n"
  ++ stringLine "grammar" c.tables.grammar
  ++ stringLine "transformation" c.tables.transformation
  ++ "\n[generator]\n"
  ++ stringLine "program" c.generator.program
  ++ listLine "args" c.generator.args

end Configuration

end BaseLang
