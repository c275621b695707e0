import BaseLang.FileSystem.Disk
import BaseLang.Grammar.PrettyTable
import BaseLang.Module.Imports
import BaseLang.ProcessError
import BaseLang.Term.Layout

/-!
# Toolchains

* `Generated` : what a generator leaves behind;
* `Toolchain` : the services that a regeneration needs. Only a generator changes files;
* `Toolchain.textual` : the services for modules that are stored as the text of their terms.
-/

namespace BaseLang

/-- The modules that a generator has left behind, and what it has to say against the definition. -/
structure Generated where
  grammar : Path
  transformation : Path
  errors : List String
  deriving DecidableEq

/-- Generates the modules of a language: its definition, its name, and the directory for the modules are
given. -/
abbrev Generator :=
  (definition : Path) → (language : String) → (out : Path) → Disk ProcessError Generated

/-- The services that a regeneration needs. A parser is given a parse table, the file of a module and the
start symbol. -/
structure Toolchain where
  generate : Generator
  parse : (table : String) → (file : Path) → (startSymbol : String) → FileSystem →
    Except ProcessError Term
  print : ModuleKind → Term → Except ProcessError String
  normalize : Term → Except ProcessError Term
  prettyTable : Term → Except ProcessError String

namespace Toolchain

/-- The module in a file that holds the text of a term. -/
def parseText (file : Path) (startSymbol : String) (fs : FileSystem) : Except ProcessError Term :=
  match fs.readText file with
  | .error e => .error (.external (.read file) e.fault)
  | .ok text =>
    match Term.read text with
    | .ok t => .ok t
    | .error e => .error (.external (.parse file startSymbol) (.read e))

/-- A module as a text of at most some width, with a line end. -/
def printText (width : Nat) (t : Term) : String := t.pretty width ++ "\n"

/-- A generator together with services for modules that are stored as the text of their terms. They need
no parse tables. -/
def textual (width : Nat) (generate : Generator) : Toolchain where
  generate := generate
  parse _ := parseText
  print _ t := .ok (printText width t)
  normalize := .ok
  prettyTable grammar := .ok (PrettyTable.ofGrammar grammar).text

/-- The width of printed modules where none is asked for. -/
def standardWidth : Nat := 100

end Toolchain

end BaseLang
