import BaseLang.Grammar.Production
import BaseLang.Table

/-!
# Pretty-print tables

How the constructors of a grammar are printed.

* `Production.layout` : the symbols of a production, keywords as they are and arguments by number;
* `PrettyTable.ofGrammar` : one layout for each constructor, from its first production;
* `PrettyTable.text` : the table as text.
-/

namespace BaseLang

namespace Production

/-- The text of a literal symbol, with its quotes. -/
def literal? (symbol : Term) : Option String := symbol.textOf? "lit"

/-- The printed symbols, where the next argument has the number `next`. -/
def items (next : Nat) : List Term → List String
  | [] => []
  | s :: ss =>
    match literal? s with
    | some text => s!"KW[{Text.escape (Text.unquote text)}]" :: items next ss
    | none => s!"_{next}" :: items (next + 1) ss

def layout (p : Production) : String := " ".intercalate (items 1 p.symbols)

end Production

/-- The layouts of constructors, in the order of their first productions. -/
abbrev PrettyTable := Table String String

namespace PrettyTable

/-- The layouts of the first productions of each constructor. -/
def ofProductions (ps : List Production) : PrettyTable :=
  ps.foldl (fun t p => t.insertNew p.cons p.layout) Table.empty

def ofGrammar (grammar : Term) : PrettyTable := ofProductions grammar.productions

/-- The line of an entry, without the comma that may follow it. -/
def entryText (e : String × String) : String := s!"   {e.1} -- H[{e.2}]"

/-- A table as text: one entry a line, with commas between them. -/
def text (t : PrettyTable) : String :=
  "[\n" ++ ",\n".intercalate (t.entries.map entryText) ++ (if t.entries = [] then "" else "\n")
    ++ "]\n"

end PrettyTable

end BaseLang
