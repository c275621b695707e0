import BaseLang.Term.Shape

/-!
# Augmentation

The production that connects the grammar of a language to the common nonterminal for toplevel
declarations.

* `Augmentation` : the names that it is made of;
* `Augmentation.append` : a grammar module with that production at the end of its body.
-/

namespace BaseLang

/-- The marker between a language's name and its toplevel nonterminal in its ground sort, and the
common sort of toplevel declarations. -/
structure Augmentation where
  marker : String
  toplevelSort : String
  deriving DecidableEq

namespace Augmentation

def standard : Augmentation := ⟨"Gnd", "ToplevelDeclaration"⟩

/-- The sort of a language's own toplevel declarations. -/
def groundSort (a : Augmentation) (language toplevel : String) : String :=
  language ++ a.marker ++ toplevel

def sort (name : String) : Term := .appl "sort" [.str name]

/-- The section with the production from a language's ground sort to the common sort. -/
def production (a : Augmentation) (language toplevel : String) : Term :=
  .appl "exports" [.appl "context-free-syntax" [.list [
    .appl "prod" [.list [sort (a.groundSort language toplevel)], sort a.toplevelSort,
      .appl "no-attrs" []]]]]

/-- A grammar module with the production behind the sections of its body. -/
def append (a : Augmentation) (module : Term) (language toplevel : String) :
    Except ShapeError Term :=
  match module with
  | .appl cons [header, imports, body] =>
    match body.elems with
    | .ok sections =>
      .ok (.appl cons [header, imports, .list (sections ++ [a.production language toplevel])])
    | .error e => .error e
  | _ => .error ⟨.applicationWith 3, module⟩

end Augmentation

end BaseLang
