import BaseLang.Term.Shape

/-!
# Imports of generated modules

* `ModuleKind` : the two kinds of generated module, which write their imports differently;
* `transformationImport`, `grammarImport` : the import of one module;
* `ModuleKind.rewriteImports` : a module whose only import is the one of a given module.
-/

namespace BaseLang

/-- The kinds of generated module: `module(header, [import, ...], [section, ...])` for grammars and
`Module(header, [declaration, ...])` for transformations. -/
inductive ModuleKind where
  | grammar
  | transformation
  deriving DecidableEq

namespace ModuleKind

def startSymbol : ModuleKind → String
  | grammar => "Sdf2Module"
  | transformation => "StrategoModule"

def text : ModuleKind → String
  | grammar => "grammar"
  | transformation => "transformation"

end ModuleKind

def transformationImport (target : String) : Term :=
  .appl "Imports" [.list [.appl "Import" [.str target]]]

def grammarImport (target : String) : Term :=
  .appl "imports" [.appl "module" [.appl "unparameterized" [.str target]]]

/-- A transformation module with its import declarations dropped and one put in front; the other
declarations keep their order. -/
def rewriteTransformationImports (module : Term) (target : String) : Except ShapeError Term :=
  match module with
  | .appl cons [header, decls] =>
    match decls.elems with
    | .ok ts =>
      let kept := ts.filter fun t => !t.isAppl "Imports"
      .ok (.appl cons [header, .list (transformationImport target :: kept)])
    | .error e => .error e
  | _ => .error ⟨.applicationWith 2, module⟩

/-- A grammar module with its import clause replaced. -/
def rewriteGrammarImports (module : Term) (target : String) : Except ShapeError Term :=
  match module with
  | .appl cons [header, imports, body] =>
    match imports.elems with
    | .ok _ => .ok (.appl cons [header, .list [grammarImport target], body])
    | .error e => .error e
  | _ => .error ⟨.applicationWith 3, module⟩

/-- A module in which the import of `target` stands for all imports. -/
def ModuleKind.rewriteImports (kind : ModuleKind) (module : Term) (target : String) :
    Except ShapeError Term :=
  match kind with
  | grammar => rewriteGrammarImports module target
  | transformation => rewriteTransformationImports module target

end BaseLang
