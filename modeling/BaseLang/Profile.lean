import BaseLang.Profile.Artifacts
import BaseLang.Profile.Namespace
import BaseLang.Table
import BaseLang.Term.Shape

/-!
# Language profiles

What the rest of a toolchain needs to know about a base language.

* `Definition` : the definitions that a transformation module can make about its language;
* `Declarations` : what has been read off a module so far;
* `Profile` : the complete description; `Declarations.complete` builds it;
* `ExtractError` : what can be wrong with a module or its definitions;
* `Profile.importIndex?`, `Profile.isBody`, `Profile.namespaceIndex?` : the parts that the declarations
  of a source file can play;
* `Profile.text` : the profile as lines of text.
-/

namespace BaseLang

inductive Definition where
  | toplevel
  | extensionSuffix
  | baseSuffix
  | body
  | namespaceDecl
  | imports
  | namespaceKind
  | namespaceSuffixes
  deriving DecidableEq

namespace Definition

/-- The name under which a definition occurs in a transformation module. -/
def name : Definition → String
  | toplevel => "sx-ToplevelDeclaration"
  | extensionSuffix => "sx-extensible-file-ext"
  | baseSuffix => "sx-base-file-ext"
  | body => "sx-body-decs"
  | namespaceDecl => "sx-namespace-dec"
  | imports => "sx-import-decs"
  | namespaceKind => "sx-namespace-kind"
  | namespaceSuffixes => "sx-namespace-suffices"

/-- What a definition is about, as it is named in messages. -/
def field : Definition → String
  | toplevel => "toplevelNonterminal"
  | extensionSuffix => "extensionFileSuffix"
  | baseSuffix => "baseFileSuffix"
  | body => "bodyDeclarationConstructors"
  | namespaceDecl => "namespaceDeclaration"
  | imports => "importTable"
  | namespaceKind => "namespaceKind"
  | namespaceSuffixes => "namespaceSuffixTable"

def all : List Definition :=
  [toplevel, extensionSuffix, baseSuffix, body, namespaceDecl, imports, namespaceKind,
   namespaceSuffixes]

def ofName? (name : String) : Option Definition := all.find? (·.name = name)

theorem ofName?_name (d : Definition) : ofName? d.name = some d := by cases d <;> decide

end Definition

/-- What a transformation module declares about its language. -/
structure Declarations where
  extensionSuffix : Option String
  baseSuffix : Option String
  toplevel : Option String
  namespaceDecl : Option NamespaceDecl
  namespaceKind : Option NamespaceKind
  namespaceSuffixes : Table String Nat
  imports : Table String Nat
  body : NameSet
  deriving DecidableEq

namespace Declarations

def empty : Declarations := ⟨none, none, none, none, none, .empty, .empty, .empty⟩

end Declarations

structure Profile where
  language : String
  extensionSuffix : String
  baseSuffix : String
  toplevel : Option String
  namespaceDecl : Option NamespaceDecl
  namespaceKind : NamespaceKind
  namespaceSuffixes : Table String Nat
  imports : Table String Nat
  body : NameSet
  artifacts : Artifacts
  deriving DecidableEq

inductive ExtractError where
  | module (shape : ShapeError)
  | malformed (definition : Definition) (shape : ShapeError)
  | missing (definition : Definition)
  deriving DecidableEq

namespace ExtractError

def message : ExtractError → String
  | module shape => s!"Transformation module malformed: {shape.message}"
  | malformed d shape =>
    s!"Definition `{d.name}` malformed while decoding {d.field}: {shape.message}"
  | missing d => s!"Definition `{d.name}` for {d.field} is missing"

end ExtractError

/-- The profile of a language, if both file suffixes and the namespace kind are declared. -/
def Declarations.complete (d : Declarations) (language : String) (artifacts : Artifacts) :
    Except ExtractError Profile :=
  match d.extensionSuffix, d.baseSuffix, d.namespaceKind with
  | none, _, _ => .error (.missing .extensionSuffix)
  | some _, none, _ => .error (.missing .baseSuffix)
  | some _, some _, none => .error (.missing .namespaceKind)
  | some extensionSuffix, some baseSuffix, some namespaceKind =>
    .ok {
      language, extensionSuffix, baseSuffix, namespaceKind, artifacts
      toplevel := d.toplevel
      namespaceDecl := d.namespaceDecl
      namespaceSuffixes := d.namespaceSuffixes
      imports := d.imports
      body := d.body }

namespace Profile

/-- The position of the qualified name, if a term is a namespace declaration. -/
def namespaceIndex? (p : Profile) (t : Term) : Option Nat :=
  match p.namespaceDecl with
  | some d => if t.isAppl d.cons then some d.index else none
  | none => none

/-- The position of the imported module's name, if a term is an import. -/
def importIndex? (p : Profile) (t : Term) : Option Nat := t.cons?.bind p.imports.get?

def isBody (p : Profile) (t : Term) : Bool := t.cons?.any p.body.contains

/-! ## The text of a profile -/

def bracketed (items : List String) : String := "[" ++ ", ".intercalate items ++ "]"

def tableText (t : Table String Nat) : String :=
  bracketed (t.entries.map fun e => s!"{e.1}#{e.2}")

def lines (p : Profile) : List String :=
  [s!"language: {p.language}",
   s!"extension file suffix: {p.extensionSuffix}",
   s!"base file suffix: {p.baseSuffix}"]
  ++ (p.toplevel.map fun t => s!"toplevel nonterminal: {t}").toList
  ++ (p.namespaceDecl.map fun d => s!"namespace declaration: {d.cons}#{d.index}").toList
  ++ [s!"namespace kind: {p.namespaceKind.text}",
      s!"namespace suffixes: {tableText p.namespaceSuffixes}",
      s!"imports: {tableText p.imports}",
      s!"body declarations: {bracketed p.body.keys}"]
  ++ p.artifacts.paths.map fun path => s!"artifact: {path.text}"

/-- A profile as text, every line with its line end. -/
def text (p : Profile) : String := String.join (p.lines.map (· ++ "\n"))

end Profile

end BaseLang
