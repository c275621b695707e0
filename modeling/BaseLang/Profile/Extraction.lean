import BaseLang.Profile
import BaseLang.Term.Literal

/-!
# Extraction

The declarations of a language, read off the transformation module generated for it.

* `singleDefinition?` : the name and the right-hand side of a strategy group with one definition that
  takes no arguments;
* `Definition.decode` : the right-hand side of a definition, written into the declarations;
* `Declarations.read` : all recognized definitions of a module in their order, so that of two with the
  same name the later one wins. Any other declaration is skipped.
-/

namespace BaseLang

def built (rhs : Term) : Except ShapeError Term := rhs.destruct₁ "Build"

/-- A declared file extension: not empty and without the dot in front. -/
def fileSuffix (rhs : Term) : Except ShapeError String := do
  let body ← built rhs
  let suffix ← body.decodeString
  if suffix = "" || suffix.toList.head? = some '.' then throw ⟨.fileSuffix, body⟩
  return suffix

def separatorOf (args : Term) : Except ShapeError Char := do
  let arg ← args.elem₁
  let text ← arg.decodeString
  match text.toList with
  | [c] => return c
  | _ => throw ⟨.separator, arg⟩

/-- A namespace kind, `Op(kind, [separator?])`. -/
def kindOf (rhs : Term) : Except ShapeError NamespaceKind := do
  let op := (← built rhs).unwrapped
  let (kind, args) ← op.destruct₂ "Op"
  match Text.unquote (← kind.asStr) with
  | "SXNamespaceFlat" => return .flat
  | "SXNamespaceNested" => return .nested (← separatorOf args)
  | "SXNamespacePrefixed" => return .prefixed (← separatorOf args)
  | _ => throw ⟨.namespaceKind, op⟩

/-- The declarations with what the right-hand side of a definition says. -/
def Definition.decode (d : Definition) (rhs : Term) (decls : Declarations) :
    Except ShapeError Declarations :=
  match d with
  | toplevel => do return { decls with toplevel := some (← (← built rhs).decodeString) }
  | extensionSuffix => do return { decls with extensionSuffix := some (← fileSuffix rhs) }
  | baseSuffix => do return { decls with baseSuffix := some (← fileSuffix rhs) }
  | body => do return { decls with body := NameSet.ofNames (← (← built rhs).decodeStrings) }
  | namespaceDecl => do
    let (cons, index) ← (← built rhs).decodePair
    return { decls with namespaceDecl := some ⟨cons, index⟩ }
  | imports => do return { decls with imports := ← (← built rhs).decodeTable }
  | namespaceKind => do return { decls with namespaceKind := some (← kindOf rhs) }
  | namespaceSuffixes => do
    return { decls with namespaceSuffixes := ← (← built rhs).decodeTable }

/-- The name and the right-hand side of `Strategies([SDefNoArgs(name, rhs)])`. -/
def singleDefinition? : Term → Option (String × Term)
  | .appl group [.list [.appl definition [.str name, rhs]]] =>
    if group = "Strategies" && definition = "SDefNoArgs" then some (name, rhs) else none
  | _ => none

/-- The declarations with what one declaration of a module says. -/
def Declarations.add (decls : Declarations) (t : Term) : Except ExtractError Declarations :=
  match singleDefinition? t with
  | none => .ok decls
  | some (name, rhs) =>
    match Definition.ofName? name with
    | none => .ok decls
    | some d => (d.decode rhs decls).mapError (.malformed d)

/-- The declarations in a transformation module `Module(header, [declaration, ...])`. -/
def Declarations.read (module : Term) : Except ExtractError Declarations := do
  let (_, decls) ← (module.destruct₂ "Module").mapError .module
  let decls ← decls.elems.mapError .module
  decls.foldlM add empty

def Profile.read (module : Term) (language : String) (artifacts : Artifacts) :
    Except ExtractError Profile := do
  (← Declarations.read module).complete language artifacts

end BaseLang
