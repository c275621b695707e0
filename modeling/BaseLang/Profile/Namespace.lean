/-!
# Namespaces

* `NamespaceKind` : how the module names of a base language map onto namespaces;
* `NamespaceDecl` : where the qualified module name stands inside a namespace declaration.
-/

namespace BaseLang

/-- How module names map onto namespaces. -/
inductive NamespaceKind where
  | flat
  | nested (separator : Char)
  | prefixed (separator : Char)
  deriving DecidableEq

namespace NamespaceKind

/-- The character between the parts of a qualified name, if names are qualified at all. -/
def separator? : NamespaceKind → Option Char
  | flat => none
  | nested c | prefixed c => some c

def text : NamespaceKind → String
  | flat => "flat"
  | nested c => s!"nested `{c}`"
  | prefixed c => s!"prefixed `{c}`"

end NamespaceKind

/-- The constructor of namespace declarations and the position of the name among its arguments. -/
structure NamespaceDecl where
  cons : String
  index : Nat
  deriving DecidableEq

end BaseLang
