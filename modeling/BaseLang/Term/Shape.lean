import BaseLang.Term
import BaseLang.Text.Utf8

/-!
# Shapes

What a term is expected to look like, and the accessors that take a term apart or say how it differs.

* `Shape` : an expectation, with its wording `Shape.text`;
* `ShapeError` : an expectation and the term that misses it; its message quotes at most
  `ShapeError.foundBudget` bytes (`ShapeError.found`);
* `Term.child`, `Term.argsOf`, `Term.destruct`, `Term.destructAny`, `Term.elems`, `Term.elemsExact`,
  `Term.asStr`, `Term.asInt` : the accessors.
-/

namespace BaseLang

inductive Shape where
  | node
  | children (count : Nat)
  | applicationOf (cons : String)
  | applicationOfWith (cons : String) (count : Nat)
  | applicationWith (count : Nat)
  | list
  | listOf (count : Nat)
  | string
  | integer
  | index
  | terminal
  | chain
  | fileSuffix
  | separator
  | namespaceKind
  deriving DecidableEq

namespace Shape

def text : Shape → String
  | node => "an application or a list"
  | children count => s!"at least {count} children"
  | applicationOf cons => s!"an application of `{cons}`"
  | applicationOfWith cons count => s!"an application of `{cons}` with {count} arguments"
  | applicationWith count => s!"an application with {count} arguments"
  | list => "a list"
  | listOf count => s!"a list of {count} elements"
  | string => "a string literal"
  | integer => "an integer literal"
  | index => "a non-negative argument index"
  | terminal => "a terminal list of at most one element"
  | chain => "a terminal `List` or a `ListTail` chain"
  | fileSuffix => "a non-empty file extension without a leading dot"
  | separator => "a one-character namespace separator"
  | namespaceKind => "one of `SXNamespaceFlat`, `SXNamespaceNested` or `SXNamespacePrefixed`"

end Shape

/-- A term that is not what was expected. -/
structure ShapeError where
  expected : Shape
  term : Term
  deriving DecidableEq

namespace ShapeError

/-- How many bytes the quoted text may take. -/
def foundBudget : Nat := 120

/-- The quoted text of the term, shortened if it is long. -/
def found (e : ShapeError) : String := Text.excerpt foundBudget e.term.text

def message (e : ShapeError) : String := s!"expected {e.expected.text}, found `{e.found}`"

end ShapeError

namespace Term

def child (t : Term) (i : Nat) : Except ShapeError Term :=
  match t with
  | .appl _ args | .list args =>
    match args[i]? with
    | some c => .ok c
    | none => .error ⟨.children (i + 1), t⟩
  | _ => .error ⟨.node, t⟩

def argsOf (t : Term) (cons : String) : Except ShapeError (List Term) :=
  match t with
  | .appl c args => if c = cons then .ok args else .error ⟨.applicationOf cons, t⟩
  | _ => .error ⟨.applicationOf cons, t⟩

/-- The arguments of an application of `cons` to `count` terms. -/
def destruct (t : Term) (cons : String) (count : Nat) : Except ShapeError (List Term) :=
  match t.argsOf cons with
  | .ok args => if args.length = count then .ok args else .error ⟨.applicationOfWith cons count, t⟩
  | .error e => .error e

/-- The constructor and the arguments of an application to `count` terms. -/
def destructAny (t : Term) (count : Nat) : Except ShapeError (String × List Term) :=
  match t with
  | .appl cons args =>
    if args.length = count then .ok (cons, args) else .error ⟨.applicationWith count, t⟩
  | _ => .error ⟨.applicationWith count, t⟩

def destruct₁ (t : Term) (cons : String) : Except ShapeError Term :=
  match t.destruct cons 1 with
  | .ok [a] => .ok a
  | .ok _ => .error ⟨.applicationOfWith cons 1, t⟩
  | .error e => .error e

def destruct₂ (t : Term) (cons : String) : Except ShapeError (Term × Term) :=
  match t.destruct cons 2 with
  | .ok [a, b] => .ok (a, b)
  | .ok _ => .error ⟨.applicationOfWith cons 2, t⟩
  | .error e => .error e

def elems (t : Term) : Except ShapeError (List Term) :=
  match t with
  | .list ts => .ok ts
  | _ => .error ⟨.list, t⟩

def elemsExact (t : Term) (count : Nat) : Except ShapeError (List Term) :=
  match t.elems with
  | .ok ts => if ts.length = count then .ok ts else .error ⟨.listOf count, t⟩
  | .error e => .error e

def elem₁ (t : Term) : Except ShapeError Term :=
  match t.elemsExact 1 with
  | .ok [a] => .ok a
  | .ok _ => .error ⟨.listOf 1, t⟩
  | .error e => .error e

def elem₂ (t : Term) : Except ShapeError (Term × Term) :=
  match t.elemsExact 2 with
  | .ok [a, b] => .ok (a, b)
  | .ok _ => .error ⟨.listOf 2, t⟩
  | .error e => .error e

def asStr (t : Term) : Except ShapeError String :=
  match t with
  | .str s => .ok s
  | _ => .error ⟨.string, t⟩

def asInt (t : Term) : Except ShapeError Int64 :=
  match t with
  | .int n => .ok n
  | _ => .error ⟨.integer, t⟩

end Term

end BaseLang
