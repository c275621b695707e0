import BaseLang.Term
import BaseLang.Text.Quoted

/-!
# Productions

* `Production` : a constructor and the symbols that it is written with;
* `Term.constructor?` : the constructor that some attributes name;
* `Term.productions` : the productions of a grammar that have one.

Both are found by a search with the terms that it still has to look at on a stack. It takes the term on top off and puts
its children there, so that the first of them is on top. There are fewer nodes to come with each step.
-/

namespace BaseLang

/-- A production of a grammar whose attributes name a constructor. -/
structure Production where
  cons : String
  symbols : List Term
  deriving DecidableEq

namespace Term

/-! ## Constructors -/

/-- The text to which a constructor is applied. -/
def textOf? (cons : String) : Term → Option String
  | .appl c [.str text] => if c = cons then some text else none
  | _ => none

theorem textOf?_eq_some_iff {cons text : String} {t : Term} :
    t.textOf? cons = some text ↔ t = .appl cons [.str text] := by
  constructor
  · intro h
    rw [textOf?.eq_def] at h
    split at h
    · split at h
      · rename_i hcons
        cases h
        rw [hcons]
      · cases h
    · cases h
  · rintro rfl
    exact if_pos rfl

/-- An application of `cons` to one argument, which may name a constructor. -/
def isNaming : Term → Bool
  | .appl cons [_] => cons = "cons"
  | _ => false

def named? (t : Term) : Option String := (t.textOf? "cons").map Text.unquote

/-- The first name that is found in the terms on a stack. An application of `cons` to one argument that is no string is
passed over with everything below it. -/
def constructorFrom? : List Term → Option String
  | [] => none
  | t :: stack =>
    if t.isNaming then
      match t.named? with
      | some name => some name
      | none => constructorFrom? stack
    else constructorFrom? (t.children ++ stack)
  termination_by stack => (nodesOf stack).length
  decreasing_by
    · exact length_nodesOf_tail t stack
    · exact length_nodesOf_children t stack

/-- The name in the first `cons(name)` below some attributes. -/
def constructor? (attrs : Term) : Option String := constructorFrom? [attrs]

/-! ## Productions -/

/-- The production that a node `prod([symbol, ...], result, attributes)` is. -/
def production? : Term → Option Production
  | .appl cons [.list symbols, _, attrs] =>
    if cons = "prod" then attrs.constructor?.map fun name => ⟨name, symbols⟩ else none
  | _ => none

/-- The productions that are found in the terms on a stack, those inside of productions as well. -/
def productionsFrom : List Term → List Production
  | [] => []
  | t :: stack => (production? t).toList ++ productionsFrom (t.children ++ stack)
  termination_by stack => (nodesOf stack).length
  decreasing_by exact length_nodesOf_children t stack

/-- The productions with a constructor, in pre-order. -/
def productions (grammar : Term) : List Production := productionsFrom [grammar]

end Term

end BaseLang
