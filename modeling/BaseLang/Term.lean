import BaseLang.Text.Decimal
import BaseLang.Text.Quoted

/-!
# Terms

The tree that grammar modules and transformation modules are made of.

* `Term` : applications of a constructor, lists, strings, 64-bit integers;
* `Term.induct` : induction in which every child has the property;
* `Term.chars` / `Term.text` : the compact text of a term;
* `Term.children`, `Term.nodes` : the children, and all nodes in pre-order. `Term.nodesOf_cons` : what is left of them
  when a node has been dealt with.
-/

namespace BaseLang

/-- A tree with tagged nodes, lists and two kinds of literal. -/
inductive Term where
  | appl (cons : String) (args : List Term)
  | list (elems : List Term)
  | str (text : String)
  | int (value : Int64)
  deriving Inhabited

namespace Term

/-- Induction on terms: a property that passes from the children to the node holds of every term. -/
theorem induct {motive : Term → Prop}
    (appl : ∀ cons args, (∀ t ∈ args, motive t) → motive (.appl cons args))
    (list : ∀ elems, (∀ t ∈ elems, motive t) → motive (.list elems))
    (str : ∀ text, motive (.str text)) (int : ∀ value, motive (.int value)) (t : Term) :
    motive t :=
  @Term.rec motive (fun ts => ∀ t ∈ ts, motive t) appl list str int
    (fun _ h => absurd h List.not_mem_nil)
    (fun _ _ ht hts _ hm => (List.mem_cons.1 hm).elim (fun e => e ▸ ht) (hts _)) t

/-! ## Equality -/

mutual

def decEq : (a b : Term) → Decidable (a = b)
  | .appl c as, .appl d bs =>
    if h : c = d then
      match decEqList as bs with
      | isTrue h' => isTrue (by rw [h, h'])
      | isFalse h' => isFalse fun e => h' (Term.appl.inj e).2
    else isFalse fun e => h (Term.appl.inj e).1
  | .list as, .list bs =>
    match decEqList as bs with
    | isTrue h => isTrue (by rw [h])
    | isFalse h => isFalse fun e => h (Term.list.inj e)
  | .str s, .str t => if h : s = t then isTrue (by rw [h]) else isFalse fun e => h (Term.str.inj e)
  | .int m, .int n => if h : m = n then isTrue (by rw [h]) else isFalse fun e => h (Term.int.inj e)
  | .appl .., .list _ | .appl .., .str _ | .appl .., .int _
  | .list _, .appl .. | .list _, .str _ | .list _, .int _
  | .str _, .appl .. | .str _, .list _ | .str _, .int _
  | .int _, .appl .. | .int _, .list _ | .int _, .str _ => isFalse (by simp)

def decEqList : (as bs : List Term) → Decidable (as = bs)
  | [], [] => isTrue rfl
  | a :: as, b :: bs =>
    match decEq a b, decEqList as bs with
    | isTrue h, isTrue h' => isTrue (by rw [h, h'])
    | isFalse h, _ => isFalse fun e => h (List.cons.inj e).1
    | _, isFalse h => isFalse fun e => h (List.cons.inj e).2
  | [], _ :: _ | _ :: _, [] => isFalse (by simp)

end

instance : DecidableEq Term := decEq

/-! ## The compact text -/

mutual

/-- The characters of a term's compact text: no layout, and no brackets after a constructor without
arguments. -/
def chars : Term → List Char
  | .appl cons [] => cons.toList
  | .appl cons (t :: ts) => cons.toList ++ '(' :: (t.chars ++ (charsAfter ts ++ [')']))
  | .list [] => ['[', ']']
  | .list (t :: ts) => '[' :: (t.chars ++ (charsAfter ts ++ [']']))
  | .str text => Text.quoted text.toList
  | .int value => Text.decimal value.toInt

/-- The characters of the terms that follow a first one, each behind a comma. -/
def charsAfter : List Term → List Char
  | [] => []
  | t :: ts => ',' :: (t.chars ++ charsAfter ts)

end

def text (t : Term) : String := String.ofList t.chars

/-! ## Nodes -/

def children : Term → List Term
  | .appl _ args => args
  | .list elems => elems
  | .str _ | .int _ => []

mutual

/-- All nodes of a term, every node before its children and these from left to right. -/
def nodes : Term → List Term
  | .appl cons args => .appl cons args :: nodesOf args
  | .list elems => .list elems :: nodesOf elems
  | .str text => [.str text]
  | .int value => [.int value]

def nodesOf : List Term → List Term
  | [] => []
  | t :: ts => t.nodes ++ nodesOf ts

end

theorem nodes_eq (t : Term) : t.nodes = t :: nodesOf t.children := by
  cases t <;> rfl

theorem nodesOf_append (ts us : List Term) : nodesOf (ts ++ us) = nodesOf ts ++ nodesOf us := by
  induction ts with
  | nil => rfl
  | cons t ts ih => rw [List.cons_append, nodesOf, nodesOf, ih, List.append_assoc]

/-- When a node is taken off a stack of terms and its children are put there, the nodes behind it are still to come. -/
theorem nodesOf_cons (t : Term) (ts : List Term) : nodesOf (t :: ts) = t :: nodesOf (t.children ++ ts) := by
  rw [nodesOf, nodes_eq, nodesOf_append, List.cons_append]

theorem length_nodesOf_children (t : Term) (ts : List Term) :
    (nodesOf (t.children ++ ts)).length < (nodesOf (t :: ts)).length := by
  rw [nodesOf_cons]
  exact Nat.lt_succ_self _

theorem length_nodesOf_tail (t : Term) (ts : List Term) : (nodesOf ts).length < (nodesOf (t :: ts)).length := by
  rw [nodesOf_cons, nodesOf_append, List.length_cons, List.length_append]
  omega

def cons? : Term → Option String
  | .appl cons _ => some cons
  | _ => none

def isAppl (t : Term) (cons : String) : Bool := t.cons? = some cons

end Term

end BaseLang
