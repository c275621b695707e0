import BaseLang.Term

/-!
# Positions in terms

Where the nodes of a term are, and the order in which a search comes to them.

* `Term.Leads` : a position leads down to a node, by the number of a child at each level, and no node on the way is
  closed. In the order of lists a position comes before those below it, and these before those further right: this is
  pre-order;
* `Term.visit` : the nodes with their positions, without what is below closed nodes. `mem_visit`, `pairwise_visit` : all
  of them, each once and in the order of their positions;
* `reached_cons` : a search that has the nodes it still has to look at on a stack comes to the same nodes;
* `findSome?_visit` : what a search finds is found at the first position at which there is something to find.
-/

namespace BaseLang

namespace Term

variable {closed : Term → Bool} {t u : Term} {ts : List Term} {i : Nat} {p q : List Nat}

/-- The position `p` leads from `t` down to `u`, through nodes that are not closed. -/
inductive Leads (closed : Term → Bool) : Term → List Nat → Term → Prop where
  | here (t : Term) : Leads closed t [] t
  | down {t c u : Term} {i : Nat} {p : List Nat} (ht : closed t = false) (hi : t.children[i]? = some c)
      (hc : Leads closed c p u) : Leads closed t (i :: p) u

mutual

/-- The nodes of a term with their positions, every node before its children and these from left to right, except those
below closed nodes. -/
def visit (closed : Term → Bool) : Term → List (List Nat × Term)
  | .appl cons args =>
    ([], .appl cons args) :: if closed (.appl cons args) then [] else visitFrom closed 0 args
  | .list elems => ([], .list elems) :: if closed (.list elems) then [] else visitFrom closed 0 elems
  | .str text => [([], .str text)]
  | .int value => [([], .int value)]

/-- The nodes of some children, the first of which has the number `i`. -/
def visitFrom (closed : Term → Bool) (i : Nat) : List Term → List (List Nat × Term)
  | [] => []
  | t :: ts => (visit closed t).map (fun e => (i :: e.1, e.2)) ++ visitFrom closed (i + 1) ts

end

theorem visit_eq (closed : Term → Bool) (t : Term) :
    visit closed t = ([], t) :: if closed t then [] else visitFrom closed 0 t.children := by
  cases t with
  | appl => rw [visit, children]
  | list => rw [visit, children]
  | str => simp [visit, children, visitFrom]
  | int => simp [visit, children, visitFrom]

/-! ## What is visited -/

theorem mem_visitFrom : (p, u) ∈ visitFrom closed i ts ↔
    ∃ j q c, p = (i + j) :: q ∧ ts[j]? = some c ∧ (q, u) ∈ visit closed c := by
  induction ts generalizing i with
  | nil => simp [visitFrom]
  | cons t ts ih =>
    rw [visitFrom, List.mem_append, ih, List.mem_map]
    constructor
    · rintro (⟨⟨q, u'⟩, hmem, heq⟩ | ⟨j, q, c, rfl, hj, hmem⟩)
      · cases heq
        exact ⟨0, q, t, rfl, rfl, hmem⟩
      · exact ⟨j + 1, q, c, by rw [Nat.add_right_comm, Nat.add_assoc], hj, hmem⟩
    · rintro ⟨j, q, c, rfl, hj, hmem⟩
      cases j with
      | zero =>
        cases hj
        exact .inl ⟨(q, u), hmem, rfl⟩
      | succ j => exact .inr ⟨j, q, c, by rw [Nat.add_right_comm, Nat.add_assoc], hj, hmem⟩

theorem leads_nil_iff : Leads closed t [] u ↔ u = t := by
  constructor
  · rintro ⟨⟩
    rfl
  · rintro rfl
    exact .here u

theorem leads_cons_iff :
    Leads closed t (i :: p) u ↔ closed t = false ∧ ∃ c, t.children[i]? = some c ∧ Leads closed c p u := by
  constructor
  · rintro (_ | ⟨ht, hi, hc⟩)
    exact ⟨ht, _, hi, hc⟩
  · rintro ⟨ht, c, hi, hc⟩
    exact .down ht hi hc

/-- Induction from the children to the node, whatever kind of node it is. -/
theorem induct_children {motive : Term → Prop} (node : ∀ t, (∀ c ∈ t.children, motive c) → motive t) (t : Term) :
    motive t := by
  induction t using Term.induct with
  | appl cons args ih => exact node _ ih
  | list elems ih => exact node _ ih
  | str text => exact node _ (by simp [children])
  | int value => exact node _ (by simp [children])

/-- A search comes to all nodes that positions lead to, with these positions. -/
theorem mem_visit : (p, u) ∈ visit closed t ↔ Leads closed t p u := by
  induction t using induct_children generalizing p u with
  | node t ih =>
    rw [visit_eq, List.mem_cons, Prod.mk.injEq]
    cases p with
    | nil =>
      rw [leads_nil_iff]
      refine ⟨fun h => h.elim And.right fun hbelow => ?_, fun h => .inl ⟨rfl, h⟩⟩
      split at hbelow
      · cases hbelow
      · obtain ⟨j, q, c, heq, -⟩ := mem_visitFrom.1 hbelow
        cases heq
    | cons i p =>
      rw [leads_cons_iff]
      cases hclosed : closed t with
      | true => simp
      | false =>
        simp only [reduceCtorEq, false_and, false_or, Bool.false_eq_true, if_false, mem_visitFrom, true_and]
        constructor
        · rintro ⟨j, q, c, heq, hc, hmem⟩
          obtain ⟨rfl, rfl⟩ := List.cons.inj heq
          rw [Nat.zero_add]
          exact ⟨c, hc, (ih c (List.mem_of_getElem? hc)).1 hmem⟩
        · rintro ⟨c, hc, hleads⟩
          exact ⟨i, p, c, by rw [Nat.zero_add], hc, (ih c (List.mem_of_getElem? hc)).2 hleads⟩

/-! ## The order -/

theorem pairwise_visitFrom (h : ∀ c ∈ ts, (visit closed c).Pairwise fun a b => a.1 < b.1) (i : Nat) :
    (visitFrom closed i ts).Pairwise fun a b => a.1 < b.1 := by
  induction ts generalizing i with
  | nil => exact .nil
  | cons t ts ih =>
    rw [visitFrom, List.pairwise_append, List.pairwise_map]
    refine ⟨?_, ih (fun c hc => h c (List.mem_cons_of_mem _ hc)) (i + 1), ?_⟩
    · exact (h t List.mem_cons_self).imp fun hlt => List.cons_lt_cons_self.2 hlt
    · -- Positions below a child come before those below the children to its right.
      intro e he e' he'
      obtain ⟨d, -, rfl⟩ := List.mem_map.1 he
      obtain ⟨j, q, c, heq, -⟩ := mem_visitFrom.1 he'
      rw [heq]
      exact List.cons_lt_cons_iff.2 (.inl (by omega))

/-- A search comes to the nodes in the order of their positions. -/
theorem pairwise_visit (closed : Term → Bool) (t : Term) : (visit closed t).Pairwise fun a b => a.1 < b.1 := by
  induction t using induct_children with
  | node t ih =>
    rw [visit_eq, List.pairwise_cons]
    split
    · simp
    · refine ⟨fun e he => ?_, pairwise_visitFrom ih 0⟩
      obtain ⟨j, q, c, heq, -⟩ := mem_visitFrom.1 he
      rw [heq]
      exact List.nil_lt_cons _ _

/-! ## Stacks -/

/-- The nodes that a search comes to in the terms on a stack, one term after another. -/
def reached (closed : Term → Bool) (stack : List Term) : List Term :=
  stack.flatMap fun t => (visit closed t).map Prod.snd

theorem map_snd_visitFrom (closed : Term → Bool) (i : Nat) (ts : List Term) :
    (visitFrom closed i ts).map Prod.snd = reached closed ts := by
  induction ts generalizing i with
  | nil => rfl
  | cons t ts ih =>
    rw [visitFrom, List.map_append, List.map_map, ih, reached, reached, List.flatMap_cons]
    rfl

/-- The children of a node that is not closed can be put on the stack in its place. -/
theorem reached_cons (closed : Term → Bool) (t : Term) (stack : List Term) :
    reached closed (t :: stack) = t :: reached closed (if closed t then stack else t.children ++ stack) := by
  rw [reached, List.flatMap_cons, visit_eq, List.map_cons, List.cons_append]
  cases closed t with
  | true => rfl
  | false => simp only [Bool.false_eq_true, if_false, map_snd_visitFrom, reached, List.flatMap_append]

theorem reached_singleton (closed : Term → Bool) (t : Term) : reached closed [t] = (visit closed t).map Prod.snd :=
  List.flatMap_singleton _ t

/-! ## Searching -/

/-- In an ordered list the first element with something to find is the least one. -/
theorem findSome?_eq_some_iff_least {α β : Type} {a : α} {es : List (List Nat × β)}
    (h : es.Pairwise fun a b => a.1 < b.1) (f : β → Option α) : es.findSome? (fun e => f e.2) = some a ↔
      ∃ p u, (p, u) ∈ es ∧ f u = some a ∧ ∀ q v, (q, v) ∈ es → q < p → f v = none := by
  rw [List.findSome?_eq_some_iff]
  constructor
  · rintro ⟨before, ⟨p, u⟩, after, rfl, hf, hbefore⟩
    refine ⟨p, u, by simp, hf, fun q v hmem hlt => ?_⟩
    have hafter : ∀ e ∈ (p, u) :: after, ¬ e.1 < p := by
      intro e he hlt
      rcases List.mem_cons.1 he with rfl | he
      · exact List.lt_irrefl _ hlt
      · have hgt := (List.pairwise_cons.1 (List.pairwise_append.1 h).2.1).1 e he
        exact List.lt_asymm hlt hgt
    rcases List.mem_append.1 hmem with hmem | hmem
    · exact hbefore _ hmem
    · exact absurd hlt (hafter _ hmem)
  · rintro ⟨p, u, hmem, hf, hleast⟩
    obtain ⟨before, after, rfl⟩ := List.append_of_mem hmem
    refine ⟨before, (p, u), after, rfl, hf, fun e he => ?_⟩
    have hlt := (List.pairwise_append.1 h).2.2 e he (p, u) List.mem_cons_self
    exact hleast e.1 e.2 (List.mem_append_left _ he) hlt

/-- What a search finds is at the first position at which there is something to find. -/
theorem findSome?_visit {α : Type} {a : α} (f : Term → Option α) :
    (visit closed t).findSome? (fun e => f e.2) = some a ↔
      ∃ p u, Leads closed t p u ∧ f u = some a ∧ ∀ q v, Leads closed t q v → q < p → f v = none := by
  simp only [findSome?_eq_some_iff_least (pairwise_visit closed t), mem_visit]

end Term

end BaseLang
