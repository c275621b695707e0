import BaseLang.Proofs.GeneratedSource
import BaseLang.Term.Layout

/-!
# Nodes between brackets

Applications with arguments and lists with elements are written alike, and so are all other terms, which have no items.

* `Term.Leaf`, `Term.Bracketed` : the two kinds of nodes. `Term.induct_bracketed` : induction over them;
* `Bracketed.chars_eq`, `Bracketed.layoutAt_eq` : both kinds of brackets in one equation, on one line and broken over
  several ones (`Term.itemTexts`);
* `Leaf.layoutAt_eq` : a term without items stays as it is;
* `Text.Solid` : a text that starts with no space and has no line feed. `solid_chars`, `Bracketed.solid_opening` : the
  compact text of a term, and what opens a node.
-/

namespace BaseLang

/-! ## Texts on one line -/

/-- A text that is not empty, starts with no space and stands on one line. -/
structure Text.Solid (cs : List Char) : Prop where
  head : ∃ c rest, cs = c :: rest ∧ c ≠ ' '
  newline_notMem : '\n' ∉ cs

theorem Text.solid_cons {c : Char} {cs : List Char} (hc : c ≠ ' ') (h : '\n' ∉ c :: cs) : Solid (c :: cs) :=
  ⟨⟨c, cs, rfl, hc⟩, h⟩

theorem Text.Solid.append {cs ds : List Char} (h : Solid cs) (hds : '\n' ∉ ds) : Solid (cs ++ ds) := by
  obtain ⟨c, rest, rfl, hc⟩ := h.head
  exact ⟨⟨c, rest ++ ds, rfl, hc⟩, List.not_mem_append h.newline_notMem hds⟩

theorem Text.solid_decimal (n : Int) : Solid (decimal n) := by
  have hspace : ' ' ∉ decimal n := fun hm => absurd (mem_decimal hm) (by decide)
  obtain ⟨c, rest, hcs⟩ := List.exists_cons_of_ne_nil (decimal_ne_nil n)
  refine ⟨⟨c, rest, hcs, ?_⟩, newline_notMem_decimal n⟩
  rintro rfl
  simp [hcs] at hspace

theorem Lexer.solid_of_isIdent {name : List Char} (h : isIdent name = true) : Text.Solid name := by
  refine ⟨?_, newline_notMem_of_isIdent h⟩
  cases name with
  | nil => cases h
  | cons c rest =>
    simp only [isIdent, Bool.and_eq_true] at h
    exact ⟨c, rest, rfl, fun e => absurd (e ▸ h.1) (by decide)⟩

namespace Term

variable {t : Term} {items ts : List Term} {opening : List Char} {close : Char}

/-! ## The two kinds of nodes -/

/-- A node without items. -/
inductive Leaf : Term → Prop where
  | name (cons : String) : Leaf (.appl cons [])
  | empty : Leaf (.list [])
  | str (text : String) : Leaf (.str text)
  | int (value : Int64) : Leaf (.int value)

/-- A node with items: what is written in front of them, the items, and the closing bracket. -/
inductive Bracketed : Term → List Char → List Term → Char → Prop where
  | appl {items : List Term} (cons : String) (hne : items ≠ []) :
    Bracketed (.appl cons items) (cons.toList ++ ['(']) items ')'
  | list {items : List Term} (hne : items ≠ []) : Bracketed (.list items) ['['] items ']'

/-- Induction on terms over the two kinds of nodes. -/
theorem induct_bracketed {motive : Term → Prop} (leaf : ∀ t, Leaf t → motive t)
    (bracketed : ∀ t opening items close, Bracketed t opening items close → (∀ x ∈ items, motive x) → motive t)
    (t : Term) : motive t := by
  induction t using Term.induct with
  | appl cons args ih =>
    cases args with
    | nil => exact leaf _ (.name cons)
    | cons u us => exact bracketed _ _ _ _ (.appl cons (List.cons_ne_nil u us)) ih
  | list elems ih =>
    cases elems with
    | nil => exact leaf _ .empty
    | cons u us => exact bracketed _ _ _ _ (.list (List.cons_ne_nil u us)) ih
  | str text => exact leaf _ (.str text)
  | int value => exact leaf _ (.int value)

/-! ## On one line -/

theorem chars_append_charsAfter (t : Term) (ts : List Term) :
    t.chars ++ charsAfter ts = [','].intercalate ((t :: ts).map chars) := by
  induction ts generalizing t with
  | nil => simp [charsAfter]
  | cons u us ih =>
    rw [List.map_cons, List.map_cons, List.intercalate_cons_cons, ← List.map_cons, ← ih]
    simp [charsAfter]

/-! ## On several lines -/

/-- The texts of the items of a broken node. All but the last one are followed by a comma. -/
def itemTexts (limit indent : Nat) : List Term → List (List Char)
  | [] => []
  | t :: ts => layoutAt limit (indent + 2) (trailOf ts) t :: itemTexts limit indent ts

theorem length_itemTexts (limit indent : Nat) (ts : List Term) : (itemTexts limit indent ts).length = ts.length := by
  induction ts with
  | nil => rfl
  | cons t ts ih => rw [itemTexts, List.length_cons, List.length_cons, ih]

/-- What holds of an item, whatever follows it, holds of all items with their texts. -/
theorem forall_mem_zip_itemTexts {limit indent : Nat} {P : Term → List Char → Prop}
    (h : ∀ t ∈ ts, ∀ trail, P t (layoutAt limit (indent + 2) trail t)) :
    ∀ p ∈ ts.zip (itemTexts limit indent ts), P p.1 p.2 := by
  induction ts with
  | nil => simp
  | cons t ts ih =>
    obtain ⟨ht, hts⟩ := List.forall_mem_cons.1 h
    rw [itemTexts, List.zip_cons_cons]
    exact List.forall_mem_cons.2 ⟨ht _, ih hts⟩

/-- No item of a well-named term is without text. -/
theorem itemIndent_eq (h : t.WellNamed) (indent : Nat) (ts : List Term) : itemIndent indent t ts = indent + 2 := by
  have hblank : t.isBlank = false := by
    unfold isBlank
    split
    · exact absurd rfl (chars_ne_nil h)
    · rfl
  rw [itemIndent, hblank]
  rfl

theorem layoutAt_append_layoutAfter (limit indent : Nat) (t : Term) (h : ∀ u ∈ ts, u.WellNamed) :
    layoutAt limit (indent + 2) (trailOf ts) t ++ layoutAfter limit indent ts
      = (',' :: newline (indent + 2)).intercalate (itemTexts limit indent (t :: ts)) := by
  induction ts generalizing t with
  | nil => simp [layoutAfter, itemTexts]
  | cons u us ih =>
    obtain ⟨hu, hus⟩ := List.forall_mem_cons.1 h
    rw [itemTexts, itemTexts, List.intercalate_cons_cons, ← itemTexts, ← ih u hus]
    simp [layoutAfter, itemIndent_eq hu]

namespace Bracketed

theorem ne_nil (h : t.Bracketed opening items close) : items ≠ [] := by
  cases h <;> assumption

theorem children_eq (h : t.Bracketed opening items close) : t.children = items := by
  cases h <;> rfl

theorem wellNamed (h : t.Bracketed opening items close) (hn : t.WellNamed) : ∀ x ∈ items, x.WellNamed := by
  cases h with
  | appl => exact (wellNamed_appl.1 hn).2
  | list => exact wellNamed_list.1 hn

theorem close_ne (h : t.Bracketed opening items close) : close ≠ '\n' ∧ close ≠ ' ' := by
  cases h <;> decide

theorem solid_opening (h : t.Bracketed opening items close) (hn : t.WellNamed) : Text.Solid opening := by
  cases h with
  | appl => exact (Lexer.solid_of_isIdent (wellNamed_appl.1 hn).1).append (by decide)
  | list => exact Text.solid_cons (by decide) (by decide)

theorem chars_eq (h : t.Bracketed opening items close) :
    t.chars = opening ++ ([','].intercalate (items.map chars) ++ [close]) := by
  obtain ⟨u, us, rfl⟩ := List.exists_cons_of_ne_nil h.ne_nil
  rw [← chars_append_charsAfter]
  cases h with
  | appl => simp [chars]
  | list => simp [chars]

/-- A node stays on its line if it fits there. Otherwise each item gets a line, and so does the closing bracket. -/
theorem layoutAt_eq (h : t.Bracketed opening items close) (hn : t.WellNamed) (limit indent trail : Nat) :
    layoutAt limit indent trail t = if indent + t.width + trail ≤ limit then t.chars
      else opening ++ (newline (indent + 2) ++ ((',' :: newline (indent + 2)).intercalate (itemTexts limit indent items)
        ++ (newline indent ++ [close]))) := by
  obtain ⟨u, us, rfl⟩ := List.exists_cons_of_ne_nil h.ne_nil
  obtain ⟨hu, hus⟩ := List.forall_mem_cons.1 (h.wellNamed hn)
  rw [← layoutAt_append_layoutAfter limit indent u hus]
  cases h with
  | appl =>
    rw [layoutAt, itemIndent_eq hu]
    simp only [List.append_assoc, List.cons_append, List.nil_append]
  | list =>
    rw [layoutAt, itemIndent_eq hu]
    simp only [List.append_assoc, List.cons_append, List.nil_append]

end Bracketed

theorem Leaf.layoutAt_eq (h : t.Leaf) (limit indent trail : Nat) : layoutAt limit indent trail t = t.chars := by
  cases h <;> simp only [layoutAt, chars]

theorem solid_chars (h : t.WellNamed) : Text.Solid t.chars := by
  cases t using induct_bracketed with
  | leaf t ht =>
    cases ht with
    | name cons =>
      rw [chars]
      exact Lexer.solid_of_isIdent (wellNamed_appl.1 h).1
    | empty =>
      rw [chars]
      exact Text.solid_cons (by decide) (by decide)
    | str text =>
      rw [chars]
      exact Text.solid_cons (by decide) (Text.newline_notMem_quoted _)
    | int value =>
      rw [chars]
      exact Text.solid_decimal _
  | bracketed t opening items close ht =>
    obtain ⟨c, rest, hopening, hc⟩ := (ht.solid_opening h).head
    exact ⟨⟨c, _, by rw [ht.chars_eq, hopening]; rfl, hc⟩, newline_notMem_chars h⟩

end Term

end BaseLang
