import BaseLang.Proofs.Documents
import BaseLang.Proofs.Widths

/-!
# Where lines are broken

What is between the lines of a term that is laid out.

* `Text.unbroken` : a text without its line breaks and the indentation that follows them. `unbrokenFrom_append`,
  `unbrokenFrom_newline` : what it does with a piece of a line, and with a new line;
* `Term.spread` : texts on lines of their own. `unbrokenFrom_intercalate` : the same texts on one line;
* `Term.Arranged` : a node stands on one line, or each of its items and its closing bracket get a line;
* `arranged_layoutAt` : every layout of a well-named term is of that kind. `Arranged.unbrokenFrom_append` : on one line
  such a text is the compact text of the term;
* `pretty_inserts_breaks` : both of them for a whole term, which stays on one line if it fits there.
-/

namespace BaseLang

namespace Text

/-- A text without its line feeds and the spaces that follow them. The first argument says whether all characters
between the last line feed and the text were spaces. -/
def unbrokenFrom : Bool → List Char → List Char
  | _, [] => []
  | afterBreak, c :: cs =>
    if c = '\n' then unbrokenFrom true cs
    else if afterBreak ∧ c = ' ' then unbrokenFrom true cs
    else c :: unbrokenFrom false cs

/-- A text without its line feeds and the spaces that follow them. -/
def unbroken (cs : List Char) : List Char := unbrokenFrom false cs

variable {cs : List Char}

theorem unbrokenFrom_false_append (h : '\n' ∉ cs) (ds : List Char) :
    unbrokenFrom false (cs ++ ds) = cs ++ unbrokenFrom false ds := by
  induction cs with
  | nil => rfl
  | cons c cs ih =>
    obtain ⟨hc, hcs⟩ := not_or.1 (mt List.mem_cons.2 h)
    rw [List.cons_append, unbrokenFrom, if_neg (Ne.symm hc), if_neg (by simp), ih hcs, List.cons_append]

theorem Solid.unbrokenFrom_append (h : Solid cs) (afterBreak : Bool) (ds : List Char) :
    unbrokenFrom afterBreak (cs ++ ds) = cs ++ unbrokenFrom false ds := by
  obtain ⟨c, rest, rfl, hspace⟩ := h.head
  obtain ⟨hc, hrest⟩ := not_or.1 (mt List.mem_cons.2 h.newline_notMem)
  rw [List.cons_append, unbrokenFrom, if_neg (Ne.symm hc), if_neg (by simp [hspace]),
    unbrokenFrom_false_append hrest, List.cons_append]

theorem unbrokenFrom_newline (afterBreak : Bool) (indent : Nat) (ds : List Char) :
    unbrokenFrom afterBreak (Term.newline indent ++ ds) = unbrokenFrom true ds := by
  have hspaces : unbrokenFrom true (List.replicate indent ' ' ++ ds) = unbrokenFrom true ds := by
    induction indent with
    | zero => rfl
    | succ k ih =>
      rw [List.replicate_succ, List.cons_append, unbrokenFrom, if_neg (by decide), if_pos ⟨rfl, rfl⟩, ih]
  rw [Term.newline, List.cons_append, unbrokenFrom, if_pos rfl, hspaces]

end Text

namespace Term

open Text

variable {t : Term} {limit depth trail : Nat} {cs opening : List Char} {items : List Term} {texts : List (List Char)}
  {close : Char}

/-- The texts of the items of a node with `depth` broken nodes around it, on lines of their own between the lines of its
brackets. A comma follows every item but the last one. -/
def spread (depth : Nat) (texts : List (List Char)) : List Char :=
  newline (2 * (depth + 1)) ++ ((',' :: newline (2 * (depth + 1))).intercalate texts ++ newline (2 * depth))

/-- A text for a term with `depth` broken nodes around it. It is the compact text of the term on one line, or it has a
line break behind the opening bracket, behind each comma between two items and in front of the closing bracket. The
items are indented by two spaces for each broken node around them. -/
inductive Arranged : (depth : Nat) → Term → List Char → Prop
  | unbroken {depth : Nat} {t : Term} (h : '\n' ∉ t.chars) : Arranged depth t t.chars
  | broken {depth : Nat} {t : Term} {opening : List Char} {items : List Term} {close : Char}
    {texts : List (List Char)} (h : t.Bracketed opening items close) (hlength : texts.length = items.length)
    (hitems : ∀ p ∈ items.zip texts, Arranged (depth + 1) p.1 p.2) :
    Arranged depth t (opening ++ (spread depth texts ++ [close]))

/-- Every layout of a well-named term breaks all lines of a node or none of them. -/
theorem arranged_layoutAt (h : t.WellNamed) (limit depth trail : Nat) :
    Arranged depth t (layoutAt limit (2 * depth) trail t) := by
  induction t using induct_bracketed generalizing depth trail with
  | leaf t ht =>
    rw [ht.layoutAt_eq]
    exact .unbroken (newline_notMem_chars h)
  | bracketed t opening items close ht ih =>
    rw [ht.layoutAt_eq h]
    split
    · exact .unbroken (newline_notMem_chars h)
    · have hitems : ∀ p ∈ items.zip (itemTexts limit (2 * depth) items), Arranged (depth + 1) p.1 p.2 :=
        forall_mem_zip_itemTexts fun u hu trail => ih u hu (ht.wellNamed h u hu) (depth + 1) trail
      have harranged := Arranged.broken ht (length_itemTexts limit (2 * depth) items) hitems
      rwa [spread, List.append_assoc, List.append_assoc] at harranged

/-- Items on lines of their own, and the same items on one line. -/
theorem unbrokenFrom_intercalate (indent : Nat) (hne : items ≠ []) (hlength : texts.length = items.length)
    (h : ∀ p ∈ items.zip texts, ∀ ds, unbrokenFrom true (p.2 ++ ds) = p.1.chars ++ unbrokenFrom false ds)
    (ds : List Char) : unbrokenFrom true ((',' :: newline indent).intercalate texts ++ ds)
      = [','].intercalate (items.map chars) ++ unbrokenFrom false ds := by
  induction items generalizing texts with
  | nil => exact absurd rfl hne
  | cons u us ih =>
    obtain ⟨x, xs, rfl⟩ := List.exists_cons_of_length_eq_add_one hlength
    obtain ⟨hx, hxs⟩ := List.forall_mem_cons.1 h
    cases us with
    | nil =>
      obtain rfl := List.eq_nil_of_length_eq_zero (Nat.succ.inj hlength)
      simpa using hx ds
    | cons v vs =>
      obtain ⟨y, ys, rfl⟩ := List.exists_cons_of_length_eq_add_one (Nat.succ.inj hlength)
      have hrest := ih (List.cons_ne_nil v vs) (Nat.succ.inj hlength) hxs
      have hcomma : Solid [','] := solid_cons (by decide) (by decide)
      rw [List.intercalate_cons_cons, List.append_assoc, List.append_assoc, hx, List.cons_append,
        ← List.singleton_append, hcomma.unbrokenFrom_append, unbrokenFrom_newline, hrest]
      simp [List.intercalate_cons_cons]

/-- Without its line breaks, a layout is the compact text. -/
theorem Arranged.unbrokenFrom_append (h : Arranged depth t cs) (hn : t.WellNamed) (afterBreak : Bool) (ds : List Char) :
    unbrokenFrom afterBreak (cs ++ ds) = t.chars ++ unbrokenFrom false ds := by
  induction h generalizing afterBreak ds with
  | unbroken h => exact (solid_chars hn).unbrokenFrom_append afterBreak ds
  | @broken depth t opening items close texts h hlength hitems ih =>
    have hclose : Solid [close] := solid_cons h.close_ne.2 (by simp [h.close_ne.1.symm])
    have htexts := unbrokenFrom_intercalate (2 * (depth + 1)) h.ne_nil hlength fun p hp =>
      ih p hp (h.wellNamed hn _ (List.of_mem_zip hp).1) true
    rw [spread]
    simp only [List.append_assoc]
    rw [(h.solid_opening hn).unbrokenFrom_append, unbrokenFrom_newline, htexts, unbrokenFrom_newline,
      hclose.unbrokenFrom_append, h.chars_eq]
    simp only [List.append_assoc]

theorem layoutAt_eq_chars (h : t.WellNamed) {indent : Nat} (hfits : indent + t.width + trail ≤ limit) :
    layoutAt limit indent trail t = t.chars := by
  cases t using induct_bracketed with
  | leaf t ht => exact ht.layoutAt_eq limit indent trail
  | bracketed t opening items close ht => rw [ht.layoutAt_eq h, if_pos hfits]

/-- A well-named term is laid out like its document. Without its line breaks it is the compact text, every node has all
its line breaks or none, and none are inserted if the compact text is not too wide. -/
theorem pretty_inserts_breaks (h : t.WellNamed) (limit : Nat) :
    t.document.layout limit = t.pretty limit ∧
    String.ofList (unbroken (t.pretty limit).toList) = t.text ∧
    Arranged 0 t (t.pretty limit).toList ∧
    (displayWidth t.text.toList ≤ limit → t.pretty limit = t.text) := by
  have harranged : Arranged 0 t (layoutAt limit 0 0 t) := arranged_layoutAt h limit 0 0
  refine ⟨layout_document h limit, ?_, ?_, ?_⟩
  · have hunbroken := harranged.unbrokenFrom_append h false []
    rw [List.append_nil] at hunbroken
    rw [pretty, String.toList_ofList, unbroken, hunbroken]
    simp [unbrokenFrom, text]
  · rwa [pretty, String.toList_ofList]
  · intro hwidth
    rw [text, String.toList_ofList, ← width_eq h] at hwidth
    rw [pretty, layoutAt_eq_chars h (by omega), text]

/-- A list that is broken inside a broken application, with an application that fits on its line and a literal with a
space behind an escaped line feed. -/
theorem pretty_inserts_breaks_nested :
    let t := appl "f" [list [appl "g" [int 1], str "a\n b"], appl "h" []]
    t.WellNamed ∧ t.pretty 10 = "f(\n  [\n    g(1),\n    \"a\\n b\"\n  ],\n  h\n)"
    ∧ t.document.layout 10 = t.pretty 10 ∧ String.ofList (unbroken (t.pretty 10).toList) = t.text
    ∧ Arranged 0 t (t.pretty 10).toList ∧ t.pretty 19 = "f([g(1),\"a\\n b\"],h)" := by
  intro t
  have hn : t.WellNamed := by decide
  have hbroken : t.pretty 10 = "f(\n  [\n    g(1),\n    \"a\\n b\"\n  ],\n  h\n)" := by decide
  have htext : t.text = "f([g(1),\"a\\n b\"],h)" := by decide
  obtain ⟨hdocument, hunbroken, harranged, -⟩ := pretty_inserts_breaks hn 10
  obtain ⟨-, -, -, hfits⟩ := pretty_inserts_breaks hn 19
  exact ⟨hn, hbroken, hdocument, hunbroken, harranged, (hfits (by decide)).trans htext⟩

end Term

end BaseLang
