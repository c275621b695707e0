import BaseLang.Proofs.Widths

/-!
# Lines that are too wide

Where a layout has a line wider than the limit, the line has no place for another break.

* `Text.fields_newline` : the lines around a line break;
* `Term.Piece` : the text of a node without items, what opens a bracketed node, and a closing bracket;
* `Term.Tolerated` : a line that is not too wide, or that is one piece behind its indentation;
* `forall_mem_fields_items` : the lines of the items of a broken node. `tolerated_layoutAt` : all lines of a layout,
  together with the comma that may follow it;
* `overlong_lines` : the lines of a whole term.
-/

namespace BaseLang

open Text

theorem Text.fields_newline (cs ds : List Char) (indent : Nat) :
    fields '\n' (cs ++ (Term.newline indent ++ ds))
      = fields '\n' cs ++ fields '\n' (List.replicate indent ' ' ++ ds) := by
  rw [Term.newline, List.cons_append, fields_append_sep]

theorem Text.fields_indented {cs : List Char} (h : '\n' ∉ cs) (indent : Nat) :
    fields '\n' (List.replicate indent ' ' ++ cs) = [List.replicate indent ' ' ++ cs] :=
  fields_eq_singleton (List.not_mem_append (newline_notMem_spaces indent) h)

namespace Term

variable {t u : Term} {limit indent : Nat} {cs line trail opening : List Char} {items ts : List Term} {close : Char}

/-- A text of a node of `t` with no place for a line break: a literal, a name or empty brackets, what stands in front of
the items of a node, or the bracket behind them. -/
inductive Piece (t : Term) : List Char → Prop
  | leaf {u : Term} (hu : u ∈ t.nodes) (h : u.Leaf) : Piece t u.chars
  | opening {u : Term} {opening : List Char} {items : List Term} {close : Char} (hu : u ∈ t.nodes)
    (h : u.Bracketed opening items close) : Piece t opening
  | closing {u : Term} {opening : List Char} {items : List Term} {close : Char} (hu : u ∈ t.nodes)
    (h : u.Bracketed opening items close) : Piece t [close]

theorem Bracketed.mem_nodes (h : t.Bracketed opening items close) (hu : u ∈ items) {v : Term} (hv : v ∈ u.nodes) :
    v ∈ t.nodes := by
  rw [nodes_eq, h.children_eq]
  exact List.mem_cons_of_mem _ (mem_nodesOf.2 ⟨u, hu, hv⟩)

theorem Piece.of_item (h : t.Bracketed opening items close) (hu : u ∈ items) (hp : u.Piece cs) : t.Piece cs := by
  cases hp with
  | leaf hv hleaf => exact .leaf (h.mem_nodes hu hv) hleaf
  | opening hv hv' => exact .opening (h.mem_nodes hu hv) hv'
  | closing hv hv' => exact .closing (h.mem_nodes hu hv) hv'

/-- What may follow a term on its last line. -/
def Trail (trail : List Char) : Prop := trail = [] ∨ trail = [',']

/-- A line that is not too wide, or that holds nothing but indentation, a piece of `t` and what may follow it. -/
def Tolerated (limit : Nat) (t : Term) (line : List Char) : Prop :=
  displayWidth line ≤ limit ∨ ∃ indent piece trail, t.Piece piece ∧ Trail trail
    ∧ line = List.replicate indent ' ' ++ (piece ++ trail)

theorem Tolerated.of_item (h : t.Bracketed opening items close) (hu : u ∈ items) (hl : u.Tolerated limit line) :
    t.Tolerated limit line := by
  rcases hl with hfits | ⟨indent, piece, trail, hpiece, htrail, rfl⟩
  · exact .inl hfits
  · exact .inr ⟨indent, piece, trail, .of_item h hu hpiece, htrail, rfl⟩

theorem Trail.newline_notMem (h : Trail trail) : '\n' ∉ trail := by
  rcases h with rfl | rfl <;> decide

theorem Trail.measures (h : Trail trail) : Measures trail trail.length := by
  rcases h with rfl | rfl <;> rfl

theorem tolerated_piece (limit : Nat) (h : t.Piece cs) (hn : '\n' ∉ cs) (htrail : Trail trail) (indent : Nat) :
    ∀ line ∈ fields '\n' (List.replicate indent ' ' ++ (cs ++ trail)), t.Tolerated limit line := by
  intro line hline
  rw [fields_indented (List.not_mem_append hn htrail.newline_notMem), List.mem_singleton] at hline
  exact .inr ⟨indent, cs, trail, h, htrail, hline⟩

/-- All lines of the items are of a kind if those of each item are, with the comma that may follow it. -/
theorem forall_mem_fields_items {P : List Char → Prop} (hne : ts ≠ [])
    (h : ∀ u ∈ ts, ∀ trail, Trail trail → ∀ line ∈ fields '\n' (List.replicate (indent + 2) ' '
      ++ (layoutAt limit (indent + 2) trail.length u ++ trail)), P line) :
    ∀ line ∈ fields '\n' (List.replicate (indent + 2) ' '
      ++ (',' :: newline (indent + 2)).intercalate (itemTexts limit indent ts)), P line := by
  induction ts with
  | nil => exact absurd rfl hne
  | cons u us ih =>
    obtain ⟨hu, hus⟩ := List.forall_mem_cons.1 h
    cases us with
    | nil =>
      have hlast := hu [] (.inl rfl)
      rw [List.append_nil] at hlast
      rwa [itemTexts, itemTexts, List.intercalate_singleton]
    | cons v vs =>
      have hfirst := hu [','] (.inr rfl)
      have hrest := ih (List.cons_ne_nil v vs) hus
      have hsplit : List.replicate (indent + 2) ' '
          ++ (',' :: newline (indent + 2)).intercalate (itemTexts limit indent (u :: v :: vs))
          = (List.replicate (indent + 2) ' ' ++ (layoutAt limit (indent + 2) 1 u ++ [',']))
            ++ (newline (indent + 2)
              ++ (',' :: newline (indent + 2)).intercalate (itemTexts limit indent (v :: vs))) := by
        simp [itemTexts, trailOf, List.intercalate_cons_cons]
      rw [hsplit, fields_newline]
      intro line hline
      rcases List.mem_append.1 hline with hline | hline
      · exact hfirst line hline
      · exact hrest line hline

/-- A node on one line has been measured together with what follows it. -/
theorem tolerated_chars (h : t.WellNamed) (htrail : Trail trail) (hfits : indent + t.width + trail.length ≤ limit) :
    ∀ line ∈ fields '\n' (List.replicate indent ' ' ++ (t.chars ++ trail)), t.Tolerated limit line := by
  intro line hline
  have hnewline : '\n' ∉ t.chars ++ trail := List.not_mem_append (newline_notMem_chars h) htrail.newline_notMem
  rw [fields_indented hnewline, List.mem_singleton] at hline
  have hmeasure : Measures line (indent + (t.width + trail.length)) :=
    hline ▸ (measures_spaces indent).append ((measures_chars h).append htrail.measures)
  have hone : '\n' ∉ line := hline ▸ List.not_mem_append (newline_notMem_spaces indent) hnewline
  refine .inl ?_
  rw [hmeasure.displayWidth_eq hone]
  omega

/-- No line of a layout has a place for another break where it is too wide. The layout starts a line, and a comma may
follow it. -/
theorem tolerated_layoutAt (h : t.WellNamed) (limit indent : Nat) (htrail : Trail trail) :
    ∀ line ∈ fields '\n' (List.replicate indent ' ' ++ (layoutAt limit indent trail.length t ++ trail)),
      t.Tolerated limit line := by
  induction t using induct_bracketed generalizing indent trail with
  | leaf t ht =>
    rw [ht.layoutAt_eq]
    exact tolerated_piece limit (.leaf (by simp [nodes_eq]) ht) (newline_notMem_chars h) htrail indent
  | bracketed t opening items close ht ih =>
    rw [ht.layoutAt_eq h]
    split
    · exact tolerated_chars h htrail ‹_›
    · have hself : t ∈ t.nodes := by simp [nodes_eq]
      have hnewline : '\n' ∉ opening := (ht.solid_opening h).newline_notMem
      have hclose : '\n' ∉ [close] := by simp [ht.close_ne.1.symm]
      have hopening := tolerated_piece limit (.opening hself ht) hnewline (.inl rfl) indent
      have hclosing := tolerated_piece limit (.closing hself ht) hclose htrail indent
      have hitems : ∀ line ∈ fields '\n' (List.replicate (indent + 2) ' '
          ++ (',' :: newline (indent + 2)).intercalate (itemTexts limit indent items)), t.Tolerated limit line :=
        forall_mem_fields_items ht.ne_nil fun u hu trail htrail line hline =>
          .of_item ht hu (ih u hu (ht.wellNamed h u hu) (indent + 2) htrail line hline)
      intro line hline
      rw [List.append_nil] at hopening
      simp only [List.append_assoc] at hline
      rw [← List.append_assoc, fields_newline, ← List.append_assoc (List.replicate _ _), fields_newline] at hline
      rcases List.mem_append.1 hline with hline | hline
      · exact hopening line hline
      · rcases List.mem_append.1 hline with hline | hline
        · exact hitems line hline
        · exact hclosing line hline

/-- A line that is too wide holds nothing but indentation, a piece that cannot be broken and perhaps a comma. -/
theorem overlong_lines (h : t.WellNamed) (limit : Nat) :
    ∀ line ∈ fields '\n' (t.pretty limit).toList, limit < displayWidth line →
      ∃ indent piece trail, t.Piece piece ∧ Trail trail ∧ line = List.replicate indent ' ' ++ (piece ++ trail) := by
  intro line hline hwide
  have htolerated := tolerated_layoutAt h limit 0 (.inl rfl) line
  rw [List.append_nil] at htolerated
  rw [pretty, String.toList_ofList] at hline
  rcases htolerated hline with hfits | hpiece
  · omega
  · exact hpiece

/-- A constructor with its parenthesis and a literal with its comma are too wide for six columns. -/
theorem overlong_lines_comma :
    let t := appl "f" [appl "constructor" [list []], str "long", int 7]
    t.WellNamed ∧ t.pretty 6 = "f(\n  constructor(\n    []\n  ),\n  \"long\",\n  7\n)"
    ∧ (∃ indent piece trail, t.Piece piece ∧ Trail trail
      ∧ "  constructor(".toList = List.replicate indent ' ' ++ (piece ++ trail))
    ∧ ∃ indent piece trail, t.Piece piece ∧ Trail trail
      ∧ "  \"long\",".toList = List.replicate indent ' ' ++ (piece ++ trail) := by
  intro t
  have hn : t.WellNamed := by decide
  have hpretty : t.pretty 6 = "f(\n  constructor(\n    []\n  ),\n  \"long\",\n  7\n)" := by decide
  have hlines := overlong_lines hn 6
  rw [hpretty] at hlines
  exact ⟨hn, hpretty, hlines _ (by decide) (by decide), hlines _ (by decide) (by decide)⟩

end Term

end BaseLang
