import BaseLang.Grammar.PrettyTable
import BaseLang.Proofs.DecodedTables
import BaseLang.Proofs.Positions

/-!
# Pretty-print tables by position

The table of a grammar, said through the positions of its productions alone.

* `Term.Names` : the constructor that attributes name, at the first position where one is named.
  `constructor?_eq_some_iff` : this is the one that is found;
* `Term.constructorFrom?_eq`, `Term.productionsFrom_eq` : a search with a stack goes through the nodes in pre-order;
* `Term.HasProduction`, `Term.ListsProductions` : a production at a position, and all of them in pre-order;
* `Production.LaidOut` : the symbols of a production one by one, with the number of each argument. `laidOut_layout`,
  `LaidOut.unique` : a production is laid out so, and there is no other way;
* `PrettyTable.firstPlaces_ofProductions`, `PrettyTable.get?_ofProductions` : the first production of a constructor
  decides where it stands in a table and how it is laid out;
* `PrettyTable.text_eq` : the lines of a table;
* `ofGrammar_first` : the table of a grammar.
-/

namespace BaseLang

open Term

namespace Term

variable {attrs grammar u : Term} {name C : String} {p : List Nat} {x : Production}

/-! ## Named constructors -/

/-- Attributes name a constructor by `cons(name)`, at the first position of such an application in pre-order. Those
below an application of `cons` to one argument do not count. -/
def Names (attrs : Term) (name : String) : Prop :=
  ∃ p, Leads isNaming attrs p (.appl "cons" [.str name])
    ∧ ∀ q other, Leads isNaming attrs q (.appl "cons" [.str other]) → ¬ q < p

theorem named?_eq_some_iff : u.named? = some C ↔ ∃ name, u = .appl "cons" [.str name] ∧ Text.unquote name = C := by
  simp only [named?, Option.map_eq_some_iff, textOf?_eq_some_iff]

theorem isNaming_of_named? (h : u.named? = some C) : u.isNaming = true := by
  obtain ⟨name, rfl, -⟩ := named?_eq_some_iff.1 h
  rfl

/-- The name that is found in the terms on a stack is the first one that a search comes to. -/
theorem constructorFrom?_eq (stack : List Term) :
    constructorFrom? stack = (reached isNaming stack).findSome? named? := by
  fun_induction constructorFrom? stack with
  | case1 => rfl
  | case2 t stack hnaming name hname => rw [reached_cons, List.findSome?_cons, hname]
  | case3 t stack hnaming hname ih => rw [reached_cons, List.findSome?_cons, hname, if_pos hnaming, ih]
  | case4 t stack hnaming ih =>
    have hname : t.named? = none := by
      cases hname : t.named? with
      | none => rfl
      | some name => exact absurd (isNaming_of_named? hname) hnaming
    rw [reached_cons, List.findSome?_cons, hname, if_neg hnaming, ih]

theorem constructor?_eq_findSome? (t : Term) :
    t.constructor? = (visit isNaming t).findSome? fun e => e.2.named? := by
  rw [constructor?, constructorFrom?_eq, reached_singleton, List.findSome?_map]
  rfl

theorem constructor?_eq_some_iff : attrs.constructor? = some C ↔ ∃ name, attrs.Names name ∧ C = Text.unquote name := by
  rw [constructor?_eq_findSome?, findSome?_visit named?]
  constructor
  · rintro ⟨p, u, hleads, hu, hleast⟩
    obtain ⟨name, rfl, rfl⟩ := named?_eq_some_iff.1 hu
    refine ⟨name, ⟨p, hleads, fun q other hother hlt => ?_⟩, rfl⟩
    cases hleast q _ hother hlt
  · rintro ⟨name, ⟨p, hleads, hleast⟩, rfl⟩
    refine ⟨p, _, hleads, rfl, fun q v hv hlt => ?_⟩
    cases hnamed : v.named? with
    | none => rfl
    | some other =>
      obtain ⟨name', rfl, -⟩ := named?_eq_some_iff.1 hnamed
      exact absurd hlt (hleast q name' hv)

/-! ## Productions -/

/-- At the position `p` of a grammar there is a production `prod([symbol, ...], result, attributes)` whose attributes
name a constructor. -/
def HasProduction (grammar : Term) (p : List Nat) (x : Production) : Prop :=
  ∃ result attrs name, Leads (fun _ => false) grammar p (.appl "prod" [.list x.symbols, result, attrs])
    ∧ attrs.Names name ∧ x.cons = Text.unquote name

/-- The productions of a grammar, each with its position, in pre-order. -/
structure ListsProductions (grammar : Term) (ps : List (List Nat × Production)) : Prop where
  mem_iff : ∀ p x, (p, x) ∈ ps ↔ grammar.HasProduction p x
  ordered : ps.Pairwise fun a b => a.1 < b.1

theorem production?_eq_some_iff : u.production? = some x ↔
    ∃ result attrs name, u = .appl "prod" [.list x.symbols, result, attrs] ∧ attrs.Names name
      ∧ x.cons = Text.unquote name := by
  constructor
  · intro h
    rw [production?.eq_def] at h
    split at h
    · rename_i cons symbols result attrs
      split at h
      · rename_i hcons
        obtain ⟨C, hC, rfl⟩ := Option.map_eq_some_iff.1 h
        obtain ⟨name, hname, rfl⟩ := constructor?_eq_some_iff.1 hC
        exact ⟨result, attrs, name, by rw [hcons], hname, rfl⟩
      · cases h
    · cases h
  · rintro ⟨result, attrs, name, rfl, hname, hcons⟩
    have hconstructor := constructor?_eq_some_iff.2 ⟨name, hname, rfl⟩
    rw [production?, if_pos rfl, hconstructor, Option.map_some, ← hcons]

/-- The productions that a search comes to, with their positions. -/
def placedProductions (grammar : Term) : List (List Nat × Production) :=
  (visit (fun _ => false) grammar).filterMap fun e => e.2.production?.map (e.1, ·)

/-- The productions that are found in the terms on a stack are those that a search comes to. -/
theorem productionsFrom_eq (stack : List Term) :
    productionsFrom stack = (reached (fun _ => false) stack).filterMap production? := by
  fun_induction productionsFrom stack with
  | case1 => rfl
  | case2 t stack ih =>
    rw [reached_cons, List.filterMap_cons, ih]
    cases production? t <;> rfl

theorem map_snd_placedProductions (grammar : Term) : grammar.placedProductions.map Prod.snd = grammar.productions := by
  rw [productions, productionsFrom_eq, reached_singleton, placedProductions, List.map_filterMap, List.filterMap_map]
  congr 1
  funext e
  rw [Function.comp_apply]
  cases e.2.production? <;> rfl

theorem listsProductions (grammar : Term) : grammar.ListsProductions grammar.placedProductions where
  mem_iff p x := by
    simp only [placedProductions, List.mem_filterMap, Option.map_eq_some_iff]
    constructor
    · rintro ⟨⟨q, u⟩, hmem, y, hy, heq⟩
      cases heq
      obtain ⟨result, attrs, name, rfl, hname, hcons⟩ := production?_eq_some_iff.1 hy
      exact ⟨result, attrs, name, mem_visit.1 hmem, hname, hcons⟩
    · rintro ⟨result, attrs, name, hleads, hname, hcons⟩
      exact ⟨(p, _), mem_visit.2 hleads, x, production?_eq_some_iff.2 ⟨result, attrs, name, rfl, hname, hcons⟩, rfl⟩
  ordered := by
    refine (pairwise_visit (fun _ => false) grammar).filterMap _ fun a b hlt x hx y hy => ?_
    obtain ⟨_, -, rfl⟩ := Option.map_eq_some_iff.1 hx
    obtain ⟨_, -, rfl⟩ := Option.map_eq_some_iff.1 hy
    exact hlt

end Term

/-! ## Layouts -/

/-- A symbol that is printed as it is. -/
def Term.IsLiteral (symbol : Term) : Prop := ∃ text, symbol = .appl "lit" [.str text]

namespace Production

variable {symbol : Term} {symbols : List Term} {text layout : String}

theorem literal?_eq_some_iff : literal? symbol = some text ↔ symbol = .appl "lit" [.str text] :=
  textOf?_eq_some_iff

instance (symbol : Term) : Decidable symbol.IsLiteral :=
  decidable_of_iff ((literal? symbol).isSome = true) (by
    simp only [Option.isSome_iff_exists, literal?_eq_some_iff, IsLiteral])

/-- The symbols of a production are laid out one by one, with spaces between them: literals as keywords, and the others
as arguments, with the numbers 1, 2 and so on from left to right. -/
def LaidOut (symbols : List Term) (layout : String) : Prop :=
  ∃ items : List String, layout = " ".intercalate items ∧ items.length = symbols.length
    ∧ ∀ i symbol, symbols[i]? = some symbol →
      (∀ text, symbol = .appl "lit" [.str text] → items[i]? = some s!"KW[{Text.escape (Text.unquote text)}]")
      ∧ (¬ symbol.IsLiteral →
        items[i]? = some s!"_{(symbols.take i).countP (fun other => ¬ other.IsLiteral) + 1}")

theorem length_items (n : Nat) (symbols : List Term) : (items n symbols).length = symbols.length := by
  induction symbols generalizing n with
  | nil => rfl
  | cons symbol symbols ih =>
    rw [items]
    split <;> rw [List.length_cons, ih, List.length_cons]

theorem getElem?_items_literal (n : Nat) {i : Nat} (h : symbols[i]? = some (.appl "lit" [.str text])) :
    (items n symbols)[i]? = some s!"KW[{Text.escape (Text.unquote text)}]" := by
  induction symbols generalizing n i with
  | nil => cases h
  | cons symbol symbols ih =>
    cases i with
    | zero =>
      cases h
      rfl
    | succ i =>
      rw [items]
      split <;> exact ih _ h

/-- The number of an argument is the number of the first one and of the arguments between them. -/
theorem getElem?_items_argument (n : Nat) {i : Nat} (h : symbols[i]? = some symbol) (hargument : ¬ symbol.IsLiteral) :
    (items n symbols)[i]? = some s!"_{n + (symbols.take i).countP (fun other => ¬ other.IsLiteral)}" := by
  induction symbols generalizing n i with
  | nil => cases h
  | cons first symbols ih =>
    cases i with
    | zero =>
      cases h
      rw [items]
      split
      · rename_i text hliteral
        exact absurd ⟨text, literal?_eq_some_iff.1 hliteral⟩ hargument
      · rfl
    | succ i =>
      rw [items, List.take_succ_cons, List.countP_cons]
      split
      · rename_i text hliteral
        have hfirst : first.IsLiteral := ⟨text, literal?_eq_some_iff.1 hliteral⟩
        rw [List.getElem?_cons_succ, ih n h]
        simp [hfirst]
      · rename_i hliteral
        have hfirst : ¬ first.IsLiteral := by
          rintro ⟨text, heq⟩
          rw [literal?_eq_some_iff.2 heq] at hliteral
          cases hliteral
        rw [List.getElem?_cons_succ, ih (n + 1) h]
        simp [hfirst, Nat.add_assoc, Nat.add_comm 1]

theorem laidOut_layout (x : Production) : LaidOut x.symbols x.layout := by
  refine ⟨items 1 x.symbols, rfl, length_items 1 x.symbols, fun i symbol h => ⟨?_, fun hargument => ?_⟩⟩
  · rintro text rfl
    exact getElem?_items_literal 1 h
  · rw [getElem?_items_argument 1 h hargument, Nat.add_comm]

theorem LaidOut.unique {layout' : String} (h : LaidOut symbols layout) (h' : LaidOut symbols layout') :
    layout = layout' := by
  obtain ⟨items, rfl, hlength, hitems⟩ := h
  obtain ⟨items', rfl, hlength', hitems'⟩ := h'
  have hsame : items = items' := by
    refine List.ext_getElem? fun i => ?_
    cases hi : symbols[i]? with
    | none =>
      rw [List.getElem?_eq_none_iff] at hi
      rw [List.getElem?_eq_none (hlength ▸ hi), List.getElem?_eq_none (hlength' ▸ hi)]
    | some symbol =>
      by_cases hliteral : symbol.IsLiteral
      · obtain ⟨text, htext⟩ := hliteral
        rw [(hitems i symbol hi).1 text htext, (hitems' i symbol hi).1 text htext]
      · rw [(hitems i symbol hi).2 hliteral, (hitems' i symbol hi).2 hliteral]
  rw [hsame]

end Production

/-! ## Tables -/

namespace PrettyTable

theorem ofProductions_snoc (xs : List Production) (x : Production) :
    ofProductions (xs ++ [x]) = (ofProductions xs).insertNew x.cons x.layout := by
  rw [ofProductions, List.foldl_append]
  rfl

theorem firstPlaces_ofProductions (xs : List Production) :
    FirstPlaces (xs.map Production.cons) (ofProductions xs).keys := by
  induction xs using List.reverseRecOn with
  | nil => exact .nil
  | append_singleton xs x ih =>
    rw [ofProductions_snoc, Table.keys_insertNew, List.map_append, List.map_singleton]
    exact ih.snoc x.cons

theorem get?_ofProductions (xs : List Production) (C : String) :
    (ofProductions xs).get? C = (xs.find? (·.cons = C)).map Production.layout := by
  induction xs using List.reverseRecOn with
  | nil => rfl
  | append_singleton xs x ih =>
    rw [ofProductions_snoc, Table.get?_insertNew, ih, List.find?_append, Option.map_or]
    by_cases hC : x.cons = C <;> simp [hC]

/-- Lines with commas between them, and a line feed behind the last one. -/
theorem intercalate_lines {α : Type} (line : α → String) (es : List α) :
    ",\n".intercalate (es.map line) ++ (if es = [] then "" else "\n")
      = String.join (es.mapIdx fun i e => line e ++ if i + 1 < es.length then ",\n" else "\n") := by
  induction es with
  | nil => rfl
  | cons e es ih =>
    rw [List.mapIdx_cons, String.join_cons]
    cases es with
    | nil => simp
    | cons e' es =>
      rw [if_neg (List.cons_ne_nil _ _)] at ih ⊢
      simp only [List.length_cons, Nat.add_lt_add_iff_right] at ih ⊢
      rw [List.map_cons, List.map_cons, String.intercalate_cons_cons, ← List.map_cons, String.append_assoc, ih,
        if_pos (Nat.succ_pos _)]

theorem text_eq (t : PrettyTable) : t.text = "[\n" ++ String.join (t.entries.mapIdx fun i e =>
    s!"   {e.1} -- H[{e.2}]" ++ if i + 1 < t.entries.length then ",\n" else "\n") ++ "]\n" := by
  have hlines : _ = String.join (t.entries.mapIdx fun i e =>
      s!"   {e.1} -- H[{e.2}]" ++ if i + 1 < t.entries.length then ",\n" else "\n") :=
    intercalate_lines entryText t.entries
  rw [← hlines, ← String.append_assoc]
  rfl

/-- A production inside of another one, and two productions of the outer constructor. -/
example : (ofGrammar (.list [
      .appl "prod" [.list [.appl "lit" [.str "\"let\""], .appl "sort" [.str "E"], .appl "lit" [.str "\"in\""],
        .appl "prod" [.list [.appl "sort" [.str "E"]], .int 0, .appl "cons" [.str "\"Inner\""]]], .int 0,
        .list [.appl "cons" [.appl "cons" [.str "\"Hidden\""]], .appl "cons" [.str "\"Let\""]]],
      .appl "prod" [.list [], .int 0, .appl "cons" [.str "\"Let\""]]])).text
    = "[\n   Let -- H[KW[\"let\"] _1 KW[\"in\"] _2],\n   Inner -- H[_1]\n]\n" := by
  decide +kernel

end PrettyTable

end BaseLang
