import BaseLang.Proofs.Encoding
import Mathlib.Data.List.Induction

/-!
# The definitions of a module

What reading a module comes to, said through the definitions in it alone.

* `Term.definition?` : the definition that a declaration makes; `definitions` : those of a module, in their order;
* `Definition.decode_eq` : a decoder writes the field of its definition, whatever is in the record;
* `Declarations.Decodes`, `Declarations.FromLast` : a right-hand side is well-formed; a field comes from the last
  definition of it;
* `foldlM_define_of_decodes`, `foldlM_define_of_not` : a run over well-formed definitions, and over a malformed one;
* `read_eq_ok_iff`, `read_eq_error_iff`, `read_of_sameOrder`, put together in `read_definitions`.
-/

namespace BaseLang

open Term

/-- The definition that a declaration makes, with its right-hand side. -/
def Term.definition? (t : Term) : Option (Definition × Term) :=
  (singleDefinition? t).bind fun e => (Definition.ofName? e.1).map (·, e.2)

def definitions (ts : List Term) : List (Definition × Term) := ts.filterMap Term.definition?

namespace Definition

variable {x y : Definition} {name : String} {t rhs : Term} {ts : List Term}

theorem name_of_ofName? (h : ofName? name = some x) : x.name = name := by
  simpa using List.find?_some h

theorem definition?_eq_some_iff :
    t.definition? = some (x, rhs) ↔ t = .appl "Strategies" [.list [.appl "SDefNoArgs" [.str x.name, rhs]]] := by
  rw [Term.definition?]
  constructor
  · intro h
    obtain ⟨⟨name, rhs'⟩, hs, hx⟩ := Option.bind_eq_some_iff.1 h
    obtain ⟨x', hname, heq⟩ := Option.map_eq_some_iff.1 hx
    cases heq
    rw [name_of_ofName? hname]
    exact Declarations.singleDefinition?_eq_some hs
  · rintro rfl
    have hs : singleDefinition? (.appl "Strategies" [.list [.appl "SDefNoArgs" [.str x.name, rhs]]])
      = some (x.name, rhs) := rfl
    rw [hs, Option.bind_some, ofName?_name]
    rfl

theorem mem_definitions :
    (x, rhs) ∈ definitions ts ↔ .appl "Strategies" [.list [.appl "SDefNoArgs" [.str x.name, rhs]]] ∈ ts := by
  simp only [definitions, List.mem_filterMap, definition?_eq_some_iff, exists_eq_right]

/-! ## One definition -/

/-- A record with the field of `x` set to a value is any record with the field copied from it. -/
theorem bind_return_eq {α : Type} {v : Except ShapeError α} (set : α → Declarations → Declarations)
    (h : ∀ a decls, set a decls = decls.copyFrom (set a .empty) x) (decls : Declarations) :
    (do return set (← v) decls) = (do return set (← v) .empty : Except ShapeError Declarations).map
      (decls.copyFrom · x) := by
  cases v with
  | error e => rfl
  | ok a => exact congrArg Except.ok (h a decls)

theorem built_return_eq {α : Type} (f : Term → Except ShapeError α) (set : α → Declarations → Declarations)
    (h : ∀ a decls, set a decls = decls.copyFrom (set a .empty) x) (decls : Declarations) :
    (do return set (← f (← built rhs)) decls)
      = (do return set (← f (← built rhs)) .empty : Except ShapeError Declarations).map (decls.copyFrom · x) := by
  simp only [← bind_assoc]
  exact bind_return_eq set h decls

/-- A decoder writes the field of its definition and reads nothing of the record, so that a table takes the place of
the one before. -/
theorem decode_eq (x : Definition) (rhs : Term) (decls : Declarations) :
    x.decode rhs decls = (x.decode rhs .empty).map (decls.copyFrom · x) := by
  cases x with
  | toplevel =>
    exact built_return_eq Term.decodeString (fun v decls => { decls with toplevel := some v }) (fun _ _ => rfl) decls
  | extensionSuffix =>
    exact bind_return_eq (fun v decls => { decls with extensionSuffix := some v }) (fun _ _ => rfl) decls
  | baseSuffix => exact bind_return_eq (fun v decls => { decls with baseSuffix := some v }) (fun _ _ => rfl) decls
  | body =>
    exact built_return_eq Term.decodeStrings (fun v decls => { decls with body := NameSet.ofNames v })
      (fun _ _ => rfl) decls
  | namespaceDecl =>
    exact built_return_eq Term.decodePair (fun v decls => { decls with namespaceDecl := some ⟨v.1, v.2⟩ })
      (fun _ _ => rfl) decls
  | imports =>
    exact built_return_eq Term.decodeTable (fun v decls => { decls with imports := v }) (fun _ _ => rfl) decls
  | namespaceKind =>
    exact bind_return_eq (fun v decls => { decls with namespaceKind := some v }) (fun _ _ => rfl) decls
  | namespaceSuffixes =>
    exact built_return_eq Term.decodeTable (fun v decls => { decls with namespaceSuffixes := v })
      (fun _ _ => rfl) decls

end Definition

namespace Declarations

variable {d d' decls : Declarations} {x y : Definition} {t rhs : Term} {ts ts' : List Term}
  {e : Definition × Term} {defs before after : List (Definition × Term)} {shape : ShapeError}

/-- The right-hand side of a definition decodes. -/
def Decodes (e : Definition × Term) : Prop := ∃ d, e.1.decode e.2 empty = .ok d

/-- The record with what one definition says. -/
def define (decls : Declarations) (e : Definition × Term) : Except ExtractError Declarations :=
  (e.1.decode e.2 decls).mapError (.malformed e.1)

theorem add_eq (decls : Declarations) (t : Term) :
    decls.add t = match t.definition? with
      | none => .ok decls
      | some e => decls.define e := by
  rw [add, Term.definition?]
  cases singleDefinition? t with
  | none => rfl
  | some e =>
    obtain ⟨name, rhs⟩ := e
    simp only [Option.bind_some]
    cases Definition.ofName? name <;> rfl

/-- Reading a module is running through its definitions. -/
theorem foldlM_add (ts : List Term) (decls : Declarations) :
    ts.foldlM add decls = (definitions ts).foldlM define decls := by
  induction ts generalizing decls with
  | nil => rfl
  | cons t ts ih =>
    rw [List.foldlM_cons, add_eq, definitions, List.filterMap_cons]
    cases t.definition? with
    | none => exact ih decls
    | some e =>
      rw [List.foldlM_cons]
      exact bind_congr ih

theorem read_eq (header : Term) (ts : List Term) :
    read (.appl "Module" [header, .list ts]) = (definitions ts).foldlM define empty := by
  rw [read_module, foldlM_add]

theorem define_of_ok (h : x.decode rhs empty = .ok d) (decls : Declarations) :
    decls.define (x, rhs) = .ok (decls.copyFrom d x) := by
  rw [define, Definition.decode_eq, h]
  rfl

theorem define_of_error (h : x.decode rhs empty = .error shape) (decls : Declarations) :
    decls.define (x, rhs) = .error (.malformed x shape) := by
  rw [define, Definition.decode_eq, h]
  rfl

/-! ## The last definition of a field -/

/-- The right-hand side of the last definition of `x`. -/
def last? (x : Definition) (defs : List (Definition × Term)) : Option Term :=
  (defs.filter (·.1 = x)).getLast?.map Prod.snd

/-- The field of `x` is what the last definition of it decodes to, or is not set if there is none. -/
def FromLast (d : Declarations) (defs : List (Definition × Term)) (x : Definition) : Prop :=
  match last? x defs with
  | none => SameAt d empty x
  | some rhs => ∃ d', x.decode rhs empty = .ok d' ∧ SameAt d d' x

theorem last?_append_self (defs : List (Definition × Term)) (x : Definition) (rhs : Term) :
    last? x (defs ++ [(x, rhs)]) = some rhs := by
  simp [last?]

theorem last?_append_of_ne (h : y ≠ x) (defs : List (Definition × Term)) (rhs : Term) :
    last? x (defs ++ [(y, rhs)]) = last? x defs := by
  simp [last?, h]

theorem sameAt_rfl (d : Declarations) (x : Definition) : SameAt d d x := by
  cases x <;> rfl

theorem SameAt.trans (h : SameAt decls d x) (h' : SameAt d d' x) : SameAt decls d' x := by
  cases x <;> exact Eq.trans h h'

theorem SameAt.symm (h : SameAt d d' x) : SameAt d' d x := by
  cases x <;> exact Eq.symm h

theorem sameAt_copyFrom_of_ne (h : y ≠ x) (decls d : Declarations) : SameAt (decls.copyFrom d y) decls x := by
  cases x <;> exact if_neg h

/-- At most one record has all its fields from the last definitions. -/
theorem eq_of_fromLast (h : ∀ x, d.FromLast defs x) (h' : ∀ x, d'.FromLast defs x) : d = d' := by
  refine eq_of_sameAt fun x => ?_
  have hx := h x
  have hx' := h' x
  unfold FromLast at hx hx'
  split at hx
  · rename_i hlast
    rw [hlast] at hx'
    exact hx.trans hx'.symm
  · rename_i rhs hlast
    rw [hlast] at hx'
    obtain ⟨v, hv, hs⟩ := hx
    obtain ⟨v', hv', hs'⟩ := hx'
    rw [hv] at hv'
    cases hv'
    exact hs.trans hs'.symm

/-! ## Runs over definitions -/

/-- A run over well-formed definitions. The induction is from the right, since the last definition of a field
decides. -/
theorem foldlM_define_of_decodes (h : ∀ e ∈ defs, Decodes e) :
    ∃ d, defs.foldlM define empty = .ok d ∧ ∀ x, d.FromLast defs x := by
  induction defs using List.reverseRecOn with
  | nil => exact ⟨empty, rfl, fun x => sameAt_rfl empty x⟩
  | append_singleton defs e ih =>
    obtain ⟨y, rhs⟩ := e
    obtain ⟨d, hrun, hd⟩ := ih fun e he => h e (List.mem_append_left _ he)
    obtain ⟨v, hv⟩ := h (y, rhs) (List.mem_append_right _ List.mem_cons_self)
    refine ⟨d.copyFrom v y, ?_, fun x => ?_⟩
    · rw [List.foldlM_append, hrun, ok_bind, List.foldlM_cons, define_of_ok hv]
      rfl
    by_cases hx : y = x
    · subst hx
      rw [FromLast, last?_append_self]
      exact ⟨v, hv, sameAt_copyFrom_self d v y⟩
    · have hsame := sameAt_copyFrom_of_ne hx d v
      have hfrom := hd x
      unfold FromLast at hfrom ⊢
      rw [last?_append_of_ne hx]
      split at hfrom
      · exact hsame.trans hfrom
      · obtain ⟨v', hv', hs⟩ := hfrom
        exact ⟨v', hv', hsame.trans hs⟩

theorem foldlM_define_of_not (h : ∀ e ∈ before, Decodes e) (hx : x.decode rhs empty = .error shape)
    (after : List (Definition × Term)) :
    (before ++ (x, rhs) :: after).foldlM define empty = .error (.malformed x shape) := by
  obtain ⟨d, hrun, -⟩ := foldlM_define_of_decodes h
  rw [List.foldlM_append, hrun, ok_bind, List.foldlM_cons, define_of_error hx]
  rfl

theorem all_or_first (defs : List (Definition × Term)) :
    (∀ e ∈ defs, Decodes e) ∨ ∃ before x rhs after shape, defs = before ++ (x, rhs) :: after
      ∧ (∀ e ∈ before, Decodes e) ∧ x.decode rhs empty = .error shape := by
  induction defs with
  | nil => exact .inl (by simp)
  | cons e defs ih =>
    by_cases he : Decodes e
    · rcases ih with hall | ⟨before, x, rhs, after, shape, rfl, hbefore, hx⟩
      · exact .inl (List.forall_mem_cons.2 ⟨he, hall⟩)
      · exact .inr ⟨e :: before, x, rhs, after, shape, rfl, List.forall_mem_cons.2 ⟨he, hbefore⟩, hx⟩
    · obtain ⟨shape, hx⟩ := exists_error_of_ne_ok (not_exists.1 he)
      exact .inr ⟨[], e.1, e.2, defs, shape, rfl, by simp, hx⟩

theorem foldlM_define_eq_ok_iff :
    defs.foldlM define empty = .ok d ↔ (∀ e ∈ defs, Decodes e) ∧ ∀ x, d.FromLast defs x := by
  constructor
  · intro h
    rcases all_or_first defs with hall | ⟨before, x, rhs, after, shape, rfl, hbefore, hx⟩
    · obtain ⟨d', hrun, hd'⟩ := foldlM_define_of_decodes hall
      rw [h] at hrun
      cases hrun
      exact ⟨hall, hd'⟩
    · rw [foldlM_define_of_not hbefore hx] at h
      cases h
  · rintro ⟨hall, hd⟩
    obtain ⟨d', hrun, hd'⟩ := foldlM_define_of_decodes hall
    rw [hrun, eq_of_fromLast hd hd']

theorem foldlM_define_eq_error_iff {err : ExtractError} :
    defs.foldlM define empty = .error err ↔ ∃ before x rhs after shape, defs = before ++ (x, rhs) :: after
      ∧ (∀ e ∈ before, Decodes e) ∧ x.decode rhs empty = .error shape ∧ err = .malformed x shape := by
  constructor
  · intro h
    rcases all_or_first defs with hall | ⟨before, x, rhs, after, shape, rfl, hbefore, hx⟩
    · obtain ⟨d, hrun, -⟩ := foldlM_define_of_decodes hall
      rw [hrun] at h
      cases h
    · rw [foldlM_define_of_not hbefore hx] at h
      cases h
      exact ⟨before, x, rhs, after, shape, rfl, hbefore, hx, rfl⟩
  · rintro ⟨before, x, rhs, after, shape, rfl, hbefore, hx, rfl⟩
    exact foldlM_define_of_not hbefore hx after

/-! ## Modules -/

/-- Two modules have the same definitions of each field, in the same order. Definitions of different fields, and
other declarations, may stand anywhere. -/
def SameOrder (ts ts' : List Term) : Prop :=
  ∀ x, (definitions ts).filter (·.1 = x) = (definitions ts').filter (·.1 = x)

theorem SameOrder.decodes (h : SameOrder ts ts') (hts : ∀ e ∈ definitions ts, Decodes e) :
    ∀ e ∈ definitions ts', Decodes e := by
  intro e he
  have hmem : e ∈ (definitions ts').filter (·.1 = e.1) := List.mem_filter.2 ⟨he, by simp⟩
  rw [← h] at hmem
  exact hts e (List.mem_filter.1 hmem).1

theorem SameOrder.fromLast (h : SameOrder ts ts') :
    d.FromLast (definitions ts) x ↔ d.FromLast (definitions ts') x := by
  unfold FromLast last?
  rw [h]

theorem SameOrder.symm (h : SameOrder ts ts') : SameOrder ts' ts := fun x => (h x).symm

theorem SameOrder.read_eq_ok (h : SameOrder ts ts') {header header' : Term}
    (hread : read (.appl "Module" [header, .list ts]) = .ok d) :
    read (.appl "Module" [header', .list ts']) = .ok d := by
  rw [read_eq, foldlM_define_eq_ok_iff] at hread ⊢
  exact ⟨h.decodes hread.1, fun x => h.fromLast.1 (hread.2 x)⟩

/-- **The last definition of a field decides, and the first malformed one is the error.** Reading a module succeeds if
and only if the right-hand sides of all its definitions decode; each field is then what the last definition of it
decodes to, on its own, or is not set. Otherwise the error names the first definition that does not decode. The header,
all other declarations and the order among definitions of different fields have no part in what is read. -/
theorem read_definitions (header : Term) (ts : List Term) :
    ((∃ d, read (.appl "Module" [header, .list ts]) = .ok d) ↔
        ∀ x rhs, .appl "Strategies" [.list [.appl "SDefNoArgs" [.str x.name, rhs]]] ∈ ts → Decodes (x, rhs))
    ∧ (∀ d, read (.appl "Module" [header, .list ts]) = .ok d ↔
        (∀ e ∈ definitions ts, Decodes e) ∧ ∀ x, d.FromLast (definitions ts) x)
    ∧ (∀ err, read (.appl "Module" [header, .list ts]) = .error err ↔
        ∃ before x rhs after shape, definitions ts = before ++ (x, rhs) :: after
          ∧ (∀ e ∈ before, Decodes e) ∧ x.decode rhs empty = .error shape ∧ err = .malformed x shape)
    ∧ (∀ header' ts', SameOrder ts ts' → ∀ d, read (.appl "Module" [header, .list ts]) = .ok d ↔
        read (.appl "Module" [header', .list ts']) = .ok d) := by
  simp only [read_eq]
  refine ⟨⟨?_, ?_⟩, fun d => foldlM_define_eq_ok_iff, fun err => foldlM_define_eq_error_iff, ?_⟩
  · rintro ⟨d, hd⟩ x rhs hmem
    exact (foldlM_define_eq_ok_iff.1 hd).1 (x, rhs) (Definition.mem_definitions.2 hmem)
  · intro hall
    obtain ⟨d, hrun, -⟩ := foldlM_define_of_decodes fun e he => hall e.1 e.2 (Definition.mem_definitions.1 he)
    exact ⟨d, hrun⟩
  · intro header' ts' hsame d
    rw [← read_eq header ts, ← read_eq header' ts']
    exact ⟨hsame.read_eq_ok, hsame.symm.read_eq_ok⟩

/-- Two import tables around a file suffix, and the same with a helper and the suffix in front. -/
theorem read_definitions_tables :
    let table (name : String) : Term := layered (.appl "List" [.list [encodePair (name, 0)]])
    let suffix : Term := Definition.baseSuffix.declaration (encodeString "b")
    let first : Term := Definition.imports.declaration (table "A")
    let second : Term := Definition.imports.declaration (table "B")
    SameOrder [first, suffix, second] [suffix, .str "helper", first, second]
    ∧ read (.appl "Module" [.int 0, .list [suffix, .str "helper", first, second]])
      = .ok { empty with baseSuffix := some "b", imports := ⟨[("B", 0)], by decide⟩ } := by
  intro table suffix first second
  have hsame : SameOrder [first, suffix, second] [suffix, .str "helper", first, second] := by
    intro x
    cases x <;> rfl
  obtain ⟨-, -, -, hread⟩ := read_definitions (.str "x") [first, suffix, second]
  exact ⟨hsame, (hread _ _ hsame _).1 rfl⟩

end Declarations

end BaseLang
