import BaseLang.Proofs.Except
import BaseLang.Term.Literal

/-!
# Lists of generated code

The two spellings of a list, and what decoding one comes to.

* `Term.layered` : a node in its layer; `Term.Wraps` : a term itself or in one layer;
* `Term.SpellsList` : a term spells a sequence, as a terminal of at most one element or as a chain;
* `Term.Begins` : the elements that a chain begins with, whatever comes further down;
* `Term.Reaches` : the terms at the list positions of a chain; `Term.Misspelled` : one that spells no list;
* `chain_eq_iff` : a chain without fault is a spelled list;
* `decodeList_spelled` : a list is decoded exactly if it is spelled, element by element, and the first element that
  cannot be decoded is the error.
-/

namespace BaseLang

namespace Term

variable {t u head tail : Term} {ts us : List Term} {α : Type} {decode : Term → Except ShapeError α}

/-! ## Spellings -/

/-- A node of generated code in its layer. -/
def layered (t : Term) : Term := .appl "NoAnnoList" [t]

/-- The term `t` is `u`, or `u` in exactly one layer. -/
def Wraps (t u : Term) : Prop := t = u ∨ t = layered u

/-- A term spells a sequence: a raw list or `List(..)` spells at most one element, and `ListTail([head], tail)` spells
the head and then what its tail spells. Each of them may stand in a layer. -/
inductive SpellsList : Term → List Term → Prop where
  | raw {t : Term} {ts : List Term} (h : t.Wraps (.list ts)) (hts : ts.length ≤ 1) : SpellsList t ts
  | terminal {t : Term} {ts : List Term} (h : t.Wraps (.appl "List" [.list ts])) (hts : ts.length ≤ 1) :
    SpellsList t ts
  | cons {t head tail : Term} {ts : List Term} (h : t.Wraps (.appl "ListTail" [.list [head], tail]))
    (rest : SpellsList tail ts) : SpellsList t (head :: ts)

/-- A list begins with some elements, whatever comes further down the chain. -/
inductive Begins : Term → List Term → Prop where
  | nil (t : Term) : Begins t []
  | raw {t u : Term} (h : t.Wraps (.list [u])) : Begins t [u]
  | terminal {t u : Term} (h : t.Wraps (.appl "List" [.list [u]])) : Begins t [u]
  | cons {t head tail : Term} {ts : List Term} (h : t.Wraps (.appl "ListTail" [.list [head], tail]))
    (rest : Begins tail ts) : Begins t (head :: ts)

/-- The terms at the list positions of a chain, whatever its heads are. -/
inductive Reaches : Term → Term → Prop where
  | refl (t : Term) : Reaches t t
  | tail {t head tail u : Term} (h : t.Wraps (.appl "ListTail" [head, tail])) (rest : Reaches tail u) : Reaches t u

/-- A terminal of two or more elements, a head that is not a list of one term, or a second layer. -/
inductive Misspelled : Term → Prop where
  | raw {t : Term} {ts : List Term} (h : t.Wraps (.list ts)) (hts : 2 ≤ ts.length) : Misspelled t
  | terminal {t : Term} {ts : List Term} (h : t.Wraps (.appl "List" [.list ts])) (hts : 2 ≤ ts.length) : Misspelled t
  | head {t head tail : Term} (h : t.Wraps (.appl "ListTail" [head, tail])) (hhead : ∀ u, head ≠ .list [u]) :
    Misspelled t
  | layers (t : Term) : Misspelled (layered (layered t))

theorem SpellsList.layered (h : u.SpellsList ts) (hu : ∀ v, u ≠ layered v) : (layered u).SpellsList ts := by
  have hwraps : ∀ {v : Term}, u.Wraps v → (Term.layered u).Wraps v := by
    rintro v (rfl | rfl)
    · exact .inr rfl
    · exact absurd rfl (hu v)
  cases h with
  | raw h hts => exact .raw (hwraps h) hts
  | terminal h hts => exact .terminal (hwraps h) hts
  | cons h rest => exact .cons (hwraps h) rest

/-! ## The chain of a term -/

theorem elem₁_eq_ok_iff : head.elem₁ = .ok u ↔ head = .list [u] := by
  constructor
  · intro h
    match head, h with
    | .list [u], rfl => rfl
  · rintro rfl
    rfl

theorem terminal_list (whole : Term) (ts : List Term) :
    terminal whole (.list ts) = if ts.length ≤ 1 then ⟨ts, none⟩ else ⟨[], some ⟨.terminal, whole⟩⟩ := rfl

theorem terminal_eq_iff {whole : Term} : terminal whole t = ⟨ts, none⟩ ↔ t = .list ts ∧ ts.length ≤ 1 := by
  cases t with
  | list us =>
    rw [terminal_list]
    split
    · rename_i hus
      simp only [Chain.mk.injEq, and_true, list.injEq]
      exact ⟨fun h => ⟨h, h ▸ hus⟩, fun h => h.1⟩
    · rename_i hus
      refine iff_of_false (by simp) ?_
      rintro ⟨heq, hts⟩
      exact hus (list.inj heq ▸ hts)
  | appl | str | int => simp [terminal, elems]

theorem chain_raw (h : t.Wraps (.list ts)) : t.chain = terminal (.list ts) (.list ts) := by
  rcases h with rfl | rfl <;> rfl

theorem chain_terminal (h : t.Wraps (.appl "List" [u])) : t.chain = terminal (.appl "List" [u]) u := by
  rcases h with rfl | rfl <;> rfl

theorem chain_tail (h : t.Wraps (.appl "ListTail" [head, tail])) : t.chain = match head.elem₁ with
    | .ok first => ⟨first :: tail.chain.elems, tail.chain.fault⟩
    | .error e => ⟨[], some e⟩ := by
  rcases h with rfl | rfl <;> rfl

theorem chain_cons (h : t.Wraps (.appl "ListTail" [.list [head], tail])) :
    t.chain = ⟨head :: tail.chain.elems, tail.chain.fault⟩ := chain_tail h

/-- A chain without fault is spelled, and in no layer where none is left. -/
theorem spellsList_of_chainBelow (layer : Bool) (t : Term) (h : chainBelow layer t = ⟨ts, none⟩) :
    t.SpellsList ts ∧ (layer = false → ∀ u, t ≠ layered u) := by
  -- along the recursion of the chain; that a bare term is in no layer is what a layer around it asks for
  induction layer, t using chainBelow.induct generalizing ts with
  | case1 layer us =>
    obtain ⟨heq, hlength⟩ := terminal_eq_iff.1 h
    exact ⟨.raw (.inl heq) hlength, fun _ u hu => by cases hu⟩
  | case2 layer cons t hlayer ih =>
    rw [Bool.and_eq_true, decide_eq_true_eq] at hlayer
    obtain ⟨rfl, rfl⟩ := hlayer
    obtain ⟨ht, hbare⟩ := ih h
    exact ⟨ht.layered (hbare rfl), fun hfalse => by cases hfalse⟩
  | case3 layer t _ =>
    have hchain : chainBelow layer (.appl "List" [t]) = terminal (.appl "List" [t]) t := by cases layer <;> rfl
    obtain ⟨rfl, hlength⟩ := terminal_eq_iff.1 (hchain.symm.trans h)
    exact ⟨.terminal (.inl rfl) hlength, fun _ u hu => by simp [Term.layered] at hu⟩
  | case4 layer cons t hlayer hcons =>
    rw [chainBelow, if_neg hlayer, if_neg hcons] at h
    cases h
  | case5 layer head tail first hfirst ih =>
    obtain rfl := elem₁_eq_ok_iff.1 hfirst
    have hchain : chainBelow layer (.appl "ListTail" [.list [first], tail])
      = ⟨first :: (chainBelow true tail).elems, (chainBelow true tail).fault⟩ := by cases layer <;> rfl
    rw [hchain, Chain.mk.injEq] at h
    obtain ⟨rfl, hfault⟩ := h
    have htail : chainBelow true tail = ⟨(chainBelow true tail).elems, none⟩ := by rw [← hfault]
    exact ⟨.cons (.inl rfl) (ih htail).1, fun _ u hu => by simp [Term.layered] at hu⟩
  | case6 layer head tail e he =>
    rw [chainBelow, if_pos rfl, he] at h
    cases h
  | case7 layer cons head tail hcons =>
    rw [chainBelow, if_neg hcons] at h
    cases h
  | case8 layer t h₁ h₂ h₃ =>
    rw [chainBelow.eq_4 _ _ h₁ h₂ h₃] at h
    cases h

/-- A term has a chain without fault exactly if it spells a list. -/
theorem chain_eq_iff : t.chain = ⟨ts, none⟩ ↔ t.SpellsList ts := by
  constructor
  · intro h
    exact (spellsList_of_chainBelow true t h).1
  · intro h
    induction h with
    | raw h hts => rw [chain_raw h, terminal_eq_iff.2 ⟨rfl, hts⟩]
    | terminal h hts => rw [chain_terminal h, terminal_eq_iff.2 ⟨rfl, hts⟩]
    | cons h _ ih => rw [chain_cons h, ih]

theorem exists_elems_of_begins (h : t.Begins ts) : ∃ us, t.chain.elems = ts ++ us := by
  induction h with
  | nil t => exact ⟨_, rfl⟩
  | raw h => exact ⟨[], by rw [chain_raw h]; rfl⟩
  | terminal h => exact ⟨[], by rw [chain_terminal h]; rfl⟩
  | cons h _ ih =>
    obtain ⟨us, hus⟩ := ih
    exact ⟨us, by rw [chain_cons h, hus]; rfl⟩

theorem fault_of_misspelled (h : t.Misspelled) : t.chain.fault ≠ none := by
  cases h with
  | raw h hts => simp [chain_raw h, terminal_list, Nat.not_le.2 hts]
  | terminal h hts => simp [chain_terminal h, terminal_list, Nat.not_le.2 hts]
  | head h hhead =>
    rw [chain_tail h]
    split
    · rename_i u hu
      exact absurd (elem₁_eq_ok_iff.1 hu) (hhead u)
    · simp
  | layers u => simp [chain, layered, chainBelow]

theorem fault_of_reaches (h : t.Reaches u) (hu : u.chain.fault ≠ none) : t.chain.fault ≠ none := by
  induction h with
  | refl => exact hu
  | tail h _ ih =>
    rw [chain_tail h]
    split
    · exact ih hu
    · simp

/-! ## Decoding -/

theorem decodeList_eq_ok_iff {vs : List α} :
    t.decodeList decode = .ok vs ↔ t.chain.elems.mapM decode = .ok vs ∧ t.chain.fault = none := by
  unfold decodeList
  cases t.chain.elems.mapM decode with
  | error e => simp
  | ok us => cases t.chain.fault <;> simp

theorem SpellsList.decodeList_eq_ok_iff {vs : List α} (h : t.SpellsList ts) :
    t.decodeList decode = .ok vs ↔ List.Forall₂ (fun u v => decode u = .ok v) ts vs := by
  rw [Term.decodeList_eq_ok_iff, chain_eq_iff.2 h, mapM_eq_ok_iff]
  exact and_iff_left rfl

theorem decodeList_of_mapM_error {e : ShapeError} (h : t.chain.elems.mapM decode = .error e) :
    t.decodeList decode = .error e := by
  rw [decodeList, h]

/-- **A list is decoded exactly if it is spelled.** The values are those of the elements that the term spells, one for
each and in their order. A terminal of two or more elements, a head that is not a list of one term or a second layer at
any list position makes decoding fail. Of the elements that a chain begins with, the first one that cannot be decoded
is the error, whatever comes further down. -/
theorem decodeList_spelled (t : Term) (decode : Term → Except ShapeError α) :
    (∀ vs, t.decodeList decode = .ok vs ↔ ∃ ts, t.SpellsList ts ∧ List.Forall₂ (fun u v => decode u = .ok v) ts vs)
    ∧ (∀ u, t.Reaches u → u.Misspelled → ∃ e, t.decodeList decode = .error e)
    ∧ ∀ before u e, t.Begins (before ++ [u]) → (∀ b ∈ before, ∃ v, decode b = .ok v) → decode u = .error e →
        t.decodeList decode = .error e := by
  refine ⟨fun vs => ?_, fun u hreach hu => exists_error_of_ne_ok fun vs hvs => ?_, ?_⟩
  · constructor
    · intro hvs
      have hfault := (decodeList_eq_ok_iff.1 hvs).2
      have hspells : t.SpellsList t.chain.elems := chain_eq_iff.1 (by rw [← hfault])
      exact ⟨_, hspells, hspells.decodeList_eq_ok_iff.1 hvs⟩
    · rintro ⟨ts, hspells, hvalues⟩
      exact hspells.decodeList_eq_ok_iff.2 hvalues
  · exact fault_of_reaches hreach (fault_of_misspelled hu) (decodeList_eq_ok_iff.1 hvs).2
  · intro before u e hbegins hbefore hu
    obtain ⟨us, hus⟩ := exists_elems_of_begins hbegins
    apply decodeList_of_mapM_error
    rw [hus, List.append_assoc]
    exact mapM_eq_error hbefore hu

/-- The second element is no string, and a third list position has two elements: the former is the error. -/
theorem decodeList_element_before_fault :
    let bad := Term.list [.str "b", .str "c"]
    let a := layered (.appl "Str" [.str "\"a\""])
    let t := layered (.appl "ListTail" [.list [a], .appl "ListTail" [.list [.int 5], bad]])
    t.Reaches bad ∧ bad.Misspelled ∧ (∃ e, t.decodeList decodeString = .error e)
      ∧ t.decodeList decodeString = .error ⟨.applicationOf "Str", .int 5⟩ := by
  intro bad a t
  have hreach : t.Reaches bad := .tail (.inr rfl) (.tail (.inl rfl) (.refl _))
  have hbad : bad.Misspelled := .raw (.inl rfl) (by simp)
  have hbegins : t.Begins ([a] ++ [.int 5]) := .cons (.inr rfl) (.cons (.inl rfl) (.nil _))
  obtain ⟨-, hfails, helement⟩ := decodeList_spelled t decodeString
  exact ⟨hreach, hbad, hfails bad hreach hbad,
    helement _ _ _ hbegins (List.forall_mem_singleton.2 ⟨"a", rfl⟩) rfl⟩

end Term

end BaseLang
