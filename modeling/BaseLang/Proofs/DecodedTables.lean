import BaseLang.Proofs.Encoding
import Mathlib.Data.List.Induction

/-!
# Decoded tables

What becomes of repeated names in the lists of generated code.

* `FirstPlaces` : the names of a list, each once and where it occurs first;
* `LastValue` : the value that a name has last;
* `Table.firstPlaces_ofList`, `Table.get?_ofList` : the order and the values of a table made of pairs;
* `decodeTable_spelled` : the table, or the set of names, that a spelled list decodes to.
-/

namespace BaseLang

/-- The names of a list, each once and in the order of their first occurrence. -/
structure FirstPlaces {κ : Type} [DecidableEq κ] (names keys : List κ) : Prop where
  nodup : keys.Nodup
  mem_iff : ∀ k, k ∈ keys ↔ k ∈ names
  ordered : keys.Pairwise fun k k' => names.idxOf k < names.idxOf k'

/-- The last of the pairs with the name `k` has the value `v`. -/
def LastValue {κ α : Type} (es : List (κ × α)) (k : κ) (v : α) : Prop :=
  ∃ before after, es = before ++ (k, v) :: after ∧ ∀ e ∈ after, e.1 ≠ k

section Order

variable {κ α : Type} {names keys keys' : List κ} {es : List (κ × α)} {e : κ × α} {k : κ} {v : α}

/-- The last one of some pairs decides, or another one in front of it does. -/
theorem lastValue_snoc : LastValue (es ++ [e]) k v ↔ e = (k, v) ∨ e.1 ≠ k ∧ LastValue es k v := by
  constructor
  · rintro ⟨before, after, heq, hafter⟩
    rcases after.eq_nil_or_concat with rfl | ⟨after, e', rfl⟩
    · exact .inl (List.singleton_inj.1 (List.append_inj' heq rfl).2)
    · rw [List.concat_eq_append, ← List.cons_append, ← List.append_assoc] at heq
      obtain ⟨rfl, hlast⟩ := List.append_inj' heq rfl
      obtain rfl := List.singleton_inj.1 hlast
      rw [List.concat_eq_append, List.forall_mem_append] at hafter
      exact .inr ⟨hafter.2 e (by simp), before, after, rfl, hafter.1⟩
  · rintro (rfl | ⟨hk, before, after, rfl, hafter⟩)
    · exact ⟨es, [], rfl, by simp⟩
    · refine ⟨before, after ++ [e], by simp, List.forall_mem_append.2 ⟨hafter, by simpa using hk⟩⟩

variable [DecidableEq κ]

theorem FirstPlaces.nil : FirstPlaces ([] : List κ) [] := ⟨.nil, by simp, .nil⟩

theorem FirstPlaces.snoc (h : FirstPlaces names keys) (k : κ) :
    FirstPlaces (names ++ [k]) (if k ∈ keys then keys else keys ++ [k]) := by
  have hold : ∀ k' ∈ keys, (names ++ [k]).idxOf k' = names.idxOf k' := fun k' hk' =>
    List.idxOf_append_of_mem ((h.mem_iff k').1 hk')
  have hordered : keys.Pairwise fun a b => (names ++ [k]).idxOf a < (names ++ [k]).idxOf b :=
    h.ordered.imp_of_mem fun ha hb hab => by rwa [hold _ ha, hold _ hb]
  split
  · rename_i hk
    refine ⟨h.nodup, fun k' => ?_, hordered⟩
    rw [h.mem_iff, List.mem_append, List.mem_singleton]
    exact ⟨.inl, fun hk' => hk'.elim id fun heq => heq ▸ (h.mem_iff k).1 hk⟩
  · rename_i hk
    refine ⟨List.nodup_append.2 ⟨h.nodup, by simp, ?_⟩, fun k' => by simp [h.mem_iff], ?_⟩
    · rintro a ha b hb rfl
      exact hk (List.mem_singleton.1 hb ▸ ha)
    · refine List.pairwise_append.2 ⟨hordered, by simp, fun a ha b hb => ?_⟩
      have hnew : k ∉ names := mt (h.mem_iff k).2 hk
      rw [List.mem_singleton.1 hb, hold a ha, List.idxOf_append_of_notMem hnew]
      exact Nat.lt_of_lt_of_le (List.idxOf_lt_length_of_mem ((h.mem_iff a).1 ha)) (Nat.le_add_right _ _)

/-- The names and their order determine the list. -/
theorem FirstPlaces.unique (h : FirstPlaces names keys) (h' : FirstPlaces names keys') : keys = keys' := by
  have hperm : keys.Perm keys' :=
    (List.perm_ext_iff_of_nodup h.nodup h'.nodup).2 fun k => (h.mem_iff k).trans (h'.mem_iff k).symm
  exact hperm.eq_of_pairwise (fun _ _ _ _ hlt hgt => absurd hgt (Nat.lt_asymm hlt)) h.ordered h'.ordered

namespace Table

theorem ofList_snoc (es : List (κ × α)) (e : κ × α) : ofList (es ++ [e]) = (ofList es).insert e.1 e.2 := by
  rw [ofList, List.foldl_append]
  rfl

theorem firstPlaces_ofList (es : List (κ × α)) : FirstPlaces (es.map Prod.fst) (ofList es).keys := by
  induction es using List.reverseRecOn with
  | nil => exact .nil
  | append_singleton es e ih =>
    rw [ofList_snoc, keys_insert, List.map_append, List.map_singleton]
    exact ih.snoc e.1

theorem get?_ofList (es : List (κ × α)) (k : κ) (v : α) : (ofList es).get? k = some v ↔ LastValue es k v := by
  induction es using List.reverseRecOn with
  | nil => simp [ofList, LastValue]
  | append_singleton es e ih =>
    rw [ofList_snoc, get?_insert, lastValue_snoc]
    split
    · rename_i hk
      simp [Prod.ext_iff, hk]
    · rename_i hk
      simp [Prod.ext_iff, hk, ih]

end Table

end Order

namespace Term

variable {t : Term} {ts : List Term}

/-- **Lists decode to tables with the first place and the last value of each name.** -/
theorem decodeTable_spelled (h : t.SpellsList ts) :
    (∀ ps, List.Forall₂ (fun u p => u.decodePair = .ok p) ts ps → ∃ table, t.decodeTable = .ok table
      ∧ FirstPlaces (ps.map Prod.fst) table.keys ∧ ∀ name index, table.get? name = some index ↔ LastValue ps name index)
    ∧ (∀ u ∈ ts, (∀ p, u.decodePair ≠ .ok p) → ∃ e, t.decodeTable = .error e)
    ∧ ∀ names, List.Forall₂ (fun u name => u.decodeString = .ok name) ts names → ∀ decls, ∃ body,
        Definition.body.decode (.appl "Build" [t]) decls = .ok { decls with body } ∧ FirstPlaces names body.keys := by
  refine ⟨fun ps hps => ?_, fun u hu hfail => ?_, fun names hnames decls => ?_⟩
  · refine ⟨.ofList ps, ?_, Table.firstPlaces_ofList ps, Table.get?_ofList ps⟩
    rw [decodeTable, h.decodeList_eq_ok_iff.2 hps]
    rfl
  · have hnot : ∀ ps, t.decodeList decodePair ≠ .ok ps := by
      intro ps hps
      have hdecodes : List.Forall₂ (fun u p => (∃ p, u.decodePair = .ok p) ∧ u.decodePair = .ok p) ts ps :=
        (h.decodeList_eq_ok_iff.1 hps).imp fun u p hp => ⟨⟨p, hp⟩, hp⟩
      obtain ⟨p, hp⟩ := ((List.forall₂_and_left _ _).1 hdecodes).1 u hu
      exact hfail p hp
    obtain ⟨e, he⟩ := exists_error_of_ne_ok hnot
    refine ⟨e, ?_⟩
    rw [decodeTable, he]
    rfl
  · refine ⟨NameSet.ofNames names, ?_, ?_⟩
    · rw [Definition.decode, built_build, ok_bind, decodeStrings, h.decodeList_eq_ok_iff.2 hnames]
      rfl
    · have hfirst := Table.firstPlaces_ofList (names.map fun name => (name, ()))
      rwa [List.map_map, Function.comp_def, List.map_id'] at hfirst

/-- The first name comes again below: it keeps its place and gets the later position. -/
theorem decodeTable_repeated :
    let t := Term.appl "ListTail" [.list [encodePair ("a", 0)],
      layered (.appl "ListTail" [.list [encodePair ("b", 1)], .list [encodePair ("a", 2)]])]
    ∃ table, t.decodeTable = .ok table ∧ table.keys = ["a", "b"] ∧ table.get? "a" = some 2
      ∧ table.get? "b" = some 1 := by
  intro t
  have hspells : t.SpellsList [encodePair ("a", 0), encodePair ("b", 1), encodePair ("a", 2)] :=
    .cons (.inl rfl) (.cons (.inr rfl) (.raw (.inl rfl) (by simp)))
  have hpairs : List.Forall₂ (fun u p => u.decodePair = .ok p)
      [encodePair ("a", 0), encodePair ("b", 1), encodePair ("a", 2)] [("a", 0), ("b", 1), ("a", 2)] :=
    .cons (decodePair_encode (by decide)) (.cons (decodePair_encode (by decide))
      (.cons (decodePair_encode (by decide)) .nil))
  obtain ⟨table, htable, hkeys, hvalues⟩ := (decodeTable_spelled hspells).1 _ hpairs
  have hplaces : FirstPlaces ["a", "b", "a"] ["a", "b"] := ⟨by decide, fun k => by grind, by decide⟩
  exact ⟨table, htable, hkeys.unique hplaces, (hvalues _ _).2 ⟨[("a", 0), ("b", 1)], [], rfl, by simp⟩,
    (hvalues _ _).2 ⟨[("a", 0)], [("a", 2)], rfl, by simp⟩⟩

end Term

end BaseLang
