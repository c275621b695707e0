/-!
# Ordered tables

A finite map that remembers the order in which its keys were first inserted.

* `Table κ α` : entries without repeated keys;
* `insert` : a new key goes last, a known one keeps its place and takes the new value;
* `insertNew` : only a new key is inserted;
* `get?_insert`, `keys_insert` : what an insertion does to the look-up and to the order;
* `contains_iff` : the keys are what has a value; `mem_entries_iff` : the entries are the keys with their values;
* `get?_insertNew`, `keys_insertNew` : an insertion of new keys only;
* `insert_eq_self` : inserting what is there already;
* `ofList_entries` : a table from its own entries.
-/

namespace BaseLang

/-- A finite map with an order on its keys. -/
structure Table (κ α : Type) where
  entries : List (κ × α)
  nodup : (entries.map Prod.fst).Nodup
  deriving DecidableEq

namespace Table

variable {κ α β : Type} [DecidableEq κ]

/-- The value that the first entry of a key has. -/
def find? (k : κ) : List (κ × α) → Option α
  | [] => none
  | (k', v) :: rest => if k' = k then some v else find? k rest

/-- The entries with the value of `k` replaced in place, or added at the end. -/
def upsert (k : κ) (v : α) : List (κ × α) → List (κ × α)
  | [] => [(k, v)]
  | (k', v') :: rest => if k' = k then (k, v) :: rest else (k', v') :: upsert k v rest

theorem keys_upsert (k : κ) (v : α) (es : List (κ × α)) :
    (upsert k v es).map Prod.fst
      = if k ∈ es.map Prod.fst then es.map Prod.fst else es.map Prod.fst ++ [k] := by
  induction es with
  | nil => rfl
  | cons e es ih =>
    obtain ⟨k', v'⟩ := e
    by_cases h : k' = k
    · simp [upsert, h]
    · simp only [upsert, if_neg h, List.map_cons, ih, List.mem_cons, Ne.symm h, false_or]
      split <;> simp

theorem find?_upsert (k k' : κ) (v : α) (es : List (κ × α)) :
    find? k' (upsert k v es) = if k = k' then some v else find? k' es := by
  induction es with
  | nil => rfl
  | cons e es ih =>
    obtain ⟨k₁, v₁⟩ := e
    by_cases h : k₁ = k
    · subst h
      simp only [upsert, if_true, find?]
      split <;> rfl
    · simp only [upsert, if_neg h, find?, ih]
      split <;> split <;> simp_all

def empty : Table κ α := ⟨[], List.nodup_nil⟩

/-- The keys, in the order of their first insertion. -/
def keys (t : Table κ α) : List κ := t.entries.map Prod.fst

def get? (t : Table κ α) (k : κ) : Option α := find? k t.entries

def contains (t : Table κ α) (k : κ) : Bool := (t.get? k).isSome

/-- Gives a key a value. A key that has one already keeps its place. -/
def insert (t : Table κ α) (k : κ) (v : α) : Table κ α where
  entries := upsert k v t.entries
  nodup := by
    rw [keys_upsert]
    split
    · exact t.nodup
    · rename_i h
      rw [List.nodup_append]
      exact ⟨t.nodup, by simp, fun a ha b hb hab => h (by simp_all)⟩

/-- Gives a key a value unless it has one already. -/
def insertNew (t : Table κ α) (k : κ) (v : α) : Table κ α :=
  if t.contains k then t else t.insert k v

def filterKeys (t : Table κ α) (p : κ → Bool) : Table κ α where
  entries := t.entries.filter fun e => p e.1
  nodup := t.nodup.sublist ((List.filter_sublist).map Prod.fst)

def ofList (es : List (κ × α)) : Table κ α :=
  es.foldl (fun t e => t.insert e.1 e.2) empty

@[simp] theorem get?_empty (k : κ) : (empty : Table κ α).get? k = none := rfl

theorem get?_insert (t : Table κ α) (k k' : κ) (v : α) :
    (t.insert k v).get? k' = if k = k' then some v else t.get? k' :=
  find?_upsert k k' v t.entries

theorem get?_insert_self (t : Table κ α) (k : κ) (v : α) : (t.insert k v).get? k = some v := by
  rw [get?_insert, if_pos rfl]

theorem get?_insert_of_ne (t : Table κ α) {k k' : κ} (v : α) (h : k ≠ k') :
    (t.insert k v).get? k' = t.get? k' := by
  rw [get?_insert, if_neg h]

theorem keys_insert (t : Table κ α) (k : κ) (v : α) :
    (t.insert k v).keys = if k ∈ t.keys then t.keys else t.keys ++ [k] :=
  keys_upsert k v t.entries

theorem find?_isSome_iff (k : κ) (es : List (κ × α)) : (find? k es).isSome = true ↔ k ∈ es.map Prod.fst := by
  induction es with
  | nil => simp [find?]
  | cons e es ih =>
    obtain ⟨k', v⟩ := e
    by_cases h : k' = k
    · simp [find?, h]
    · simp [find?, h, ih, Ne.symm h]

theorem contains_iff {t : Table κ α} {k : κ} : t.contains k = true ↔ k ∈ t.keys :=
  find?_isSome_iff k t.entries

theorem get?_insertNew (t : Table κ α) (k k' : κ) (v : α) :
    (t.insertNew k v).get? k' = (t.get? k').or (if k = k' then some v else none) := by
  rw [insertNew, contains]
  by_cases hk : k = k'
  · subst hk
    cases hget : t.get? k with
    | none => simp [get?_insert_self]
    | some w => simp [hget]
  · rw [if_neg hk, Option.or_none]
    split
    · rfl
    · exact get?_insert_of_ne t v hk

theorem keys_insertNew (t : Table κ α) (k : κ) (v : α) :
    (t.insertNew k v).keys = if k ∈ t.keys then t.keys else t.keys ++ [k] := by
  rw [insertNew]
  by_cases hk : k ∈ t.keys
  · rw [if_pos (contains_iff.2 hk), if_pos hk]
  · rw [if_neg (mt contains_iff.1 hk), keys_insert]

theorem find?_eq_some_iff {k : κ} {v : α} {es : List (κ × α)} (h : (es.map Prod.fst).Nodup) :
    find? k es = some v ↔ (k, v) ∈ es := by
  induction es with
  | nil => simp [find?]
  | cons e es ih =>
    obtain ⟨k', v'⟩ := e
    rw [List.map_cons, List.nodup_cons] at h
    rw [find?, List.mem_cons, Prod.mk.injEq]
    split
    · rename_i hk
      subst hk
      have hnew : (k', v) ∉ es := fun hmem => h.1 (List.mem_map.2 ⟨_, hmem, rfl⟩)
      simp [hnew, eq_comm]
    · rename_i hk
      rw [ih h.2]
      simp [Ne.symm hk]

theorem mem_entries_iff {t : Table κ α} {k : κ} {v : α} : (k, v) ∈ t.entries ↔ t.get? k = some v :=
  (find?_eq_some_iff t.nodup).symm

theorem upsert_eq_self {k : κ} {v : α} {es : List (κ × α)} (h : find? k es = some v) : upsert k v es = es := by
  induction es with
  | nil => cases h
  | cons e es ih =>
    obtain ⟨k', v'⟩ := e
    by_cases hk : k' = k
    · rw [find?, if_pos hk] at h
      rw [upsert, if_pos hk, hk, Option.some.inj h]
    · rw [find?, if_neg hk] at h
      rw [upsert, if_neg hk, ih h]

theorem insert_eq_self {t : Table κ α} {k : κ} {v : α} (h : t.get? k = some v) : t.insert k v = t := by
  cases t with
  | mk entries nodup =>
    rw [insert]
    congr
    exact upsert_eq_self h

theorem upsert_of_notMem {k : κ} {v : α} {es : List (κ × α)} (h : k ∉ es.map Prod.fst) :
    upsert k v es = es ++ [(k, v)] := by
  induction es with
  | nil => rfl
  | cons e es ih =>
    obtain ⟨k', v'⟩ := e
    rw [List.map_cons, List.mem_cons, not_or] at h
    rw [upsert, if_neg (Ne.symm h.1), ih h.2, List.cons_append]

/-- New keys are inserted at the end. -/
theorem entries_foldl_insert (es : List (κ × α)) (t : Table κ α)
    (h : ((t.entries ++ es).map Prod.fst).Nodup) :
    (es.foldl (fun t e => t.insert e.1 e.2) t).entries = t.entries ++ es := by
  induction es generalizing t with
  | nil => simp
  | cons e es ih =>
    have hnew : e.1 ∉ t.entries.map Prod.fst := by
      intro hm
      rw [List.map_append, List.map_cons, List.nodup_append] at h
      exact h.2.2 e.1 hm e.1 List.mem_cons_self rfl
    have hinsert : (t.insert e.1 e.2).entries = t.entries ++ [e] := upsert_of_notMem hnew
    rw [List.foldl_cons, ih, hinsert, List.append_assoc, List.singleton_append]
    rwa [hinsert, List.append_assoc, List.singleton_append]

theorem ofList_entries (t : Table κ α) : ofList t.entries = t := by
  have h : (ofList t.entries).entries = t.entries := entries_foldl_insert t.entries empty t.nodup
  cases hl : ofList t.entries with
  | mk entries nodup =>
    rw [hl] at h
    cases t
    congr

end Table

/-- Names without repetitions, in the order of their first occurrence. -/
abbrev NameSet := Table String Unit

namespace NameSet

def ofNames (names : List String) : NameSet :=
  Table.ofList (names.map fun name => (name, ()))

theorem ofNames_keys (names : NameSet) : ofNames names.keys = names := by
  have h : (names.keys.map fun name => (name, ())) = names.entries := by
    rw [Table.keys, List.map_map]
    exact List.map_id' names.entries
  rw [ofNames, h, Table.ofList_entries]

end NameSet

end BaseLang
