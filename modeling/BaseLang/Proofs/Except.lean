import Mathlib.Data.List.Forall2

/-!
# Values or errors

Computations that give a value or stop with an error, in steps or element by element.

* `ok_bind`, `exists_of_bind` : a step with a value is followed by the next one, and there is no value without it;
* `eq_ok_of_toOption`, `exists_error_of_ne_ok` : the two kinds of results;
* `mapM_eq_ok_iff`, `mapM_eq_error` : a list has a value for each element, or the error of the first without one;
* `mapM_encoded` : values that are read back one by one are read back as a list.
-/

namespace BaseLang

variable {ε α β : Type} {x : Except ε α} {v : α}

theorem ok_bind (a : α) (f : α → Except ε β) : (Except.ok a >>= f) = f a := rfl

theorem exists_of_bind {f : α → Except ε β} {w : β} (h : x >>= f = .ok w) : ∃ v, x = .ok v ∧ f v = .ok w := by
  cases x with
  | error e => cases h
  | ok v => exact ⟨v, rfl, h⟩

theorem eq_ok_of_toOption (h : x.toOption = some v) : x = .ok v := by
  cases x with
  | error e => cases h
  | ok u =>
    cases h
    rfl

theorem exists_error_of_ne_ok (h : ∀ v, x ≠ .ok v) : ∃ e, x = .error e := by
  cases x with
  | error e => exact ⟨e, rfl⟩
  | ok v => exact absurd rfl (h v)

/-! ## Lists -/

theorem mapM_eq_ok_iff {f : α → Except ε β} {vs : List α} {ws : List β} :
    vs.mapM f = .ok ws ↔ List.Forall₂ (fun v w => f v = .ok w) vs ws := by
  induction vs generalizing ws with
  | nil =>
    rw [List.mapM_nil, List.forall₂_nil_left_iff]
    exact ⟨fun h => (Except.ok.inj h).symm, fun h => h ▸ rfl⟩
  | cons v vs ih =>
    rw [List.mapM_cons, List.forall₂_cons_left_iff]
    constructor
    · intro h
      obtain ⟨w, hw, h⟩ := exists_of_bind h
      obtain ⟨us, hus, h⟩ := exists_of_bind h
      exact ⟨w, us, hw, ih.1 hus, (Except.ok.inj h).symm⟩
    · rintro ⟨w, us, hw, hus, rfl⟩
      rw [hw, ok_bind, ih.2 hus]
      rfl

theorem mapM_eq_error {f : α → Except ε β} {before after : List α} {e : ε}
    (h : ∀ u ∈ before, ∃ w, f u = .ok w) (hv : f v = .error e) : (before ++ v :: after).mapM f = .error e := by
  induction before with
  | nil =>
    rw [List.nil_append, List.mapM_cons, hv]
    rfl
  | cons u before ih =>
    obtain ⟨⟨w, hw⟩, hbefore⟩ := List.forall_mem_cons.1 h
    rw [List.cons_append, List.mapM_cons, hw, ok_bind, ih hbefore]
    rfl

theorem forall₂_encoded {encode : α → β} {decode : β → Except ε α} {vs : List α}
    (h : ∀ v ∈ vs, decode (encode v) = .ok v) : List.Forall₂ (fun w v => decode w = .ok v) (vs.map encode) vs :=
  List.forall₂_map_left_iff.2 (List.forall₂_same.2 h)

theorem mapM_encoded {encode : α → β} {decode : β → Except ε α} {vs : List α}
    (h : ∀ v ∈ vs, decode (encode v) = .ok v) : (vs.map encode).mapM decode = .ok vs :=
  mapM_eq_ok_iff.2 (forall₂_encoded h)

end BaseLang
