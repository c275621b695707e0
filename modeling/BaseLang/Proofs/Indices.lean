import BaseLang.Proofs.Encoding
import Mathlib.Data.List.Induction
import Mathlib.Data.List.TakeWhile
import Mathlib.Data.Nat.Digits.Defs

/-!
# Argument positions

Which terms are decoded as an argument position, and as which one.

* `Text.digitsValue` : the value of decimal digits by their places;
* `Text.Numeral` : an optional sign and at least one digit, with its value. `readDecimal?_eq_some_iff` : this is read;
* `Text.SpellsInt` : a numeral with white space around it, between quotes or not. `spellsInt_iff` : what is left of it
  without these is the numeral;
* `Term.SpellsInt` : the spellings of an integer in a term, without a layer;
* `decodeIndex_spelled` : a term is decoded exactly if it spells a position, and then as this position.
-/

namespace BaseLang

/-! ## Numerals -/

namespace Text

variable {cs ds : List Char} {n : Int}

/-- The value of decimal digits, where the last one counts units and each other one ten times as much as the next. -/
def digitsValue (ds : List Char) : Nat := Nat.ofDigits 10 (ds.reverse.map fun c => c.toNat - '0'.toNat)

theorem digitsValue_append (ds : List Char) (c : Char) :
    digitsValue (ds ++ [c]) = 10 * digitsValue ds + (c.toNat - '0'.toNat) := by
  simp only [digitsValue, List.reverse_append, List.reverse_singleton, List.singleton_append, List.map_cons,
    Nat.ofDigits_cons]
  omega

theorem ofDigitChars_eq (ds : List Char) : Nat.ofDigitChars 10 ds 0 = digitsValue ds := by
  induction ds using List.reverseRecOn with
  | nil => rfl
  | append_singleton ds c ih =>
    rw [digitsValue_append, ← ih]
    exact List.foldl_append

/-- An optional sign and at least one decimal digit, and the value of the number. -/
inductive Numeral : List Char → Int → Prop where
  | bare {ds : List Char} (hne : ds ≠ []) (hd : ∀ c ∈ ds, c.isDigit = true) : Numeral ds (digitsValue ds)
  | plus {ds : List Char} (hne : ds ≠ []) (hd : ∀ c ∈ ds, c.isDigit = true) : Numeral ('+' :: ds) (digitsValue ds)
  | minus {ds : List Char} (hne : ds ≠ []) (hd : ∀ c ∈ ds, c.isDigit = true) :
    Numeral ('-' :: ds) (-(digitsValue ds : Int))

theorem map_readDigits?_eq_some_iff (f : Nat → Int) : (readDigits? ds).map f = some n
    ↔ ds ≠ [] ∧ (∀ c ∈ ds, c.isDigit = true) ∧ f (digitsValue ds) = n := by
  unfold readDigits?
  rw [Option.map_eq_some_iff]
  simp only [Option.ite_none_right_eq_some, ofDigitChars_eq, List.all_eq_true, Option.some.injEq, and_assoc,
    exists_and_left, exists_eq_left']

theorem readDecimal?_minus (ds : List Char) :
    readDecimal? ('-' :: ds) = (readDigits? ds).map (fun k : Nat => -(k : Int)) := by
  rw [readDecimal?]
  cases readDigits? ds <;> rfl

theorem readDecimal?_eq_some_iff : readDecimal? cs = some n ↔ Numeral cs n := by
  constructor
  · intro h
    rw [readDecimal?.eq_def] at h
    split at h
    · rw [← readDecimal?, readDecimal?_minus] at h
      obtain ⟨hne, hd, rfl⟩ := (map_readDigits?_eq_some_iff _).1 h
      exact .minus hne hd
    · obtain ⟨hne, hd, rfl⟩ := (map_readDigits?_eq_some_iff _).1 h
      exact .plus hne hd
    · obtain ⟨hne, hd, rfl⟩ := (map_readDigits?_eq_some_iff _).1 h
      exact .bare hne hd
  · intro h
    cases h with
    | bare hne hd =>
      cases cs with
      | nil => exact absurd rfl hne
      | cons c cs =>
        rw [readDecimal?_of_isDigit (hd c (by simp))]
        exact (map_readDigits?_eq_some_iff _).2 ⟨hne, hd, rfl⟩
    | plus hne hd => exact (map_readDigits?_eq_some_iff _).2 ⟨hne, hd, rfl⟩
    | minus hne hd =>
      rw [readDecimal?_minus]
      exact (map_readDigits?_eq_some_iff _).2 ⟨hne, hd, rfl⟩

theorem Numeral.mem (h : Numeral cs n) : ∀ c ∈ cs, c ≠ '"' ∧ isBlank c = false := by
  have hdigit : ∀ {c : Char}, c.isDigit = true → c ≠ '"' ∧ isBlank c = false := fun hc =>
    ⟨fun e => absurd (e ▸ hc) (by decide), isBlank_of_isDigit hc⟩
  cases h with
  | bare _ hd => exact fun c hc => hdigit (hd c hc)
  | plus _ hd => exact List.forall_mem_cons.2 ⟨by decide, fun c hc => hdigit (hd c hc)⟩
  | minus _ hd => exact List.forall_mem_cons.2 ⟨by decide, fun c hc => hdigit (hd c hc)⟩

theorem Numeral.ne_nil (h : Numeral cs n) : cs ≠ [] := by
  cases h with
  | bare hne _ => exact hne
  | plus | minus => exact List.cons_ne_nil _ _

/-! ### Quotes and white space -/

/-- A numeral with white space around it, and with a quote at both ends, at one of them or at none. -/
def SpellsInt (cs : List Char) (n : Int) : Prop :=
  ∃ quote gap numeral gap' quote' : List Char, cs = quote ++ (gap ++ (numeral ++ gap')) ++ quote'
    ∧ (quote = [] ∨ quote = ['"']) ∧ (quote' = [] ∨ quote' = ['"']) ∧ (∀ c ∈ gap, isBlank c = true)
    ∧ (∀ c ∈ gap', isBlank c = true) ∧ Numeral numeral n

theorem exists_dropQuote (cs : List Char) : ∃ quote, (quote = [] ∨ quote = ['"']) ∧ cs = quote ++ dropQuote cs := by
  unfold dropQuote
  split
  · exact ⟨['"'], .inr rfl, rfl⟩
  · exact ⟨[], .inl rfl, rfl⟩

theorem exists_unquoteChars (cs : List Char) : ∃ quote quote', (quote = [] ∨ quote = ['"'])
    ∧ (quote' = [] ∨ quote' = ['"']) ∧ cs = quote ++ unquoteChars cs ++ quote' := by
  obtain ⟨quote, hquote, hcs⟩ := exists_dropQuote cs
  obtain ⟨quote', hquote', hback⟩ := exists_dropQuote (dropQuote cs).reverse
  refine ⟨quote, quote', hquote, hquote', ?_⟩
  have hreverse : quote'.reverse = quote' := by rcases hquote' with rfl | rfl <;> rfl
  have hfront := congrArg List.reverse hback
  rw [List.reverse_reverse, List.reverse_append, hreverse] at hfront
  rw [List.append_assoc, unquoteChars, ← hfront]
  exact hcs

theorem unquoteChars_quotes {quote quote' : List Char} (hquote : quote = [] ∨ quote = ['"'])
    (hquote' : quote' = [] ∨ quote' = ['"']) (hne : cs ≠ []) (h : '"' ∉ cs) :
    unquoteChars (quote ++ cs ++ quote') = cs := by
  have hdrop : ∀ {quote ds : List Char}, quote = [] ∨ quote = ['"'] → ds.head? ≠ some '"' →
      dropQuote (quote ++ ds) = ds := by
    rintro _ ds (rfl | rfl) hds
    · rw [List.nil_append, dropQuote.eq_def]
      split
      · exact absurd rfl hds
      · rfl
    · rfl
  have hfront : (cs ++ quote').head? ≠ some '"' := by
    rw [List.head?_append_of_ne_nil _ hne]
    exact fun hhead => h (List.mem_of_mem_head? hhead)
  have hback : cs.reverse.head? ≠ some '"' := fun hhead => h (List.mem_reverse.1 (List.mem_of_mem_head? hhead))
  have hreverse : quote'.reverse = quote' := by rcases hquote' with rfl | rfl <;> rfl
  rw [unquoteChars, List.append_assoc, hdrop hquote hfront, List.reverse_append, hreverse, hdrop hquote' hback,
    List.reverse_reverse]

theorem exists_trim (cs : List Char) : ∃ gap gap', (∀ c ∈ gap, isBlank c = true) ∧ (∀ c ∈ gap', isBlank c = true)
    ∧ cs = gap ++ (trim cs ++ gap') := by
  refine ⟨cs.takeWhile isBlank, ((trimStart cs).reverse.takeWhile isBlank).reverse,
    fun c hc => List.mem_takeWhile_imp hc, fun c hc => List.mem_takeWhile_imp (List.mem_reverse.1 hc), ?_⟩
  rw [trim, trimEnd, ← List.reverse_append, List.takeWhile_append_dropWhile, List.reverse_reverse, trimStart,
    List.takeWhile_append_dropWhile]

theorem trim_gaps {gap gap' : List Char} (hg : ∀ c ∈ gap, isBlank c = true) (hg' : ∀ c ∈ gap', isBlank c = true)
    (hne : cs ≠ []) (h : ∀ c ∈ cs, isBlank c = false) : trim (gap ++ (cs ++ gap')) = cs := by
  have hdrop : ∀ {gap ds : List Char} (es : List Char), (∀ c ∈ gap, isBlank c = true) → ds ≠ [] →
      (∀ c ∈ ds, isBlank c = false) → (gap ++ (ds ++ es)).dropWhile isBlank = ds ++ es := by
    intro gap ds es hg hne h
    rw [List.dropWhile_append_of_pos hg]
    cases ds with
    | nil => exact absurd rfl hne
    | cons d ds => exact List.dropWhile_cons_of_neg (by simp [h d])
  have hback := hdrop [] (fun c hc => hg' c (List.mem_reverse.1 hc)) (List.reverse_ne_nil_iff.2 hne)
    fun c hc => h c (List.mem_reverse.1 hc)
  rw [List.append_nil] at hback
  rw [trim, trimStart, hdrop gap' hg hne h, trimEnd, List.reverse_append, hback, List.reverse_reverse]

theorem spellsInt_iff : SpellsInt cs n ↔ Numeral (trim (unquoteChars cs)) n := by
  constructor
  · rintro ⟨quote, gap, numeral, gap', quote', rfl, hquote, hquote', hg, hg', h⟩
    have hblank : ∀ c, isBlank c = true → c ≠ '"' := fun c hc e => absurd (e ▸ hc) (by decide)
    have hnumeral := h.mem
    have hmem : '"' ∉ gap ++ (numeral ++ gap') := by
      intro hm
      rcases List.mem_append.1 hm with hm | hm
      · exact hblank _ (hg _ hm) rfl
      · rcases List.mem_append.1 hm with hm | hm
        · exact (hnumeral _ hm).1 rfl
        · exact hblank _ (hg' _ hm) rfl
    rw [unquoteChars_quotes hquote hquote' (by simp [h.ne_nil]) hmem,
      trim_gaps hg hg' h.ne_nil fun c hc => (hnumeral c hc).2]
    exact h
  · intro h
    obtain ⟨quote, quote', hquote, hquote', hcs⟩ := exists_unquoteChars cs
    obtain ⟨gap, gap', hg, hg', hcore⟩ := exists_trim (unquoteChars cs)
    refine ⟨quote, gap, _, gap', quote', ?_, hquote, hquote', hg, hg', h⟩
    rw [← hcore]
    exact hcs

end Text

/-! ## Terms -/

namespace Term

variable {t u : Term} {v : Int64} {n : Nat}

/-- The spellings of an integer without a layer: the integer itself, and `Int(..)` around it or around a text that
spells it. -/
inductive SpellsInt : Term → Int → Prop where
  | raw (v : Int64) : SpellsInt (.int v) v.toInt
  | int (v : Int64) : SpellsInt (.appl "Int" [.int v]) v.toInt
  | text {s : String} {n : Int} (h : Text.SpellsInt s.toList n) : SpellsInt (.appl "Int" [.str s]) n

theorem destruct₁_eq_ok_iff {cons : String} : t.destruct₁ cons = .ok u ↔ t = .appl cons [u] := by
  constructor
  · intro h
    unfold destruct₁ destruct argsOf at h
    grind
  · rintro rfl
    exact destruct₁_appl cons u

theorem readInt64?_trim_iff {cs : List Char} : Text.readInt64? (Text.trim (Text.unquoteChars cs)) = some v
    ↔ Text.SpellsInt cs v.toInt := by
  rw [Text.spellsInt_iff, ← Text.readDecimal?_eq_some_iff, readInt64?_eq_some_iff]
  constructor
  · rintro ⟨k, hk, ⟨hmin, hmax⟩, rfl⟩
    have hmin' : Int64.minValue.toInt = -2 ^ 63 := by decide
    have hmax' : Int64.maxValue.toInt = 2 ^ 63 - 1 := by decide
    rwa [Int64.toInt_ofInt_of_le (by omega) (by omega)]
  · intro h
    exact ⟨v.toInt, h, ⟨v.minValue_le_toInt, v.toInt_le⟩, Int64.ofInt_toInt v⟩

theorem literalInt_eq_ok_iff :
    t.literalInt = .ok v ↔ t = .int v ∨ ∃ s, t = .str s ∧ Text.SpellsInt s.toList v.toInt := by
  cases t with
  | int value => simp [literalInt]
  | str s =>
    simp only [reduceCtorEq, str.injEq, false_or, exists_eq_left', ← readInt64?_trim_iff, literalInt, asStr]
    cases Text.readInt64? (Text.trim (Text.unquoteChars s.toList)) <;> simp
  | appl | list => simp [literalInt, asStr]

theorem asIndex_eq_ok_iff : asIndex t v = .ok n ↔ v.toInt = n := by
  unfold asIndex
  split
  · rw [Except.ok.injEq]
    omega
  · simp only [reduceCtorEq, false_iff]
    omega

/-- What is decoded below the layer is an integer in its spellings, if it is not negative and fits 64 bits. -/
theorem decodeIndex_eq_ok_iff :
    t.decodeIndex = .ok n ↔ t.unwrapped.SpellsInt n ∧ (n : Int) ≤ Int64.maxValue.toInt := by
  generalize hu : t.unwrapped = u
  constructor
  · intro h
    unfold decodeIndex at h
    rw [hu] at h
    split at h
    · rename_i value
      have hvalue := asIndex_eq_ok_iff.1 h
      exact ⟨hvalue ▸ .raw value, hvalue ▸ value.toInt_le⟩
    · split at h
      · rename_i literal hliteral
        split at h
        · rename_i value hvalue
          have hn := asIndex_eq_ok_iff.1 h
          rw [destruct₁_eq_ok_iff.1 hliteral]
          refine ⟨?_, hn ▸ value.toInt_le⟩
          rcases literalInt_eq_ok_iff.1 hvalue with rfl | ⟨s, rfl, hs⟩
          · exact hn ▸ .int value
          · exact .text (hn ▸ hs)
        · cases h
      · cases h
  · rintro ⟨h, hmax⟩
    have hliteral : ∀ literal v, u = .appl "Int" [literal] → literal.literalInt = .ok v → v.toInt = n →
        t.decodeIndex = .ok n := by
      rintro literal v rfl hv hn
      unfold decodeIndex
      rw [hu]
      simp only [destruct₁_appl, hv]
      exact asIndex_eq_ok_iff.2 hn
    generalize hk : (n : Int) = k at h
    cases h with
    | raw v =>
      unfold decodeIndex
      rw [hu]
      exact asIndex_eq_ok_iff.2 hk.symm
    | int v => exact hliteral _ v rfl rfl hk.symm
    | text h =>
      have hmax' : Int64.maxValue.toInt = 2 ^ 63 - 1 := by decide
      have hvalue : (Int64.ofInt n).toInt = n := Int64.toInt_ofInt_of_le (by omega) (by omega)
      refine hliteral _ (Int64.ofInt n) rfl ?_ hvalue
      exact literalInt_eq_ok_iff.2 (.inr ⟨_, rfl, by rwa [hvalue, hk]⟩)

theorem unwrapped_of_spellsInt {k : Int} (h : u.SpellsInt k) (hw : t.Wraps u) : t.unwrapped = u := by
  rcases hw with rfl | rfl
  · cases h <;> rfl
  · exact unwrapped_layered u

theorem wraps_unwrapped (t : Term) : t.Wraps t.unwrapped := by
  unfold unwrapped
  split
  · split
    · rename_i hcons
      exact .inr (by rw [hcons, layered])
    · exact .inl rfl
  · exact .inl rfl

end Term

open Term

/-- **Argument positions are decoded exactly.** A term is decoded as the position `n` exactly if it spells `n`, in one
layer or in none, and `n` is at most the greatest integer of 64 bits. Every other term is an error. So a position is
decoded from each of its spellings, and from no spelling of another integer. -/
theorem decodeIndex_spelled (t : Term) :
    (∀ n, t.decodeIndex = .ok n ↔ (∃ u, t.Wraps u ∧ u.SpellsInt n) ∧ n ≤ 2 ^ 63 - 1)
    ∧ ((∃ e, t.decodeIndex = .error e) ↔ ¬ ∃ n : Nat, (∃ u, t.Wraps u ∧ u.SpellsInt n) ∧ n ≤ 2 ^ 63 - 1)
    ∧ ∀ n : Nat, n ≤ 2 ^ 63 - 1 → t.SpellsInt n → t.decodeIndex = .ok n ∧ t.layered.decodeIndex = .ok n := by
  have hok : ∀ (t : Term) (n : Nat), t.decodeIndex = .ok n ↔ (∃ u, t.Wraps u ∧ u.SpellsInt n) ∧ n ≤ 2 ^ 63 - 1 := by
    intro t n
    have hmax : Int64.maxValue.toInt = 2 ^ 63 - 1 := by decide
    have hbound : (n : Int) ≤ Int64.maxValue.toInt ↔ n ≤ 2 ^ 63 - 1 := by omega
    rw [decodeIndex_eq_ok_iff, hbound]
    refine and_congr_left fun _ => ⟨fun h => ⟨_, wraps_unwrapped t, h⟩, ?_⟩
    rintro ⟨u, hw, hu⟩
    rwa [unwrapped_of_spellsInt hu hw]
  refine ⟨hok t, ?_, fun n hn h => ⟨(hok t n).2 ⟨⟨t, .inl rfl, h⟩, hn⟩, (hok _ n).2 ⟨⟨t, .inr rfl, h⟩, hn⟩⟩⟩
  simp only [← hok t]
  cases t.decodeIndex <;> simp

example : (layered (.appl "Int" [.str "\" +007\t\""])).decodeIndex = .ok 7 := by decide

example : (Term.appl "Int" [.str "9223372036854775808"]).decodeIndex
    = .error ⟨.integer, .str "9223372036854775808"⟩ := by decide

end BaseLang
