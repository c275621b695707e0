import BaseLang.Term.Token
import BaseLang.Text.Decimal
import BaseLang.Text.Quoted

/-!
# Lexing

What the lexer makes of a text that is put together from tokens.

* `Lexer.isIdent` : the names that are identifiers;
* `Closed rest` : the text `rest` continues neither a name nor a number in front of it;
* `lexAfter_spaces`, `lexAfter_token` : white space is passed over, and the longest match of the first
  character is the first lexeme;
* `lexAfter_name`, `lexAfter_decimal`, `lexAfter_quoted`, `lexAfter_punct` : the tokens that printed terms
  are made of;
* `isIdent_of_mem_lexAfter` : every name that the lexer finds is an identifier.
-/

namespace BaseLang.Lexer

/-- Whether a name is an identifier: a letter or `_`, and then letters, digits, `_`, `'` and `-`. -/
def isIdent : List Char → Bool
  | [] => false
  | c :: cs => isIdentStart c && cs.all isIdentRest

/-- The text `rest` starts with nothing that could continue a name or a number. -/
def Closed (rest : List Char) : Prop := ∀ c ∈ rest.head?, isIdentRest c = false

theorem closed_nil : Closed [] := by simp [Closed]

theorem closed_cons {c : Char} (h : isIdentRest c = false) (cs : List Char) : Closed (c :: cs) := by
  simpa [Closed] using h

/-! ## Longest matches -/

theorem takeWhile_length_append {p : Char → Bool} {body rest : List Char} (h : ∀ c ∈ body, p c = true)
    (hr : ∀ c ∈ rest.head?, p c = false) : ((body ++ rest).takeWhile p).length = body.length := by
  rw [List.takeWhile_append_of_pos h, List.length_append]
  cases rest with
  | nil => rfl
  | cons c cs => simp [hr c rfl]

theorem isIdentRest_of_isDigit {c : Char} (h : c.isDigit) : isIdentRest c = true := by
  simp [isIdentRest, Char.isAlphanum, h]

theorem isSpace_eq_false_of_isIdentStart {c : Char} (h : isIdentStart c) : isSpace c = false := by
  rw [Bool.eq_false_iff]
  intro hs
  simp only [isSpace, Bool.or_eq_true, beq_iff_eq] at hs
  rcases hs with (((rfl | rfl) | rfl) | rfl) | rfl <;> revert h <;> decide

theorem munch_of_isIdentStart {c : Char} (h : isIdentStart c) (cs : List Char) :
    munch c cs = ⟨some .ident, (cs.takeWhile isIdentRest).length⟩ := by
  unfold munch
  rw [isSpace_eq_false_of_isIdentStart h, if_neg (by simp), if_pos h]

theorem munch_ident {c : Char} {body rest : List Char} (hc : isIdentStart c)
    (hb : ∀ x ∈ body, isIdentRest x = true) (hr : Closed rest) :
    munch c (body ++ rest) = ⟨some .ident, body.length⟩ := by
  rw [munch_of_isIdentStart hc, takeWhile_length_append hb hr]

theorem isSpace_isIdentStart_of_isDigit {c : Char} (h : c.isDigit) :
    isSpace c = false ∧ isIdentStart c = false := by
  have hn := Text.isDigit_iff.1 h
  constructor
  · rw [Bool.eq_false_iff]
    intro hs
    simp only [isSpace, Bool.or_eq_true, beq_iff_eq] at hs
    rcases hs with (((rfl | rfl) | rfl) | rfl) | rfl <;> revert h <;> decide
  · rw [Bool.eq_false_iff]
    intro hs
    delta isIdentStart Char.isAlpha Char.isUpper Char.isLower at hs
    simp only [Bool.or_eq_true, beq_iff_eq, Bool.and_eq_true, decide_eq_true_eq, ge_iff_le,
      UInt32.le_iff_toNat_le] at hs
    change ((65 ≤ c.toNat ∧ _) ∨ 97 ≤ c.toNat ∧ _) ∨ _ at hs
    rcases hs with (hs | hs) | rfl
    · omega
    · omega
    · revert h; decide

theorem munch_of_isDigit {c : Char} (h : c.isDigit) (cs : List Char) :
    munch c cs = ⟨some .int, (cs.takeWhile Char.isDigit).length⟩ := by
  obtain ⟨hs, hi⟩ := isSpace_isIdentStart_of_isDigit h
  unfold munch
  rw [hs, hi, if_neg (by simp), if_neg (by simp), if_pos h]

theorem munch_digits {c : Char} {body rest : List Char} (hc : c.isDigit)
    (hb : ∀ x ∈ body, x.isDigit = true) (hr : ∀ x ∈ rest.head?, x.isDigit = false) :
    munch c (body ++ rest) = ⟨some .int, body.length⟩ := by
  rw [munch_of_isDigit hc, takeWhile_length_append hb hr]

theorem munch_of_minus {cs : List Char} (h : cs.takeWhile Char.isDigit ≠ []) :
    munch '-' cs = ⟨some .int, (cs.takeWhile Char.isDigit).length⟩ := by
  unfold munch
  rw [if_neg (by decide), if_neg (by decide), if_neg (by decide), if_pos rfl]
  exact if_neg fun hl => h (List.eq_nil_of_length_eq_zero hl)

theorem munch_minus {body rest : List Char} (hne : body ≠ []) (hb : ∀ x ∈ body, x.isDigit = true)
    (hr : ∀ x ∈ rest.head?, x.isDigit = false) :
    munch '-' (body ++ rest) = ⟨some .int, body.length⟩ := by
  have hl := takeWhile_length_append hb hr
  have hne' : (body ++ rest).takeWhile Char.isDigit ≠ [] := by
    intro h
    rw [h, List.length_nil] at hl
    exact hne (List.eq_nil_of_length_eq_zero hl.symm)
  rw [munch_of_minus hne', hl]

theorem Closed.not_isDigit {rest : List Char} (h : Closed rest) : ∀ x ∈ rest.head?, x.isDigit = false := by
  intro x hx
  rw [Bool.eq_false_iff]
  intro hd
  have := h x hx
  rw [isIdentRest_of_isDigit hd] at this
  cases this

theorem strBody_escapeChar (c : Char) (cs : List Char) :
    strBody (Text.escapeChar c ++ cs)
      = ((strBody cs).1 + (Text.escapeChar c).length, (strBody cs).2) := by
  unfold Text.escapeChar
  split
  · rfl
  · rfl
  · rfl
  · rfl
  · rfl
  · rename_i hq hb _ _ _
    rw [List.singleton_append, strBody, if_neg hq]
    · rfl
    · exact fun h => absurd h hb
    · exact fun _ _ h => absurd h hb

/-- The text between the quotes of a written literal ends exactly at the closing quote. -/
theorem strBody_flatMap (cs rest : List Char) :
    strBody (cs.flatMap Text.escapeChar ++ '"' :: rest)
      = ((cs.flatMap Text.escapeChar).length + 1, true) := by
  induction cs with
  | nil => simp [strBody]
  | cons c cs ih =>
    rw [List.flatMap_cons, List.append_assoc, strBody_escapeChar, ih, List.length_append]
    simp only [Prod.mk.injEq, and_true]
    omega

theorem munch_quote (cs : List Char) :
    munch '"' cs = ⟨some (if (strBody cs).2 then .str else .invalid), (strBody cs).1⟩ := by
  unfold munch
  rw [if_neg (by decide), if_neg (by decide), if_neg (by decide), if_neg (by decide), if_neg (by decide), if_pos rfl]

theorem munch_quoted (cs rest : List Char) :
    munch '"' (cs.flatMap Text.escapeChar ++ '"' :: rest)
      = ⟨some .str, (cs.flatMap Text.escapeChar).length + 1⟩ := by
  rw [munch_quote, strBody_flatMap]
  rfl

theorem munch_punct (p : Punct) (rest : List Char) : munch p.char rest = ⟨some (.punct p), 0⟩ := by
  cases p <;> rfl

/-! ## Lexemes -/

theorem lexAfter_append (m : Mark) (as rest : List Char) :
    lexAfter m as.length (as ++ rest) = lexAfter (m.after as) 0 rest := by
  induction as generalizing m with
  | nil => rfl
  | cons a as ih =>
    rw [List.cons_append, List.length_cons, lexAfter, ih]
    rfl

theorem lexAfter_token {m : Mark} {c : Char} {body rest : List Char} {kind : Kind}
    (h : munch c (body ++ rest) = ⟨some kind, body.length⟩) :
    lexAfter m 0 (c :: (body ++ rest))
      = ⟨kind, c :: body, m⟩ :: lexAfter (m.after (c :: body)) 0 rest := by
  rw [lexAfter, h]
  simp only [List.take_left, lexAfter_append]
  rfl

theorem lexAfter_takeWhile_isSpace (m : Mark) (cs : List Char) :
    lexAfter m (cs.takeWhile isSpace).length cs = lexAfter m 0 cs := by
  cases cs with
  | nil => simp [lexAfter]
  | cons c cs =>
    by_cases h : isSpace c
    · rw [List.takeWhile_cons_of_pos h, List.length_cons, lexAfter, lexAfter]
      simp [munch, h]
    · rw [List.takeWhile_cons_of_neg h]
      rfl

theorem lexAfter_space {c : Char} (h : isSpace c) (m : Mark) (cs : List Char) :
    lexAfter m 0 (c :: cs) = lexAfter (m.next c) 0 cs := by
  rw [lexAfter, ← lexAfter_takeWhile_isSpace]
  simp [munch, h]

theorem lexAfter_spaces {gap : List Char} (h : ∀ c ∈ gap, isSpace c = true) (m : Mark)
    (rest : List Char) : lexAfter m 0 (gap ++ rest) = lexAfter (m.after gap) 0 rest := by
  induction gap generalizing m with
  | nil => rfl
  | cons c gap ih =>
    rw [List.cons_append, lexAfter_space (h c (by simp)), ih fun x hx => h x (by simp [hx])]
    rfl

/-! ## The tokens of printed terms -/

theorem lexAfter_name {name rest : List Char} (h : isIdent name) (hr : Closed rest) (m : Mark) :
    lexAfter m 0 (name ++ rest) = ⟨.ident, name, m⟩ :: lexAfter (m.after name) 0 rest := by
  cases name with
  | nil => cases h
  | cons c body =>
    simp only [isIdent, Bool.and_eq_true, List.all_eq_true] at h
    exact lexAfter_token (munch_ident h.1 h.2 hr)

theorem lexAfter_decimal {rest : List Char} (hr : Closed rest) (n : Int) (m : Mark) :
    lexAfter m 0 (Text.decimal n ++ rest)
      = ⟨.int, Text.decimal n, m⟩ :: lexAfter (m.after (Text.decimal n)) 0 rest := by
  cases n with
  | ofNat n =>
    have hd : ∀ c ∈ Nat.toDigits 10 n, c.isDigit = true := Text.isDigit_of_mem_toDigits
    change lexAfter m 0 (Nat.toDigits 10 n ++ rest)
      = ⟨.int, Nat.toDigits 10 n, m⟩ :: lexAfter (m.after (Nat.toDigits 10 n)) 0 rest
    cases h : Nat.toDigits 10 n with
    | nil => exact absurd h Nat.toDigits_ne_nil
    | cons c body =>
      rw [h] at hd
      have hb : ∀ x ∈ body, x.isDigit = true := fun x hx => hd x (List.mem_cons_of_mem c hx)
      have hc := munch_digits (hd c (by simp)) hb hr.not_isDigit
      exact lexAfter_token hc
  | negSucc n =>
    exact lexAfter_token (munch_minus Nat.toDigits_ne_nil Text.isDigit_of_mem_toDigits hr.not_isDigit)

theorem lexAfter_quoted (cs rest : List Char) (m : Mark) :
    lexAfter m 0 (Text.quoted cs ++ rest)
      = ⟨.str, Text.quoted cs, m⟩ :: lexAfter (m.after (Text.quoted cs)) 0 rest := by
  have h := munch_quoted cs rest
  rw [show cs.flatMap Text.escapeChar ++ '"' :: rest = (cs.flatMap Text.escapeChar ++ ['"']) ++ rest by
      simp, show (cs.flatMap Text.escapeChar).length + 1
        = (cs.flatMap Text.escapeChar ++ ['"']).length by simp] at h
  exact lexAfter_token h

theorem lexAfter_punct (p : Punct) (rest : List Char) (m : Mark) :
    lexAfter m 0 (p.char :: rest) = ⟨.punct p, [p.char], m⟩ :: lexAfter (m.after [p.char]) 0 rest := by
  have h : munch p.char ([] ++ rest) = ⟨some (.punct p), ([] : List Char).length⟩ := munch_punct p rest
  exact lexAfter_token h

/-! ## The names that the lexer finds -/

theorem isIdentStart_of_munch {c : Char} {cs : List Char} (h : (munch c cs).kind = some .ident) :
    isIdentStart c ∧ (munch c cs).more = (cs.takeWhile isIdentRest).length := by
  unfold munch at h ⊢
  split at h
  · cases h
  · split at h
    · rename_i hs hi
      rw [if_neg hs, if_pos hi]
      exact ⟨hi, rfl⟩
    · exfalso
      revert h
      split
      · simp
      · split
        · dsimp only; split <;> simp
        · split
          · split <;> simp
          · split
            · dsimp only; split <;> simp
            · split <;> simp

theorem isIdent_munch {c : Char} {cs : List Char} (h : (munch c cs).kind = some .ident) :
    isIdent (c :: cs.take (munch c cs).more) := by
  obtain ⟨hc, hm⟩ := isIdentStart_of_munch h
  rw [hm, ← List.prefix_iff_eq_take.1 (List.takeWhile_prefix isIdentRest)]
  simp only [isIdent, hc, Bool.true_and, List.all_takeWhile]

/-- Every name that the lexer finds is an identifier. -/
theorem isIdent_of_mem_lexAfter {l : Lexeme} {m : Mark} {skip : Nat} {cs : List Char}
    (hl : l ∈ lexAfter m skip cs) (hk : l.kind = .ident) : isIdent l.text := by
  induction cs generalizing m skip with
  | nil => cases skip <;> simp [lexAfter] at hl
  | cons c cs ih =>
    cases skip with
    | succ skip => exact ih hl
    | zero =>
      rw [lexAfter] at hl
      cases hm : (munch c cs).kind with
      | none =>
        simp only [hm] at hl
        exact ih hl
      | some kind =>
        simp only [hm, List.mem_cons] at hl
        rcases hl with rfl | hl
        · exact isIdent_munch (by rw [hm]; exact congrArg some hk)
        · exact ih hl

end BaseLang.Lexer
