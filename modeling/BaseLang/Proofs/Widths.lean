import BaseLang.Proofs.Brackets

/-!
# The columns of printed terms

The columns that the layout counts for a term, token by token, are those of its compact text as a whole.

* `Context.before` : `before_plain` for ASCII characters in front of text that does not join them, `before_quote` for a
  quote in front of any text;
* `Text.Measures` : the columns of a text that nothing in front of it can join. Such columns add up
  (`Measures.append`);
* `measures_ascii`, `measures_quoted` : ASCII text and quoted text;
* `Term.measures_chars` : the compact text of a well-named term. `Term.width_eq` : this is how wide it is displayed.
-/

namespace BaseLang

namespace Text

variable {c : Char} {cs ds : List Char} {m n : Nat}

/-! ## Characters in front of a text -/

theorem ofChar_narrow (hc : c.toNat ≤ 0xa0) (hn : c ≠ '\n') : Context.ofChar c = (1, .plain) := by
  rw [Context.ofChar, if_neg hn, if_pos hc]

theorem not_selector (hc : c.toNat ≤ 0xa0) : c ≠ '\ufe0f' ∧ c ≠ '\ufe0e' := by
  constructor <;> rintro rfl <;> revert hc <;> decide

theorem before_plain (hc : c.toNat ≤ 0xa0) (hn : c ≠ '\n') : Context.plain.before c = (1, .plain) := by
  simp [Context.before, Context.style?, Context.unstyled, Context.joined?, Context.pending, not_selector hc,
    ofChar_narrow hc hn]

theorem before_quote (ctx : Context) : ctx.before '"' = (ctx.pending + 1, .plain) := by
  have hc : '"'.toNat ≤ 0xa0 := by decide
  have hbase : isStyleBase '"' = false := by decide
  have hnarrow : isNarrowAsText '"' = false := by decide
  have hjoined : ctx.unstyled.joined? '"' = none := by
    cases h : ctx.unstyled <;> rfl
  simp [Context.before, hbase, hnarrow, hjoined, not_selector, ofChar_narrow hc]

/-! ## Columns that add up -/

/-- The text takes `n` columns, also behind other text: nothing in front of it can join it. -/
def Measures (cs : List Char) (n : Nat) : Prop := scan cs = (n, .plain)

theorem Measures.append (h : Measures cs m) (h' : Measures ds n) : Measures (cs ++ ds) (m + n) := by
  unfold Measures at *
  rw [scan_append (by rw [h']), h, h']

theorem Measures.columns_eq (h : Measures cs n) : columns cs = n := by
  rw [columns, h]
  rfl

theorem measures_ascii (h : ∀ c ∈ cs, isAscii c = true) (hn : '\n' ∉ cs) : Measures cs cs.length := by
  induction cs with
  | nil => rfl
  | cons c cs ih =>
    obtain ⟨hc, hcs⟩ := List.forall_mem_cons.1 h
    have hnarrow : c.toNat ≤ 0xa0 := by
      simp only [isAscii, decide_eq_true_eq] at hc
      omega
    have hne : c ≠ '\n' := fun e => hn (by simp [e])
    unfold Measures at *
    rw [scan_cons, ih hcs fun hm => hn (by simp [hm]), before_plain hnarrow hne]
    rfl

/-- On one line, counting the characters of ASCII text is no exception. -/
theorem displayWidth_eq_columns (h : '\n' ∉ cs) : displayWidth cs = columns cs := by
  unfold displayWidth
  split
  · rename_i hascii
    exact (measures_ascii (List.all_eq_true.1 hascii) h).columns_eq.symm
  · rfl

theorem Measures.displayWidth_eq (h : Measures cs n) (hn : '\n' ∉ cs) : displayWidth cs = n := by
  rw [displayWidth_eq_columns hn, h.columns_eq]

theorem measures_quoted (cs : List Char) : Measures (quoted cs) (displayWidth (quoted cs)) := by
  have hplain : (scan (quoted cs)).2 = .plain := by
    rw [quoted, scan_cons, before_quote]
  rw [displayWidth_eq_columns (newline_notMem_quoted cs), columns, hplain]
  exact Prod.ext rfl hplain

theorem measures_decimal (k : Int) : Measures (decimal k) (displayWidth (decimal k)) := by
  have hascii : ∀ c ∈ decimal k, isAscii c = true := by
    intro c hc
    rcases mem_decimal hc with rfl | hdigit
    · decide
    · have hbounds := isDigit_iff.1 hdigit
      simp only [isAscii, decide_eq_true_eq]
      omega
  have hmeasure := measures_ascii hascii (newline_notMem_decimal k)
  rwa [hmeasure.displayWidth_eq (newline_notMem_decimal k)]

theorem newline_notMem_spaces (k : Nat) : '\n' ∉ List.replicate k ' ' := by
  intro hm
  exact absurd (List.eq_of_mem_replicate hm) (by decide)

theorem measures_spaces (k : Nat) : Measures (List.replicate k ' ') k := by
  have hascii : ∀ c ∈ List.replicate k ' ', isAscii c = true := by
    intro c hc
    rw [List.eq_of_mem_replicate hc]
    decide
  have hmeasure := measures_ascii hascii (newline_notMem_spaces k)
  rwa [List.length_replicate] at hmeasure

end Text

open Text

/-! ## Terms -/

theorem Lexer.isAscii_of_isIdentRest {c : Char} (h : isIdentRest c = true) : isAscii c = true := by
  delta isIdentRest Char.isAlphanum Char.isAlpha Char.isUpper Char.isLower Char.isDigit at h
  simp only [Bool.or_eq_true, beq_iff_eq, Bool.and_eq_true, decide_eq_true_eq, ge_iff_le, UInt32.le_iff_toNat_le] at h
  simp only [isAscii, decide_eq_true_eq]
  change (((((65 ≤ c.toNat ∧ c.toNat ≤ 90) ∨ (97 ≤ c.toNat ∧ c.toNat ≤ 122)) ∨ (48 ≤ c.toNat ∧ c.toNat ≤ 57))
    ∨ c = '_') ∨ c = '\'') ∨ c = '-' at h
  rcases h with ((h | rfl) | rfl) | rfl
  · omega
  · decide
  · decide
  · decide

theorem Lexer.isAscii_of_isIdent {name : List Char} (h : isIdent name = true) : ∀ c ∈ name, isAscii c = true := by
  cases name with
  | nil => cases h
  | cons c rest =>
    simp only [isIdent, isIdentStart, Bool.and_eq_true, List.all_eq_true] at h
    have hc : isIdentRest c = true := by
      rcases Bool.or_eq_true_iff.1 h.1 with ha | hu
      · simp [isIdentRest, Char.isAlphanum, ha]
      · simp [isIdentRest, hu]
    exact List.forall_mem_cons.2 ⟨isAscii_of_isIdentRest hc, fun d hd => isAscii_of_isIdentRest (h.2 d hd)⟩

theorem Lexer.measures_of_isIdent {name : List Char} (h : isIdent name = true) :
    Measures name (displayWidth name) := by
  have hmeasure := measures_ascii (isAscii_of_isIdent h) (newline_notMem_of_isIdent h)
  rwa [hmeasure.displayWidth_eq (newline_notMem_of_isIdent h)]

namespace Term

variable {t : Term} {ts : List Term}

theorem measures_charsAfter (h : ∀ t ∈ ts, Measures t.chars t.width) : Measures (charsAfter ts) (widthAfter ts) := by
  induction ts with
  | nil => rfl
  | cons t ts ih =>
    obtain ⟨ht, hts⟩ := List.forall_mem_cons.1 h
    have hcomma : Measures [','] 1 := rfl
    have hmeasure := hcomma.append (ht.append (ih hts))
    rwa [Nat.add_comm] at hmeasure

/-- Counted token by token, the compact text of a term takes as many columns as it takes as a whole. -/
theorem measures_chars (h : t.WellNamed) : Measures t.chars t.width := by
  induction t using Term.induct with
  | appl cons args ih =>
    obtain ⟨hc, hargs⟩ := wellNamed_appl.1 h
    have hname := Lexer.measures_of_isIdent hc
    cases args with
    | nil => simpa only [chars, width] using hname
    | cons t ts =>
      obtain ⟨ht, hts⟩ := List.forall_mem_cons.1 fun u hu => ih u hu (hargs u hu)
      have hopen : Measures ['('] 1 := rfl
      have hclose : Measures [')'] 1 := rfl
      have hwidth : (appl cons (t :: ts)).width
          = displayWidth cons.toList + (1 + (t.width + (widthAfter ts + 1))) := by
        rw [width]
        omega
      rw [chars, hwidth]
      exact hname.append (hopen.append (ht.append ((measures_charsAfter hts).append hclose)))
  | list elems ih =>
    have helems := wellNamed_list.1 h
    cases elems with
    | nil => exact rfl
    | cons t ts =>
      obtain ⟨ht, hts⟩ := List.forall_mem_cons.1 fun u hu => ih u hu (helems u hu)
      have hopen : Measures ['['] 1 := rfl
      have hclose : Measures [']'] 1 := rfl
      have hwidth : (list (t :: ts)).width = 1 + (t.width + (widthAfter ts + 1)) := by
        rw [width]
        omega
      rw [chars, hwidth]
      exact hopen.append (ht.append ((measures_charsAfter hts).append hclose))
  | str text => simpa only [chars, width] using measures_quoted text.toList
  | int value => simpa only [chars, width] using measures_decimal value.toInt

theorem width_eq (h : t.WellNamed) : t.width = displayWidth t.chars :=
  ((measures_chars h).displayWidth_eq (newline_notMem_chars h)).symm

end Term

end BaseLang
