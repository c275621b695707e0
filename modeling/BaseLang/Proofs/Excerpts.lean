import BaseLang.Term.Shape

/-!
# Excerpts

A long text is quoted by as much of its beginning as there is room for.

* `Text.lastBoundary?_eq_some` : the search for a place to cut finds the last one in its range;
* `Text.LongestPrefix` : what stands in front of that place (`longestPrefix_of_splits`). It misses at most three bytes of
  the range, as no character takes more than four (`LongestPrefix.near`);
* `excerpt_of_le`, `excerpt_of_lt` : short texts and long ones;
* `ShapeError.found_excerpt` : what an error quotes of its term.
-/

namespace BaseLang

namespace Text

variable {text front back : String} {cut budget : Nat} {p : text.Pos}

/-! ## The search -/

theorem eq_some_of_isValid (hvalid : String.Pos.Raw.IsValid text ⟨cut⟩) (h : lastBoundary? text cut = some p) :
    p.offset.byteIdx ≤ cut ∧ ∀ q : text.Pos, q.offset.byteIdx ≤ cut → q ≤ p := by
  rw [lastBoundary?_of_isValid hvalid, Option.some_inj] at h
  subst h
  exact ⟨Nat.le_refl cut, fun q hq => hq⟩

/-- The search stops at the last place that is not behind its start. -/
theorem lastBoundary?_eq_some (h : lastBoundary? text cut = some p) :
    p.offset.byteIdx ≤ cut ∧ ∀ q : text.Pos, q.offset.byteIdx ≤ cut → q ≤ p := by
  induction cut with
  | zero => exact eq_some_of_isValid String.Pos.Raw.isValid_zero h
  | succ cut ih =>
    by_cases hvalid : String.Pos.Raw.IsValid text ⟨cut + 1⟩
    · exact eq_some_of_isValid hvalid h
    · -- No place is passed over by this step.
      rw [lastBoundary?_succ hvalid] at h
      obtain ⟨hp, hlast⟩ := ih h
      refine ⟨Nat.le_succ_of_le hp, fun q hq => hlast q ?_⟩
      have hne : q.offset.byteIdx ≠ cut + 1 := by
        intro e
        apply hvalid
        rw [← e]
        exact q.isValid
      omega

/-- Four bytes make up one character here, and the search goes back over three of them. -/
example : (lastBoundary? "a😀b" 4).map (·.offset.byteIdx) = some 1 := by decide

/-! ## Longest prefixes -/

/-- Of the texts that `text` begins with and that take at most `cut` bytes, `front` is the longest one. -/
structure LongestPrefix (text : String) (cut : Nat) (front : String) : Prop where
  eq_append : ∃ back, text = front ++ back
  fits : front.utf8ByteSize ≤ cut
  longest : ∀ front' back', text = front' ++ back' → front'.utf8ByteSize ≤ cut →
    front'.utf8ByteSize ≤ front.utf8ByteSize

theorem longestPrefix_of_splits (h : lastBoundary? text cut = some p) (hsplits : p.Splits front back) :
    LongestPrefix text cut front := by
  have hp : p.offset.byteIdx = front.utf8ByteSize := by
    rw [hsplits.offset_eq_rawEndPos, String.byteIdx_rawEndPos]
  obtain ⟨hle, hlast⟩ := lastBoundary?_eq_some h
  rw [hp] at hle
  refine ⟨⟨back, hsplits.eq_append⟩, hle, fun front' back' htext hfront' => ?_⟩
  have hvalid : front'.rawEndPos.IsValid text :=
    String.Pos.Raw.isValid_iff_exists_append.2 ⟨front', back', htext, rfl⟩
  rw [← hp]
  exact hlast ⟨front'.rawEndPos, hvalid⟩ hfront'

/-- Some prefix of a text ends at any given byte of it or at most three bytes in front of that. -/
theorem exists_prefix_near (h : cut ≤ text.utf8ByteSize) : ∃ front back, text = front ++ back
    ∧ front.utf8ByteSize ≤ cut ∧ cut ≤ front.utf8ByteSize + 3 := by
  induction text using String.push_induction with
  | empty => exact ⟨"", "", rfl, Nat.zero_le cut, Nat.le_add_right_of_le h⟩
  | push text c ih =>
    have hsize : (text.push c).utf8ByteSize = text.utf8ByteSize + c.utf8Size := by
      rw [String.push_eq_append, String.utf8ByteSize_append, String.utf8ByteSize_singleton]
    have hchar := c.utf8Size_le_four
    rcases Nat.lt_or_ge text.utf8ByteSize cut with hlt | hle
    · -- The last character is cut through, or the whole text is in front of the cut.
      rcases Nat.lt_or_ge cut (text.push c).utf8ByteSize with hinside | hend
      · exact ⟨text, String.singleton c, String.push_eq_append c, by omega, by omega⟩
      · exact ⟨text.push c, "", String.append_empty.symm, by omega, by omega⟩
    · obtain ⟨front, back, rfl, hfront, hnear⟩ := ih hle
      refine ⟨front, back.push c, ?_, hfront, hnear⟩
      rw [String.push_eq_append, String.push_eq_append, String.append_assoc]

theorem LongestPrefix.near (h : LongestPrefix text cut front) (hcut : cut ≤ text.utf8ByteSize) :
    cut ≤ front.utf8ByteSize + 3 := by
  obtain ⟨front', back', htext, hfits, hnear⟩ := exists_prefix_near hcut
  have hle := h.longest front' back' htext hfits
  omega

/-! ## Short texts and long ones -/

theorem excerpt_of_le (h : text.utf8ByteSize ≤ budget) : excerpt budget text = text := by
  rw [excerpt, if_pos h]

theorem excerpt_of_lt (h : budget < text.utf8ByteSize) : ∃ (cut : text.Pos) (front back : String),
    lastBoundary? text (budget - 3) = some cut ∧ cut.Splits front back ∧ excerpt budget text = front ++ "..." := by
  obtain ⟨cut, hcut⟩ := Option.isSome_iff_exists.1 (isSome_lastBoundary? text (budget - 3))
  refine ⟨cut, _, _, hcut, cut.splits, ?_⟩
  rw [excerpt, if_neg (Nat.not_le.2 h)]
  simp only [hcut, Option.get_some]

theorem utf8ByteSize_dots (front : String) : (front ++ "...").utf8ByteSize = front.utf8ByteSize + 3 :=
  String.utf8ByteSize_append

end Text

/-! ## Errors -/

/-- **What an error quotes.** A term whose compact text takes at most 120 bytes is quoted by this text. In a longer text,
the search from byte 117 to the front comes to a place between two characters. The error quotes what stands in front
of this place, which is the longest prefix of at most 117 bytes, with three dots behind it: 117 to 120 bytes. -/
theorem ShapeError.found_excerpt (e : ShapeError) :
    (e.term.text.utf8ByteSize ≤ 120 ∧ e.found = e.term.text)
    ∨ (120 < e.term.text.utf8ByteSize ∧ ∃ (cut : e.term.text.Pos) (front back : String),
        Text.lastBoundary? e.term.text 117 = some cut ∧ cut.Splits front back
        ∧ Text.LongestPrefix e.term.text 117 front ∧ e.found = front ++ "..."
        ∧ 117 ≤ e.found.utf8ByteSize ∧ e.found.utf8ByteSize ≤ 120) := by
  rcases Nat.lt_or_ge 120 e.term.text.utf8ByteSize with hlong | hshort
  · obtain ⟨cut, front, back, hcut, hsplits, hfound⟩ := Text.excerpt_of_lt hlong
    have hlongest : Text.LongestPrefix e.term.text 117 front := Text.longestPrefix_of_splits hcut hsplits
    have hfits := hlongest.fits
    have hnear := hlongest.near (by omega)
    have hsize : e.found.utf8ByteSize = front.utf8ByteSize + 3 :=
      (congrArg String.utf8ByteSize hfound).trans (Text.utf8ByteSize_dots front)
    exact .inr ⟨hlong, cut, front, back, hcut, hsplits, hlongest, hfound, by omega, by omega⟩
  · exact .inl ⟨hshort, Text.excerpt_of_le hshort⟩

end BaseLang
