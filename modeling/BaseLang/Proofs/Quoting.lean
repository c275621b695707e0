import BaseLang.Proofs.TokenClasses

/-!
# Quoted texts delimit themselves

Where a quoted text ends can be seen from the text alone, whatever follows it.

* `Text.escapeChar_mem` : a character inside the quotes is no control character that has an escape;
* `inside_escape`, `quoted_mem_str` : a quoted text is a string literal;
* `eq_of_str` : of the string literals at one place there is only one;
* `lex_escape_append` : a quoted text in front of any other one is its first token, is read back, and the two are
  found again.
-/

namespace BaseLang

open Lexer

/-! ## The characters of a quoted text -/

theorem Text.escapeChar_mem {c d : Char} (h : d ∈ escapeChar c) : d ≠ '\n' ∧ d ≠ '\t' ∧ d ≠ '\r' := by
  have hescape : ∀ e : Char, e ≠ '\n' ∧ e ≠ '\t' ∧ e ≠ '\r' → d ∈ ['\\', e] → d ≠ '\n' ∧ d ≠ '\t' ∧ d ≠ '\r' := by
    intro e he hd
    rcases List.mem_cons.1 hd with rfl | hd
    · decide
    · rw [List.mem_singleton.1 hd]
      exact he
  unfold escapeChar at h
  split at h
  · exact hescape _ (by decide) h
  · exact hescape _ (by decide) h
  · exact hescape _ (by decide) h
  · exact hescape _ (by decide) h
  · exact hescape _ (by decide) h
  · rename_i hn ht hr
    rw [List.mem_singleton.1 h]
    exact ⟨hn, ht, hr⟩

theorem Text.quoted_mem {cs : List Char} {d : Char} (h : d ∈ quoted cs) : d ≠ '\n' ∧ d ≠ '\t' ∧ d ≠ '\r' := by
  rcases List.mem_cons.1 h with rfl | h
  · decide
  · rcases List.mem_append.1 h with h | h
    · obtain ⟨c, -, hd⟩ := List.mem_flatMap.1 h
      exact Text.escapeChar_mem hd
    · rw [List.mem_singleton.1 h]
      decide

namespace Lexer

variable {cs body u v w : List Char}

/-- An escaped character stands inside quotes: it is plain, or a backslash makes it so. -/
theorem inside_escapeChar (c : Char) (h : Inside body) : Inside (Text.escapeChar c ++ body) := by
  unfold Text.escapeChar
  split
  · exact .escape (by decide) h
  · exact .escape (by decide) h
  · exact .escape (by decide) h
  · exact .escape (by decide) h
  · exact .escape (by decide) h
  · rename_i hquote hbackslash _ _ _
    exact .plain (by simpa [isPlain] using ⟨hquote, hbackslash⟩) h

theorem inside_escape (cs : List Char) : Inside (cs.flatMap Text.escapeChar) := by
  induction cs with
  | nil => exact .nil
  | cons c cs ih =>
    rw [List.flatMap_cons]
    exact inside_escapeChar c ih

theorem quoted_mem_str (cs : List Char) : Text.quoted cs ∈ Kind.pattern .str :=
  mem_str.2 ⟨cs.flatMap Text.escapeChar, rfl, inside_escape cs⟩

/-! ## Literals at one place -/

/-- A text starts with one string literal at most: what stands inside the quotes cannot be left before the closing
one, and not be continued behind it. -/
theorem eq_of_str (hu : u ∈ Kind.pattern .str) (hv : v ∈ Kind.pattern .str) (huw : u <+: w) (hvw : v <+: w) :
    u = v := by
  have hlength : u.length = v.length := by
    obtain ⟨body, rfl, hbody⟩ := mem_str.1 hu
    obtain ⟨body', rfl, hbody'⟩ := mem_str.1 hv
    obtain ⟨rest, rfl⟩ := huw
    obtain ⟨rest', hrest'⟩ := hvw
    have htail : body' ++ '"' :: rest' = body ++ '"' :: rest := by simpa using hrest'
    have hend := hbody.strBody_quote rest
    rw [← htail, hbody'.strBody_quote] at hend
    simpa using (Prod.mk.inj hend).1.symm
  exact (List.prefix_of_prefix_length_le huw hvw hlength.le).eq_of_length hlength

theorem quoted_append_inj {cs cs' r r' : List Char} (h : Text.quoted cs ++ r = Text.quoted cs' ++ r') :
    cs = cs' ∧ r = r' := by
  have hquoted : Text.quoted cs = Text.quoted cs' :=
    eq_of_str (quoted_mem_str cs) (quoted_mem_str cs') (List.prefix_append _ r) (h ▸ List.prefix_append _ r')
  refine ⟨?_, List.append_cancel_left (hquoted ▸ h)⟩
  rw [← Text.unescape_quoted cs, hquoted, Text.unescape_quoted]

end Lexer

/-- **A quoted text delimits itself.** In front of any text it is the first token, a string literal that starts and ends
where the quoted text does, and the tokens behind it are those of the other text. No other string literal starts there,
and what the literal stands for is the text that was quoted. So both texts are determined by what they make together.
A quoted text has no line feed, tab or carriage return in it. -/
theorem lex_escape_append (s r : String) :
    lex (Text.escape s ++ r) = ⟨.str, (Text.escape s).toList, Mark.start⟩
        :: lexAfter (Mark.start.after (Text.escape s).toList) 0 r.toList
    ∧ (∀ literal ∈ Kind.pattern .str, literal <+: (Text.escape s ++ r).toList → literal = (Text.escape s).toList)
    ∧ String.ofList (Text.unescape (Text.escape s).toList) = s
    ∧ (∀ s' r' : String, Text.escape s ++ r = Text.escape s' ++ r' ↔ s = s' ∧ r = r')
    ∧ ∀ c ∈ (Text.escape s).toList, c ≠ '\n' ∧ c ≠ '\t' ∧ c ≠ '\r' := by
  have hescape : ∀ s : String, (Text.escape s).toList = Text.quoted s.toList := fun s => String.toList_ofList
  refine ⟨?_, ?_, ?_, ?_, ?_⟩
  · rw [lex, String.toList_append, hescape]
    exact lexAfter_quoted s.toList r.toList Mark.start
  · intro literal hliteral hprefix
    rw [String.toList_append, hescape] at hprefix
    rw [hescape]
    exact eq_of_str hliteral (quoted_mem_str _) hprefix (List.prefix_append _ _)
  · rw [hescape, Text.unescape_quoted, String.ofList_toList]
  · intro s' r'
    constructor
    · intro h
      have hchars := congrArg String.toList h
      simp only [String.toList_append, hescape] at hchars
      obtain ⟨hs, hr⟩ := quoted_append_inj hchars
      exact ⟨String.toList_injective hs, String.toList_injective hr⟩
    · rintro ⟨rfl, rfl⟩
      rfl
  · intro c hc
    rw [hescape] at hc
    exact Text.quoted_mem hc

end BaseLang
