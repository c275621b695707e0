import BaseLang.Proofs.TokenClasses

/-!
# The lexemes of a text

What the lexer makes of a whole text.

* `Mark.after_start` : the place behind some characters, counted in bytes, lines and columns;
* `Skipped`, `Cut` : a text cut into lexemes, with white space and comments before, between and after them;
* `cut_lexAfter`, `lexAfter_of_cut` : the lexer cuts a text, and this is the only way to do it;
* `lex_cut` : the whole of it, with the spans of the lexemes.
-/

namespace BaseLang

namespace Text

theorem byteLength_append (as bs : List Char) : byteLength (as ++ bs) = byteLength as + byteLength bs := by
  induction as with
  | nil => exact (Nat.zero_add _).symm
  | cons a as ih => rw [List.cons_append, byteLength, ih, byteLength, Nat.add_assoc]

theorem byteLength_pos {cs : List Char} (h : cs ≠ []) : 0 < byteLength cs := by
  cases cs with
  | nil => exact absurd rfl h
  | cons c cs => exact Nat.add_pos_left c.utf8Size_pos _

end Text

namespace Mark

theorem after_append (m : Mark) (as bs : List Char) : m.after (as ++ bs) = (m.after as).after bs :=
  List.foldl_append

theorem offset_next (m : Mark) (c : Char) : (m.next c).offset = m.offset + c.utf8Size := by
  unfold next
  split <;> rfl

theorem offset_after (m : Mark) (cs : List Char) : (m.after cs).offset = m.offset + Text.byteLength cs := by
  induction cs generalizing m with
  | nil => rfl
  | cons c cs ih =>
    change ((m.next c).after cs).offset = _
    rw [ih, offset_next, Text.byteLength, Nat.add_assoc]

/-- The place behind some characters: the bytes of all of them, one line more than line feeds, and one column more
than characters since the last line feed. -/
theorem after_start (cs : List Char) :
    start.after cs = ⟨Text.byteLength cs, cs.count '\n' + 1, (cs.reverse.takeWhile (· ≠ '\n')).length + 1⟩ := by
  induction cs using List.reverseRecOn with
  | nil => rfl
  | append_singleton cs c ih =>
    rw [after_append, ih, Text.byteLength_append, List.count_append, List.reverse_append, List.reverse_singleton,
      List.singleton_append]
    change next _ c = _
    unfold next
    by_cases hc : c = '\n'
    · simp [hc, Text.byteLength]
    · simp [hc, Text.byteLength]

end Mark

namespace Lexer

variable {m : Mark} {text rest gap : List Char} {kind : Kind} {ls : List Lexeme}

/-! ## Texts that are cut into lexemes -/

/-- White space and comments in front of a text. -/
inductive Skipped : List Char → List Char → Prop where
  | nil (rest : List Char) : Skipped [] rest
  | skip {text gap rest : List Char} (h : Skip text (gap ++ rest)) (others : Skipped gap rest) :
    Skipped (text ++ gap) rest

/-- A text cut into lexemes from its start on, each where it is found, with nothing but white space and comments
before, between and behind them. -/
inductive Cut : Mark → List Char → List Lexeme → Prop where
  | done {m : Mark} {gap : List Char} (h : Skipped gap []) : Cut m gap []
  | lexeme {m : Mark} {gap text rest : List Char} {kind : Kind} {ls : List Lexeme}
      (hgap : Skipped gap (text ++ rest)) (h : Found kind text rest)
      (others : Cut ((m.after gap).after text) rest ls) :
      Cut m (gap ++ (text ++ rest)) (⟨kind, text, m.after gap⟩ :: ls)

theorem Cut.skip (h : Skip text rest) (hr : Cut (m.after text) rest ls) : Cut m (text ++ rest) ls := by
  cases hr with
  | done hgap => exact .done (.skip (by rwa [List.append_nil]) hgap)
  | lexeme hgap hfound others =>
    rw [← List.append_assoc, ← Mark.after_append]
    refine .lexeme (.skip h hgap) hfound ?_
    rwa [Mark.after_append]

/-! ## The lexer cuts a text -/

/-- One step takes what the longest match takes, and goes on behind it. -/
theorem lexAfter_cons (m : Mark) (c : Char) (cs : List Char) :
    lexAfter m 0 (c :: cs) = match (munch c cs).kind with
      | some kind => ⟨kind, c :: cs.take (munch c cs).more, m⟩
          :: lexAfter (m.after (c :: cs.take (munch c cs).more)) 0 (cs.drop (munch c cs).more)
      | none => lexAfter (m.after (c :: cs.take (munch c cs).more)) 0 (cs.drop (munch c cs).more) := by
  have hrest : lexAfter (m.next c) (munch c cs).more cs
      = lexAfter (m.after (c :: cs.take (munch c cs).more)) 0 (cs.drop (munch c cs).more) := by
    have happend := lexAfter_append (m.next c) (cs.take (munch c cs).more) (cs.drop (munch c cs).more)
    rwa [List.take_append_drop, List.length_take, Nat.min_eq_left (munch_le c cs)] at happend
  cases hk : (munch c cs).kind with
  | none => simp only [lexAfter, hk, hrest]
  | some kind => simp only [lexAfter, hk, hrest]

theorem cut_lexAfter (m : Mark) (cs : List Char) : Cut m cs (lexAfter m 0 cs) := by
  match cs with
  | [] => exact .done (.nil [])
  | c :: cs =>
    have hcut := cut_lexAfter (m.after (c :: cs.take (munch c cs).more)) (cs.drop (munch c cs).more)
    have hsplit : c :: cs = (c :: cs.take (munch c cs).more) ++ cs.drop (munch c cs).more := by
      rw [List.cons_append, List.take_append_drop]
    rw [lexAfter_cons]
    split
    · rename_i kind hkind
      have hlexeme := Cut.lexeme (.nil _) (found_munch hkind) hcut
      rwa [List.nil_append, ← hsplit] at hlexeme
    · rename_i hkind
      have hskip := Cut.skip (skip_munch hkind) hcut
      rwa [← hsplit] at hskip
termination_by cs.length

/-! ## There is no other way -/

theorem lexAfter_skip (h : Skip text rest) (m : Mark) :
    lexAfter m 0 (text ++ rest) = lexAfter (m.after text) 0 rest := by
  rcases h with h | ⟨h, hrest⟩
  · refine lexAfter_spaces (fun c hc => ?_) m rest
    cases text with
    | nil => cases hc
    | cons d text =>
      obtain ⟨hd, htext⟩ := cons_mem_spaces.1 h
      rcases List.mem_cons.1 hc with rfl | hc
      · exact hd
      · exact htext c hc
  · obtain ⟨body, rfl, hbody⟩ := mem_comment.1 h
    have hlength : ((body ++ rest).takeWhile (· ≠ '\n')).length = body.length := by
      refine takeWhile_length_append (fun x hx => ?_) fun x hx => ?_
      · simpa using ne_of_mem_of_not_mem hx hbody
      · simpa using hrest x hx
    have hmunch : munch '%' ('%' :: (body ++ rest)) = ⟨none, ('%' :: body).length⟩ :=
      congrArg (fun n => Munch.mk none (n + 1)) hlength
    rw [List.cons_append, List.cons_append, lexAfter, hmunch]
    exact lexAfter_append (m.next '%') ('%' :: body) rest

theorem lexAfter_skipped (h : Skipped gap rest) (m : Mark) :
    lexAfter m 0 (gap ++ rest) = lexAfter (m.after gap) 0 rest := by
  induction h generalizing m with
  | nil => rfl
  | skip h _ ih => rw [List.append_assoc, lexAfter_skip h, ih, Mark.after_append]

/-- However a text is cut, the lexer cuts it this way. -/
theorem lexAfter_of_cut {cs : List Char} (h : Cut m cs ls) : lexAfter m 0 cs = ls := by
  induction h with
  | @done m gap hgap =>
    have hskipped := lexAfter_skipped hgap m
    rwa [List.append_nil] at hskipped
  | @lexeme m gap text rest kind ls hgap hfound _ ih =>
    rw [lexAfter_skipped hgap]
    cases text with
    | nil => exact absurd rfl hfound.ne_nil
    | cons c body => rw [List.cons_append, lexAfter_token hfound.munch, ih]

/-! ## Spans -/

/-- Every lexeme is cut out of the text at its place. -/
theorem Cut.slice {cs : List Char} (h : Cut m cs ls) : ∀ l ∈ ls, ∃ front back, cs = front ++ (l.text ++ back)
    ∧ l.start = m.after front ∧ Found l.kind l.text back := by
  induction h with
  | done => simp
  | @lexeme m gap text rest kind ls hgap hfound _ ih =>
    refine List.forall_mem_cons.2 ⟨⟨gap, rest, rfl, rfl, hfound⟩, fun l hl => ?_⟩
    obtain ⟨front, back, rfl, hstart, hl⟩ := ih l hl
    refine ⟨gap ++ (text ++ front), back, by simp only [List.append_assoc], ?_, hl⟩
    rw [hstart, Mark.after_append, Mark.after_append]

theorem Cut.offset_le {cs : List Char} (h : Cut m cs ls) : ∀ l ∈ ls, m.offset ≤ l.start.offset := by
  intro l hl
  obtain ⟨front, _, _, hstart, _⟩ := h.slice l hl
  rw [hstart, Mark.offset_after]
  exact Nat.le_add_right _ _

theorem Cut.pairwise {cs : List Char} (h : Cut m cs ls) : ls.Pairwise fun a b => a.stop ≤ b.start.offset := by
  induction h with
  | done => exact .nil
  | lexeme _ _ others ih =>
    refine .cons (fun l hl => ?_) ih
    have hle := others.offset_le l hl
    rwa [Mark.offset_after] at hle

end Lexer

open Lexer

/-- **The lexer loses nothing and matches longest.** What it makes of a text is the one way to cut it into lexemes with
only white space and comments before, between and after them. The lexemes follow each other without overlap. Each of
them is a piece of the text, not empty, between two of its characters, and either belongs to its class, while any other
token at this place is of the same class and not longer, or is an invalid one, where neither a token nor anything to
skip starts (`Found`). -/
theorem lex_cut (source : String) :
    (∀ ls, Cut Mark.start source.toList ls ↔ ls = lex source)
    ∧ (lex source).Pairwise (fun a b => a.stop ≤ b.start.offset)
    ∧ ∀ l ∈ lex source, l.start.offset < l.stop ∧ ∃ front back, source.toList = front ++ (l.text ++ back)
        ∧ l.start.offset = Text.byteLength front ∧ l.stop = Text.byteLength (front ++ l.text)
        ∧ Found l.kind l.text back := by
  have hcut : Cut Mark.start source.toList (lex source) := cut_lexAfter _ _
  refine ⟨fun ls => ⟨fun h => (lexAfter_of_cut h).symm, fun h => h ▸ hcut⟩, hcut.pairwise, fun l hl => ?_⟩
  obtain ⟨front, back, hsource, hstart, hfound⟩ := hcut.slice l hl
  have hoffset : l.start.offset = Text.byteLength front := by
    rw [hstart, Mark.after_start]
  refine ⟨Nat.lt_add_of_pos_right (Text.byteLength_pos hfound.ne_nil), front, back, hsource, hoffset, ?_, hfound⟩
  rw [Lexeme.stop, hoffset, Text.byteLength_append]

/-- A name with a sign in it, a stray percent mark in front of a comment, a literal with an escaped quote and a sign
without digits. -/
theorem lex_cut_stray :
    let source := "a-1 % %%,\n\"\\\"é\" -"
    lex source = [⟨.ident, ['a', '-', '1'], ⟨0, 1, 1⟩⟩, ⟨.invalid, ['%'], ⟨4, 1, 5⟩⟩,
      ⟨.str, ['"', '\\', '"', 'é', '"'], ⟨10, 2, 1⟩⟩, ⟨.invalid, ['-'], ⟨17, 2, 7⟩⟩]
    ∧ (∃ back, LongestMatch .ident ['a', '-', '1'] back) ∧ ∃ back, Stray ['%'] back := by
  intro source
  have hlex : lex source = [⟨.ident, ['a', '-', '1'], ⟨0, 1, 1⟩⟩, ⟨.invalid, ['%'], ⟨4, 1, 5⟩⟩,
      ⟨.str, ['"', '\\', '"', 'é', '"'], ⟨10, 2, 1⟩⟩, ⟨.invalid, ['-'], ⟨17, 2, 7⟩⟩] := by decide
  obtain ⟨-, -, hfound⟩ := lex_cut source
  obtain ⟨-, _, back, -, -, -, hident | ⟨h, -⟩⟩ := hfound ⟨.ident, ['a', '-', '1'], ⟨0, 1, 1⟩⟩ (by simp [hlex])
  · obtain ⟨-, _, back', -, -, -, h | ⟨-, hstray⟩⟩ := hfound ⟨.invalid, ['%'], ⟨4, 1, 5⟩⟩ (by simp [hlex])
    · exact absurd rfl h.ne_invalid
    · exact ⟨hlex, ⟨back, hident⟩, back', hstray⟩
  · cases h

end BaseLang
