import BaseLang.Proofs.Grammar
import BaseLang.Proofs.Lexemes

/-!
# Sentences

The tokens of one term, and what they may start with.

* `Sentence` : the tokens of one term; `Viable` : what the tokens of a term may start with;
* `readFrom_ending` : every state of the reader can be brought to an end, so that a run is a viable prefix
  (`viable_iff`);
* `Lexeme.Alike` : the same token at another place; `step_alike` : the reader does not ask for places;
* `alike_lexAfter_spaced` : tokens with spaces behind them are found again;
* `sentence_iff_exists_read`, `viable_iff_exists_read` : sentences are what the lexer finds in the texts of terms.
-/

namespace BaseLang

open Lexer

/-- A lexeme whose text belongs to its class. -/
def Lexeme.IsToken (l : Lexeme) : Prop := l.text ∈ l.kind.pattern

/-- The same token, at any place. -/
structure Lexeme.Alike (l l' : Lexeme) : Prop where
  kind : l.kind = l'.kind
  text : l.text = l'.text

/-- The tokens of one term, with integers that fit 64 bits. -/
def Sentence (ls : List Lexeme) : Prop :=
  (∀ l ∈ ls, l.IsToken ∧ l.InRange) ∧ ∃ t, Derives .term ls [t]

/-- The tokens that the tokens of some term start with. -/
def Viable (ls : List Lexeme) : Prop := ∃ more, Sentence (ls ++ more)

namespace Reader

variable {s : State} {ls ms : List Lexeme} {t : Term} {stack : List Frame}

theorem run_append (s : State) (ls ms : List Lexeme) : run s (ls ++ ms) = (run s ls).bind (run · ms) := by
  induction ls generalizing s with
  | nil => rfl
  | cons l ls ih =>
    rw [List.cons_append, run, run]
    cases step s l with
    | error e => rfl
    | ok s' => exact ih s'

/-! ## Every state can be brought to an end -/

def mark (p : Punct) : Lexeme := ⟨.punct p, [p.char], .start⟩

def closing (stack : List Frame) : List Lexeme := stack.map fun frame => mark frame.opening.close

/-- Lexemes behind which a term is complete. -/
def ending : State → List Lexeme
  | .item stack => ⟨.ident, ['x'], .start⟩ :: closing stack
  | .opened opening stack => mark opening.close :: closing stack
  | .named _ stack | .complete _ stack => closing stack

theorem follows_closing (stack : List Frame) : Follows (closing stack) := by
  cases stack with
  | nil => simp [Follows, closing]
  | cons frame stack =>
    have hclose : (mark frame.opening.close).kind = .punct frame.opening.close := rfl
    exact follows_close hclose _

theorem readFrom_closing (t : Term) (stack : List Frame) :
    ∃ t', readFrom (.complete t stack) (closing stack) = .ok t' := by
  induction stack generalizing t with
  | nil => exact ⟨t, rfl⟩
  | cons frame stack ih =>
    obtain ⟨t', ht'⟩ := ih (frame.opening.finish (t :: frame.items).reverse)
    refine ⟨t', ?_⟩
    have hclose : step (.complete t (frame :: stack)) (mark frame.opening.close) = _ := step_close rfl
    rw [closing, List.map_cons, readFrom_cons hclose]
    exact ht'

theorem readFrom_ending (s : State) : ∃ t, readFrom s (ending s) = .ok t := by
  cases s with
  | item stack =>
    obtain ⟨t, ht⟩ := readFrom_closing (.appl (String.ofList ['x']) []) stack
    have hname : step (.item stack) ⟨.ident, ['x'], .start⟩ = .ok (.named (String.ofList ['x']) stack) := rfl
    refine ⟨t, ?_⟩
    rw [ending, readFrom_cons hname, readFrom_named (follows_closing stack), ht]
  | opened opening stack =>
    obtain ⟨t, ht⟩ := readFrom_closing (opening.finish []) stack
    have hclose : step (.opened opening stack) (mark opening.close) = .ok (.complete (opening.finish []) stack) :=
      if_pos rfl
    refine ⟨t, ?_⟩
    rw [ending, readFrom_cons hclose, ht]
  | named cons stack =>
    obtain ⟨t, ht⟩ := readFrom_closing (.appl cons []) stack
    refine ⟨t, ?_⟩
    rw [ending, readFrom_named (follows_closing stack), ht]
  | complete t stack => exact readFrom_closing t stack

theorem isToken_mark (p : Punct) : (mark p).IsToken := rfl

theorem isToken_name : (⟨.ident, ['x'], .start⟩ : Lexeme).IsToken := cons_mem_ident.2 ⟨rfl, by simp⟩

theorem isToken_ending (s : State) : ∀ l ∈ ending s, l.IsToken := by
  have hclosing : ∀ stack, ∀ l ∈ closing stack, l.IsToken := fun stack =>
    List.forall_mem_map.2 fun frame _ => isToken_mark _
  cases s with
  | item stack => exact List.forall_mem_cons.2 ⟨isToken_name, hclosing stack⟩
  | opened opening stack => exact List.forall_mem_cons.2 ⟨isToken_mark _, hclosing stack⟩
  | named cons stack => exact hclosing stack
  | complete t stack => exact hclosing stack

/-! ## Viable prefixes are runs -/

theorem readFrom_eq_ok_iff : readFrom s ls = .ok t ↔ ∃ s', run s ls = .ok s' ∧ finish s' = .ok t := by
  unfold readFrom
  cases run s ls <;> simp

theorem sentence_iff : Sentence ls ↔ (∀ l ∈ ls, l.IsToken) ∧ ∃ t, readFrom .start ls = .ok t := by
  constructor
  · rintro ⟨hls, t, ht⟩
    refine ⟨fun l hl => (hls l hl).1, t, ?_⟩
    have hread := reads_of_derives ht (fun l hl => (hls l hl).2) t rfl [] [] (by simp [Follows])
    rw [List.append_nil] at hread
    exact hread
  · rintro ⟨hls, t, ht⟩
    obtain ⟨s, hrun, hfinish⟩ := readFrom_eq_ok_iff.1 ht
    exact ⟨fun l hl => ⟨hls l hl, (run_takes hrun l hl).2⟩, t, finish_reached (run_reached (.item .nil) hrun) hfinish⟩

theorem viable_iff : Viable ls ↔ (∀ l ∈ ls, l.IsToken) ∧ ∃ s, run .start ls = .ok s := by
  constructor
  · rintro ⟨ms, hms⟩
    obtain ⟨htokens, t, ht⟩ := sentence_iff.1 hms
    obtain ⟨s, hrun, -⟩ := readFrom_eq_ok_iff.1 ht
    refine ⟨fun l hl => htokens l (List.mem_append_left _ hl), ?_⟩
    rw [run_append] at hrun
    cases hls : run .start ls with
    | ok s => exact ⟨s, rfl⟩
    | error e =>
      rw [hls] at hrun
      cases hrun
  · rintro ⟨htokens, s, hrun⟩
    obtain ⟨t, ht⟩ := readFrom_ending s
    refine ⟨ending s, sentence_iff.2 ⟨List.forall_mem_append.2 ⟨htokens, isToken_ending s⟩, t, ?_⟩⟩
    rw [readFrom, run_append, hrun]
    exact ht

end Reader

/-! ## Sentences as texts -/

section Texts

variable {l l' : Lexeme} {ls ls' : List Lexeme}

theorem Lexeme.Alike.symm (h : l.Alike l') : l'.Alike l := ⟨h.kind.symm, h.text.symm⟩

theorem Lexeme.Alike.isToken (h : l.Alike l') (hl : l.IsToken) : l'.IsToken := by
  rwa [Lexeme.IsToken, ← h.kind, ← h.text]

theorem isToken_of_mem_lex {source : String} {l : Lexeme} (hl : l ∈ lex source) (hk : l.kind ≠ .invalid) :
    l.IsToken := by
  obtain ⟨front, back, -, -, hfound | ⟨hinvalid, -⟩⟩ := (cut_lexAfter _ _).slice l hl
  · exact hfound.mem
  · exact absurd hinvalid hk

theorem forall_isToken_of_alike (h : List.Forall₂ Lexeme.Alike ls ls') (hls : ∀ l ∈ ls, l.IsToken) :
    ∀ l ∈ ls', l.IsToken := by
  induction h with
  | nil => simp
  | cons hl _ ih =>
    obtain ⟨htoken, htokens⟩ := List.forall_mem_cons.1 hls
    exact List.forall_mem_cons.2 ⟨hl.isToken htoken, ih htokens⟩

namespace Reader

variable {s s' : State} {stack : List Frame} {t : Term}

theorem startTerm_alike (h : l.Alike l') (hs : startTerm stack l = .ok s) : startTerm stack l' = .ok s := by
  unfold startTerm at hs ⊢
  rw [← h.kind, ← h.text]
  split at hs
  · exact hs
  · exact hs
  · exact hs
  · split at hs
    · exact hs
    · cases hs
  · cases hs
  · cases hs

theorem afterTerm_alike (h : l.Alike l') (hs : afterTerm t stack l = .ok s) : afterTerm t stack l' = .ok s := by
  unfold afterTerm at hs ⊢
  rw [← h.kind]
  split at hs
  · rwa [if_pos ‹_›]
  rw [if_neg ‹_›]
  split at hs
  · cases hs
  split at hs
  · rwa [if_pos ‹_›]
  rw [if_neg ‹_›]
  split at hs
  · rwa [if_pos ‹_›]
  split at hs <;> cases hs

/-- The reader does not ask where a token stands. -/
theorem step_alike (h : l.Alike l') (hs : step s l = .ok s') : step s l' = .ok s' := by
  cases s with
  | item stack => exact startTerm_alike h hs
  | opened opening stack =>
    simp only [step, ← h.kind] at hs ⊢
    split
    · rwa [if_pos ‹_›] at hs
    · rw [if_neg ‹_›] at hs
      exact startTerm_alike h hs
  | named cons stack =>
    simp only [step, ← h.kind] at hs ⊢
    split
    · rwa [if_pos ‹_›] at hs
    · rw [if_neg ‹_›] at hs
      exact afterTerm_alike h hs
  | complete t stack => exact afterTerm_alike h hs

theorem run_alike (h : List.Forall₂ Lexeme.Alike ls ls') (hs : run s ls = .ok s') : run s ls' = .ok s' := by
  induction h generalizing s with
  | nil => exact hs
  | @cons l l' ls ls' hl _ ih =>
    rw [run] at hs ⊢
    cases hstep : step s l with
    | error e =>
      rw [hstep] at hs
      cases hs
    | ok s₁ =>
      rw [hstep] at hs
      rw [step_alike hl hstep]
      exact ih hs

theorem sentence_of_alike (h : List.Forall₂ Lexeme.Alike ls ls') (hls : Sentence ls) : Sentence ls' := by
  obtain ⟨htokens, t, ht⟩ := sentence_iff.1 hls
  obtain ⟨s, hrun, hfinish⟩ := readFrom_eq_ok_iff.1 ht
  exact sentence_iff.2 ⟨forall_isToken_of_alike h htokens, t, readFrom_eq_ok_iff.2 ⟨s, run_alike h hrun, hfinish⟩⟩

end Reader

namespace Lexer

/-- Tokens with a space behind each of them. -/
def spaced (ls : List Lexeme) : List Char := ls.flatMap fun l => l.text ++ [' ']

theorem lexAfter_append_space {kind : Kind} {text : List Char} (h : text ∈ kind.pattern) (m : Mark) (rest : List Char) :
    lexAfter m 0 (text ++ ' ' :: rest) = ⟨kind, text, m⟩ :: lexAfter ((m.after text).next ' ') 0 rest := by
  have hspace : lexAfter (m.after text) 0 (' ' :: rest) = lexAfter ((m.after text).next ' ') 0 rest :=
    lexAfter_space rfl _ rest
  rw [← hspace]
  cases kind with
  | ident =>
    cases text with
    | nil => exact absurd h nil_notMem_one_mul
    | cons c body =>
      obtain ⟨hc, hbody⟩ := cons_mem_ident.1 h
      exact lexAfter_token (munch_ident hc hbody (closed_cons rfl rest))
  | int =>
    obtain ⟨digits, rfl | rfl, hne, hdigits⟩ := mem_int.1 h
    · cases text with
      | nil => exact absurd rfl hne
      | cons d body =>
        obtain ⟨hd, hbody⟩ := List.forall_mem_cons.1 hdigits
        exact lexAfter_token (munch_digits hd hbody (by simp))
    · exact lexAfter_token (munch_minus hne hdigits (by simp))
  | str =>
    obtain ⟨body, rfl, hbody⟩ := mem_str.1 h
    refine lexAfter_token ?_
    rw [List.append_assoc, List.singleton_append, munch_quote, hbody.strBody_quote]
    simp
  | punct p =>
    obtain rfl : text = [p.char] := h
    exact lexAfter_punct p _ m
  | invalid => exact absurd h (Language.notMem_zero _)

/-- Tokens with spaces behind them are found again. -/
theorem alike_lexAfter_spaced (hls : ∀ l ∈ ls, l.IsToken) (m : Mark) :
    List.Forall₂ Lexeme.Alike ls (lexAfter m 0 (spaced ls)) := by
  induction ls generalizing m with
  | nil => exact .nil
  | cons l ls ih =>
    obtain ⟨hl, hrest⟩ := List.forall_mem_cons.1 hls
    have hspaced : spaced (l :: ls) = l.text ++ ' ' :: spaced ls := by simp [spaced]
    rw [hspaced, lexAfter_append_space hl]
    exact .cons ⟨rfl, rfl⟩ (ih hrest _)

end Lexer

/-- Sentences are what the lexer finds in the texts of terms. -/
theorem sentence_iff_exists_read :
    Sentence ls ↔ ∃ source t, Term.read source = .ok t ∧ List.Forall₂ Lexeme.Alike ls (lex source) := by
  constructor
  · intro h
    have halike : List.Forall₂ Lexeme.Alike ls (lex (String.ofList (spaced ls))) := by
      rw [lex, String.toList_ofList]
      exact alike_lexAfter_spaced (fun l hl => (h.1 l hl).1) _
    obtain ⟨-, t, ht⟩ := Reader.sentence_iff.1 (Reader.sentence_of_alike halike h)
    exact ⟨_, t, ht, halike⟩
  · rintro ⟨source, t, ht, halike⟩
    have htokens : ∀ l ∈ lex source, l.IsToken := fun l hl => isToken_of_mem_lex hl (takes_of_read ht l hl).1
    have hsentence : Sentence (lex source) := Reader.sentence_iff.2 ⟨htokens, t, ht⟩
    exact Reader.sentence_of_alike (halike.flip.imp fun _ _ h => h.symm) hsentence

/-- Viable are the tokens that the text of some term starts with. -/
theorem viable_iff_exists_read : Viable ls ↔ ∃ source t before after, Term.read source = .ok t
    ∧ lex source = before ++ after ∧ List.Forall₂ Lexeme.Alike ls before := by
  constructor
  · rintro ⟨more, h⟩
    obtain ⟨source, t, ht, halike⟩ := sentence_iff_exists_read.1 h
    have hbefore := List.forall₂_take ls.length halike
    rw [List.take_left] at hbefore
    exact ⟨source, t, _, _, ht, (List.take_append_drop ls.length _).symm, hbefore⟩
  · rintro ⟨source, t, before, after, ht, hlex, halike⟩
    refine ⟨after, sentence_iff_exists_read.2 ⟨source, t, ht, ?_⟩⟩
    rw [hlex]
    exact List.rel_append halike (List.forall₂_same.2 fun l _ => ⟨rfl, rfl⟩)

end Texts

end BaseLang
