import BaseLang.Proofs.Sentences

/-!
# Where reading goes wrong

The error for a text that is no term, said through the grammar alone.

* `Expects` : what may come next behind some tokens;
* `Blames` : the error for a lexeme that cannot follow the ones before it;
* `State.expected?` : what a state of the reader waits for. `step_eq_error` is one lexeme that is refused,
  `run_eq_error` a whole run;
* `expects_iff`, `blames_iff` : what a state says and the grammar says is the same;
* `read_eq_error_iff` : the reader's error is the one for the first lexeme that cannot continue a term.
-/

namespace BaseLang

open Lexer

/-- What may come next: the start of a term, or a comma and a closing bracket. -/
def Expects (ls : List Lexeme) : Expected → Prop
  | .term => ∃ l, Reader.Starts l ∧ Viable (ls ++ [l])
  | .commaOr close => (∃ l, l.kind = .punct .comma ∧ Viable (ls ++ [l]))
    ∧ ∃ l, l.kind = .punct close ∧ Viable (ls ++ [l]) ∧ close ∈ [.parenClose, .bracketClose, .braceClose]

/-- The error for the lexeme `l`, which cannot follow `before`. -/
inductive Blames (before : List Lexeme) (l : Lexeme) : ReadError → Prop where
  | extra (hb : Sentence before) : Blames before l (.extraToken l.text l.start)
  | invalid (hb : ¬ Sentence before) (hl : l.kind = .invalid) : Blames before l (.invalidToken l.start)
  | range (hb : ¬ Sentence before) (hl : l.kind = .int) (hx : Expects before .term) :
    Blames before l (.intOutOfRange l.text l.start)
  | other {x : Expected} (hb : ¬ Sentence before) (hl : l.kind ≠ .invalid)
    (hint : ¬ (l.kind = .int ∧ Expects before .term)) (hx : Expects before x) :
    Blames before l (.unrecognizedToken l.text x l.start)

/-- A lexeme that stands where it says: one line more than there are line feeds before it, and one column more than
there are characters since the last of these. -/
def Lexeme.Placed (cs : List Char) (l : Lexeme) : Prop :=
  ∃ front back, cs = front ++ (l.text ++ back) ∧ l.start
    = ⟨Text.byteLength front, front.count '\n' + 1, (front.reverse.takeWhile (· ≠ '\n')).length + 1⟩

namespace Reader

variable {s s' : State} {l : Lexeme} {ls ms : List Lexeme} {e : ReadError} {t : Term} {stack : List Frame}
  {x : Expected}

/-! ## What a state waits for -/

/-- What a complete term waits for. -/
def expectedIn : List Frame → Option Expected
  | [] => none
  | frame :: _ => some (.commaOr frame.opening.close)

/-- What a state waits for, unless the text may end. -/
def State.expected? : State → Option Expected
  | .item _ | .opened _ _ => some .term
  | .named _ stack | .complete _ stack => expectedIn stack

theorem finish_eq_error_iff : finish s = .error e ↔ ∃ x, s.expected? = some x ∧ e = .unrecognizedEof x := by
  have hterm : ∀ (t : Term) (stack : List Frame),
      finishTerm t stack = .error e ↔ ∃ x, expectedIn stack = some x ∧ e = .unrecognizedEof x := by
    intro t stack
    cases stack with
    | nil => simp [finishTerm, expectedIn]
    | cons frame stack => simp [finishTerm, expectedIn, eq_comm]
  cases s with
  | item stack => simp [finish, State.expected?, eq_comm]
  | opened opening stack => simp [finish, State.expected?, eq_comm]
  | named cons stack => exact hterm _ stack
  | complete t stack => exact hterm _ stack

theorem exists_finish_iff : (∃ t, finish s = .ok t) ↔ s.expected? = none := by
  constructor
  · rintro ⟨t, ht⟩
    cases hx : s.expected? with
    | none => rfl
    | some x =>
      rw [finish_eq_error_iff.2 ⟨x, hx, rfl⟩] at ht
      cases ht
  · intro hx
    cases hf : finish s with
    | ok t => exact ⟨t, rfl⟩
    | error e =>
      obtain ⟨x, hx', -⟩ := finish_eq_error_iff.1 hf
      rw [hx] at hx'
      cases hx'

/-- The error for a lexeme that a state refuses. -/
inductive Refuses (s : State) (l : Lexeme) : ReadError → Prop where
  | extra (hs : s.expected? = none) : Refuses s l (.extraToken l.text l.start)
  | invalid {x : Expected} (hs : s.expected? = some x) (hl : l.kind = .invalid) : Refuses s l (.invalidToken l.start)
  | range (hs : s.expected? = some .term) (hl : l.kind = .int) : Refuses s l (.intOutOfRange l.text l.start)
  | other {x : Expected} (hs : s.expected? = some x) (hl : l.kind ≠ .invalid) (hint : ¬ (l.kind = .int ∧ x = .term)) :
    Refuses s l (.unrecognizedToken l.text x l.start)

theorem startTerm_eq_error (hs : s.expected? = some .term) (h : startTerm stack l = .error e) : Refuses s l e := by
  unfold startTerm at h
  split at h
  · cases h
  · cases h
  · cases h
  · split at h
    · cases h
    · cases h
      exact .range hs ‹_›
  · rename_i p _ hp
    cases h
    exact .other hs (by simp [hp]) (by simp [hp])
  · cases h
    exact .invalid hs ‹_›

theorem afterTerm_eq_error (hs : s.expected? = expectedIn stack) (h : afterTerm t stack l = .error e) :
    Refuses s l e := by
  unfold afterTerm at h
  split at h
  · cases h
  split at h
  · cases h
    exact .extra hs
  split at h
  · cases h
  split at h
  · cases h
  split at h
  · cases h
    exact .invalid hs ‹_›
  · cases h
    exact .other hs ‹_› (by simp)

theorem step_eq_error (h : step s l = .error e) : Refuses s l e := by
  cases s with
  | item stack => exact startTerm_eq_error rfl h
  | opened opening stack =>
    simp only [step] at h
    split at h
    · cases h
    · exact startTerm_eq_error rfl h
  | named cons stack =>
    simp only [step] at h
    split at h
    · cases h
    · exact afterTerm_eq_error rfl h
  | complete t stack => exact afterTerm_eq_error rfl h

theorem afterTerm_eq_ok (h : afterTerm t stack l = .ok s) : l.kind = .punct .braceOpen
    ∨ ∃ frame below, stack = frame :: below ∧ (l.kind = .punct .comma ∨ l.kind = .punct frame.opening.close) := by
  unfold afterTerm at h
  split at h
  · exact .inl ‹_›
  split at h
  · cases h
  rename_i opening items below
  split at h
  · exact .inr ⟨⟨opening, items⟩, below, rfl, .inl ‹_›⟩
  split at h
  · exact .inr ⟨⟨opening, items⟩, below, rfl, .inr ‹_›⟩
  split at h <;> cases h

theorem step_cases (s : State) :
    (s.expected? = some .term
      ∧ ∃ stack, ∀ l, (∀ opening : Opening, l.kind ≠ .punct opening.close) → step s l = startTerm stack l)
    ∨ ∃ t stack, s.expected? = expectedIn stack ∧ ∀ l, l.kind ≠ .punct .parenOpen → step s l = afterTerm t stack l := by
  cases s with
  | item stack => exact .inl ⟨rfl, stack, fun _ _ => rfl⟩
  | opened opening stack => exact .inl ⟨rfl, _, fun l hl => if_neg (hl opening)⟩
  | named cons stack => exact .inr ⟨_, stack, rfl, fun l hl => if_neg hl⟩
  | complete t stack => exact .inr ⟨t, stack, rfl, fun _ _ => rfl⟩

/-- A run goes wrong at the first lexeme that is refused. -/
theorem run_eq_error (h : run s ls = .error e) : ∃ before l after s', ls = before ++ l :: after
    ∧ run s before = .ok s' ∧ step s' l = .error e := by
  induction ls generalizing s with
  | nil => cases h
  | cons l ls ih =>
    rw [run] at h
    cases hl : step s l with
    | error e' =>
      rw [hl] at h
      cases h
      exact ⟨[], l, ls, s, rfl, rfl, hl⟩
    | ok s₁ =>
      rw [hl] at h
      obtain ⟨before, l', after, s', rfl, hrun, hstep⟩ := ih h
      refine ⟨l :: before, l', after, s', rfl, ?_, hstep⟩
      rw [run, hl]
      exact hrun

/-! ## What may come next, and what is blamed -/

section Prefix

variable (htokens : ∀ l ∈ ls, l.IsToken) (hrun : run .start ls = .ok s)
include htokens hrun

theorem sentence_iff_expected? : Sentence ls ↔ s.expected? = none := by
  rw [sentence_iff, ← exists_finish_iff]
  simp only [readFrom_eq_ok_iff, hrun, Except.ok.injEq, exists_eq_left']
  exact and_iff_right htokens

theorem viable_snoc : Viable (ls ++ [l]) ↔ l.IsToken ∧ ∃ s', step s l = .ok s' := by
  have hstep : run .start (ls ++ [l]) = step s l := by
    rw [run_append, hrun]
    change run s [l] = _
    rw [run]
    cases step s l <;> rfl
  rw [viable_iff, hstep]
  simp only [List.forall_mem_append, List.forall_mem_singleton]
  rw [and_iff_right htokens]

/-- What may come next is what the state waits for. -/
theorem expects_iff : Expects ls x ↔ s.expected? = some x := by
  cases x with
  | term =>
    simp only [Expects, viable_snoc htokens hrun]
    rcases step_cases s with ⟨hs, stack, hstep⟩ | ⟨t, stack, hs, hstep⟩
    · -- a name is taken wherever a term has to start
      refine iff_of_true ⟨⟨.ident, ['x'], .start⟩, .inl rfl, isToken_name, ?_⟩ hs
      exact ⟨_, hstep _ (by simp)⟩
    · -- behind a complete term nothing is taken that starts one
      refine iff_of_false ?_ ?_
      · rintro ⟨l, hl, -, s', hs'⟩
        have hpunct : ∀ p ≠ .bracketOpen, l.kind ≠ .punct p := by
          rcases hl with h | h | h | h <;> simp [h, eq_comm]
        rw [hstep l (hpunct _ (by simp))] at hs'
        rcases afterTerm_eq_ok hs' with h | ⟨frame, -, -, h | h⟩
        · exact hpunct _ (by simp) h
        · exact hpunct _ (by simp) h
        · exact hl.not_close frame.opening h
      · rw [hs]
        cases stack <;> simp [expectedIn]
  | commaOr close =>
    simp only [Expects, viable_snoc htokens hrun]
    rcases step_cases s with ⟨hs, stack, hstep⟩ | ⟨t, stack, hs, hstep⟩
    · -- a comma starts no term
      refine iff_of_false ?_ (by simp [hs])
      rintro ⟨⟨c, hc, -, s', hs'⟩, -⟩
      rw [hstep c fun opening => by cases opening <;> simp [hc, Opening.close], startTerm, hc] at hs'
      cases hs'
    · rw [hs]
      constructor
      · -- the comma says that a bracket is open, and the other lexeme which one
        rintro ⟨⟨c, hc, -, s₁, h₁⟩, d, hd, ⟨-, s₂, h₂⟩, hclose⟩
        have hparen : close ≠ .parenOpen ∧ close ≠ .braceOpen ∧ close ≠ .comma := by
          simp only [List.mem_cons, List.not_mem_nil, or_false] at hclose
          rcases hclose with rfl | rfl | rfl <;> simp
        rw [hstep c (by simp [hc])] at h₁
        rw [hstep d (by simp [hd, hparen])] at h₂
        rcases afterTerm_eq_ok h₁ with h | ⟨frame, below, rfl, -⟩
        · simp [hc] at h
        rcases afterTerm_eq_ok h₂ with h | ⟨_, _, ⟨⟩, h | h⟩
        · simp [hd, hparen] at h
        · simp [hd, hparen] at h
        · rw [hd, Kind.punct.injEq] at h
          rw [h]
          rfl
      · intro h
        cases stack with
        | nil => cases h
        | cons frame below =>
          cases h
          refine ⟨⟨mark .comma, rfl, isToken_mark _, _, (hstep _ (by simp [mark])).trans (step_comma rfl)⟩,
            mark frame.opening.close, rfl, ⟨isToken_mark _, _, (hstep _ ?_).trans (step_close rfl)⟩, ?_⟩
          · cases frame.opening <;> simp [mark, Opening.close]
          · cases frame.opening <;> simp [Opening.close]

/-- The lexeme is blamed for what the state refuses it for. -/
theorem blames_iff : Blames ls l e ↔ Refuses s l e := by
  have hsentence := sentence_iff_expected? htokens hrun
  have hexpects := fun x => expects_iff (x := x) htokens hrun
  constructor
  · intro h
    cases h with
    | extra hb => exact .extra (hsentence.1 hb)
    | invalid hb hl =>
      obtain ⟨x, hx⟩ := Option.ne_none_iff_exists'.1 (mt hsentence.2 hb)
      exact .invalid hx hl
    | range hb hl hx => exact .range ((hexpects _).1 hx) hl
    | other hb hl hint hx =>
      refine .other ((hexpects _).1 hx) hl fun ⟨h, hterm⟩ => hint ⟨h, ?_⟩
      rwa [← hterm]
  · intro h
    have hnot : ∀ x, s.expected? = some x → ¬ Sentence ls := by
      intro x hx hb
      rw [hsentence.1 hb] at hx
      cases hx
    cases h with
    | extra hs => exact .extra (hsentence.2 hs)
    | invalid hs hl => exact .invalid (hnot _ hs) hl
    | range hs hl => exact .range (hnot _ hs) hl ((hexpects _).2 hs)
    | other hs hl hint =>
      refine .other (hnot _ hs) hl (fun ⟨h, hterm⟩ => hint ⟨h, ?_⟩) ((hexpects _).2 hs)
      have hsame := hs.symm.trans ((hexpects _).1 hterm)
      cases hsame
      rfl

end Prefix

theorem Refuses.unique {e' : ReadError} (h : Refuses s l e) (h' : Refuses s l e') : e = e' := by
  cases h <;> cases h' <;> simp_all

end Reader

open Reader

theorem isToken_of_run {source : String} {before after : List Lexeme} {s : State}
    (hlex : lex source = before ++ after) (hrun : run .start before = .ok s) : ∀ l ∈ before, l.IsToken := by
  intro l hl
  have hmem : l ∈ lex source := by
    rw [hlex]
    exact List.mem_append_left _ hl
  exact isToken_of_mem_lex hmem (run_takes hrun l hl).1

theorem placed_of_mem_lex {source : String} {l : Lexeme} (hl : l ∈ lex source) : l.Placed source.toList := by
  obtain ⟨front, back, hsource, hstart, -⟩ := (cut_lexAfter _ _).slice l hl
  exact ⟨front, back, hsource, by rw [hstart, Mark.after_start]⟩

/-- The lexeme that a run refuses is the first one that cannot continue a term. -/
theorem run_eq_error_iff (source : String) (e : ReadError) : run .start (lex source) = .error e ↔
    ∃ before l after, lex source = before ++ l :: after ∧ Viable before ∧ ¬ Viable (before ++ [l])
      ∧ Blames before l e ∧ l.Placed source.toList := by
  constructor
  · intro h
    obtain ⟨before, l, after, s, hlex, hrun, hstep⟩ := run_eq_error h
    have htokens := isToken_of_run hlex hrun
    refine ⟨before, l, after, hlex, viable_iff.2 ⟨htokens, s, hrun⟩, ?_,
      (blames_iff htokens hrun).2 (step_eq_error hstep), placed_of_mem_lex (by simp [hlex])⟩
    rw [viable_snoc htokens hrun, hstep]
    rintro ⟨-, s', hs'⟩
    cases hs'
  · rintro ⟨before, l, after, hlex, hviable, hnot, hblames, -⟩
    obtain ⟨htokens, s, hrun⟩ := viable_iff.1 hviable
    rw [hlex, run_append, hrun]
    change run s (l :: after) = .error e
    rw [run]
    cases hstep : step s l with
    | ok s' =>
      have hmem : l ∈ lex source := by simp [hlex]
      exact absurd ((viable_snoc htokens hrun).2 ⟨isToken_of_mem_lex hmem (step_takes hstep).1, s', hstep⟩) hnot
    | error e' =>
      rw [((blames_iff htokens hrun).1 hblames).unique (step_eq_error hstep)]

theorem finish_eq_error_iff_expects {s : State} {ls : List Lexeme} {e : ReadError} (htokens : ∀ l ∈ ls, l.IsToken)
    (hrun : run .start ls = .ok s) :
    finish s = .error e ↔ ¬ Sentence ls ∧ ∃ x, Expects ls x ∧ e = .unrecognizedEof x := by
  simp only [expects_iff htokens hrun, finish_eq_error_iff, sentence_iff_expected? htokens hrun]
  constructor
  · rintro ⟨x, hx, rfl⟩
    exact ⟨by simp [hx], x, hx, rfl⟩
  · rintro ⟨-, h⟩
    exact h

/-- **The error is the one for the first lexeme that cannot continue a term.** A text is refused at its end if and only
if its lexemes are tokens that a term may start with, but do not make one; what is expected there is what may come
next. Otherwise the error is about the first lexeme behind which no term can be completed, and names its place: an
extra one if there is a term in front of it, else an invalid one, an integer out of range if a term may start there, or
an unexpected one, for what may come next instead. -/
theorem read_eq_error_iff (source : String) (e : ReadError) : Term.read source = .error e ↔
    (Viable (lex source) ∧ ¬ Sentence (lex source) ∧ ∃ x, Expects (lex source) x ∧ e = .unrecognizedEof x)
    ∨ ∃ before l after, lex source = before ++ l :: after ∧ Viable before ∧ ¬ Viable (before ++ [l])
      ∧ Blames before l e ∧ l.Placed source.toList := by
  rw [← run_eq_error_iff]
  unfold Term.read
  cases hrun : run .start (lex source) with
  | error e' =>
    have hnot : ¬ Viable (lex source) := by
      rw [viable_iff, hrun]
      rintro ⟨-, s, hs⟩
      cases hs
    simp [hnot]
  | ok s =>
    have htokens := isToken_of_run (List.append_nil _).symm hrun
    have hviable : Viable (lex source) := viable_iff.2 ⟨htokens, s, hrun⟩
    simp [hviable, finish_eq_error_iff_expects htokens hrun]

example : Term.read "[a,\n ]" = .error (.unrecognizedToken [']'] .term ⟨5, 2, 2⟩) := rfl

end BaseLang
