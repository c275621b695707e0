import BaseLang.Proofs.Lexing
import BaseLang.Term.Reader
import Mathlib.Logic.ExistsUnique

/-!
# The grammar of terms

The texts that the reader accepts, as a grammar over lexemes in which every derivation has a value.

* `Derives` : the lexemes derived from a nonterminal, with the values of the terms in them;
* `Reached` : the reader's state as a partial derivation of the lexemes that it has been given. `step_reached`
  is one lexeme, `run_reached` a whole run;
* `reads_of_derives` : the reader gets through everything that is derived;
* `read_eq_ok_iff_derives` : the reader accepts exactly the derived texts, each with its one value.
-/

namespace BaseLang

/-- The nonterminals: a term with its remarks, a term without them, any number of remarks, and the items
between two brackets, with or without the possibility that there are none. -/
inductive Nonterminal where
  | term
  | base
  | remarks
  | items
  | terms

/-- Lexemes derived from a nonterminal, with the values of the terms. Remarks have no value, and the value
of an integer is its number modulo `2 ^ 64`. -/
inductive Derives : Nonterminal → List Lexeme → List Term → Prop where
  /-- `term ::= base remark*` -/
  | term {bs rs : List Lexeme} {t : Term} (base : Derives .base bs [t])
      (remarks : Derives .remarks rs []) : Derives .term (bs ++ rs) [t]
  /-- `base ::= Ident` -/
  | name {l : Lexeme} (hl : l.kind = .ident) : Derives .base [l] [.appl (String.ofList l.text) []]
  /-- `base ::= Ident ( terms? )` -/
  | appl {l o c : Lexeme} {ls : List Lexeme} {ts : List Term} (hl : l.kind = .ident)
      (ho : o.kind = .punct .parenOpen) (items : Derives .items ls ts)
      (hc : c.kind = .punct .parenClose) :
      Derives .base (l :: o :: (ls ++ [c])) [.appl (String.ofList l.text) ts]
  /-- `base ::= [ terms? ]` -/
  | list {o c : Lexeme} {ls : List Lexeme} {ts : List Term} (ho : o.kind = .punct .bracketOpen)
      (items : Derives .items ls ts) (hc : c.kind = .punct .bracketClose) :
      Derives .base (o :: (ls ++ [c])) [.list ts]
  /-- `base ::= StrLit` -/
  | str {l : Lexeme} (hl : l.kind = .str) :
      Derives .base [l] [.str (String.ofList (Text.unescape l.text))]
  /-- `base ::= IntLit` -/
  | int {l : Lexeme} {n : Int} (hl : l.kind = .int) (hn : Text.readDecimal? l.text = some n) :
      Derives .base [l] [.int (Int64.ofInt n)]
  /-- `remark* ::=` -/
  | noRemark : Derives .remarks [] []
  /-- `remark* ::= { terms? } remark*` -/
  | remark {o c : Lexeme} {ls rs : List Lexeme} {ts : List Term} (ho : o.kind = .punct .braceOpen)
      (items : Derives .items ls ts) (hc : c.kind = .punct .braceClose)
      (remarks : Derives .remarks rs []) : Derives .remarks (o :: (ls ++ c :: rs)) []
  /-- `terms? ::=` -/
  | noItem : Derives .items [] []
  /-- `terms? ::= terms` -/
  | items {ls : List Lexeme} {ts : List Term} (terms : Derives .terms ls ts) : Derives .items ls ts
  /-- `terms ::= term` -/
  | last {ls : List Lexeme} {t : Term} (term : Derives .term ls [t]) : Derives .terms ls [t]
  /-- `terms ::= term , terms` -/
  | more {c : Lexeme} {ls ms : List Lexeme} {t : Term} {ts : List Term} (term : Derives .term ls [t])
      (hc : c.kind = .punct .comma) (terms : Derives .terms ms ts) :
      Derives .terms (ls ++ c :: ms) (t :: ts)

/-- If a lexeme is an integer, its number fits 64 bits. -/
def Lexeme.InRange (l : Lexeme) : Prop :=
  l.kind = .int → ∀ n, Text.readDecimal? l.text = some n
    → Int64.minValue.toInt ≤ n ∧ n ≤ Int64.maxValue.toInt

theorem readInt64?_eq_some_iff {cs : List Char} {v : Int64} :
    Text.readInt64? cs = some v
      ↔ ∃ n, Text.readDecimal? cs = some n ∧ (Int64.minValue.toInt ≤ n ∧ n ≤ Int64.maxValue.toInt)
        ∧ Int64.ofInt n = v := by
  unfold Text.readInt64?
  cases Text.readDecimal? cs with
  | none => simp
  | some n =>
    simp only [Option.some.injEq, exists_eq_left']
    rw [Option.ite_none_right_eq_some, Option.some.injEq]

namespace Derives

/-! ## Putting derivations together -/

theorem remarks_append {rs rs' : List Lexeme} (h : Derives .remarks rs []) (h' : Derives .remarks rs' []) :
    Derives .remarks (rs ++ rs') [] := by
  generalize hn : Nonterminal.remarks = n at h
  generalize hv : ([] : List Term) = vs at h
  induction h with
  | noRemark => exact h'
  | remark ho items hc _ _ ih =>
    have := remark ho items hc (ih rfl rfl)
    simpa using this
  | _ => cases hn

theorem of_base {ls : List Lexeme} {t : Term} (h : Derives .base ls [t]) : Derives .term ls [t] := by
  simpa using term h noRemark

theorem with_remark {o c : Lexeme} {ms ls : List Lexeme} {t : Term} {ts : List Term}
    (h : Derives .term ms [t]) (ho : o.kind = .punct .braceOpen) (items : Derives .items ls ts)
    (hc : c.kind = .punct .braceClose) : Derives .term (ms ++ o :: (ls ++ [c])) [t] := by
  cases h with
  | term base remarks =>
    rw [List.append_assoc]
    exact term base (remarks.remarks_append (remark ho items hc noRemark))

end Derives

/-! ## The reader's states as partial derivations -/

namespace Reader

/-- The lexemes that have opened a node: up to its bracket, and for remarks with the term in front. -/
inductive Opens : Opening → List Lexeme → Prop where
  | appl {l o : Lexeme} (hl : l.kind = .ident) (ho : o.kind = .punct .parenOpen) :
      Opens (.appl (String.ofList l.text)) [l, o]
  | list {o : Lexeme} (ho : o.kind = .punct .bracketOpen) : Opens .list [o]
  | remarks {o : Lexeme} {ms : List Lexeme} {t : Term} (subject : Derives .term ms [t])
      (ho : o.kind = .punct .braceOpen) : Opens (.remarks t) (ms ++ [o])

/-- The items of an open node, the latest first, and their lexemes with a comma behind each item. -/
inductive Begun : List Term → List Lexeme → Prop where
  | nil : Begun [] []
  | item {c : Lexeme} {ls ms : List Lexeme} {t : Term} {ts : List Term} (before : Begun ts ls)
      (term : Derives .term ms [t]) (hc : c.kind = .punct .comma) : Begun (t :: ts) (ls ++ ms ++ [c])

/-- The lexemes that have led to a stack. -/
inductive Stacked : List Frame → List Lexeme → Prop where
  | nil : Stacked [] []
  | frame {stack : List Frame} {ls os is : List Lexeme} {opening : Opening} {items : List Term}
      (below : Stacked stack ls) (opens : Opens opening os) (begun : Begun items is) :
      Stacked (⟨opening, items⟩ :: stack) (ls ++ os ++ is)

/-- The lexemes that have led to a state. -/
inductive Reached : State → List Lexeme → Prop where
  | item {stack : List Frame} {ls : List Lexeme} (below : Stacked stack ls) : Reached (.item stack) ls
  | opened {stack : List Frame} {ls os : List Lexeme} {opening : Opening} (below : Stacked stack ls)
      (opens : Opens opening os) : Reached (.opened opening stack) (ls ++ os)
  | named {stack : List Frame} {ls : List Lexeme} {l : Lexeme} (below : Stacked stack ls)
      (hl : l.kind = .ident) : Reached (.named (String.ofList l.text) stack) (ls ++ [l])
  | complete {stack : List Frame} {ls ms : List Lexeme} {t : Term} (below : Stacked stack ls)
      (term : Derives .term ms [t]) : Reached (.complete t stack) (ls ++ ms)

theorem Begun.terms {items ts : List Term} {is ms : List Lexeme} (h : Begun items is)
    (hm : Derives .terms ms ts) : Derives .terms (is ++ ms) (items.reverse ++ ts) := by
  induction h generalizing ms ts with
  | nil => exact hm
  | item before term hc ih =>
    have := ih (.more term hc hm)
    simpa using this

theorem Opens.close {opening : Opening} {os ls : List Lexeme} {c : Lexeme} {ts : List Term}
    (h : Opens opening os) (items : Derives .items ls ts) (hc : c.kind = .punct opening.close) :
    Derives .term (os ++ ls ++ [c]) [opening.finish ts] := by
  cases h with
  | appl hl ho => simpa [Opening.finish] using Derives.of_base (.appl hl ho items hc)
  | list ho => simpa [Opening.finish] using Derives.of_base (.list ho items hc)
  | remarks subject ho => simpa [Opening.finish] using subject.with_remark ho items hc

theorem startTerm_reached {stack : List Frame} {ls : List Lexeme} {l : Lexeme} {s : State}
    (h : Stacked stack ls) (hs : startTerm stack l = .ok s) : Reached s (ls ++ [l]) := by
  unfold startTerm at hs
  split at hs
  · rename_i hl
    cases hs
    exact .named h hl
  · rename_i ho
    cases hs
    exact .opened h (.list ho)
  · rename_i hl
    cases hs
    exact .complete h (.of_base (.str hl))
  · rename_i hl
    split at hs
    · rename_i v hv
      cases hs
      obtain ⟨n, hn, -, rfl⟩ := readInt64?_eq_some_iff.1 hv
      exact .complete h (.of_base (.int hl hn))
    · cases hs
  · cases hs
  · cases hs

theorem afterTerm_reached {t : Term} {stack : List Frame} {ls ms : List Lexeme} {l : Lexeme} {s : State}
    (h : Stacked stack ls) (ht : Derives .term ms [t]) (hs : afterTerm t stack l = .ok s) :
    Reached s (ls ++ ms ++ [l]) := by
  unfold afterTerm at hs
  split at hs
  · rename_i ho
    cases hs
    rw [List.append_assoc]
    exact .opened h (.remarks ht ho)
  · split at hs
    · cases hs
    · rename_i opening items stack
      cases h with
      | @frame _ ls os is _ _ below opens begun =>
        split at hs
        · rename_i hc
          cases hs
          have := Reached.item (.frame below opens (begun.item ht hc))
          simpa using this
        · split at hs
          · rename_i hc
            cases hs
            have hts := Derives.items (begun.terms (.last ht))
            have := Reached.complete below (opens.close hts hc)
            simpa using this
          · split at hs <;> cases hs

/-- One lexeme keeps the state a partial derivation. -/
theorem step_reached {s s' : State} {ls : List Lexeme} {l : Lexeme} (h : Reached s ls)
    (hs : step s l = .ok s') : Reached s' (ls ++ [l]) := by
  cases h with
  | item below => exact startTerm_reached below hs
  | opened below opens =>
    simp only [step] at hs
    split at hs
    · rename_i hc
      cases hs
      have := Reached.complete below (opens.close .noItem hc)
      simpa using this
    · have := startTerm_reached (below.frame opens .nil) hs
      simpa using this
  | named below hl =>
    simp only [step] at hs
    split at hs
    · rename_i ho
      cases hs
      have := Reached.opened below (.appl hl ho)
      simpa using this
    · exact afterTerm_reached below (.of_base (.name hl)) hs
  | complete below term => exact afterTerm_reached below term hs

theorem run_reached {s s' : State} {ls ms : List Lexeme} (h : Reached s ls) (hs : run s ms = .ok s') :
    Reached s' (ls ++ ms) := by
  induction ms generalizing s ls with
  | nil =>
    cases hs
    simpa using h
  | cons m ms ih =>
    rw [run] at hs
    split at hs
    · rename_i s₁ h₁
      simpa using ih (step_reached h h₁) hs
    · cases hs

theorem Stacked.eq_nil {ls : List Lexeme} (h : Stacked [] ls) : ls = [] := by
  cases h
  rfl

/-- Where the text may end, the lexemes are those of one term. -/
theorem finish_reached {s : State} {ls : List Lexeme} {t : Term} (h : Reached s ls)
    (hs : finish s = .ok t) : Derives .term ls [t] := by
  have done : ∀ {u : Term} {stack : List Frame}, finishTerm u stack = .ok t → stack = [] ∧ u = t := by
    intro u stack hu
    cases stack with
    | nil => cases hu; exact ⟨rfl, rfl⟩
    | cons => cases hu
  cases h with
  | item | opened => cases hs
  | named below hl =>
    obtain ⟨rfl, rfl⟩ := done hs
    rw [below.eq_nil]
    exact .of_base (.name hl)
  | complete below term =>
    obtain ⟨rfl, rfl⟩ := done hs
    rw [below.eq_nil]
    exact term

/-! ## The lexemes that the reader takes -/

theorem startTerm_takes {stack : List Frame} {l : Lexeme} {s : State} (hs : startTerm stack l = .ok s) :
    l.kind ≠ .invalid ∧ l.InRange := by
  unfold startTerm at hs
  split at hs
  · rename_i hl; exact ⟨by simp [hl], fun h => by simp [hl] at h⟩
  · rename_i hl; exact ⟨by simp [hl], fun h => by simp [hl] at h⟩
  · rename_i hl; exact ⟨by simp [hl], fun h => by simp [hl] at h⟩
  · rename_i hl
    split at hs
    · rename_i v hv
      obtain ⟨n, hn, hr, -⟩ := readInt64?_eq_some_iff.1 hv
      refine ⟨by simp [hl], fun _ n' hn' => ?_⟩
      rw [hn] at hn'
      cases hn'
      exact hr
    · cases hs
  · cases hs
  · cases hs

theorem afterTerm_takes {t : Term} {stack : List Frame} {l : Lexeme} {s : State}
    (hs : afterTerm t stack l = .ok s) : ∃ p, l.kind = .punct p := by
  unfold afterTerm at hs
  split at hs
  · exact ⟨_, ‹_›⟩
  · split at hs
    · cases hs
    · split at hs
      · exact ⟨_, ‹_›⟩
      · split at hs
        · exact ⟨_, ‹_›⟩
        · split at hs <;> cases hs

theorem takes_of_punct {l : Lexeme} {p : Punct} (h : l.kind = .punct p) :
    l.kind ≠ .invalid ∧ l.InRange :=
  ⟨by simp [h], fun h' => by simp [h] at h'⟩

theorem step_takes {s s' : State} {l : Lexeme} (hs : step s l = .ok s') :
    l.kind ≠ .invalid ∧ l.InRange := by
  have after : ∀ {t : Term} {stack : List Frame}, afterTerm t stack l = .ok s' →
      l.kind ≠ .invalid ∧ l.InRange := fun h => (afterTerm_takes h).elim fun _ => takes_of_punct
  cases s with
  | item stack => exact startTerm_takes hs
  | opened opening stack =>
    simp only [step] at hs
    split at hs
    · exact takes_of_punct ‹_›
    · exact startTerm_takes hs
  | named cons stack =>
    simp only [step] at hs
    split at hs
    · exact takes_of_punct ‹_›
    · exact after hs
  | complete t stack => exact after hs

theorem run_takes {s s' : State} {ls : List Lexeme} (hs : run s ls = .ok s') :
    ∀ l ∈ ls, l.kind ≠ .invalid ∧ l.InRange := by
  induction ls generalizing s with
  | nil => simp
  | cons m ms ih =>
    rw [run] at hs
    split at hs
    · rename_i s₁ h₁
      exact List.forall_mem_cons.2 ⟨step_takes h₁, ih hs⟩
    · cases hs

end Reader

theorem takes_of_read {source : String} {t : Term} (h : Term.read source = .ok t) :
    ∀ l ∈ lex source, l.kind ≠ .invalid ∧ l.InRange := by
  unfold Term.read at h
  split at h
  · exact Reader.run_takes ‹_›
  · cases h

theorem derives_of_read {source : String} {t : Term} (h : Term.read source = .ok t) :
    Derives .term (lex source) [t] := by
  unfold Term.read at h
  split at h
  · rename_i s hs
    exact Reader.finish_reached (Reader.run_reached (.item .nil) hs) h
  · cases h

/-! ## Everything derived is read -/

namespace Reader

/-- What the reader makes of the rest of a text. -/
def readFrom (s : State) (ls : List Lexeme) : Except ReadError Term :=
  match run s ls with
  | .ok s => finish s
  | .error e => .error e

theorem readFrom_cons {s s' : State} {l : Lexeme} (h : step s l = .ok s') (ls : List Lexeme) :
    readFrom s (l :: ls) = readFrom s' ls := by
  rw [readFrom, run, h]
  rfl

/-- The text that follows does not start with a parenthesis, which would take a name in front of it for a
constructor. -/
def Follows (rest : List Lexeme) : Prop := ∀ l ∈ rest.head?, l.kind ≠ .punct .parenOpen

theorem follows_cons {l : Lexeme} {p : Punct} (h : l.kind = .punct p) (hp : p ≠ .parenOpen)
    (ls : List Lexeme) : Follows (l :: ls) := by
  intro l' hl'
  cases hl'
  rw [h]
  exact fun e => hp (Kind.punct.inj e)

theorem readFrom_named {rest : List Lexeme} (h : Follows rest) (cons : String) (stack : List Frame) :
    readFrom (.named cons stack) rest = readFrom (.complete (.appl cons []) stack) rest := by
  cases rest with
  | nil => rfl
  | cons l rest =>
    have hs : step (.named cons stack) l = step (.complete (.appl cons []) stack) l :=
      if_neg (h l rfl)
    rw [readFrom, readFrom, run, run, hs]

def Starts (l : Lexeme) : Prop :=
  l.kind = .ident ∨ l.kind = .str ∨ l.kind = .int ∨ l.kind = .punct .bracketOpen

theorem Starts.not_close {l : Lexeme} (h : Starts l) (opening : Opening) :
    l.kind ≠ .punct opening.close := by
  rcases h with h | h | h | h <;> rw [h] <;> cases opening <;> simp [Opening.close]

/-- A term, or a list of at least one, starts with the start of a term. -/
theorem starts_of_derives {n : Nonterminal} {ls : List Lexeme} {ts : List Term} (h : Derives n ls ts)
    (hn : n = .term ∨ n = .base ∨ n = .terms) : ∃ l ls', ls = l :: ls' ∧ Starts l := by
  induction h with
  | term _ _ ih =>
    obtain ⟨l, ls', rfl, hl⟩ := ih (by simp)
    exact ⟨l, _, rfl, hl⟩
  | name hl | appl hl => exact ⟨_, _, rfl, .inl hl⟩
  | str hl => exact ⟨_, _, rfl, .inr (.inl hl)⟩
  | int hl => exact ⟨_, _, rfl, .inr (.inr (.inl hl))⟩
  | list ho => exact ⟨_, _, rfl, .inr (.inr (.inr ho))⟩
  | noRemark | remark | noItem | items => simp at hn
  | last _ ih => exact ih (by simp)
  | more _ _ _ ih =>
    obtain ⟨l, ls', rfl, hl⟩ := ih (by simp)
    exact ⟨l, _, rfl, hl⟩

/-- What reading does with the lexemes derived from a nonterminal: it gets through them and has their value,
whatever follows. -/
def Reads : Nonterminal → List Lexeme → List Term → Prop
  | .term, ls, ts | .base, ls, ts => ∀ t, ts = [t] → ∀ stack rest, Follows rest →
      readFrom (.item stack) (ls ++ rest) = readFrom (.complete t stack) rest
  | .remarks, ls, _ => (∀ rest, Follows rest → Follows (ls ++ rest)) ∧ ∀ t stack rest,
      readFrom (.complete t stack) (ls ++ rest) = readFrom (.complete t stack) rest
  | .items, ls, ts => ∀ opening stack c rest, c.kind = .punct opening.close →
      readFrom (.opened opening stack) (ls ++ c :: rest)
        = readFrom (.complete (opening.finish ts) stack) rest
  | .terms, ls, ts => ∀ opening items stack c rest, c.kind = .punct opening.close →
      readFrom (.item (⟨opening, items⟩ :: stack)) (ls ++ c :: rest)
        = readFrom (.complete (opening.finish (items.reverse ++ ts)) stack) rest

theorem step_comma {t : Term} {opening : Opening} {items : List Term} {stack : List Frame} {c : Lexeme}
    (hc : c.kind = .punct .comma) :
    step (.complete t (⟨opening, items⟩ :: stack)) c = .ok (.item (⟨opening, t :: items⟩ :: stack)) := by
  simp [step, afterTerm, hc]

theorem step_close {t : Term} {opening : Opening} {items : List Term} {stack : List Frame} {c : Lexeme}
    (hc : c.kind = .punct opening.close) :
    step (.complete t (⟨opening, items⟩ :: stack)) c
      = .ok (.complete (opening.finish (t :: items).reverse) stack) := by
  cases opening <;> simp [step, afterTerm, hc, Opening.close]

theorem follows_close {c : Lexeme} {opening : Opening} (hc : c.kind = .punct opening.close)
    (ls : List Lexeme) : Follows (c :: ls) :=
  follows_cons hc (by cases opening <;> simp [Opening.close]) ls

/-- Everything derived is read, as far as its integers fit. -/
theorem reads_of_derives {n : Nonterminal} {ls : List Lexeme} {ts : List Term} (h : Derives n ls ts)
    (hr : ∀ l ∈ ls, l.InRange) : Reads n ls ts := by
  induction h with
  | @term bs rs t base remarks ihb ihr =>
    obtain ⟨hf, hrs⟩ := ihr fun l hl => hr l (List.mem_append_right _ hl)
    intro t' ht stack rest hrest
    rw [List.append_assoc, ihb (fun l hl => hr l (List.mem_append_left _ hl)) t' ht stack _ (hf _ hrest)]
    exact hrs t' stack rest
  | @name l hl =>
    rintro t' ⟨⟩ stack rest hrest
    have hs : step (.item stack) l = .ok (.named (String.ofList l.text) stack) := by
      simp [step, startTerm, hl]
    rw [List.singleton_append, readFrom_cons hs, readFrom_named hrest]
  | @appl l o c ls ts hl ho items hc ih =>
    rintro t' ⟨⟩ stack rest -
    have hs : step (.item stack) l = .ok (.named (String.ofList l.text) stack) := by
      simp [step, startTerm, hl]
    have hs' : step (.named (String.ofList l.text) stack) o
        = .ok (.opened (.appl (String.ofList l.text)) stack) := by simp [step, ho]
    have := ih (fun x hx => hr x (by simp [hx])) (.appl (String.ofList l.text)) stack c rest hc
    rw [List.cons_append, readFrom_cons hs, List.cons_append, readFrom_cons hs', List.append_assoc]
    exact this
  | @list o c ls ts ho items hc ih =>
    rintro t' ⟨⟩ stack rest -
    have hs : step (.item stack) o = .ok (.opened .list stack) := by simp [step, startTerm, ho]
    have := ih (fun x hx => hr x (by simp [hx])) .list stack c rest hc
    rw [List.cons_append, readFrom_cons hs, List.append_assoc]
    exact this
  | @str l hl =>
    rintro t' ⟨⟩ stack rest -
    have hs : step (.item stack) l
        = .ok (.complete (.str (String.ofList (Text.unescape l.text))) stack) := by
      simp [step, startTerm, hl]
    rw [List.singleton_append, readFrom_cons hs]
  | @int l n hl hn =>
    rintro t' ⟨⟩ stack rest -
    have hv : Text.readInt64? l.text = some (Int64.ofInt n) :=
      readInt64?_eq_some_iff.2 ⟨n, hn, hr l (by simp) hl n hn, rfl⟩
    have hs : step (.item stack) l = .ok (.complete (.int (Int64.ofInt n)) stack) := by
      simp [step, startTerm, hl, hv]
    rw [List.singleton_append, readFrom_cons hs]
  | noRemark => exact ⟨fun _ h => h, fun _ _ _ => rfl⟩
  | @remark o c ls rs ts ho items hc remarks ihi ihr =>
    obtain ⟨-, hrs⟩ := ihr fun l hl => hr l (by simp [hl])
    refine ⟨fun rest _ => follows_cons ho (by simp) _, fun t stack rest => ?_⟩
    have hs : step (.complete t stack) o = .ok (.opened (.remarks t) stack) := by
      simp [step, afterTerm, ho]
    have := ihi (fun x hx => hr x (by simp [hx])) (.remarks t) stack c (rs ++ rest) hc
    rw [List.cons_append, readFrom_cons hs, List.append_assoc, List.cons_append, this]
    exact hrs t stack rest
  | noItem =>
    intro opening stack c rest hc
    have hs : step (.opened opening stack) c = .ok (.complete (opening.finish []) stack) := if_pos hc
    rw [List.nil_append, readFrom_cons hs]
  | @items ls ts terms ih =>
    intro opening stack c rest hc
    -- a lexeme that starts a term does not close the node, so the opened node awaits its first item
    obtain ⟨l, ls', rfl, hl⟩ := starts_of_derives terms (by simp)
    have hs : step (.opened opening stack) l = step (.item (⟨opening, []⟩ :: stack)) l :=
      if_neg (hl.not_close opening)
    have := ih hr opening [] stack c rest hc
    rw [List.cons_append] at this ⊢
    rw [readFrom, run, hs]
    exact this
  | @last ls t term ih =>
    intro opening items stack c rest hc
    rw [ih hr t rfl _ _ (follows_close hc rest), readFrom_cons (step_close hc), List.reverse_cons]
  | @more c' ls ms t ts term hc' terms ih ihs =>
    intro opening items stack c rest hc
    have h₁ := ih (fun x hx => hr x (by simp [hx])) t rfl (⟨opening, items⟩ :: stack)
      (c' :: (ms ++ c :: rest)) (follows_cons hc' (by simp) _)
    have h₂ := ihs (fun x hx => hr x (by simp [hx])) opening (t :: items) stack c rest hc
    rw [List.append_assoc, List.cons_append, h₁, readFrom_cons (step_comma hc'), h₂]
    simp

end Reader

theorem read_of_derives {source : String} {t : Term} (hr : ∀ l ∈ lex source, l.InRange)
    (h : Derives .term (lex source) [t]) : Term.read source = .ok t := by
  have := Reader.reads_of_derives h hr t rfl [] [] (by simp [Reader.Follows])
  rw [List.append_nil] at this
  exact this

/-! ## The grammar -/

/-- **The reader accepts exactly the grammar.** A text is read as a term if and only if it has no lexeme
that is no token, its integers fit 64 bits, and its lexemes are derived from the grammar with the value of
that term. There is exactly one such value if there is any. -/
theorem read_eq_ok_iff_derives (source : String) :
    (∀ t, Term.read source = .ok t
      ↔ (∀ l ∈ lex source, l.kind ≠ .invalid) ∧ (∀ l ∈ lex source, l.InRange)
        ∧ Derives .term (lex source) [t])
    ∧ ((∃ t, Term.read source = .ok t)
      ↔ (∀ l ∈ lex source, l.kind ≠ .invalid) ∧ (∀ l ∈ lex source, l.InRange)
        ∧ ∃! t, Derives .term (lex source) [t]) := by
  have hread : ∀ t, Term.read source = .ok t
      ↔ (∀ l ∈ lex source, l.kind ≠ .invalid) ∧ (∀ l ∈ lex source, l.InRange)
        ∧ Derives .term (lex source) [t] := by
    intro t
    constructor
    · intro h
      have ht := takes_of_read h
      exact ⟨fun l hl => (ht l hl).1, fun l hl => (ht l hl).2, derives_of_read h⟩
    · rintro ⟨-, hr, h⟩
      exact read_of_derives hr h
  refine ⟨hread, ?_, ?_⟩
  · rintro ⟨t, h⟩
    obtain ⟨hk, hr, ht⟩ := (hread t).1 h
    refine ⟨hk, hr, t, ht, fun u hu => ?_⟩
    have h' := read_of_derives hr hu
    rw [h] at h'
    cases h'
    rfl
  · rintro ⟨hk, hr, t, ht, -⟩
    exact ⟨t, (hread t).2 ⟨hk, hr, ht⟩⟩

end BaseLang
