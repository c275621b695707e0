import BaseLang.Registry

/-!
# Lazy initialisation

What a registry answers, whatever has been done to it before.

* `Registry.Operation`, `Registry.after` : the operations on a registry, and where a list of them leads;
* `Registry.answers` : what is answered to the requests for one name along the way;
* `lookup?_after_ready`, `lookup?_after_pending` : the entry of a name, while it is not registered anew;
* `Registry.All` : what holds of all entries as long as it holds of those that are put in;
* `Initialiser.Within`, `Initialiser.Spares` : initialisers that have a part of the state for their own;
* `initialised_once` : a language is initialised when it is first asked for, and again only after a failure;
* `named_iff` : a registry answers with languages of other names exactly if initialisers yield such languages.
-/

namespace BaseLang

namespace Initialiser

variable {σ τ : Type}

/-- An initialiser that sees nothing of the state but a part of it. -/
def Within (part : σ → τ) (initialise : Initialiser σ) : Prop :=
  ∀ tries s s', part s = part s' → ((initialise tries).run s).1 = ((initialise tries).run s').1
    ∧ part ((initialise tries).run s).2 = part ((initialise tries).run s').2

/-- An initialiser that leaves a part of the state alone. -/
def Spares (part : σ → τ) (initialise : Initialiser σ) : Prop :=
  ∀ tries s, part ((initialise tries).run s).2 = part s

end Initialiser

namespace Registry

variable {σ τ : Type} {n : String} {r : Registry σ} {s : σ} {w w' : Registry σ × σ} {language : BaseLanguage}
  {tries : Nat} {initialise : Initialiser σ}

/-! ## Operations -/

inductive Operation (σ : Type) where
  | register (language : BaseLanguage)
  | registerLazy (name : String) (initialise : Initialiser σ)
  | contains (name : String)
  | get (name : String)

namespace Operation

def run (w : Registry σ × σ) : Operation σ → Registry σ × σ
  | register language => (w.1.register language, w.2)
  | registerLazy name initialise => (w.1.registerLazy name initialise, w.2)
  | contains _ => w
  | get name => ((get? name).run w).2

def name : Operation σ → String
  | register language => language.name
  | registerLazy name _ => name
  | contains name => name
  | get name => name

def registers : Operation σ → Bool
  | register _ | registerLazy .. => true
  | contains _ | get _ => false

def asks : Operation σ → Bool
  | get _ => true
  | _ => false

end Operation

def Operation.registersAs (op : Operation σ) (n : String) : Bool := op.registers && op.name = n

/-- The registry and the state behind some operations. -/
def after (w : Registry σ × σ) (ops : List (Operation σ)) : Registry σ × σ := ops.foldl Operation.run w

/-- What is answered to the requests for a name in the course of some operations. -/
def answers (n : String) (w : Registry σ × σ) : List (Operation σ) → List (Except ProcessError (Option BaseLanguage))
  | [] => []
  | op :: ops =>
    if op.asks && op.name = n then ((get? n).run w).1 :: answers n (op.run w) ops else answers n (op.run w) ops

def lookup? (r : Registry σ) (n : String) : Option (Entry σ) := r.entries.get? n

theorem after_append (w : Registry σ × σ) (ops ops' : List (Operation σ)) :
    after w (ops ++ ops') = after (after w ops) ops' := List.foldl_append

/-! ## Requests -/

theorem lookup?_put (r : Registry σ) (m n : String) (e : Entry σ) :
    (r.put m e).lookup? n = if m = n then some e else r.lookup? n := Table.get?_insert r.entries m n e

theorem lookup?_put_self (r : Registry σ) (n : String) (e : Entry σ) : (r.put n e).lookup? n = some e :=
  Table.get?_insert_self r.entries n e

theorem lookup?_register (w : Registry σ × σ) (language : BaseLanguage) (n : String) :
    ((Operation.register language).run w).1.lookup? n
      = if language.name = n then some (.ready language) else w.1.lookup? n := lookup?_put _ _ _ _

theorem lookup?_registerLazy (w : Registry σ × σ) (m : String) (initialise : Initialiser σ) (n : String) :
    ((Operation.registerLazy m initialise).run w).1.lookup? n
      = if m = n then some (.pending 0 initialise) else w.1.lookup? n := lookup?_put _ _ _ _

theorem put_eq_self {e : Entry σ} (h : r.lookup? n = some e) : r.put n e = r := by
  rw [put, Table.insert_eq_self h]

theorem get?_of_none (h : w.1.lookup? n = none) : (get? n).run w = (.ok none, w) := by
  change get? n (w.1, w.2) = _
  rw [get?, show w.1.entries.get? n = none from h]

theorem get?_of_ready (h : w.1.lookup? n = some (.ready language)) : (get? n).run w = (.ok (some language), w) := by
  change get? n (w.1, w.2) = _
  rw [get?, show w.1.entries.get? n = _ from h]
  change (Except.ok (some language), w.1.put n (.ready language), w.2) = _
  rw [put_eq_self h]

def Entry.called (tries : Nat) (initialise : Initialiser σ) : Except ProcessError BaseLanguage → Entry σ
  | .ok language => .ready language
  | .error _ => .pending (tries + 1) initialise

theorem get?_of_pending (h : w.1.lookup? n = some (.pending tries initialise)) : (get? n).run w =
    (((initialise tries).run w.2).1.map some, w.1.put n (.called tries initialise ((initialise tries).run w.2).1),
      ((initialise tries).run w.2).2) := by
  change get? n (w.1, w.2) = _
  rw [get?, show w.1.entries.get? n = _ from h]
  simp only [Entry.demand]
  cases hrun : (initialise tries).run w.2 with
  | mk outcome s' => cases outcome <;> rfl

/-- Every entry is asked in one of three ways. -/
theorem lookup?_cases (r : Registry σ) (n : String) : r.lookup? n = none
    ∨ (∃ language, r.lookup? n = some (.ready language))
    ∨ ∃ tries initialise, r.lookup? n = some (.pending tries initialise) := by
  cases h : r.lookup? n with
  | none => exact .inl rfl
  | some e =>
    cases e with
    | ready language => exact .inr (.inl ⟨language, rfl⟩)
    | pending tries initialise => exact .inr (.inr ⟨tries, initialise, rfl⟩)

/-! ## The entry of a name -/

variable {op : Operation σ} {ops : List (Operation σ)}

theorem lookup?_get_of_ne {m : String} (h : m ≠ n) (w : Registry σ × σ) :
    ((get? m).run w).2.1.lookup? n = w.1.lookup? n := by
  rcases lookup?_cases w.1 m with hm | ⟨language, hm⟩ | ⟨tries, initialise, hm⟩
  · rw [get?_of_none hm]
  · rw [get?_of_ready hm]
  · rw [get?_of_pending hm]
    exact (lookup?_put _ _ _ _).trans (if_neg h)

/-- Operations on other names leave an entry as it is. -/
theorem lookup?_run_of_ne (h : op.name ≠ n) : (op.run w).1.lookup? n = w.1.lookup? n := by
  cases op with
  | register language => exact (lookup?_register w language n).trans (if_neg h)
  | registerLazy m initialise => exact (lookup?_registerLazy w m initialise n).trans (if_neg h)
  | contains name => rfl
  | get name => exact lookup?_get_of_ne h w

/-- An operation on a name that does not register it asks for it, or leaves its entry as it is. -/
theorem lookup?_run_of_not_registers (h : op.registersAs n = false) :
    op = .get n ∨ ((op.asks && op.name = n) = false ∧ (op.run w).1.lookup? n = w.1.lookup? n) := by
  by_cases hn : op.name = n
  · cases op with
    | register language => simp [Operation.registersAs, Operation.registers, hn] at h
    | registerLazy name initialise => simp [Operation.registersAs, Operation.registers, hn] at h
    | contains name => exact .inr ⟨rfl, rfl⟩
    | get name => exact .inl (congrArg Operation.get hn)
  · exact .inr ⟨by simp [hn], lookup?_run_of_ne hn⟩

/-- An entry that no request changes stays until the name is registered. -/
theorem lookup?_after_of_stable {e : Option (Entry σ)}
    (hstable : ∀ w : Registry σ × σ, w.1.lookup? n = e → ((get? n).run w).2.1.lookup? n = e)
    (hops : ∀ op ∈ ops, op.registersAs n = false) (h : w.1.lookup? n = e) : (after w ops).1.lookup? n = e := by
  induction ops generalizing w with
  | nil => exact h
  | cons op ops ih =>
    obtain ⟨hop, hrest⟩ := List.forall_mem_cons.1 hops
    refine ih hrest ?_
    rcases lookup?_run_of_not_registers hop with rfl | ⟨_, hkept⟩
    · exact hstable w h
    · rw [hkept, h]

theorem lookup?_after_none (hops : ∀ op ∈ ops, op.registersAs n = false) (h : w.1.lookup? n = none) :
    (after w ops).1.lookup? n = none :=
  lookup?_after_of_stable (fun w hw => by rw [get?_of_none hw, hw]) hops h

theorem lookup?_after_ready (hops : ∀ op ∈ ops, op.registersAs n = false)
    (h : w.1.lookup? n = some (.ready language)) : (after w ops).1.lookup? n = some (.ready language) :=
  lookup?_after_of_stable (fun w hw => by rw [get?_of_ready hw, hw]) hops h

/-- An initialiser that has only failed waits for the next request, and all requests have called it. -/
theorem lookup?_after_pending (hops : ∀ op ∈ ops, op.registersAs n = false)
    (h : w.1.lookup? n = some (.pending tries initialise))
    (hfail : ∀ language, .ok (some language) ∉ answers n w ops) :
    (after w ops).1.lookup? n = some (.pending (tries + (answers n w ops).length) initialise) := by
  induction ops generalizing w tries with
  | nil => exact h
  | cons op ops ih =>
    obtain ⟨hop, hrest⟩ := List.forall_mem_cons.1 hops
    change (after (op.run w) ops).1.lookup? n = _
    rcases lookup?_run_of_not_registers (w := w) hop with rfl | ⟨hidle, hkept⟩
    · rw [answers, if_pos (by simp [Operation.asks, Operation.name])] at hfail ⊢
      have hnext : ((Operation.get n).run w).1.lookup? n = some (.pending (tries + 1) initialise) := by
        change ((get? n).run w).2.1.lookup? n = _
        rw [get?_of_pending h] at hfail ⊢
        refine (lookup?_put_self _ _ _).trans ?_
        cases hrun : ((initialise tries).run w.2).1 with
        | ok language =>
          rw [hrun] at hfail
          exact absurd List.mem_cons_self (hfail language)
        | error e => rfl
      rw [ih hrest hnext fun language hm => hfail language (List.mem_cons_of_mem _ hm), List.length_cons,
        Nat.add_right_comm, Nat.add_assoc]
    · rw [answers, if_neg (by simp [hidle])] at hfail ⊢
      exact ih hrest (hkept.trans h) hfail

theorem ready_of_get? (h : ((get? n).run w).1 = .ok (some language)) :
    ((get? n).run w).2.1.lookup? n = some (.ready language) := by
  rcases lookup?_cases w.1 n with hn | ⟨language', hn⟩ | ⟨tries, initialise, hn⟩
  · rw [get?_of_none hn] at h
    cases h
  · rw [get?_of_ready hn] at h ⊢
    cases h
    exact hn
  · rw [get?_of_pending hn] at h ⊢
    refine (lookup?_put_self _ _ _).trans ?_
    cases hrun : ((initialise tries).run w.2).1 with
    | ok language' =>
      rw [hrun] at h
      cases h
      rfl
    | error e =>
      rw [hrun] at h
      cases h

/-- The first language that is given stays. -/
theorem lookup?_after_success (hops : ∀ op ∈ ops, op.registersAs n = false)
    (hm : .ok (some language) ∈ answers n w ops) : (after w ops).1.lookup? n = some (.ready language) := by
  induction ops generalizing w with
  | nil => cases hm
  | cons op ops ih =>
    obtain ⟨hop, hrest⟩ := List.forall_mem_cons.1 hops
    change (after (op.run w) ops).1.lookup? n = _
    rcases lookup?_run_of_not_registers (w := w) hop with rfl | ⟨hidle, _⟩
    · rw [answers, if_pos (by simp [Operation.asks, Operation.name])] at hm
      rcases List.mem_cons.1 hm with hnow | hlater
      · refine lookup?_after_ready hrest ?_
        exact ready_of_get? hnow.symm
      · exact ih hrest hlater
    · rw [answers, if_neg (by simp [hidle])] at hm
      exact ih hrest hm

theorem lookup?_run_of_registers (h : op.registersAs n = true) : ((op.run w).1.lookup? n).isSome = true := by
  rw [Operation.registersAs, Bool.and_eq_true, decide_eq_true_eq] at h
  cases op with
  | register language =>
    rw [lookup?_register, if_pos (show language.name = n from h.2)]
    rfl
  | registerLazy name initialise =>
    rw [lookup?_registerLazy, if_pos (show name = n from h.2)]
    rfl
  | contains name => cases h.1
  | get name => cases h.1

theorem isSome_lookup?_run (h : (w.1.lookup? n).isSome = true) (op : Operation σ) :
    ((op.run w).1.lookup? n).isSome = true := by
  by_cases hr : op.registersAs n = true
  · exact lookup?_run_of_registers hr
  · rcases lookup?_run_of_not_registers (w := w) (by simpa using hr) with rfl | ⟨_, hkept⟩
    · change (((get? n).run w).2.1.lookup? n).isSome = true
      rcases lookup?_cases w.1 n with hn | ⟨language, hn⟩ | ⟨tries, initialise, hn⟩
      · rw [get?_of_none hn, h]
      · rw [get?_of_ready hn, h]
      · rw [get?_of_pending hn]
        exact Option.isSome_iff_exists.2 ⟨_, lookup?_put_self _ _ _⟩
    · rw [hkept, h]

theorem isSome_lookup?_after (h : (w.1.lookup? n).isSome = true) (ops : List (Operation σ)) :
    ((after w ops).1.lookup? n).isSome = true := by
  induction ops generalizing w with
  | nil => exact h
  | cons op ops ih => exact ih (isSome_lookup?_run h op)

/-- The names with an entry are those that have been registered. -/
theorem isSome_lookup?_iff (ops : List (Operation σ)) (s : σ) :
    ((after (empty, s) ops).1.lookup? n).isSome = true ↔ ∃ op ∈ ops, op.registersAs n = true := by
  constructor
  · intro h
    rw [← List.any_eq_true]
    cases hany : ops.any (·.registersAs n) with
    | true => rfl
    | false =>
      rw [List.any_eq_false] at hany
      rw [lookup?_after_none (fun op hop => by simpa using hany op hop) rfl] at h
      cases h
  · rintro ⟨op, hop, hr⟩
    obtain ⟨before, later, rfl⟩ := List.append_of_mem hop
    rw [after_append]
    exact isSome_lookup?_after (lookup?_run_of_registers hr) later

/-! ## All entries -/

/-- A property of all entries and their names. -/
def All (P : String → Entry σ → Prop) (r : Registry σ) : Prop := ∀ n e, r.lookup? n = some e → P n e

theorem All.put {P : String → Entry σ → Prop} {m : String} {e : Entry σ} (h : r.All P) (he : P m e) :
    (r.put m e).All P := by
  intro k e' hk
  rw [lookup?_put] at hk
  split at hk
  · rename_i hmk
    cases hk
    exact hmk ▸ he
  · exact h k e' hk

/-- All entries keep a property if those that an operation puts in have it. -/
theorem All.run {P : String → Entry σ → Prop} (h : w.1.All P) (hready : ∀ language, P language.name (.ready language))
    (hlazy : ∀ m initialise, op = .registerLazy m initialise → P m (.pending 0 initialise))
    (hcalled : ∀ m tries initialise, op = .get m → w.1.lookup? m = some (.pending tries initialise) →
      P m (.called tries initialise ((initialise tries).run w.2).1)) : (op.run w).1.All P := by
  cases op with
  | register language => exact h.put (hready language)
  | registerLazy m initialise => exact h.put (hlazy m initialise rfl)
  | contains m => exact h
  | get m =>
    change ((get? m).run w).2.1.All P
    rcases lookup?_cases w.1 m with hm | ⟨language, hm⟩ | ⟨tries, initialise, hm⟩
    · rw [get?_of_none hm]
      exact h
    · rw [get?_of_ready hm]
      exact h
    · rw [get?_of_pending hm]
      exact h.put (hcalled m tries initialise rfl hm)

/-! ## Names that share no state -/

section apart

variable {part : σ → τ}

/-- An initialiser for `n` sees nothing but a part of the state, and no other initialiser changes that part. -/
def Apart (part : σ → τ) (n m : String) (initialise : Initialiser σ) : Prop :=
  if m = n then initialise.Within part else initialise.Spares part

/-- An entry whose initialiser, if it has one that is waiting, keeps to its part of the state. -/
def Guarded (part : σ → τ) (n m : String) : Entry σ → Prop
  | .ready _ => True
  | .pending _ initialise => Apart part n m initialise

theorem guarded_run (h : w.1.All (Guarded part n))
    (hop : ∀ m initialise, op = .registerLazy m initialise → Apart part n m initialise) :
    (op.run w).1.All (Guarded part n) := by
  refine h.run (fun _ => trivial) hop fun m tries initialise _ hm => ?_
  have hapart : Apart part n m initialise := h m _ hm
  cases ((initialise tries).run w.2).1 with
  | ok language => trivial
  | error e => exact hapart

theorem part_run_of_ne (h : w.1.All (Guarded part n)) (hne : op.name ≠ n) : part (op.run w).2 = part w.2 := by
  cases op with
  | register language => rfl
  | registerLazy m initialise => rfl
  | contains m => rfl
  | get m =>
    change part ((get? m).run w).2.2 = _
    rcases lookup?_cases w.1 m with hm | ⟨language, hm⟩ | ⟨tries, initialise, hm⟩
    · rw [get?_of_none hm]
    · rw [get?_of_ready hm]
    · rw [get?_of_pending hm]
      have hspares : Apart part n m initialise := h m _ hm
      rw [Apart, if_neg (show m ≠ n from hne)] at hspares
      exact hspares tries w.2

/-- The entry of `n` and its part of the state are the same. -/
structure Alike (part : σ → τ) (n : String) (w w' : Registry σ × σ) : Prop where
  entry : w.1.lookup? n = w'.1.lookup? n
  state : part w.2 = part w'.2

/-- A request is answered from the entry and its part of the state. -/
theorem Alike.get (h : Alike part n w w') (hg : w.1.All (Guarded part n)) :
    ((get? n).run w).1 = ((get? n).run w').1 ∧ Alike part n ((get? n).run w).2 ((get? n).run w').2 := by
  rcases lookup?_cases w.1 n with hn | ⟨language, hn⟩ | ⟨tries, initialise, hn⟩
  · rw [get?_of_none hn, get?_of_none (h.entry ▸ hn)]
    exact ⟨rfl, h⟩
  · rw [get?_of_ready hn, get?_of_ready (h.entry ▸ hn)]
    exact ⟨rfl, h⟩
  · have hwithin : Apart part n n initialise := hg n _ hn
    rw [Apart, if_pos rfl] at hwithin
    obtain ⟨houtcome, hstate⟩ := hwithin tries w.2 w'.2 h.state
    rw [get?_of_pending hn, get?_of_pending (h.entry ▸ hn), houtcome]
    refine ⟨rfl, ⟨?_, hstate⟩⟩
    exact (lookup?_put_self _ _ _).trans (lookup?_put_self _ _ _).symm

/-- An operation on the name does the same on both sides. -/
theorem Alike.run (h : Alike part n w w') (hg : w.1.All (Guarded part n)) (hname : op.name = n) :
    Alike part n (op.run w) (op.run w') := by
  cases op with
  | register language =>
    refine ⟨?_, h.state⟩
    rw [lookup?_register, lookup?_register, h.entry]
  | registerLazy m initialise =>
    refine ⟨?_, h.state⟩
    rw [lookup?_registerLazy, lookup?_registerLazy, h.entry]
  | contains m => exact h
  | get m =>
    obtain rfl : m = n := hname
    exact (h.get hg).2

/-- Operations on other names can be left out. -/
theorem Alike.after (h : Alike part n w w') (hg : w.1.All (Guarded part n))
    (hops : ∀ m initialise, .registerLazy m initialise ∈ ops → Apart part n m initialise) :
    Alike part n (after w ops) (after w' (ops.filter fun op => op.name = n))
      ∧ (Registry.after w ops).1.All (Guarded part n) := by
  induction ops generalizing w w' with
  | nil => exact ⟨h, hg⟩
  | cons op ops ih =>
    have hrest : ∀ m initialise, .registerLazy m initialise ∈ ops → Apart part n m initialise :=
      fun m initialise hm => hops m initialise (List.mem_cons_of_mem op hm)
    have hguard : (op.run w).1.All (Guarded part n) :=
      guarded_run hg fun m initialise he => hops m initialise (he ▸ List.mem_cons_self)
    by_cases hname : op.name = n
    · rw [List.filter_cons_of_pos (by simpa using hname)]
      exact ih (h.run hg hname) hguard hrest
    · rw [List.filter_cons_of_neg (by simpa using hname)]
      refine ih ⟨?_, ?_⟩ hguard hrest
      · rw [lookup?_run_of_ne hname, h.entry]
      · rw [part_run_of_ne hg hname, h.state]

end apart

/-! ## Any sequence of operations -/

theorem state_run (h : op.asks = false) (w : Registry σ × σ) : (op.run w).2 = w.2 := by
  cases op with
  | register language => rfl
  | registerLazy m initialise => rfl
  | contains m => rfl
  | get m => cases h

theorem get?_eq_none_iff : ((get? n).run w).1 = .ok none ↔ w.1.lookup? n = none := by
  rcases lookup?_cases w.1 n with hn | ⟨language, hn⟩ | ⟨tries, initialise, hn⟩
  · rw [get?_of_none hn, hn]
    simp
  · rw [get?_of_ready hn, hn]
    simp
  · rw [get?_of_pending hn, hn]
    cases ((initialise tries).run w.2).1 <;> simp [Except.map]

/-- What is answered to a request depends on the entry and the state alone. -/
theorem get?_congr {r' : Registry σ} (h : r.lookup? n = r'.lookup? n) (s : σ) :
    ((get? n).run (r, s)).1 = ((get? n).run (r', s)).1 := by
  rcases lookup?_cases r n with hn | ⟨language, hn⟩ | ⟨tries, initialise, hn⟩
  · rw [get?_of_none (w := (r, s)) hn, get?_of_none (w := (r', s)) (h ▸ hn)]
  · rw [get?_of_ready (w := (r, s)) hn, get?_of_ready (w := (r', s)) (h ▸ hn)]
  · rw [get?_of_pending (w := (r, s)) hn, get?_of_pending (w := (r', s)) (h ▸ hn)]

/-- **A language is initialised lazily, at most once, and again only after a failure.** Whatever has been done to an
empty registry: a name is unknown as long as nothing has been registered under it. A language that was registered last
is given without touching the state. An initialiser that was registered last is called by each request for its name, on
the state as it is then and told the number of the requests before, until it gives a language; the outcome is answered
as it is. From then on that language is given, again without touching the state. No other operation touches the state,
and operations on other names change nothing about the answer that any state would give. So if the initialisers for
the name have a part of the state for their own, all operations on other names can be left out. -/
theorem initialised_once (ops : List (Operation σ)) (s : σ) (n : String) :
    (((get? n).run (after (empty, s) ops)).1 = .ok none ↔ ∀ op ∈ ops, op.registersAs n = false)
    ∧ ((after (empty, s) ops).1.contains n = true ↔ ∃ op ∈ ops, op.registersAs n = true)
    ∧ (∀ before later language, ops = before ++ .register language :: later → language.name = n →
      (∀ op ∈ later, op.registersAs n = false) →
      (get? n).run (after (empty, s) ops) = (.ok (some language), after (empty, s) ops))
    ∧ (∀ before later initialise tried, ops = before ++ .registerLazy n initialise :: later →
      (∀ op ∈ later, op.registersAs n = false) →
      tried = answers n (after (empty, s) (before ++ [.registerLazy n initialise])) later →
      ((∀ language, .ok (some language) ∉ tried) → ∃ r,
        (get? n).run (after (empty, s) ops) = (((initialise tried.length).run (after (empty, s) ops).2).1.map some,
          r, ((initialise tried.length).run (after (empty, s) ops).2).2))
      ∧ ∀ language, .ok (some language) ∈ tried →
        (get? n).run (after (empty, s) ops) = (.ok (some language), after (empty, s) ops))
    ∧ (∀ op : Operation σ, op.asks = false → (op.run (after (empty, s) ops)).2 = (after (empty, s) ops).2)
    ∧ (∀ op : Operation σ, op.name ≠ n → ∀ s',
      ((get? n).run ((op.run (after (empty, s) ops)).1, s')).1 = ((get? n).run ((after (empty, s) ops).1, s')).1)
    ∧ ∀ (τ : Type) (part : σ → τ),
      (∀ m initialise, .registerLazy m initialise ∈ ops → Apart part n m initialise) →
      ((get? n).run (after (empty, s) ops)).1
        = ((get? n).run (after (empty, s) (ops.filter fun op => op.name = n))).1 := by
  refine ⟨?_, ?_, ?_, ?_, fun op hop => state_run hop _, fun op hop s' => ?_, fun τ part hops => ?_⟩
  · rw [get?_eq_none_iff, ← Option.not_isSome_iff_eq_none, isSome_lookup?_iff]
    simp
  · exact isSome_lookup?_iff ops s
  · rintro before later language rfl hname hlater
    refine get?_of_ready ?_
    rw [after_append]
    change (after ((Operation.register language).run (after (empty, s) before)) later).1.lookup? n = _
    exact lookup?_after_ready hlater ((lookup?_register _ _ _).trans (if_pos hname))
  · rintro before later initialise tried rfl hlater rfl
    have hstart : (after (empty, s) (before ++ [.registerLazy n initialise])).1.lookup? n
        = some (.pending 0 initialise) := by
      rw [after_append]
      exact (lookup?_registerLazy _ _ _ _).trans (if_pos rfl)
    have hsplit : after (empty, s) (before ++ .registerLazy n initialise :: later)
        = after (after (empty, s) (before ++ [.registerLazy n initialise])) later := by
      rw [← after_append, List.append_assoc, List.singleton_append]
    rw [hsplit]
    constructor
    · intro hfail
      have hwaiting := lookup?_after_pending hlater hstart hfail
      rw [Nat.zero_add] at hwaiting
      exact ⟨_, get?_of_pending hwaiting⟩
    · intro language hm
      exact get?_of_ready (lookup?_after_success hlater hm)
  · exact get?_congr (lookup?_run_of_ne hop) s'
  · have hstart : (empty : Registry σ).All (Guarded part n) := fun m e hm => by cases hm
    have hsame : Alike part n ((empty : Registry σ), s) (empty, s) := ⟨rfl, rfl⟩
    obtain ⟨halike, hguard⟩ := hsame.after hstart hops
    exact (halike.get hguard).1

def exampleLanguage : BaseLanguage where
  profile := ⟨"x", "xb", "b", none, none, .flat, .empty, .empty, .empty, ⟨⟨"p/bin"⟩, "x"⟩⟩
  plugin := ⟨⟨"p"⟩⟩
  freshness := .stale

/-- An initialiser that fails at first, and counts its calls. -/
def flaky : Initialiser Nat
  | 0, calls => (.error (.external (.other "process") (.text "crash")), calls + 1)
  | _ + 1, calls => (.ok exampleLanguage, calls + 1)

/-- After a failure and a success the language is given without a third call, whatever is done under other names. -/
theorem initialised_once_flaky : ∃ r : Registry Nat,
    after (empty, 0) [.registerLazy "y" flaky, .get "y", .contains "y", .get "z", .get "y", .registerLazy "z" flaky]
      = (r, 2)
    ∧ (get? "y").run (r, 2) = (.ok (some exampleLanguage), (r, 2)) := by
  obtain ⟨_, _, _, hlazy, _⟩ := initialised_once
    [.registerLazy "y" flaky, .get "y", .contains "y", .get "z", .get "y", .registerLazy "z" flaky] 0 "y"
  obtain ⟨_, hready⟩ := hlazy [] [.get "y", .contains "y", .get "z", .get "y", .registerLazy "z" flaky] flaky _ rfl
    (by decide) rfl
  exact ⟨_, rfl, hready exampleLanguage (.tail _ (.head _))⟩

/-! ## Names -/

/-- An entry whose language, if it is ready, has the name of the entry. -/
def Named (n : String) : Entry σ → Prop
  | .ready language => language.name = n
  | .pending .. => True

/-- Whenever an initialiser is called in the course of some operations, what it gives has the name that is asked for. -/
def NamedByInitialisers (w : Registry σ × σ) (ops : List (Operation σ)) : Prop :=
  ∀ before m later tries initialise language, ops = before ++ .get m :: later →
    (after w before).1.lookup? m = some (.pending tries initialise) →
    ((initialise tries).run (after w before).2).1 = .ok language → language.name = m

/-- Names stay right unless an initialiser gives a language of another name. -/
theorem named_after (h : w.1.All Named) (hops : NamedByInitialisers w ops) : (after w ops).1.All Named := by
  induction ops generalizing w with
  | nil => exact h
  | cons op ops ih =>
    refine ih (h.run (fun _ => rfl) (fun _ _ _ => trivial) fun m tries initialise hop hm => ?_) ?_
    · cases hrun : ((initialise tries).run w.2).1 with
      | ok language => exact hops [] m ops tries initialise language (by rw [hop, List.nil_append]) hm hrun
      | error e => trivial
    · rintro before m later tries initialise language rfl
      exact hops (op :: before) m later tries initialise language rfl

/-- **A registry answers with languages of the names that it is asked for exactly if its initialisers give such
languages.** A registered language has the name of its entry, but nothing is asked of the name of a language that an
initialiser gives. -/
theorem named_iff (ops : List (Operation σ)) (s : σ) :
    (∀ before m later language, ops = before ++ .get m :: later →
      ((get? m).run (after (empty, s) before)).1 = .ok (some language) → language.name = m)
    ↔ NamedByInitialisers (empty, s) ops := by
  constructor
  · intro h before m later tries initialise language hops hm hrun
    refine h before m later language hops ?_
    rw [get?_of_pending hm, hrun]
    rfl
  · intro h before m later language hops hget
    have hnamed : (after (empty, s) before).1.All Named := by
      refine named_after (fun n e hn => by cases hn) ?_
      rintro before' m' later' tries initialise language' rfl
      exact h before' m' (later' ++ .get m :: later) tries initialise language' (by simp [hops])
    rcases lookup?_cases (after (empty, s) before).1 m with hm | ⟨language', hm⟩ | ⟨tries, initialise, hm⟩
    · rw [get?_of_none hm] at hget
      cases hget
    · rw [get?_of_ready hm] at hget
      cases hget
      exact hnamed m _ hm
    · rw [get?_of_pending hm] at hget
      cases hrun : ((initialise tries).run (after (empty, s) before).2).1 with
      | ok language' =>
        rw [hrun] at hget
        cases hget
        exact h before m later tries initialise _ hops hm hrun
      | error e =>
        rw [hrun] at hget
        cases hget

/-- A language that is registered under another name is given under that name. -/
theorem not_always_named : ¬ ∀ (ops : List (Operation Unit)) (n : String) (language : BaseLanguage),
    ((get? n).run (after (empty, ()) ops)).1 = .ok (some language) → language.name = n := by
  intro h
  have hname := h [.registerLazy "y" fun _ => pure exampleLanguage] "y" exampleLanguage rfl
  exact absurd hname (by decide)

end Registry

end BaseLang
