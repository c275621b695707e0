/-!
# Actions

Computations that change a state and may fail. A failure keeps the state that it has reached.

* `Action σ ε α` : an action on states `σ` with failures `ε` and results `α`;
* `Action.query`, `Action.update`, `Action.ofExcept` : actions that only look at the state, only change
  it, or do neither;
* `Action.mapFailure`, `Action.attempt` : failures renamed, or turned into results;
* `Action.within` : an action on a part of the state;
* `bind_of_ok`, `bind_of_error` : an action in sequence, by the outcome of the first one;
* `query_bind` : a look at the state, and what follows it;
* `bind_eq_ok`, `mapFailure_eq_ok`, `update_eq_ok` : an action that succeeds, taken apart;
* `bind_bind` : three actions in sequence.
-/

namespace BaseLang

/-- A computation on a state that may fail. -/
def Action (σ ε α : Type) : Type := σ → Except ε α × σ

namespace Action

variable {σ τ ε ε' α β : Type}

def run (a : Action σ ε α) (s : σ) : Except ε α × σ := a s

def done (v : α) : Action σ ε α := fun s => (.ok v, s)

/-- Fails without changing the state. -/
def fail (e : ε) : Action σ ε α := fun s => (.error e, s)

/-- One action, and then the one that its result selects, unless it fails. -/
def andThen (a : Action σ ε α) (f : α → Action σ ε β) : Action σ ε β := fun s =>
  match a s with
  | (.ok v, s) => f v s
  | (.error e, s) => (.error e, s)

instance : Monad (Action σ ε) where
  pure := done
  bind := andThen

instance : MonadExcept ε (Action σ ε) where
  throw := fail
  tryCatch a handle := fun s =>
    match a s with
    | (.ok v, s) => (.ok v, s)
    | (.error e, s) => handle e s

def query (f : σ → Except ε α) : Action σ ε α := fun s => (f s, s)

/-- Changes the state, unless this fails. -/
def update (f : σ → Except ε σ) : Action σ ε Unit := fun s =>
  match f s with
  | .ok s' => (.ok (), s')
  | .error e => (.error e, s)

def modify (f : σ → σ) : Action σ ε Unit := fun s => (.ok (), f s)

/-- A result that does not depend on the state. -/
def ofExcept (x : Except ε α) : Action σ ε α := fun s => (x, s)

def mapFailure (f : ε → ε') (a : Action σ ε α) : Action σ ε' α := fun s =>
  ((a s).1.mapError f, (a s).2)

/-- The same action, with a failure as a result. -/
def attempt (a : Action σ ε α) : Action σ ε' (Except ε α) := fun s => (.ok (a s).1, (a s).2)

/-- An action on the part of the state that `view` shows and `put` replaces. -/
def within (view : τ → σ) (put : σ → τ → τ) (a : Action σ ε α) : Action τ ε α := fun t =>
  ((a (view t)).1, put (a (view t)).2 t)

@[simp] theorem pure_run (v : α) (s : σ) : (pure v : Action σ ε α).run s = (.ok v, s) := rfl

theorem bind_of_ok {a : Action σ ε α} {s s' : σ} {v : α} (h : a.run s = (.ok v, s'))
    (f : α → Action σ ε β) : (a >>= f).run s = (f v).run s' := by
  change andThen a f s = f v s'
  rw [andThen, show a s = (.ok v, s') from h]

theorem bind_of_error {a : Action σ ε α} {s s' : σ} {e : ε} (h : a.run s = (.error e, s'))
    (f : α → Action σ ε β) : (a >>= f).run s = (.error e, s') := by
  change andThen a f s = _
  rw [andThen, show a s = (.error e, s') from h]

theorem query_bind (f : σ → Except ε α) (g : α → Action σ ε β) (s : σ) : (query f >>= g).run s =
    match f s with
    | .ok v => (g v).run s
    | .error e => (.error e, s) := by
  change andThen (query f) g s = _
  rw [andThen, query]
  cases f s <;> rfl

theorem bind_eq_ok {a : Action σ ε α} {f : α → Action σ ε β} {s s'' : σ} {v : β}
    (h : (a >>= f).run s = (.ok v, s'')) :
    ∃ u s', a.run s = (.ok u, s') ∧ (f u).run s' = (.ok v, s'') := by
  cases ha : a.run s with
  | mk outcome s' =>
    cases outcome with
    | ok u => exact ⟨u, s', rfl, by rwa [bind_of_ok ha] at h⟩
    | error e => simp [bind_of_error ha] at h

/-- What succeeds under other names for its failures succeeds without them. -/
theorem mapFailure_eq_ok {f : ε → ε'} {a : Action σ ε α} {s s' : σ} {v : α}
    (h : (a.mapFailure f).run s = (.ok v, s')) : a.run s = (.ok v, s') := by
  change ((a s).1.mapError f, (a s).2) = _ at h
  change a s = _
  cases ha : a s with
  | mk outcome s₁ =>
    rw [ha] at h
    cases outcome with
    | error e => cases h
    | ok u =>
      cases h
      rfl

theorem update_eq_ok {f : σ → Except ε σ} {s s' : σ} (h : (update f).run s = (.ok (), s')) : f s = .ok s' := by
  change update f s = _ at h
  rw [update] at h
  split at h
  · rename_i hf
    cases h
    exact hf
  · cases h

theorem bind_bind {γ : Type} (a : Action σ ε α) (f : α → Action σ ε β) (g : β → Action σ ε γ) :
    (a >>= f) >>= g = a >>= fun v => f v >>= g := by
  funext s
  change andThen (andThen a f) g s = andThen a (fun v => andThen (f v) g) s
  rw [andThen, andThen, andThen]
  split
  · rename_i h
    split at h
    · rw [andThen, h]
    · cases h
  · rename_i h
    split at h
    · rw [andThen, h]
    · cases h
      rfl

end Action

end BaseLang
