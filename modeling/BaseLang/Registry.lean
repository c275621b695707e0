import BaseLang.Plugin

/-!
# Registries

Base languages by name, some of which are only processed when they are first asked for.

* `Registry.Entry` : a language, or the way to get it;
* `Registry.register`, `Registry.registerLazy` : a new entry in the place of an older one of its name;
* `Registry.get?` : the language with a name. It is initialised when it is first asked for, and again as
  long as that fails.

The initialisers act on a state `σ` and are told how often they have been tried before.
-/

namespace BaseLang

/-- A way to get a language: one that has been tried some number of times may do something else. -/
abbrev Initialiser (σ : Type) := (attempts : Nat) → Action σ ProcessError BaseLanguage

/-- A processed language, or a way to get one that has been tried some number of times. -/
inductive Registry.Entry (σ : Type) where
  | ready (language : BaseLanguage)
  | pending (attempts : Nat) (initialise : Initialiser σ)

/-- The languages that are known by name, in the order in which the names were first registered. -/
structure Registry (σ : Type) where
  entries : Table String (Registry.Entry σ)

namespace Registry

variable {σ : Type}

def empty : Registry σ := ⟨.empty⟩

def put (r : Registry σ) (name : String) (e : Entry σ) : Registry σ := ⟨r.entries.insert name e⟩

/-- Puts in a processed language under its own name. -/
def register (r : Registry σ) (language : BaseLanguage) : Registry σ :=
  r.put language.name (.ready language)

/-- Puts in a language that is still to be processed. -/
def registerLazy (r : Registry σ) (name : String) (initialise : Initialiser σ) : Registry σ :=
  r.put name (.pending 0 initialise)

def contains (r : Registry σ) (name : String) : Bool := r.entries.contains name

/-- An entry that is asked for, and what comes of it. -/
def Entry.demand : Entry σ → σ → Except ProcessError BaseLanguage × Entry σ × σ
  | ready language, s => (.ok language, ready language, s)
  | pending attempts initialise, s =>
    match (initialise attempts).run s with
    | (.ok language, s) => (.ok language, ready language, s)
    | (.error e, s) => (.error e, pending (attempts + 1) initialise, s)

/-- The language with a name, if it has been registered. -/
def get? (name : String) : Action (Registry σ × σ) ProcessError (Option BaseLanguage) := fun (r, s) =>
  match r.entries.get? name with
  | none => (.ok none, r, s)
  | some e =>
    let (outcome, e, s) := e.demand s
    (outcome.map some, r.put name e, s)

end Registry

end BaseLang
