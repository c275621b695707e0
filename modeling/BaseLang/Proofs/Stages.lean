import BaseLang.Proofs.Repetition

/-!
# Where a regeneration stops

* `Plan` : named steps one after another, of which each selects those that follow;
* `Plan.Ends` : which steps of a plan succeed, and which one then fails. `Plan.exists_ends` : every run of a plan ends
  so;
* `Plan.Named`, `Plan.Logs` : the names of the steps of a plan, and what each of them puts down;
* `Stage`, `Regeneration.plan` : the steps of a regeneration. `run_plan` : it is nothing but these steps;
* `Stage.events`, `events_of_ends` : what has been put down when a regeneration stops;
* `Regeneration.Stopped`, `stopped_of_ends` : what a regeneration has done when it stops;
* `process_stops` : a run that finds the artifacts stale stops at the first step that fails.
-/

namespace BaseLang

open FileSystem

namespace Action

variable {σ ε α : Type}

theorem bind_pure (a : Action σ ε α) : (a >>= fun v => pure v) = a := by
  funext s
  change andThen a (fun v => done v) s = a s
  rw [andThen]
  split
  · rename_i h
    exact h.symm
  · rename_i h
    exact h.symm

end Action

/-! ## Plans -/

inductive Stage where
  | generate
  | accept
  | parse (kind : ModuleKind)
  | profile
  | rewriteImports (kind : ModuleKind)
  | connect
  | normalize
  | print (kind : ModuleKind)
  | prettyTable
  | write (a : Artifact)
  deriving DecidableEq

/-- Named steps, one after another. What a step gives selects the steps behind it. -/
inductive Plan (α : Type) : Type 1 where
  | done (v : α)
  | stage {β : Type} (name : Stage) (step : Step β) (next : β → Plan α)

namespace Plan

variable {α β : Type}

def run : Plan α → Step α
  | .done v => pure v
  | .stage _ step next => step >>= fun v => (next v).run

/-- A plan, and then the one that its result selects. -/
def andThen (p : Plan α) (f : α → Plan β) : Plan β :=
  match p with
  | .done v => f v
  | .stage name step next => .stage name step fun v => (next v).andThen f

theorem run_andThen (p : Plan α) (f : α → Plan β) : (p.andThen f).run = p.run >>= fun v => (f v).run := by
  induction p with
  | done v => rfl
  | stage name step next ih =>
    simp only [andThen, run, Action.bind_bind, ih]

/-- From `s`, the stages of `done` succeed one after another. Then there are no more stages, and the plan has its result,
or the next one fails, and the run stops there with the error of that stage. -/
inductive Ends : Plan α → Run → List Stage → Except (Stage × ProcessError) α → Run → Prop where
  | done (v : α) (s : Run) : Ends (.done v) s [] (.ok v) s
  | fails {γ : Type} {name : Stage} {step : Step γ} {next : γ → Plan α} {s s' : Run} {e : ProcessError}
    (failed : step.run s = (.error e, s')) : Ends (.stage name step next) s [] (.error (name, e)) s'
  | succeeds {γ : Type} {name : Stage} {step : Step γ} {next : γ → Plan α} {s s₁ s' : Run} {v : γ}
    {done : List Stage} {result : Except (Stage × ProcessError) α} (passed : step.run s = (.ok v, s₁))
    (rest : Ends (next v) s₁ done result s') : Ends (.stage name step next) s (name :: done) result s'

def failed : Except (Stage × ProcessError) α → List Stage
  | .ok _ => []
  | .error e => [e.1]

/-- Every run of a plan ends. -/
theorem exists_ends (p : Plan α) (s : Run) : ∃ done result s', p.Ends s done result s' := by
  induction p generalizing s with
  | done v => exact ⟨[], .ok v, s, .done v s⟩
  | stage name step next ih =>
    cases hrun : step.run s with
    | mk outcome s₁ =>
      cases outcome with
      | error e => exact ⟨[], .error (name, e), s₁, .fails hrun⟩
      | ok v =>
        obtain ⟨done, result, s', h⟩ := ih v s₁
        exact ⟨name :: done, result, s', .succeeds hrun h⟩

namespace Ends

variable {p : Plan α} {s s' : Run} {done names : List Stage} {result : Except (Stage × ProcessError) α}

/-- The error of a plan is the one of the stage that has failed. -/
theorem run_eq (h : p.Ends s done result s') : p.run.run s = (result.mapError Prod.snd, s') := by
  induction h with
  | done v s => rfl
  | fails failed =>
    rw [run, Action.bind_of_error failed]
    rfl
  | succeeds passed _ ih =>
    rw [run, Action.bind_of_ok passed]
    exact ih

end Ends

/-! ### Names and records -/

/-- Whatever the steps of a plan give, these are their names. -/
def Named : Plan α → List Stage → Prop
  | .done _, names => names = []
  | .stage _ _ _, [] => False
  | .stage name _ next, first :: names => name = first ∧ ∀ v, (next v).Named names

theorem Named.andThen {p : Plan α} {f : α → Plan β} {names names' : List Stage} (hp : p.Named names)
    (hf : ∀ v, (f v).Named names') : (p.andThen f).Named (names ++ names') := by
  induction p generalizing names with
  | done v =>
    obtain rfl : names = [] := hp
    exact hf v
  | stage name step next ih =>
    cases names with
    | nil => exact hp.elim
    | cons first names => exact ⟨hp.1, fun v => ih v (hp.2 v)⟩

/-- The stages of a plan are passed in their order, and all of them exactly if the plan has a result. -/
theorem Ends.order {p : Plan α} {s s' : Run} {done names : List Stage} {result : Except (Stage × ProcessError) α}
    (h : p.Ends s done result s') (hn : p.Named names) :
    done ++ failed result <+: names ∧ ((∃ v, result = .ok v) ↔ done = names) := by
  induction h generalizing names with
  | done v s =>
    obtain rfl : names = [] := hn
    simp [failed]
  | fails =>
    cases names with
    | nil => exact hn.elim
    | cons first names =>
      obtain ⟨rfl, _⟩ := hn
      simp [failed]
  | succeeds _ _ ih =>
    cases names with
    | nil => exact hn.elim
    | cons first names =>
      obtain ⟨rfl, hnext⟩ := hn
      obtain ⟨hbegin, hall⟩ := ih (hnext _)
      simp [hbegin, hall]

end Plan

def Event.isCall (e : Event) : Bool := e.artifact?.isNone

/-- A step that puts down `events`, or only the calls among them if it fails. -/
def Step.Logs {α : Type} (events : List Event) (a : Step α) : Prop := ∀ s,
  (∀ v s', a.run s = (.ok v, s') → s'.events = s.events ++ events)
  ∧ ∀ e s', a.run s = (.error e, s') → s'.events = s.events ++ events.filter Event.isCall

namespace Step

variable {α : Type}

theorem logs_of_call {e : Event} {a : Step α} (he : e.isCall = true) (h : ∀ s, (a.run s).2.events = s.events ++ [e]) :
    Logs [e] a := by
  intro s
  have hs := h s
  refine ⟨fun v s' hrun => ?_, fun err s' hrun => ?_⟩
  · rwa [hrun] at hs
  · rw [hrun] at hs
    simpa [he] using hs

theorem logs_of_same {a : Step α} (h : ∀ s, (a.run s).2 = s) : Logs [] a := by
  intro s
  have hs := h s
  refine ⟨fun v s' hrun => ?_, fun err s' hrun => ?_⟩
  · rw [hrun] at hs
    simp [← hs]
  · rw [hrun] at hs
    simp [← hs]

theorem logs_ofExcept (x : Except ProcessError α) : Logs [] (Action.ofExcept x : Step α) := logs_of_same fun _ => rfl

theorem logs_write (as : Artifacts) (a : Artifact) (text : String) : Logs [.written a] (write as a text) := by
  intro s
  rw [write_run]
  cases hw : s.files.write (as.path a) text.toUTF8 with
  | error e =>
    refine ⟨fun v s' h => ?_, fun e s' h => ?_⟩
    · cases h
    · cases h
      simp [Event.isCall, Event.artifact?]
  | ok files =>
    refine ⟨fun v s' h => ?_, fun e s' h => ?_⟩
    · cases h
      rfl
    · cases h

end Step

namespace Plan

variable {α β : Type} {events : Stage → List Event}

/-- What the steps of a plan put down, by their names. -/
def Logs (events : Stage → List Event) : Plan α → Prop
  | .done _ => True
  | .stage name step next => Step.Logs (events name) step ∧ ∀ v, (next v).Logs events

theorem Logs.andThen {p : Plan α} {f : α → Plan β} (hp : p.Logs events) (hf : ∀ v, (f v).Logs events) :
    (p.andThen f).Logs events := by
  induction p with
  | done v => exact hf v
  | stage name step next ih => exact ⟨hp.1, fun v => ih v (hp.2 v)⟩

/-- What has been put down when a plan ends: all of the stages that have succeeded, and the call of the one that has
failed. -/
theorem Ends.events_eq {p : Plan α} {s s' : Run} {done : List Stage} {result : Except (Stage × ProcessError) α}
    (h : p.Ends s done result s') (hp : p.Logs events) :
    s'.events = s.events ++ done.flatMap events ++ ((failed result).flatMap events).filter Event.isCall := by
  induction h with
  | done v s => simp [failed]
  | fails hfailed =>
    simp [failed, (hp.1 _).2 _ _ hfailed]
  | succeeds passed _ ih =>
    rw [ih (hp.2 _), (hp.1 _).1 _ _ passed]
    simp

end Plan

/-! ## Regenerations -/

def Generated.file (raw : Generated) : ModuleKind → Path
  | .grammar => raw.grammar
  | .transformation => raw.transformation

namespace Stage

def all : List Stage :=
  [.generate, .accept, .parse .transformation, .profile, .rewriteImports .transformation, .print .transformation,
   .write .transformation, .parse .grammar, .rewriteImports .grammar, .connect, .normalize, .print .grammar,
   .write .grammar, .write .editorServices, .write .packagedGrammar, .prettyTable, .write .prettyTable]

/-- What a stage puts down when the generator has left behind the modules `raw`. -/
def events (r : Regeneration) (raw : Generated) : Stage → List Event
  | .generate => [.generate r.definition r.language r.artifacts.dir]
  | .parse kind => [.parse (r.table kind) (raw.file kind) kind.startSymbol]
  | .normalize => [.normalize]
  | .print kind => [.print kind]
  | .prettyTable => [.prettyTable]
  | .write a => [.written a]
  | .accept | .profile | .rewriteImports _ | .connect => []

theorem written_mem_events {r : Regeneration} {raw : Generated} {stage : Stage} {a : Artifact} :
    .written a ∈ stage.events r raw ↔ stage = .write a := by
  cases stage with
  | write b => simp [events, eq_comm]
  | _ => simp [events]

end Stage

namespace Regeneration

variable {r : Regeneration} {raw : Generated} {before : FileSystem} {s s' : Run} {done : List Stage}
  {result : Except (Stage × ProcessError) Profile}

def calls (r : Regeneration) (raw : Generated) : List Event :=
  [.generate r.definition r.language r.artifacts.dir,
   .parse (r.table .transformation) raw.transformation ModuleKind.transformation.startSymbol, .print .transformation,
   .parse (r.table .grammar) raw.grammar ModuleKind.grammar.startSymbol, .normalize, .print .grammar, .prettyTable]

/-- Fails if the generator has something to say against the definition. -/
def accept (r : Regeneration) (raw : Generated) : Step Unit :=
  if raw.errors ≠ [] then throw (.definition r.language raw.errors) else pure ()

def derivePrettyTable (r : Regeneration) (module : Term) : Step String := do
  Step.record .prettyTable
  .ofExcept (r.toolchain.prettyTable module)

def transformationPlan (r : Regeneration) (file : Path) : Plan Profile :=
  .stage (.parse .transformation) (r.parse .transformation file) fun module =>
  .stage .profile (r.profile module) fun profile =>
  .stage (.rewriteImports .transformation)
    (Step.ofShape (ModuleKind.transformation.rewriteImports module (r.canonical .transformation))) fun module =>
  .stage (.print .transformation) (r.print .transformation module) fun text =>
  .stage (.write .transformation) (Step.write r.artifacts .transformation text) fun _ =>
  .done profile

def grammarPlan (r : Regeneration) (profile : Profile) (file : Path) : Plan (Term × String) :=
  .stage (.parse .grammar) (r.parse .grammar file) fun module =>
  .stage (.rewriteImports .grammar)
    (Step.ofShape (ModuleKind.grammar.rewriteImports module (r.canonical .grammar))) fun module =>
  .stage .connect (Step.ofShape (r.connect profile module)) fun module =>
  .stage .normalize (r.normalize module) fun module =>
  .stage (.print .grammar) (r.print .grammar module) fun text =>
  .stage (.write .grammar) (Step.write r.artifacts .grammar text) fun _ =>
  .done (module, text)

def derivedPlan (r : Regeneration) (module : Term) (text : String) : Plan Unit :=
  .stage (.write .editorServices) (Step.write r.artifacts .editorServices (editorServices r.language)) fun _ =>
  .stage (.write .packagedGrammar) (Step.write r.artifacts .packagedGrammar (preamble ++ text)) fun _ =>
  .stage .prettyTable (r.derivePrettyTable module) fun table =>
  .stage (.write .prettyTable) (Step.write r.artifacts .prettyTable table) fun written =>
  .done written

def concludingPlan (r : Regeneration) (raw : Generated) : Plan Profile :=
  .stage .accept (r.accept raw) fun _ =>
  (r.transformationPlan raw.transformation).andThen fun profile =>
  (r.grammarPlan profile raw.grammar).andThen fun written =>
  (r.derivedPlan written.1 written.2).andThen fun _ =>
  .done profile

def plan (r : Regeneration) : Plan Profile := .stage .generate r.generate r.concludingPlan

theorem run_transformationPlan (r : Regeneration) (file : Path) :
    (r.transformationPlan file).run = r.transformation file := rfl

theorem run_grammarPlan (r : Regeneration) (profile : Profile) (file : Path) :
    (r.grammarPlan profile file).run = r.grammar profile file := rfl

theorem run_derivedPlan (r : Regeneration) (module : Term) (text : String) :
    (r.derivedPlan module text).run = r.derived module text := by
  simp only [derivedPlan, Plan.run, Action.bind_pure, derivePrettyTable, Action.bind_bind]
  rfl

theorem run_concludingPlan (r : Regeneration) (raw : Generated) : (r.concludingPlan raw).run = r.conclude raw := by
  simp only [concludingPlan, Plan.run, Plan.run_andThen, run_transformationPlan, run_grammarPlan, run_derivedPlan]
  rw [conclude, accept]
  split
  · rfl
  · rfl

/-- A regeneration is nothing but its stages. -/
theorem run_plan (r : Regeneration) : r.plan.run = r.regenerate := by
  rw [plan, Plan.run, regenerate_eq]
  simp only [run_concludingPlan]

/-! ### Names and records -/

theorem named_transformationPlan (r : Regeneration) (file : Path) : (r.transformationPlan file).Named
    [.parse .transformation, .profile, .rewriteImports .transformation, .print .transformation,
     .write .transformation] :=
  ⟨rfl, fun _ => ⟨rfl, fun _ => ⟨rfl, fun _ => ⟨rfl, fun _ => ⟨rfl, fun _ => rfl⟩⟩⟩⟩⟩

theorem named_grammarPlan (r : Regeneration) (profile : Profile) (file : Path) : (r.grammarPlan profile file).Named
    [.parse .grammar, .rewriteImports .grammar, .connect, .normalize, .print .grammar, .write .grammar] :=
  ⟨rfl, fun _ => ⟨rfl, fun _ => ⟨rfl, fun _ => ⟨rfl, fun _ => ⟨rfl, fun _ => ⟨rfl, fun _ => rfl⟩⟩⟩⟩⟩⟩

theorem named_derivedPlan (r : Regeneration) (module : Term) (text : String) : (r.derivedPlan module text).Named
    [.write .editorServices, .write .packagedGrammar, .prettyTable, .write .prettyTable] :=
  ⟨rfl, fun _ => ⟨rfl, fun _ => ⟨rfl, fun _ => ⟨rfl, fun _ => rfl⟩⟩⟩⟩

theorem named_plan (r : Regeneration) : r.plan.Named Stage.all := by
  refine ⟨rfl, fun raw => ⟨rfl, fun _ => ?_⟩⟩
  refine (named_transformationPlan r raw.transformation).andThen fun profile => ?_
  refine (named_grammarPlan r profile raw.grammar).andThen fun written => ?_
  have hdone (profile : Profile) : (Plan.done profile).Named [] := rfl
  exact (named_derivedPlan r written.1 written.2).andThen fun _ => hdone profile

theorem logs_parse (r : Regeneration) (kind : ModuleKind) (file : Path) :
    Step.Logs [.parse (r.table kind) file kind.startSymbol] (r.parse kind file) :=
  Step.logs_of_call rfl fun _ => rfl

theorem logs_print (r : Regeneration) (kind : ModuleKind) (module : Term) : Step.Logs [.print kind] (r.print kind module) :=
  Step.logs_of_call rfl fun _ => rfl

theorem logs_accept (r : Regeneration) (raw : Generated) : Step.Logs [] (r.accept raw) := by
  refine Step.logs_of_same fun s => ?_
  rw [accept]
  split
  · rfl
  · rfl

theorem logs_transformationPlan (r : Regeneration) (raw : Generated) :
    (r.transformationPlan raw.transformation).Logs (Stage.events r raw) := by
  refine ⟨logs_parse r .transformation raw.transformation, fun module => ?_⟩
  refine ⟨Step.logs_ofExcept _, fun profile => ⟨Step.logs_ofExcept _, fun module => ?_⟩⟩
  refine ⟨logs_print r .transformation module, fun text => ?_⟩
  exact ⟨Step.logs_write r.artifacts .transformation text, fun _ => trivial⟩

theorem logs_grammarPlan (r : Regeneration) (raw : Generated) (profile : Profile) :
    (r.grammarPlan profile raw.grammar).Logs (Stage.events r raw) := by
  refine ⟨logs_parse r .grammar raw.grammar, fun module => ?_⟩
  refine ⟨Step.logs_ofExcept _, fun module => ⟨Step.logs_ofExcept _, fun module => ?_⟩⟩
  refine ⟨Step.logs_of_call rfl fun _ => rfl, fun module => ?_⟩
  refine ⟨logs_print r .grammar module, fun text => ?_⟩
  exact ⟨Step.logs_write r.artifacts .grammar text, fun _ => trivial⟩

theorem logs_derivedPlan (r : Regeneration) (raw : Generated) (module : Term) (text : String) :
    (r.derivedPlan module text).Logs (Stage.events r raw) := by
  refine ⟨Step.logs_write r.artifacts .editorServices _, fun _ => ?_⟩
  refine ⟨Step.logs_write r.artifacts .packagedGrammar _, fun _ => ?_⟩
  refine ⟨Step.logs_of_call rfl fun _ => rfl, fun table => ?_⟩
  exact ⟨Step.logs_write r.artifacts .prettyTable table, fun _ => trivial⟩

theorem logs_concludingPlan (r : Regeneration) (raw : Generated) :
    (r.concludingPlan raw).Logs (Stage.events r raw) := by
  refine ⟨logs_accept r raw, fun _ => ?_⟩
  refine (logs_transformationPlan r raw).andThen fun profile => ?_
  refine (logs_grammarPlan r raw profile).andThen fun written => ?_
  exact (logs_derivedPlan r raw written.1 written.2).andThen fun _ => trivial

/-! ### Regenerations that stop -/

/-- What the generator leaves behind: the modules or an error, and the files. -/
def generated (r : Regeneration) (files : FileSystem) : Except ProcessError Generated × FileSystem :=
  (r.toolchain.generate r.definition r.language r.artifacts.dir).run files

/-- A regeneration behind the generator. -/
def begun (r : Regeneration) (files : FileSystem) : Run :=
  ⟨(r.generated files).2, [.generate r.definition r.language r.artifacts.dir]⟩

/-- What a regeneration has put down when it stops: everything of the stages that have succeeded, and the call of the one
that has failed. -/
theorem events_of_ends (h : r.plan.Ends s done result s')
    (hraw : ∀ v, (r.generated s.files).1 = .ok v → v = raw) :
    s'.events = s.events ++ done.flatMap (Stage.events r raw)
      ++ ((Plan.failed result).flatMap (Stage.events r raw)).filter Event.isCall := by
  have hlogs : Step.Logs (Stage.events r raw .generate) r.generate :=
    Step.logs_of_call rfl fun s => congrArg (fun x => x.2.events) (r.generate_run s)
  cases h with
  | fails hfailed => simp [Plan.failed, (hlogs s).2 _ _ hfailed]
  | @succeeds _ _ _ _ _ s₁ _ v done _ passed rest =>
    have hv : (r.generated s.files).1 = .ok v := by
      rw [generate_run] at passed
      exact congrArg Prod.fst passed
    obtain rfl := hraw v hv
    rw [rest.events_eq (logs_concludingPlan r v), (hlogs s).1 _ _ passed]
    simp

/-- The generator has nothing to say against the definition, and the transformation module that it has left behind can be
parsed and declares a profile. -/
def Describes (r : Regeneration) (raw : Generated) (files : FileSystem) (profile : Profile) : Prop :=
  raw.errors = [] ∧ ∃ module,
    r.toolchain.parse (r.table .transformation) raw.transformation ModuleKind.transformation.startSymbol files
      = .ok module
    ∧ Profile.read module r.language r.artifacts = .ok profile

/-- Where there is no profile to be had, what follows the generator fails and leaves the files as they are. -/
theorem conclude_of_not_describes (h : ∀ profile, ¬ r.Describes raw s.files profile) :
    ∃ e s', (r.conclude raw).run s = (.error e, s') ∧ s'.files = s.files
      ∧ ∀ a, .written a ∈ s'.events → .written a ∈ s.events := by
  rw [conclude]
  split
  · exact ⟨_, s, rfl, rfl, fun _ => id⟩
  · rename_i herrors
    have hnone : raw.errors = [] := Decidable.not_not.1 herrors
    let s₁ : Run := ⟨s.files, s.events ++
      [.parse (r.table .transformation) raw.transformation ModuleKind.transformation.startSymbol]⟩
    have hparse : (r.parse .transformation raw.transformation).run s = (r.toolchain.parse (r.table .transformation)
        raw.transformation ModuleKind.transformation.startSymbol s.files, s₁) := rfl
    have hfails : ∃ e, (r.transformation raw.transformation).run s = (.error e, s₁) := by
      rw [transformation]
      cases hm : r.toolchain.parse (r.table .transformation) raw.transformation
          ModuleKind.transformation.startSymbol s.files with
      | error e => exact ⟨e, Action.bind_of_error (by rw [hparse, hm]) _⟩
      | ok module =>
        rw [Action.bind_of_ok (by rw [hparse, hm])]
        cases hp : Profile.read module r.language r.artifacts with
        | ok profile => exact absurd ⟨hnone, module, hm, hp⟩ (h profile)
        | error e => exact ⟨_, Action.bind_of_error (by rw [Regeneration.profile, Step.ofExcept_run, hp]; rfl) _⟩
    obtain ⟨e, he⟩ := hfails
    exact ⟨e, s₁, Action.bind_of_error he _, rfl, fun a ha => by simpa [s₁] using ha⟩

/-- A regeneration stops at the generator, or goes on with the modules that it has left behind. -/
theorem conclude_of_ends (h : r.plan.Ends ⟨before, []⟩ done result s) :
    (∃ e, (r.generated before).1 = .error e ∧ s = r.begun before)
    ∨ ∃ raw, (r.generated before).1 = .ok raw
      ∧ (r.conclude raw).run (r.begun before) = (result.mapError Prod.snd, s) := by
  have hgenerate : r.generate.run ⟨before, []⟩ = ((r.generated before).1, r.begun before) := r.generate_run ⟨before, []⟩
  cases h with
  | fails hfailed =>
    rw [hgenerate] at hfailed
    exact .inl ⟨_, (Prod.mk.inj hfailed).1, (Prod.mk.inj hfailed).2.symm⟩
  | @succeeds _ _ _ _ _ s₁ _ raw _ _ passed rest =>
    rw [hgenerate] at passed
    obtain ⟨hraw, rfl⟩ := Prod.mk.inj passed
    exact .inr ⟨raw, hraw, by rw [← run_concludingPlan, rest.run_eq]⟩

/-- What a regeneration that starts on the files `before` has done when it stops behind the stages of `done`, with a
profile or with the error of the next stage. -/
structure Stopped (r : Regeneration) (before : FileSystem) (done : List Stage)
    (result : Except (Stage × ProcessError) Profile) (s : Run) : Prop where
  ends : r.plan.Ends ⟨before, []⟩ done result s
  run : r.regenerate.run ⟨before, []⟩ = (result.mapError Prod.snd, s)
  order : done ++ Plan.failed result <+: Stage.all
  complete : (∃ profile, result = .ok profile) ↔ done = Stage.all
  events : ∀ raw, (∀ v, (r.generated before).1 = .ok v → v = raw) → s.events = done.flatMap (Stage.events r raw)
    ++ ((Plan.failed result).flatMap (Stage.events r raw)).filter Event.isCall
  calls : ∀ raw, (∀ v, (r.generated before).1 = .ok v → v = raw) → s.events.filter Event.isCall <+: r.calls raw
  writes : s.events.filterMap Event.artifact? <+: writingOrder
  written : ∀ a, .written a ∈ s.events ↔ .write a ∈ done
  kept : ∀ a, .written a ∉ s.events →
    s.files.stat (r.artifacts.path a) = (r.generated before).2.stat (r.artifacts.path a)
  undescribed : (∀ raw profile, (r.generated before).1 = .ok raw → ¬ r.Describes raw (r.generated before).2 profile) →
    s.files = (r.generated before).2 ∧ ∀ a, .written a ∉ s.events

/-- What a regeneration has written when it stops. -/
theorem writeAll_of_ends (h : r.plan.Ends ⟨before, []⟩ done result s) :
    ∃ ws, ws.map Prod.fst = s.events.filterMap Event.artifact? ∧ ws.map Prod.fst <+: writingOrder
      ∧ r.artifacts.writeAll ws (r.generated before).2 = .ok s.files := by
  rcases conclude_of_ends h with ⟨e, _, rfl⟩ | ⟨raw, _, hrun⟩
  · exact ⟨[], rfl, List.nil_prefix, rfl⟩
  · obtain ⟨ws, hw, hbegin, _⟩ := writes_conclude r raw (r.begun before)
    rw [hrun] at hw
    obtain ⟨es, hes, hartifacts⟩ := hw.events
    refine ⟨ws, ?_, hbegin, hw.files⟩
    rw [hes, List.filterMap_append, hartifacts]
    rfl

theorem undescribed_of_ends (h : r.plan.Ends ⟨before, []⟩ done result s)
    (hnone : ∀ raw profile, (r.generated before).1 = .ok raw → ¬ r.Describes raw (r.generated before).2 profile) :
    s.files = (r.generated before).2 ∧ ∀ a, .written a ∉ s.events := by
  rcases conclude_of_ends h with ⟨e, _, rfl⟩ | ⟨raw, hraw, hrun⟩
  · exact ⟨rfl, by simp [begun]⟩
  · obtain ⟨e, s', hfails, hfiles, hevents⟩ := conclude_of_not_describes (s := r.begun before) (hnone raw · hraw)
    obtain ⟨_, hs⟩ := Prod.mk.inj (hrun.symm.trans hfails)
    rw [hs]
    exact ⟨hfiles, fun a ha => by simpa [begun] using hevents a ha⟩

/-- The calls of the first few stages are the first few calls, and so are the artifacts that they write. -/
theorem events_of_order {stages : List Stage} (h : stages <+: Stage.all) (r : Regeneration) (raw : Generated) :
    (stages.flatMap (Stage.events r raw)).filter Event.isCall <+: r.calls raw
      ∧ (stages.flatMap (Stage.events r raw)).filterMap Event.artifact? <+: writingOrder := by
  obtain ⟨rest, hrest⟩ := h
  have hcalls : (Stage.all.flatMap (Stage.events r raw)).filter Event.isCall = r.calls raw := rfl
  have hwrites : (Stage.all.flatMap (Stage.events r raw)).filterMap Event.artifact? = writingOrder := rfl
  rw [← hcalls, ← hwrites, ← hrest, List.flatMap_append, List.filter_append, List.filterMap_append]
  exact ⟨List.prefix_append _ _, List.prefix_append _ _⟩

theorem stopped_of_ends (hn : r.artifacts.Named) (h : r.plan.Ends ⟨before, []⟩ done result s) :
    Stopped r before done result s := by
  obtain ⟨horder, hcomplete⟩ := h.order (named_plan r)
  obtain ⟨ws, hws, hbegin, hfiles⟩ := writeAll_of_ends h
  have hevents (raw : Generated) (hraw : ∀ v, (r.generated before).1 = .ok v → v = raw) :
      s.events = done.flatMap (Stage.events r raw)
        ++ ((Plan.failed result).flatMap (Stage.events r raw)).filter Event.isCall :=
    (events_of_ends h hraw).trans (by simp)
  obtain ⟨raw₀, hraw₀⟩ : ∃ raw, ∀ v, (r.generated before).1 = .ok v → v = raw := by
    cases (r.generated before).1 with
    | error e => exact ⟨⟨⟨""⟩, ⟨""⟩, []⟩, fun v hv => by cases hv⟩
    | ok raw => exact ⟨raw, fun v hv => (Except.ok.inj hv).symm⟩
  exact {
    ends := h
    run := by rw [← run_plan, h.run_eq]
    order := horder
    complete := hcomplete
    events := hevents
    calls := fun raw hraw => by
      have hcalls := (events_of_order horder r raw).1
      rw [hevents raw hraw, List.filter_append, List.filter_filter]
      simpa [List.flatMap_append] using hcalls
    writes := hws ▸ hbegin
    written := fun a => by
      have hmem (stages : List Stage) : .written a ∈ stages.flatMap (Stage.events r raw₀) ↔ .write a ∈ stages := by
        simp [Stage.written_mem_events]
      have hcall : Event.isCall (.written a) = false := rfl
      rw [hevents raw₀ hraw₀, List.mem_append, hmem, List.mem_filter]
      simp [hcall]
    kept := fun a ha => by
      have hnot : a ∉ ws.map Prod.fst := by
        rwa [hws, Event.mem_artifacts]
      cases ws with
      | nil => exact congrArg (fun files => files.stat (r.artifacts.path a)) (Except.ok.inj hfiles).symm
      | cons w ws =>
        obtain ⟨home, hh⟩ := Artifacts.housed_of_writeAll hn (List.cons_ne_nil w ws) hfiles
        exact hh.stat_writeAll hfiles hnot
    undescribed := undescribed_of_ends h }

end Regeneration

/-! ## Runs -/

namespace Plugin

variable {p : Plugin} {toolchain : Toolchain} {c : Configuration} {definition : Path} {language : String}
  {fs before : FileSystem} {outcome : Except ProcessError BaseLanguage} {s : Run}

/-- What a run gives when its regeneration has ended: the error of the stage that has failed, or the language if its
support files are all there. -/
def concluded (p : Plugin) (c : Configuration) (s : Run) :
    Except (Stage × ProcessError) Profile → Except ProcessError BaseLanguage
  | .ok profile => (((⟨profile, p, .stale⟩ : BaseLanguage).checked c.supportFiles).run s).1
  | .error e => .error e.2

/-- A run that finds the artifacts stale is a regeneration, and then the search for the support files, which changes
nothing. -/
theorem process_of_ends {done : List Stage} {result : Except (Stage × ProcessError) Profile}
    (hl : languageName definition = .ok language) (hb : p.ensureBin.run fs = (.ok (), before))
    (hs : p.status definition before = .ok .stale)
    (h : (p.regeneration toolchain c definition language).plan.Ends ⟨before, []⟩ done result s) :
    (p.process toolchain c definition).run ⟨fs, []⟩ = (p.concluded c s result, s) := by
  rw [status_eq hl] at hs
  have hrun := h.run_eq
  rw [Regeneration.run_plan] at hrun
  rw [process_run hl hb hs, Regeneration.obtain]
  cases result with
  | error e => exact Action.bind_of_error hrun _
  | ok profile =>
    rw [Action.bind_of_ok hrun]
    exact Prod.ext rfl (BaseLanguage.checked_eq rfl).1

/-- **A run stops at the first step that fails.** Let a run find the artifacts stale. Then it passes the stages of a
regeneration in their order, up to the first one that fails, and gives the error of that stage, or goes on to the support
files if there is none. The services that it has called and the artifacts that it has written are the first few in
their order. An artifact that it has not written is as the generator has left it, and nothing at all is written if there
is no profile to be had from the modules of the generator. -/
theorem process_stops (hl : languageName definition = .ok language) (hb : p.ensureBin.run fs = (.ok (), before))
    (hs : p.status definition before = .ok .stale)
    (h : (p.process toolchain c definition).run ⟨fs, []⟩ = (outcome, s)) :
    ∃ done result, (p.regeneration toolchain c definition language).Stopped before done result s
      ∧ outcome = p.concluded c s result := by
  let r := p.regeneration toolchain c definition language
  obtain ⟨done, result, s', hends⟩ := r.plan.exists_ends ⟨before, []⟩
  rw [process_of_ends hl hb hs hends] at h
  obtain ⟨houtcome, rfl⟩ := Prod.mk.inj h
  exact ⟨done, result, Regeneration.stopped_of_ends (named_artifacts p hl) hends, houtcome.symm⟩

/-! ### An example -/

/-- Services that can print everything and parse anything but grammars. -/
def grammarless : Toolchain where
  generate := .leaving "grammar" "transformation" []
  parse _ file startSymbol _ :=
    if startSymbol = ModuleKind.transformation.startSymbol then .ok exampleModule
    else .error (.external (.read file) .notUtf8)
  print _ _ := .ok "module"
  normalize := .ok
  prettyTable _ := .ok "table"

/-- A run that cannot parse the grammar. -/
def haltingRun : Except ProcessError BaseLanguage × Run :=
  ((Plugin.mk ⟨"p"⟩).process grammarless .bare ⟨"p/src/x.b"⟩).run ⟨exampleFiles, []⟩

theorem haltingRun_outcome : haltingRun.1.toOption = none ∧ haltingRun.2.events
    = [.generate ⟨"p/src/x.b"⟩ "x" ⟨"p/bin"⟩, .parse "Stratego.tbl" ⟨"p/bin/x.str"⟩ "StrategoModule",
      .print .transformation, .written .transformation, .parse "Sdf2.tbl" ⟨"p/bin/x.sdf"⟩ "Sdf2Module"] := by
  decide +kernel

/-- The run has written the transformation module and stops at the grammar, which is as the generator has left it. -/
theorem process_stops_at_grammar : ∃ before e s, haltingRun = (.error e, s)
    ∧ .written .transformation ∈ s.events
    ∧ (∃ done result, ((Plugin.mk ⟨"p"⟩).regeneration grammarless .bare ⟨"p/src/x.b"⟩ "x").Stopped before done result s
      ∧ result.mapError Prod.snd = .error e)
    ∧ s.files.stat ⟨"p/bin/x.sdf"⟩
      = (((Plugin.mk ⟨"p"⟩).regeneration grammarless .bare ⟨"p/src/x.b"⟩ "x").generated before).2.stat
          ⟨"p/bin/x.sdf"⟩ := by
  obtain ⟨before, _, hb, hs, _⟩ := exampleRun_stale
  obtain ⟨houtcome, hevents⟩ := haltingRun_outcome
  cases h : haltingRun with
  | mk outcome s =>
    rw [h] at houtcome hevents
    cases outcome with
    | ok base => cases houtcome
    | error e =>
      obtain ⟨done, result, hstopped, herror⟩ :=
        process_stops languageName_example hb (by rw [status_eq languageName_example, hs]) h
      have hwritten : .written .transformation ∈ s.events := by
        rw [show s.events = _ from hevents]
        decide
      have hspared : .written .grammar ∉ s.events := by
        rw [show s.events = _ from hevents]
        decide
      refine ⟨before, e, s, rfl, hwritten, ⟨done, result, hstopped, ?_⟩, hstopped.kept .grammar hspared⟩
      cases result with
      | error e' =>
        cases herror
        rfl
      | ok profile =>
        have hall := hstopped.complete.1 ⟨profile, rfl⟩
        have hmem := (hstopped.written .grammar).2 (hall ▸ by decide)
        exact absurd hmem hspared

end Plugin

end BaseLang
