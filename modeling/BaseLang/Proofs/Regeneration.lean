import BaseLang.Proofs.Artifacts
import BaseLang.Proofs.Except
import BaseLang.Proofs.Extension
import BaseLang.Regeneration

/-!
# What a regeneration writes

* `Wrote` : a part of a run, by the artifacts that it has written;
* `Step.Writes` : a step that writes some artifacts in their order, all of them if it succeeds and the first
  few of them if it fails. `Writes.bind` puts such steps together;
* `Regeneration.conclude`, `regenerate_eq` : what a regeneration does after the generator;
* `writes_conclude` : it writes all five artifacts;
* `Regenerated`, `regenerated_of_ok` : what a regeneration that succeeds leaves behind;
* `Plugin.process_run`, `Plugin.process_stale`, `Plugin.process_eq_ok` : a run by its parts;
* `Plugin.process_wrote`, `Plugin.written_of_ok`, `Plugin.process_kept` : what a run writes, by how fresh it finds
  the artifacts;
* `Generator.leaving` : a generator for examples.
-/

namespace BaseLang

def Event.artifact? : Event → Option Artifact
  | .written a => some a
  | _ => none

theorem Event.mem_artifacts {es : List Event} {a : Artifact} :
    a ∈ es.filterMap artifact? ↔ .written a ∈ es := by
  rw [List.mem_filterMap]
  constructor
  · rintro ⟨e, he, ha⟩
    cases e <;> cases ha
    exact he
  · exact fun h => ⟨_, h, rfl⟩

/-- A run goes on from `r` to `r'` by writing `ws`. -/
structure Wrote (as : Artifacts) (ws : List (Artifact × String)) (r r' : Run) : Prop where
  files : as.writeAll ws r.files = .ok r'.files
  events : ∃ es, r'.events = r.events ++ es ∧ es.filterMap Event.artifact? = ws.map Prod.fst

theorem Wrote.refl (as : Artifacts) (r : Run) : Wrote as [] r r := ⟨rfl, [], by simp, rfl⟩

theorem Wrote.trans {as : Artifacts} {ws ws' : List (Artifact × String)} {r r' r'' : Run}
    (h : Wrote as ws r r') (h' : Wrote as ws' r' r'') : Wrote as (ws ++ ws') r r'' := by
  obtain ⟨es, he, hw⟩ := h.events
  obtain ⟨es', he', hw'⟩ := h'.events
  refine ⟨Artifacts.writeAll_append h.files h'.files, es ++ es', ?_, ?_⟩
  · rw [he', he, List.append_assoc]
  · rw [List.filterMap_append, hw, hw', List.map_append]

/-- What is put down as written behind `r` has been written there. -/
theorem Wrote.written_iff {as : Artifacts} {ws : List (Artifact × String)} {r r' : Run} {a : Artifact}
    (h : Wrote as ws r r') (hr : .written a ∉ r.events) : .written a ∈ r'.events ↔ a ∈ ws.map Prod.fst := by
  obtain ⟨es, he, hes⟩ := h.events
  rw [he, List.mem_append, ← hes, Event.mem_artifacts]
  exact ⟨fun hm => hm.resolve_left hr, Or.inr⟩

/-- An artifact that is written once is there afterwards. -/
theorem Wrote.stat {as : Artifacts} {ws : List (Artifact × String)} {r r' : Run} {w : Artifact × String}
    (h : Wrote as ws r r') (hn : as.Named) (hnodup : (ws.map Prod.fst).Nodup) (hm : w ∈ ws) :
    ∃ x, r'.files.stat (as.path w.1) = .ok (.file w.2.toUTF8 r.files.clock x) := by
  obtain ⟨home, hh⟩ := Artifacts.housed_of_writeAll hn (List.ne_nil_of_mem hm) h.files
  exact hh.stat_of_mem h.files hnodup hm

namespace Step

variable {α β : Type} {as : Artifacts} {order order' : List Artifact} {r r' : Run}

/-! ## Steps that succeed -/

theorem look_run (f : FileSystem → Except ProcessError α) (r : Run) : (look f).run r = (f r.files, r) := rfl

theorem ofExcept_run (x : Except ProcessError α) (r : Run) : (Action.ofExcept x).run r = (x, r) := rfl

theorem onFiles_run (a : Disk ProcessError α) (r : Run) :
    (onFiles a).run r = ((a.run r.files).1, { r with files := (a.run r.files).2 }) := rfl

theorem look_eq_ok {f : FileSystem → Except ProcessError α} {v : α} (h : (look f).run r = (.ok v, r')) :
    f r.files = .ok v ∧ r' = r := by
  rw [look_run] at h
  exact ⟨(Prod.mk.inj h).1, (Prod.mk.inj h).2.symm⟩

theorem ofExcept_eq_ok {x : Except ProcessError α} {v : α} (h : (Action.ofExcept x).run r = (.ok v, r')) :
    x = .ok v ∧ r' = r := by
  rw [ofExcept_run] at h
  exact ⟨(Prod.mk.inj h).1, (Prod.mk.inj h).2.symm⟩

theorem ofShape_eq_ok {x : Except ShapeError α} {v : α} (h : (ofShape x).run r = (.ok v, r')) :
    x = .ok v ∧ r' = r := by
  obtain ⟨hx, hr⟩ := ofExcept_eq_ok h
  cases x with
  | error e => cases hx
  | ok u =>
    cases hx
    exact ⟨rfl, hr⟩

theorem write_run (as : Artifacts) (a : Artifact) (text : String) (r : Run) :
    (write as a text).run r = match r.files.write (as.path a) text.toUTF8 with
      | .ok files => (.ok (), ⟨files, r.events ++ [.written a]⟩)
      | .error e => (.error (.ofOs (.write (as.path a)) e), r) := by
  have hd : (onFiles ((Disk.write (as.path a) text).mapFailure (.ofOs (.write (as.path a))))).run r
      = match r.files.write (as.path a) text.toUTF8 with
        | .ok files => (.ok (), { r with files })
        | .error e => (.error (.ofOs (.write (as.path a)) e), r) := by
    rw [onFiles_run]
    simp only [Action.run, Action.mapFailure, Disk.write, Action.update]
    cases r.files.write (as.path a) text.toUTF8 <;> rfl
  rw [write]
  cases hw : r.files.write (as.path a) text.toUTF8 with
  | error e =>
    rw [hw] at hd
    exact Action.bind_of_error hd _
  | ok files =>
    rw [hw] at hd
    exact Action.bind_of_ok hd _

theorem write_eq_ok {a : Artifact} {text : String} {u : Unit} (h : (write as a text).run r = (.ok u, r')) :
    as.writeAll [(a, text)] r.files = .ok r'.files := by
  rw [write_run] at h
  split at h
  · rename_i files hw
    cases h
    exact Artifacts.writeAll_one hw
  · cases h

/-! ## Steps that write -/

/-- A step that writes the artifacts of `order` one after another, all of them if it succeeds and the
first few of them if it fails. -/
def Writes (as : Artifacts) (order : List Artifact) (a : Step α) : Prop :=
  ∀ r, ∃ ws, Wrote as ws r (a.run r).2 ∧ ws.map Prod.fst <+: order
    ∧ ∀ v, (a.run r).1 = .ok v → ws.map Prod.fst = order

theorem writes_of_same {a : Step α} (h : ∀ r, (a.run r).2 = r) : Writes as [] a := by
  intro r
  refine ⟨[], ?_, List.prefix_refl _, fun _ _ => rfl⟩
  rw [h]
  exact .refl as r

theorem writes_pure (v : α) : Writes as [] (pure v : Step α) := writes_of_same fun _ => rfl

theorem writes_look (f : FileSystem → Except ProcessError α) : Writes as [] (look f) :=
  writes_of_same fun _ => rfl

theorem writes_ofExcept (x : Except ProcessError α) : Writes as [] (Action.ofExcept x : Step α) :=
  writes_of_same fun _ => rfl

/-- A step that always fails could have written anything if it had succeeded. -/
theorem writes_throw (e : ProcessError) : Writes as order (throw e : Step α) := by
  intro r
  refine ⟨[], .refl as r, List.nil_prefix, fun v hv => ?_⟩
  cases hv

theorem writes_record {e : Event} (h : e.artifact? = none) : Writes as [] (record e) := by
  intro r
  exact ⟨[], ⟨rfl, [e], rfl, by simp [h]⟩, List.prefix_refl _, fun _ _ => rfl⟩

theorem Writes.bind {a : Step α} {f : α → Step β} (ha : Writes as order a) (hf : ∀ v, Writes as order' (f v)) :
    Writes as (order ++ order') (a >>= f) := by
  intro r
  obtain ⟨ws, hw, hp, hall⟩ := ha r
  cases hr : a.run r with
  | mk outcome r₁ =>
    rw [hr] at hw hall
    cases outcome with
    | error e =>
      rw [Action.bind_of_error hr]
      refine ⟨ws, hw, hp.trans (List.prefix_append _ _), fun v hv => ?_⟩
      cases hv
    | ok v =>
      obtain ⟨ws', hw', hp', hall'⟩ := hf v r₁
      rw [Action.bind_of_ok hr]
      refine ⟨ws ++ ws', hw.trans hw', ?_, fun u hu => ?_⟩
      · rw [List.map_append, hall v rfl]
        exact (List.prefix_append_right_inj _).2 hp'
      · rw [List.map_append, hall v rfl, hall' u hu]

theorem writes_write (as : Artifacts) (a : Artifact) (text : String) : Writes as [a] (write as a text) := by
  intro r
  cases hw : r.files.write (as.path a) text.toUTF8 with
  | error e =>
    have hr : (write as a text).run r = (.error (.ofOs (.write (as.path a)) e), r) := by rw [write_run, hw]
    rw [hr]
    refine ⟨[], .refl as r, List.nil_prefix, fun v hv => ?_⟩
    cases hv
  | ok files =>
    have hr : (write as a text).run r = (.ok (), ⟨files, r.events ++ [.written a]⟩) := by rw [write_run, hw]
    rw [hr]
    exact ⟨[(a, text)], ⟨write_eq_ok hr, [.written a], rfl, rfl⟩, List.prefix_refl _, fun _ _ => rfl⟩

end Step

/-! ## Regenerations -/

namespace Regeneration

open Step

variable {r : Regeneration} {as : Artifacts}

/-- What a regeneration does once it has a profile. -/
def finish (r : Regeneration) (file : Path) (profile : Profile) : Step Profile := do
  let (module, text) ← r.grammar profile file
  r.derived module text
  return profile

/-- What a regeneration does with the modules that the generator has left behind. -/
def conclude (r : Regeneration) (raw : Generated) : Step Profile := do
  if raw.errors ≠ [] then throw (.definition r.language raw.errors)
  let profile ← r.transformation raw.transformation
  r.finish raw.grammar profile

theorem regenerate_eq (r : Regeneration) : r.regenerate = r.generate >>= r.conclude := rfl

/-- The generator is called with the definition and the directory of the artifacts. -/
theorem generate_run (r : Regeneration) (s : Run) : r.generate.run s
    = (((r.toolchain.generate r.definition r.language r.artifacts.dir).run s.files).1,
      ⟨((r.toolchain.generate r.definition r.language r.artifacts.dir).run s.files).2,
        s.events ++ [.generate r.definition r.language r.artifacts.dir]⟩) := by
  have hrecord : (Step.record (.generate r.definition r.language r.artifacts.dir)).run s
      = (.ok (), ⟨s.files, s.events ++ [.generate r.definition r.language r.artifacts.dir]⟩) := rfl
  rw [generate, Action.bind_of_ok hrecord, Step.onFiles_run]

def writingOrder : List Artifact := [.transformation, .grammar, .editorServices, .packagedGrammar, .prettyTable]

theorem mem_writingOrder (a : Artifact) : a ∈ writingOrder := by
  cases a <;> decide

theorem nodup_writingOrder : writingOrder.Nodup := by decide

theorem writes_parse (r : Regeneration) (kind : ModuleKind) (file : Path) : Writes as [] (r.parse kind file) :=
  (writes_record rfl).bind fun _ => writes_look _

theorem writes_print (r : Regeneration) (kind : ModuleKind) (module : Term) : Writes as [] (r.print kind module) :=
  (writes_record rfl).bind fun _ => writes_ofExcept _

theorem writes_normalize (r : Regeneration) (module : Term) : Writes as [] (r.normalize module) :=
  (writes_record rfl).bind fun _ => writes_ofExcept _

theorem writes_transformation (r : Regeneration) (file : Path) :
    Writes r.artifacts [.transformation] (r.transformation file) := by
  refine (writes_parse r .transformation file).bind fun module => ?_
  refine (writes_ofExcept _).bind fun profile => ?_
  refine (writes_ofExcept _).bind fun module => ?_
  refine (writes_print r .transformation module).bind fun text => ?_
  exact (writes_write r.artifacts .transformation text).bind fun _ => writes_pure profile

theorem writes_grammar (r : Regeneration) (profile : Profile) (file : Path) :
    Writes r.artifacts [.grammar] (r.grammar profile file) := by
  refine (writes_parse r .grammar file).bind fun module => ?_
  refine (writes_ofExcept _).bind fun module => ?_
  refine (writes_ofExcept _).bind fun module => ?_
  refine (writes_normalize r module).bind fun module => ?_
  refine (writes_print r .grammar module).bind fun text => ?_
  exact (writes_write r.artifacts .grammar text).bind fun _ => writes_pure (module, text)

theorem writes_derived (r : Regeneration) (module : Term) (text : String) :
    Writes r.artifacts [.editorServices, .packagedGrammar, .prettyTable] (r.derived module text) := by
  refine (writes_write r.artifacts .editorServices _).bind fun _ => ?_
  refine (writes_write r.artifacts .packagedGrammar _).bind fun _ => ?_
  refine (writes_record rfl).bind fun _ => ?_
  refine (writes_ofExcept _).bind fun table => ?_
  exact writes_write r.artifacts .prettyTable table

theorem writes_finish (r : Regeneration) (file : Path) (profile : Profile) :
    Writes r.artifacts [.grammar, .editorServices, .packagedGrammar, .prettyTable] (r.finish file profile) := by
  refine (writes_grammar r profile file).bind fun written => ?_
  exact (writes_derived r written.1 written.2).bind fun _ => writes_pure profile

theorem writes_conclude (r : Regeneration) (raw : Generated) :
    Writes r.artifacts writingOrder (r.conclude raw) := by
  rw [conclude]
  split
  · exact writes_throw _
  · exact (writes_transformation r raw.transformation).bind (writes_finish r raw.grammar)

theorem writes_reload (r : Regeneration) : Writes r.artifacts [] r.reload :=
  (writes_parse r .transformation _).bind fun _ => writes_ofExcept _

/-! ## Regenerations that succeed -/

section succeeds

variable {s s' : Run} {profile : Profile}

theorem parse_eq_ok {kind : ModuleKind} {file : Path} {module : Term}
    (h : (r.parse kind file).run s = (.ok module, s')) :
    r.toolchain.parse (r.table kind) file kind.startSymbol s.files = .ok module ∧ s'.files = s.files := by
  obtain ⟨_, s₁, hrec, h⟩ := Action.bind_eq_ok h
  cases hrec
  obtain ⟨hm, rfl⟩ := look_eq_ok h
  exact ⟨hm, rfl⟩

theorem print_eq_ok {kind : ModuleKind} {module : Term} {text : String}
    (h : (r.print kind module).run s = (.ok text, s')) :
    r.toolchain.print kind module = .ok text ∧ s'.files = s.files := by
  obtain ⟨_, s₁, hrec, h⟩ := Action.bind_eq_ok h
  cases hrec
  obtain ⟨ht, rfl⟩ := ofExcept_eq_ok h
  exact ⟨ht, rfl⟩

theorem profile_eq_ok {module : Term} (h : (r.profile module).run s = (.ok profile, s')) :
    Profile.read module r.language r.artifacts = .ok profile ∧ s' = s := by
  obtain ⟨hp, hs⟩ := ofExcept_eq_ok h
  cases hr : Profile.read module r.language r.artifacts with
  | error e =>
    rw [hr] at hp
    cases hp
  | ok v =>
    rw [hr] at hp
    cases hp
    exact ⟨rfl, hs⟩

/-- The profile is the one in the generated module, and the module is written with its imports rewritten. -/
theorem transformation_eq_ok {file : Path} (h : (r.transformation file).run s = (.ok profile, s')) :
    ∃ module module' text,
      r.toolchain.parse (r.table .transformation) file ModuleKind.transformation.startSymbol s.files = .ok module
      ∧ Profile.read module r.language r.artifacts = .ok profile
      ∧ rewriteTransformationImports module (r.canonical .transformation) = .ok module'
      ∧ r.toolchain.print .transformation module' = .ok text
      ∧ r.artifacts.writeAll [(.transformation, text)] s.files = .ok s'.files := by
  obtain ⟨module, s₁, hparse, h₁⟩ := Action.bind_eq_ok h
  obtain ⟨hm, hs₁⟩ := parse_eq_ok hparse
  obtain ⟨profile', s₂, hprofile, h₂⟩ := Action.bind_eq_ok h₁
  obtain ⟨hp, hs₂⟩ := profile_eq_ok hprofile
  obtain ⟨module', s₃, hshape, h₃⟩ := Action.bind_eq_ok h₂
  obtain ⟨hm', hs₃⟩ := ofShape_eq_ok hshape
  obtain ⟨text, s₄, hprint, h₄⟩ := Action.bind_eq_ok h₃
  obtain ⟨ht, hs₄⟩ := print_eq_ok hprint
  obtain ⟨_, s₅, hwrite, h₅⟩ := Action.bind_eq_ok h₄
  cases h₅
  have hw := write_eq_ok hwrite
  rw [hs₄, hs₃, hs₂, hs₁] at hw
  exact ⟨module, module', text, hm, hp, hm', ht, hw⟩

theorem finish_eq_ok {file : Path} {profile' : Profile} (h : (r.finish file profile').run s = (.ok profile, s')) :
    profile = profile' := by
  obtain ⟨_, _, _, h⟩ := Action.bind_eq_ok h
  obtain ⟨_, _, _, h⟩ := Action.bind_eq_ok h
  cases h
  rfl

theorem conclude_eq_ok {raw : Generated} (h : (r.conclude raw).run s = (.ok profile, s')) :
    ∃ s₁, (r.transformation raw.transformation).run s = (.ok profile, s₁)
      ∧ (r.finish raw.grammar profile).run s₁ = (.ok profile, s') := by
  rw [conclude] at h
  split at h
  · cases h
  · obtain ⟨profile', s₁, ht, hf⟩ := Action.bind_eq_ok h
    obtain rfl := finish_eq_ok hf
    exact ⟨s₁, ht, hf⟩

/-- A regeneration takes the profile from the transformation module, and writes the other artifacts after
that one. -/
theorem regenerate_eq_ok (h : r.regenerate.run s = (.ok profile, s')) :
    ∃ file s₁ s₂ ws, (r.transformation file).run s₁ = (.ok profile, s₂)
      ∧ ws.map Prod.fst = [.grammar, .editorServices, .packagedGrammar, .prettyTable]
      ∧ r.artifacts.writeAll ws s₂.files = .ok s'.files := by
  rw [regenerate_eq] at h
  obtain ⟨raw, s₁, _, h⟩ := Action.bind_eq_ok h
  obtain ⟨s₂, ht, hf⟩ := conclude_eq_ok h
  obtain ⟨ws, hw, _, hall⟩ := writes_finish r raw.grammar profile s₂
  rw [hf] at hw hall
  exact ⟨raw.transformation, s₁, s₂, ws, ht, hall profile rfl, hw.files⟩

/-- What a regeneration leaves behind that has found a profile: all artifacts have the time of the clock, and
the transformation module is the generated one, printed with its imports rewritten. -/
structure Regenerated (r : Regeneration) (profile : Profile) (fs : FileSystem) : Prop where
  housed : ∃ home, r.artifacts.Housed fs home
  times : ∀ a, Freshness.modified fs (r.artifacts.path a) = .ok fs.clock
  module : ∃ file raws module module' text time x,
    r.toolchain.parse (r.table .transformation) file ModuleKind.transformation.startSymbol raws = .ok module
    ∧ Profile.read module r.language r.artifacts = .ok profile
    ∧ rewriteTransformationImports module (r.canonical .transformation) = .ok module'
    ∧ r.toolchain.print .transformation module' = .ok text
    ∧ fs.stat (r.artifacts.path .transformation) = .ok (.file text.toUTF8 time x)

theorem regenerated_of_ok (hn : r.artifacts.Named) (h : r.regenerate.run s = (.ok profile, s')) :
    Regenerated r profile s'.files := by
  obtain ⟨file, s₁, s₂, ws, ht, horder, hws⟩ := regenerate_eq_ok h
  obtain ⟨module, module', text, hm, hp, hm', htext, hw⟩ := transformation_eq_ok ht
  -- The first write finds the directory of the artifacts, and no write moves it.
  obtain ⟨files, hw₁, hnil⟩ := Artifacts.writeAll_cons_eq_ok hw
  cases hnil
  obtain ⟨home, hh⟩ := Artifacts.housed_of_write hn hw₁
  have hh₂ := hh.kept (FileSystem.grows_write hw₁)
  have hall := Artifacts.writeAll_append hw hws
  refine ⟨⟨home, hh.kept (Artifacts.grows_writeAll hall)⟩, fun a => ?_, ?_⟩
  · have hmem : a ∈ ([(Artifact.transformation, text)] ++ ws).map Prod.fst := by
      rw [List.map_append, horder]
      exact mem_writingOrder a
    rw [hh.modified_writeAll hall, if_pos hmem, (Artifacts.grows_writeAll hall).clock]
  · obtain ⟨x, hx⟩ := hh.stat_self hw₁
    have hlast := hh₂.stat_writeAll hws (a := .transformation) (by rw [horder]; decide)
    exact ⟨file, s₁.files, module, module', text, s₁.files.clock, x, hm, hp, hm', htext, hlast.trans hx⟩

end succeeds

end Regeneration

/-! ## Runs -/

/-- A language whose support files are all there. -/
def BaseLanguage.checked (l : BaseLanguage) (files : List Path) : Step BaseLanguage := do
  l.checkSupport files
  return l

namespace BaseLanguage

theorem checkSupport_cons (l : BaseLanguage) (file : Path) (files : List Path) (s : Run) :
    (l.checkSupport (file :: files)).run s = match l.locate file s.files with
      | .ok _ => (l.checkSupport files).run s
      | .error e => (.error e, s) := by
  rw [checkSupport]
  cases hf : l.locate file s.files with
  | error e => exact Action.bind_of_error (by rw [Step.look_run, hf]) _
  | ok path => exact Action.bind_of_ok (by rw [Step.look_run, hf]) _

theorem checkSupport_files (l : BaseLanguage) (files : List Path) (s : Run) :
    ((l.checkSupport files).run s).2 = s := by
  induction files with
  | nil => rfl
  | cons file files ih =>
    rw [checkSupport_cons]
    split
    · exact ih
    · rfl

theorem checkSupport_eq_ok_iff {l : BaseLanguage} {files : List Path} {s : Run} :
    (l.checkSupport files).run s = (.ok (), s) ↔ ∀ file ∈ files, ∃ path, l.locate file s.files = .ok path := by
  induction files with
  | nil =>
    rw [checkSupport]
    simp
  | cons file files ih =>
    rw [checkSupport_cons, List.forall_mem_cons, ← ih]
    cases l.locate file s.files with
    | error e => simp
    | ok path => simp

theorem checked_eq {l : BaseLanguage} {files : List Path} {s s' : Run} {outcome : Except ProcessError BaseLanguage}
    (h : (l.checked files).run s = (outcome, s')) : s' = s ∧ ∀ base, outcome = .ok base → base = l := by
  have hs := checkSupport_files l files s
  cases hk : (l.checkSupport files).run s with
  | mk result s₁ =>
    rw [hk] at hs
    obtain rfl : s₁ = s := hs
    cases result with
    | error e =>
      rw [checked, Action.bind_of_error hk] at h
      cases h
      exact ⟨rfl, fun base hbase => by cases hbase⟩
    | ok u =>
      rw [checked, Action.bind_of_ok hk] at h
      cases h
      exact ⟨rfl, fun base hbase => by cases hbase; rfl⟩

theorem writes_checked {as : Artifacts} (l : BaseLanguage) (files : List Path) :
    Step.Writes as [] (l.checked files) := by
  have h : Step.Writes as [] (l.checkSupport files) := Step.writes_of_same (l.checkSupport_files files)
  exact h.bind fun _ => Step.writes_pure l

end BaseLanguage

namespace Plugin

variable {p : Plugin} {toolchain : Toolchain} {c : Configuration} {definition : Path} {language : String}
  {freshness : Freshness} {fs before : FileSystem} {events : List Event}

theorem bin_ending (p : Plugin) : p.bin.chars.getLast? = some 'n' :=
  Path.getLast?_file (by decide) (by decide)

theorem languageName_eq_ok (h : languageName definition = .ok language) : definition.stem? = some language := by
  rw [languageName] at h
  split at h
  · cases h
    assumption
  · cases h

theorem named_artifacts (p : Plugin) (h : languageName definition = .ok language) :
    (p.artifacts language).Named where
  dir := ⟨'n', p.bin_ending, by decide⟩
  language := Path.notMem_stem (languageName_eq_ok h)

theorem isDir_bin_of_stat {a : Artifact} {n : Node} (hl : languageName definition = .ok language)
    (h : fs.stat ((p.artifacts language).path a) = .ok n) : fs.isDir p.bin = true := by
  have hdir := Artifacts.isDir_of_stat (named_artifacts p hl) h
  exact hdir

theorem isDir_of_ensureBin (h : p.ensureBin.run fs = (.ok (), before)) : before.isDir p.bin = true := by
  simp only [ensureBin, Action.run, Action.mapFailure] at h
  cases hm : Disk.makeDirs p.bin fs with
  | mk outcome fs' =>
    rw [hm] at h
    cases outcome with
    | ok =>
      cases h
      exact Disk.isDir_of_makeDirs p.bin_ending (by decide) hm
    | error => cases h

theorem ensureBin_of_isDir (h : fs.isDir p.bin = true) : p.ensureBin.run fs = (.ok (), fs) := by
  have hd : Disk.makeDirs p.bin fs = (.ok (), fs) := Disk.makeDirs_of_isDir p.bin_ending (by decide) h
  simp only [ensureBin, Action.run, Action.mapFailure, hd]
  rfl

theorem status_eq (h : languageName definition = .ok language) (fs : FileSystem) :
    p.status definition fs = Freshness.of fs definition (p.artifacts language) := by
  rw [status, h]

def regeneration (p : Plugin) (toolchain : Toolchain) (c : Configuration) (definition : Path)
    (language : String) : Regeneration := ⟨toolchain, c, definition, language, p.artifacts language⟩

section run

variable (hl : languageName definition = .ok language)

include hl

/-- A run, once it knows the name of the language. -/
theorem process_named : (p.process toolchain c definition).run ⟨fs, events⟩ = (Step.onFiles p.ensureBin >>= fun _ =>
    (Step.look fun fs => Freshness.of fs definition (p.artifacts language)) >>= fun freshness =>
    (p.regeneration toolchain c definition language).obtain freshness >>= fun profile =>
      (⟨profile, p, freshness⟩ : BaseLanguage).checked c.supportFiles).run ⟨fs, events⟩ := by
  have hname : (Action.ofExcept (languageName definition) : Step String).run ⟨fs, events⟩
      = (.ok language, ⟨fs, events⟩) := by
    rw [Step.ofExcept_run, hl]
  rw [process, Action.bind_of_ok hname]
  rfl

/-- Without a directory for the artifacts a run ends before it looks at them. -/
theorem process_unmade {e : ProcessError} (hb : p.ensureBin.run fs = (.error e, before)) :
    (p.process toolchain c definition).run ⟨fs, events⟩ = (.error e, ⟨before, events⟩) := by
  have hbin : (Step.onFiles p.ensureBin).run ⟨fs, events⟩ = (.error e, ⟨before, events⟩) := by
    rw [Step.onFiles_run, hb]
  rw [process_named hl, Action.bind_of_error hbin]

variable (hb : p.ensureBin.run fs = (.ok (), before))

include hb

/-- A run ends before it calls a service if it cannot find out how fresh the artifacts are. -/
theorem process_unknown {e : ProcessError} (hf : Freshness.of before definition (p.artifacts language) = .error e) :
    (p.process toolchain c definition).run ⟨fs, events⟩ = (.error e, ⟨before, events⟩) := by
  have hbin : (Step.onFiles p.ensureBin).run ⟨fs, events⟩ = (.ok (), ⟨before, events⟩) := by
    rw [Step.onFiles_run, hb]
  have hlook : (Step.look fun fs => Freshness.of fs definition (p.artifacts language)).run ⟨before, events⟩
      = (.error e, ⟨before, events⟩) := by
    rw [Step.look_run, hf]
  rw [process_named hl, Action.bind_of_ok hbin, Action.bind_of_error hlook]

/-- A run, once it knows how fresh the artifacts are. -/
theorem process_run (hf : Freshness.of before definition (p.artifacts language) = .ok freshness) :
    (p.process toolchain c definition).run ⟨fs, events⟩
      = ((p.regeneration toolchain c definition language).obtain freshness >>= fun profile =>
          (⟨profile, p, freshness⟩ : BaseLanguage).checked c.supportFiles).run ⟨before, events⟩ := by
  have hbin : (Step.onFiles p.ensureBin).run ⟨fs, events⟩ = (.ok (), ⟨before, events⟩) := by
    rw [Step.onFiles_run, hb]
  have hlook : (Step.look fun fs => Freshness.of fs definition (p.artifacts language)).run ⟨before, events⟩
      = (.ok freshness, ⟨before, events⟩) := by
    rw [Step.look_run, hf]
  rw [process_named hl, Action.bind_of_ok hbin, Action.bind_of_ok hlook]

end run

/-- A run that takes the artifacts for stale calls the generator, and goes on with the modules that it leaves. -/
theorem process_stale (hl : languageName definition = .ok language) (hb : p.ensureBin.run fs = (.ok (), before))
    (hs : Freshness.of before definition (p.artifacts language) = .ok .stale) {raw : Except ProcessError Generated}
    {after : FileSystem} (hg : (toolchain.generate definition language p.bin).run before = (raw, after)) :
    (p.process toolchain c definition).run ⟨fs, []⟩
      = ((Action.ofExcept raw : Step Generated) >>= fun raw =>
          (p.regeneration toolchain c definition language).conclude raw >>= fun profile =>
            (⟨profile, p, .stale⟩ : BaseLanguage).checked c.supportFiles).run
          ⟨after, [.generate definition language p.bin]⟩ := by
  rw [process_run hl hb hs, Regeneration.obtain, Regeneration.regenerate_eq, Action.bind_bind]
  have hrun : (p.regeneration toolchain c definition language).generate.run ⟨before, []⟩
      = (raw, ⟨after, [.generate definition language p.bin]⟩) := by
    rw [Regeneration.generate_run]
    exact congrArg (fun x => (x.1, Run.mk x.2 _)) hg
  have hraw : (Action.ofExcept raw : Step Generated).run ⟨after, [.generate definition language p.bin]⟩
      = (raw, ⟨after, [.generate definition language p.bin]⟩) := rfl
  cases raw with
  | error e => rw [Action.bind_of_error hrun, Action.bind_of_error hraw]
  | ok raw => rw [Action.bind_of_ok hrun, Action.bind_of_ok hraw]

/-- Behind the generator, a run that takes the artifacts for stale writes the first few of them, and all of them
if it succeeds. -/
theorem process_wrote {outcome : Except ProcessError BaseLanguage} {r : Run}
    (hl : languageName definition = .ok language) (hb : p.ensureBin.run fs = (.ok (), before))
    (hs : Freshness.of before definition (p.artifacts language) = .ok .stale)
    (h : (p.process toolchain c definition).run ⟨fs, []⟩ = (outcome, r)) :
    ∃ s ws, s.files = ((toolchain.generate definition language p.bin).run before).2
      ∧ (∀ a, .written a ∉ s.events) ∧ Wrote (p.artifacts language) ws s r
      ∧ ws.map Prod.fst <+: Regeneration.writingOrder
      ∧ ∀ base, outcome = .ok base → ws.map Prod.fst = Regeneration.writingOrder := by
  cases hg : (toolchain.generate definition language p.bin).run before with
  | mk raw after =>
    have hraw : Step.Writes (p.artifacts language) [] (Action.ofExcept raw : Step Generated) := Step.writes_ofExcept raw
    have hwrites := hraw.bind fun raw =>
      (Regeneration.writes_conclude (p.regeneration toolchain c definition language) raw).bind
        fun profile => (⟨profile, p, .stale⟩ : BaseLanguage).writes_checked c.supportFiles
    obtain ⟨ws, hw, hp, hall⟩ := hwrites ⟨after, [.generate definition language p.bin]⟩
    rw [← process_stale hl hb hs hg, h] at hw hall
    rw [List.nil_append, List.append_nil] at hp hall
    exact ⟨⟨after, [.generate definition language p.bin]⟩, ws, rfl, by simp, hw, hp, hall⟩

/-- A run that takes the artifacts for stale and succeeds has written all of them. -/
theorem written_of_ok {base : BaseLanguage} {r : Run} (hl : languageName definition = .ok language)
    (hb : p.ensureBin.run fs = (.ok (), before))
    (hs : Freshness.of before definition (p.artifacts language) = .ok .stale)
    (h : (p.process toolchain c definition).run ⟨fs, []⟩ = (.ok base, r)) (a : Artifact) : .written a ∈ r.events := by
  obtain ⟨s, ws, _, hnew, hw, _, hall⟩ := process_wrote hl hb hs h
  rw [hw.written_iff (hnew a), hall base rfl]
  exact Regeneration.mem_writingOrder a

/-- A run that does not take the artifacts for stale makes the directory of the artifacts if it is missing, and
changes nothing else. -/
theorem process_kept {outcome : Except ProcessError BaseLanguage} {r : Run}
    (hl : languageName definition = .ok language)
    (hs : ∀ before, p.ensureBin.run fs = (.ok (), before) →
      Freshness.of before definition (p.artifacts language) ≠ .ok .stale)
    (h : (p.process toolchain c definition).run ⟨fs, []⟩ = (outcome, r)) :
    r.files = (p.ensureBin.run fs).2 ∧ ∀ a, .written a ∉ r.events := by
  obtain rfl : ((p.process toolchain c definition).run ⟨fs, []⟩).2 = r := congrArg Prod.snd h
  cases hb : p.ensureBin.run fs with
  | mk outcome before =>
    cases outcome with
    | error e =>
      rw [process_unmade hl hb]
      exact ⟨rfl, by simp⟩
    | ok u =>
      cases hf : Freshness.of before definition (p.artifacts language) with
      | error e =>
        rw [process_unknown hl hb hf]
        exact ⟨rfl, by simp⟩
      | ok freshness =>
        cases freshness with
        | stale => exact absurd hf (hs before hb)
        | fresh =>
          rw [process_run hl hb hf, Regeneration.obtain]
          have hwrites := (Regeneration.writes_reload (p.regeneration toolchain c definition language)).bind
            fun profile => (⟨profile, p, .fresh⟩ : BaseLanguage).writes_checked c.supportFiles
          obtain ⟨ws, hw, hp, _⟩ := hwrites ⟨before, []⟩
          have hnil : ws = [] := List.map_eq_nil_iff.1 (List.prefix_nil.1 hp)
          subst hnil
          refine ⟨(Except.ok.inj hw.files).symm, fun a ha => ?_⟩
          have hmem := (hw.written_iff (by simp)).1 ha
          simp at hmem

/-- A run that succeeds, by its parts. -/
theorem process_eq_ok {base : BaseLanguage} {r : Run}
    (h : (p.process toolchain c definition).run ⟨fs, events⟩ = (.ok base, r)) :
    ∃ language before, languageName definition = .ok language ∧ p.ensureBin.run fs = (.ok (), before)
      ∧ Freshness.of before definition (p.artifacts language) = .ok base.freshness
      ∧ ((p.regeneration toolchain c definition language).obtain base.freshness).run ⟨before, events⟩
        = (.ok base.profile, r)
      ∧ base.plugin = p ∧ (base.checkSupport c.supportFiles).run r = (.ok (), r) := by
  obtain ⟨language, s₁, hname, h₁⟩ := Action.bind_eq_ok h
  obtain ⟨hl, hs₁⟩ := Step.ofExcept_eq_ok hname
  obtain ⟨_, s₂, hbin, h₂⟩ := Action.bind_eq_ok h₁
  obtain ⟨freshness, s₃, hlook, h₃⟩ := Action.bind_eq_ok h₂
  obtain ⟨hfresh, hs₃⟩ := Step.look_eq_ok hlook
  obtain ⟨profile, s₄, hobtain, h₄⟩ := Action.bind_eq_ok h₃
  obtain ⟨_, s₅, hcheck, h₅⟩ := Action.bind_eq_ok h₄
  cases h₅
  have hs₄ := BaseLanguage.checkSupport_files ⟨profile, p, freshness⟩ c.supportFiles s₄
  rw [hcheck] at hs₄
  obtain rfl : r = s₄ := hs₄
  rw [hs₁, Step.onFiles_run] at hbin
  cases hb : p.ensureBin.run fs with
  | mk outcome before =>
    rw [hb] at hbin
    cases hbin
    rw [hs₃] at hobtain
    exact ⟨language, before, hl, rfl, hfresh, hobtain, rfl, hcheck⟩

end Plugin

/-! ## A generator for examples -/

/-- A generator that leaves the same two modules for every definition, and has something to say against it or
not. -/
def Generator.leaving (grammar transformation : String) (errors : List String) : Generator :=
  fun _ language out => do
    let artifacts : Artifacts := ⟨out, language⟩
    let write (a : Artifact) (text : String) : Disk ProcessError Unit :=
      (Disk.write (artifacts.path a) text).mapFailure (.ofOs (.write (artifacts.path a)))
    write .grammar grammar
    write .transformation transformation
    return ⟨artifacts.path .grammar, artifacts.path .transformation, errors⟩

theorem Disk.write_of_ok {p : Path} {text : String} {fs fs' : FileSystem} (h : fs.write p text.toUTF8 = .ok fs')
    (failure : OsError → ProcessError) : ((Disk.write p text).mapFailure failure).run fs = (.ok (), fs') := by
  simp only [Action.run, Action.mapFailure, Disk.write, Action.update, h]
  rfl

theorem Disk.write_of_error {p : Path} {text : String} {fs : FileSystem} {e : OsError}
    (h : fs.write p text.toUTF8 = .error e) (failure : OsError → ProcessError) :
    ((Disk.write p text).mapFailure failure).run fs = (.error (failure e), fs) := by
  simp only [Action.run, Action.mapFailure, Disk.write, Action.update, h]
  rfl

theorem Generator.leaving_run {grammar transformation language : String} {out : Path} {fs fs' : FileSystem}
    (h : (⟨out, language⟩ : Artifacts).writeAll [(.grammar, grammar), (.transformation, transformation)] fs
      = .ok fs') (errors : List String) (definition : Path) :
    (Generator.leaving grammar transformation errors definition language out).run fs
      = (.ok ⟨(⟨out, language⟩ : Artifacts).path .grammar, (⟨out, language⟩ : Artifacts).path .transformation,
          errors⟩, fs') := by
  obtain ⟨fs₁, hw₁, h₁⟩ := Artifacts.writeAll_cons_eq_ok h
  obtain ⟨fs₂, hw₂, h₂⟩ := Artifacts.writeAll_cons_eq_ok h₁
  cases h₂
  rw [leaving, Action.bind_of_ok (Disk.write_of_ok hw₁ _), Action.bind_of_ok (Disk.write_of_ok hw₂ _)]
  rfl

def Configuration.bare : Configuration := { Configuration.standard with supportFiles := [] }

theorem Plugin.languageName_example : languageName ⟨"p/src/x.b"⟩ = .ok "x" := eq_ok_of_toOption (by decide +kernel)

end BaseLang
