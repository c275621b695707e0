import BaseLang.Proofs.Frame

/-!
# Languages of one plugin

Languages of one plugin do not interfere, and so they can be processed in any order.

* `FileSystem.Alike` : files that hold the same outside of some places. `Housed.sameBut_write_both` : they stay so when
  the same is written;
* `Step.Agrees` : two runs of a step on such files come to the same;
* `Regeneration.Steady` : services that do not look at these places. `obtain_sameEnds` : the profile is obtained alike;
* `Plugin.process_alike` : a run does not depend on the artifacts of other languages;
* `Plugin.processAll` : definitions that are processed one after another. `processAll_alike` : each as if it were alone;
* `Plugin.languages_apart` : what holds of the languages of one plugin;
* `not_always_apart` : directories that a run makes can change what is found of another language, and a generator can
  look at it.
-/

namespace BaseLang

/-! ## Files with the same contents -/

/-- The directories of `base` in both, and the same contents outside of `S`. -/
def FileSystem.Alike (base : FileSystem) (S : Location → Prop) (fs fs' : FileSystem) : Prop :=
  SameDirs base fs ∧ SameBut Node.contents? S fs fs'

open FileSystem

namespace Artifacts

variable {S : Location → Prop} {as : Artifacts} {a : Artifact} {fs fs' files files' : FileSystem} {home : Location}

/-- Whether an artifact can be written depends on directories. -/
theorem Housed.write_eq (h : as.Housed fs home) (a : Artifact) (contents : ByteArray) :
    fs.write (as.path a) contents = match as.place home a with
      | .error e => .error e
      | .ok loc => match fs.node? loc with
        | some (.dir _) => .error .isDirectory
        | _ => .ok (fs.store loc contents false) := by
  have hl : fs.locateBare (as.path a) = as.place home a := by
    rw [locateBare, h.named.bare]
    exact h.locate a
  rw [write, target, hl, h.named.bare]
  cases as.place home a with
  | error e => rfl
  | ok loc =>
    cases hn : fs.node? loc with
    | none => simp [hn, Except.map]
    | some n => cases n <;> simp [hn, Except.map]

/-- Among the same directories, an artifact can be written in both file systems or in none. -/
theorem Housed.write_both (h : as.Housed fs home) (hsame : SameDirs fs fs') (a : Artifact) (contents : ByteArray) :
    (∃ e, fs.write (as.path a) contents = .error e ∧ fs'.write (as.path a) contents = .error e)
      ∨ ∃ files files', fs.write (as.path a) contents = .ok files ∧ fs'.write (as.path a) contents = .ok files' := by
  rw [h.write_eq, (h.dirsKept hsame.dirsKept).write_eq]
  cases as.place home a with
  | error e => exact Or.inl ⟨e, rfl, rfl⟩
  | ok loc =>
    have hwritten {fs : FileSystem} (hnot : ¬ fs.HasDir loc) : (match fs.node? loc with
        | some (.dir _) => .error .isDirectory
        | _ => .ok (fs.store loc contents false) : Except OsError FileSystem) = .ok (fs.store loc contents false) := by
      split
      · rename_i t ht
        exact absurd ⟨t, ht⟩ hnot
      · rfl
    by_cases hdir : fs.HasDir loc
    · obtain ⟨t, ht⟩ := hdir
      obtain ⟨t', ht'⟩ := (hsame.hasDir loc).2 ⟨t, ht⟩
      exact Or.inl ⟨.isDirectory, by simp only [ht], by simp only [ht']⟩
    · exact Or.inr ⟨_, _, hwritten hdir, hwritten (mt (hsame.hasDir loc).1 hdir)⟩

theorem Housed.sameBut_write_both {contents : ByteArray} (h : as.Housed fs home)
    (hsame : SameBut Node.contents? S fs fs') (hw : fs.write (as.path a) contents = .ok files)
    (hw' : fs'.write (as.path a) contents = .ok files') : SameBut Node.contents? S files files' := by
  have h' := h.dirsKept hsame.dirsKept
  have hframe := h.sameBut_write hw
  have hframe' := h'.sameBut_write hw'
  have hdirs := (hframe.symm.trans hsame.toSameDirs).trans hframe'.toSameDirs
  refine ⟨hdirs, fun loc hS => ?_⟩
  by_cases htouched : as.Touches home loc
  · rcases htouched with rfl | ⟨b, rfl⟩
    · obtain ⟨t, ht⟩ := (hframe.hasDir loc).2 h.hasDir
      obtain ⟨t', ht'⟩ := (hframe'.hasDir loc).2 h'.hasDir
      rw [ht, ht']
      rfl
    · by_cases hb : b = a
      · obtain ⟨_, _, rfl⟩ := h.write_eq_ok hw
        obtain ⟨_, _, rfl⟩ := h'.write_eq_ok hw'
        obtain ⟨x, hx⟩ := node?_store_self fs (as.fileName a :: home) contents false
        obtain ⟨x', hx'⟩ := node?_store_self fs' (as.fileName a :: home) contents false
        rw [hb, hx, hx']
        rfl
      · rw [h.node?_of_ne hw hb, h'.node?_of_ne hw' hb]
        exact hsame.node _ hS
  · rw [hframe.node?_eq htouched, hframe'.node?_eq htouched]
    exact hsame.node loc hS

theorem Housed.sameBut_writeAll_both {ws : List (Artifact × String)} (h : as.Housed fs home)
    (hsame : SameBut Node.contents? S fs fs') (hw : as.writeAll ws fs = .ok files)
    (hw' : as.writeAll ws fs' = .ok files') : SameBut Node.contents? S files files' := by
  induction ws generalizing fs fs' with
  | nil =>
    cases hw
    cases hw'
    exact hsame
  | cons w ws ih =>
    obtain ⟨fs₁, hw₁, hws⟩ := writeAll_cons_eq_ok hw
    obtain ⟨fs₁', hw₁', hws'⟩ := writeAll_cons_eq_ok hw'
    exact ih (h.kept (grows_write hw₁)) (h.sameBut_write_both hsame hw₁ hw₁') hws hws'

end Artifacts

/-! ## Steps that agree -/

namespace Step

variable {α β : Type} {R : FileSystem → FileSystem → Prop} {as : Artifacts}

/-- Two runs have come to the same, and to files that are related. -/
def SameEnds (R : FileSystem → FileSystem → Prop) (x y : Except ProcessError α × Run) : Prop :=
  y.1 = x.1 ∧ R x.2.files y.2.files

/-- On files that are related, a step comes to the same. -/
def Agrees (R : FileSystem → FileSystem → Prop) (a : Step α) : Prop :=
  ∀ s s', R s.files s'.files → SameEnds R (a.run s) (a.run s')

theorem SameEnds.bind {a : Step α} {f : α → Step β} {s s' : Run} (h : SameEnds R (a.run s) (a.run s'))
    (hf : ∀ v, (a.run s).1 = .ok v → Agrees R (f v)) : SameEnds R ((a >>= f).run s) ((a >>= f).run s') := by
  obtain ⟨houtcome, hfiles⟩ := h
  cases hs : a.run s with
  | mk outcome s₁ =>
    cases hs' : a.run s' with
    | mk outcome' s₁' =>
      rw [hs, hs'] at houtcome hfiles
      obtain rfl : outcome' = outcome := houtcome
      cases outcome' with
      | error e =>
        rw [Action.bind_of_error hs, Action.bind_of_error hs']
        exact ⟨rfl, hfiles⟩
      | ok v =>
        rw [Action.bind_of_ok hs, Action.bind_of_ok hs']
        exact hf v (by rw [hs]) s₁ s₁' hfiles

theorem agrees_pure (v : α) : Agrees R (pure v : Step α) := fun _ _ h => ⟨rfl, h⟩

theorem agrees_throw (e : ProcessError) : Agrees R (throw e : Step α) := fun _ _ h => ⟨rfl, h⟩

theorem agrees_record (e : Event) : Agrees R (record e) := fun _ _ h => ⟨rfl, h⟩

theorem agrees_ofExcept (x : Except ProcessError α) : Agrees R (Action.ofExcept x : Step α) := fun _ _ h => ⟨rfl, h⟩

theorem agrees_look {f : FileSystem → Except ProcessError α} (hf : ∀ fs fs', R fs fs' → f fs' = f fs) :
    Agrees R (look f) := fun _ _ h => ⟨hf _ _ h, h⟩

theorem Agrees.bind {a : Step α} {f : α → Step β} (ha : Agrees R a) (hf : ∀ v, Agrees R (f v)) :
    Agrees R (a >>= f) := fun s s' h => (ha s s' h).bind fun v _ => hf v

theorem agrees_write {base : FileSystem} {S : Location → Prop} {home : Location} (h : as.Housed base home)
    (a : Artifact) (text : String) : Agrees (Alike base S) (write as a text) := by
  rintro s s' ⟨hbase, hsame⟩
  have hs := h.dirsKept hbase.dirsKept
  rw [write_run, write_run]
  rcases hs.write_both hsame.toSameDirs a text.toUTF8 with ⟨e, hw, hw'⟩ | ⟨files, files', hw, hw'⟩
  · rw [hw, hw']
    exact ⟨rfl, hbase, hsame⟩
  · rw [hw, hw']
    exact ⟨rfl, hbase.trans (hs.sameBut_write hw).toSameDirs, hs.sameBut_write_both hsame hw hw'⟩

end Step

/-! ## Services that look away -/

namespace Regeneration

open Step

variable {r : Regeneration} {base : FileSystem} {S : Location → Prop} {home : Location} {raw : Generated}

/-- A module that a run on the files `base` may parse. -/
def Reads (r : Regeneration) (base : FileSystem) (file : Path) : Prop :=
  file = r.artifacts.path .transformation
    ∨ ∃ raw, (r.generated base).1 = .ok raw ∧ (file = raw.grammar ∨ file = raw.transformation)

/-- Services that look neither at the places in `S` nor at the clock. The generator says the same and writes the same,
and the parser, which may be called on files that have been written, looks at contents only. -/
structure Steady (r : Regeneration) (S : Location → Prop) (base : FileSystem) : Prop where
  generate : ∀ files, SameBut id S base files → (r.generated files).1 = (r.generated base).1
    ∧ ∃ raws, r.artifacts.writeAll raws base = .ok (r.generated base).2
      ∧ r.artifacts.writeAll raws files = .ok (r.generated files).2
  parse : ∀ kind file, r.Reads base file → ∀ fs fs', Alike base S fs fs' →
    r.toolchain.parse (r.table kind) file kind.startSymbol fs'
      = r.toolchain.parse (r.table kind) file kind.startSymbol fs

section agrees

variable (hh : r.artifacts.Housed base home) (hsteady : r.Steady S base)

include hsteady

theorem agrees_parse {file : Path} (hfile : r.Reads base file) (kind : ModuleKind) :
    Agrees (Alike base S) (r.parse kind file) :=
  (agrees_record _).bind fun _ => agrees_look (hsteady.parse kind file hfile)

theorem agrees_reload : Agrees (Alike base S) r.reload :=
  (agrees_parse hsteady (Or.inl rfl) .transformation).bind fun _ => agrees_ofExcept _

include hh

theorem agrees_transformation {file : Path} (hfile : r.Reads base file) :
    Agrees (Alike base S) (r.transformation file) := by
  refine (agrees_parse hsteady hfile .transformation).bind fun module => ?_
  refine (agrees_ofExcept _).bind fun profile => ?_
  refine (agrees_ofExcept _).bind fun module => ?_
  refine ((agrees_record _).bind fun _ => agrees_ofExcept _).bind fun text => ?_
  exact (agrees_write hh .transformation text).bind fun _ => agrees_pure profile

theorem agrees_grammar {file : Path} (hfile : r.Reads base file) (profile : Profile) :
    Agrees (Alike base S) (r.grammar profile file) := by
  refine (agrees_parse hsteady hfile .grammar).bind fun module => ?_
  refine (agrees_ofExcept _).bind fun module => ?_
  refine (agrees_ofExcept _).bind fun module => ?_
  refine ((agrees_record _).bind fun _ => agrees_ofExcept _).bind fun module => ?_
  refine ((agrees_record _).bind fun _ => agrees_ofExcept _).bind fun text => ?_
  exact (agrees_write hh .grammar text).bind fun _ => agrees_pure (module, text)

omit hsteady in
theorem agrees_derived (module : Term) (text : String) : Agrees (Alike base S) (r.derived module text) := by
  refine (agrees_write hh .editorServices _).bind fun _ => ?_
  refine (agrees_write hh .packagedGrammar _).bind fun _ => ?_
  refine (agrees_record _).bind fun _ => ?_
  refine (agrees_ofExcept _).bind fun table => ?_
  exact agrees_write hh .prettyTable table

theorem agrees_conclude (hraw : (r.generated base).1 = .ok raw) : Agrees (Alike base S) (r.conclude raw) := by
  rw [conclude]
  split
  · exact agrees_throw _
  · refine (agrees_transformation hh hsteady (Or.inr ⟨raw, hraw, Or.inr rfl⟩)).bind fun profile => ?_
    refine (agrees_grammar hh hsteady (Or.inr ⟨raw, hraw, Or.inl rfl⟩) profile).bind fun written => ?_
    exact (agrees_derived hh written.1 written.2).bind fun _ => agrees_pure profile

/-- The profile is obtained alike, whatever stands in places that the services do not look at. -/
theorem obtain_sameEnds {files : FileSystem} (hsame : SameBut id S base files) (freshness : Freshness) :
    SameEnds (Alike base S) ((r.obtain freshness).run ⟨base, []⟩) ((r.obtain freshness).run ⟨files, []⟩) := by
  have hviewed := hsame.viewed Node.contents?
  cases freshness with
  | fresh => exact agrees_reload hsteady ⟨base, []⟩ ⟨files, []⟩ ⟨.refl base, hviewed⟩
  | stale =>
    obtain ⟨hraw, raws, hwrites, hwrites'⟩ := hsteady.generate files hsame
    have hgenerate : SameEnds (Alike base S) (r.generate.run ⟨base, []⟩) (r.generate.run ⟨files, []⟩) := by
      rw [generate_run, generate_run]
      exact ⟨hraw, (hh.sameBut_writeAll hwrites).toSameDirs, hh.sameBut_writeAll_both hviewed hwrites hwrites'⟩
    rw [obtain, regenerate_eq]
    refine hgenerate.bind fun raw hok => agrees_conclude hh hsteady ?_
    rwa [generate_run] at hok

end agrees

end Regeneration

namespace Plugin

variable {p : Plugin} {toolchain : Toolchain} {c : Configuration} {definition : Path} {language : String}
  {fs base files : FileSystem} {S : Location → Prop} {loc : Location}
  {outcome outcome' : Except ProcessError BaseLanguage} {r r' : Run}

/-! ## A run beside other languages -/

theorem agrees_checked (l : BaseLanguage) (hsupport : c.supportFiles = []) (R : FileSystem → FileSystem → Prop) :
    Step.Agrees R (l.checked c.supportFiles) := by
  rw [hsupport]
  exact (Step.agrees_pure ()).bind fun _ => Step.agrees_pure l

/-- A run comes to the same, and leaves artifacts with the same contents, whatever stands in places that its services do
not look at. -/
theorem process_alike (hl : languageName definition = .ok language) (hbin : base.isDir p.bin = true)
    (hsupport : c.supportFiles = []) (hown : ∀ a, ¬ S (base.aim ((p.artifacts language).path a)))
    (hloc : base.locate definition = .ok loc) (hnot : ¬ S loc)
    (hsteady : (p.regeneration toolchain c definition language).Steady S base) (hsame : SameBut id S base files)
    (h : (p.process toolchain c definition).run ⟨base, []⟩ = (outcome, r))
    (h' : (p.process toolchain c definition).run ⟨files, []⟩ = (outcome', r')) :
    outcome' = outcome
      ∧ ∀ a, r'.files.read ((p.artifacts language).path a) = r.files.read ((p.artifacts language).path a) := by
  obtain ⟨home, hh⟩ := Artifacts.housed_of_isDir (named_artifacts p hl) hbin
  have hown' (a : Artifact) : ¬ S ((p.artifacts language).fileName a :: home) := hh.aim a ▸ hown a
  have hb := ensureBin_of_isDir hbin
  have hb' := ensureBin_of_isDir (hsame.isDir hbin)
  have hfreshness : Freshness.of files definition (p.artifacts language)
      = Freshness.of base definition (p.artifacts language) := by
    refine Freshness.of_congr (hsame.stat_eq hloc hnot) fun a => ?_
    simpa [Except.map_id] using hh.stat_sameBut hsame (hown' a)
  -- It is enough that the files at the end are alike.
  suffices hends : Step.SameEnds (Alike base S) (outcome, r) (outcome', r') by
    obtain ⟨houtcome, hbase, hfiles⟩ := hends
    refine ⟨houtcome, fun a => read_congr ?_⟩
    exact (hh.dirsKept hbase.dirsKept).stat_sameBut hfiles (hown' a)
  rw [← h, ← h']
  cases hf : Freshness.of base definition (p.artifacts language) with
  | error e =>
    rw [process_unknown hl hb hf, process_unknown hl hb' (hfreshness.trans hf)]
    exact ⟨rfl, .refl base, hsame.viewed Node.contents?⟩
  | ok freshness =>
    rw [process_run hl hb hf, process_run hl hb' (hfreshness.trans hf)]
    exact (Regeneration.obtain_sameEnds hh hsteady hsame freshness).bind fun profile _ => agrees_checked _ hsupport _

/-! ## Runs one after another -/

/-- Processes definitions one after another, with a pause after each: what comes of them, and the files at the end. -/
def processAll (p : Plugin) (toolchain : Toolchain) (c : Configuration) :
    List (Path × Time) → FileSystem → List (Path × Except ProcessError BaseLanguage) × FileSystem
  | [], fs => ([], fs)
  | (definition, pause) :: jobs, fs =>
    let run := (p.process toolchain c definition).run ⟨fs, []⟩
    let rest := p.processAll toolchain c jobs (run.2.files.tick pause)
    ((definition, run.1) :: rest.1, rest.2)

/-- The places that runs on the other languages of some definitions may touch. -/
def Others (p : Plugin) (definitions : List Path) (language : String) (fs : FileSystem) (loc : Location) : Prop :=
  ∃ definition ∈ definitions, ∃ other, languageName definition = .ok other ∧ other ≠ language ∧ p.Touches other fs loc

/-- Definitions with different names, whose languages do not need each other: there are no support files to look for, no
definition is an artifact of another one's language, and no service looks at those. -/
structure Separate (p : Plugin) (toolchain : Toolchain) (c : Configuration) (definitions : List Path)
    (base : FileSystem) : Prop where
  support : c.supportFiles = []
  named : ∀ d ∈ definitions, ∃ language, languageName d = .ok language
  distinct : definitions.Pairwise fun d d' => languageName d ≠ languageName d'
  located : ∀ d ∈ definitions, ∀ language, languageName d = .ok language →
    ∃ loc, base.locate d = .ok loc ∧ ¬ p.Others definitions language base loc
  steady : ∀ d ∈ definitions, ∀ language, languageName d = .ok language →
    (p.regeneration toolchain c d language).Steady (p.Others definitions language base) base

theorem touches_congr (h : SameDirs fs files) : p.Touches language files = p.Touches language fs := by
  rw [Touches, Touches, h.aim]

theorem not_others (hl : languageName definition = .ok language) (definitions : List Path) (fs : FileSystem)
    (a : Artifact) : ¬ p.Others definitions language fs (fs.aim ((p.artifacts language).path a)) := by
  rintro ⟨_, _, other, _, hne, htouched⟩
  exact not_touches hl hne fs a htouched

theorem processAll_frame {jobs : List (Path × Time)} (hg : toolchain.generate.WritesRaw) (hbin : fs.isDir p.bin = true)
    (hjobs : ∀ job ∈ jobs, ∃ language, languageName job.1 = .ok language ∧ ∀ loc, p.Touches language fs loc → S loc) :
    SameBut id S fs (p.processAll toolchain c jobs fs).2 := by
  induction jobs generalizing fs with
  | nil => exact .refl id S fs
  | cons job jobs ih =>
    obtain ⟨⟨language, hl, hS⟩, hjobs⟩ := List.forall_mem_cons.1 hjobs
    cases h : (p.process toolchain c job.1).run ⟨fs, []⟩ with
    | mk outcome r =>
      have hframe := process_frame hl hg h
      rw [prepared_of_isDir hbin] at hframe
      have hnext := (hframe.mono hS).trans (.tick id S r.files job.2)
      rw [processAll, h]
      refine hnext.trans (ih (hnext.isDir hbin) fun job hjob => ?_)
      obtain ⟨other, hother, hS'⟩ := hjobs job hjob
      refine ⟨other, hother, fun loc hloc => hS' loc ?_⟩
      rwa [touches_congr hnext.toSameDirs] at hloc

/-- Runs on other languages leave the artifacts of a language as they are. -/
theorem read_processAll {jobs : List (Path × Time)} (hl : languageName definition = .ok language)
    (hg : toolchain.generate.WritesRaw) (hbin : fs.isDir p.bin = true)
    (hjobs : ∀ job ∈ jobs, ∃ other, languageName job.1 = .ok other ∧ other ≠ language) (a : Artifact) :
    (p.processAll toolchain c jobs fs).2.read ((p.artifacts language).path a)
      = fs.read ((p.artifacts language).path a) := by
  let S (loc : Location) : Prop := ∃ other, other ≠ language ∧ p.Touches other fs loc
  have hframe : SameBut id S fs (p.processAll toolchain c jobs fs).2 := by
    refine processAll_frame hg hbin fun job hjob => ?_
    obtain ⟨other, hother, hne⟩ := hjobs job hjob
    exact ⟨other, hother, fun loc hloc => ⟨other, hne, hloc⟩⟩
  obtain ⟨home, hh⟩ := Artifacts.housed_of_isDir (named_artifacts p hl) hbin
  have hplace : ¬ S (fs.aim ((p.artifacts language).path a)) := by
    rintro ⟨other, hne, htouched⟩
    exact not_touches hl hne fs a htouched
  rw [hh.aim] at hplace
  exact read_congr (hh.stat_sameBut (hframe.viewed Node.contents?) hplace)

/-- Each run comes to what it would come to alone on the files `start`, and what it writes is still there at the end. -/
structure AsAlone (p : Plugin) (toolchain : Toolchain) (c : Configuration) (jobs : List (Path × Time))
    (start fs : FileSystem) : Prop where
  outcomes : (p.processAll toolchain c jobs fs).1
    = jobs.map fun job => (job.1, ((p.process toolchain c job.1).run ⟨start, []⟩).1)
  contents : ∀ job ∈ jobs, ∀ language, languageName job.1 = .ok language → ∀ a,
    (p.processAll toolchain c jobs fs).2.read ((p.artifacts language).path a)
      = ((p.process toolchain c job.1).run ⟨start, []⟩).2.files.read ((p.artifacts language).path a)

/-- Runs on separate languages are as if each were alone, also behind runs on other ones. -/
theorem processAll_alike {definitions : List Path} {jobs : List (Path × Time)}
    (hseparate : p.Separate toolchain c definitions base) (hg : toolchain.generate.WritesRaw)
    (hbin : base.isDir p.bin = true) (hjobs : ∀ job ∈ jobs, job.1 ∈ definitions)
    (hdistinct : jobs.Pairwise fun job job' => languageName job.1 ≠ languageName job'.1)
    (hsame : SameBut id S base fs)
    (hS : ∀ job ∈ jobs, ∀ language, languageName job.1 = .ok language →
      ∀ loc, S loc → p.Others definitions language base loc) : p.AsAlone toolchain c jobs base fs := by
  induction jobs generalizing fs S with
  | nil => exact ⟨rfl, by simp⟩
  | cons job jobs ih =>
    obtain ⟨hjob, hjobs⟩ := List.forall_mem_cons.1 hjobs
    obtain ⟨hfirst, hdistinct⟩ := List.pairwise_cons.1 hdistinct
    obtain ⟨hS, hS'⟩ := List.forall_mem_cons.1 hS
    obtain ⟨language, hl⟩ := hseparate.named _ hjob
    obtain ⟨loc, hloc, hnot⟩ := hseparate.located _ hjob language hl
    have hothers : ∀ job' ∈ jobs, ∀ other, languageName job'.1 = .ok other → other ≠ language := by
      rintro job' hjob' other hother rfl
      exact hfirst job' hjob' (hl.trans hother.symm)
    cases h : (p.process toolchain c job.1).run ⟨base, []⟩ with
    | mk outcome r =>
      cases h' : (p.process toolchain c job.1).run ⟨fs, []⟩ with
      | mk outcome' r' =>
        obtain ⟨rfl, hread⟩ := process_alike hl hbin hseparate.support (not_others hl definitions base) hloc hnot
          (hseparate.steady _ hjob language hl) (hsame.mono (hS language hl)) h h'
        have hframe := process_frame hl hg h'
        rw [prepared_of_isDir (hsame.isDir hbin), touches_congr hsame.toSameDirs] at hframe
        let T (loc : Location) : Prop := S loc ∨ p.Touches language base loc
        have hnext : SameBut id T base (r'.files.tick job.2) :=
          ((hsame.mono fun _ => Or.inl).trans (hframe.mono fun _ => Or.inr)).trans (.tick id T r'.files job.2)
        -- What this run has touched is one of the other languages' for each run behind it.
        have hT : ∀ job' ∈ jobs, ∀ other, languageName job'.1 = .ok other →
            ∀ loc, T loc → p.Others definitions other base loc := by
          rintro job' hjob' other hother loc (hloc | hloc)
          · exact hS' job' hjob' other hother loc hloc
          · exact ⟨job.1, hjob, language, hl, (hothers job' hjob' other hother).symm, hloc⟩
        have hlater := ih hjobs hdistinct hnext hT
        have hall : p.processAll toolchain c (job :: jobs) fs = ((job.1, outcome')
            :: (p.processAll toolchain c jobs (r'.files.tick job.2)).1,
            (p.processAll toolchain c jobs (r'.files.tick job.2)).2) := by rw [processAll, h']
        refine ⟨by rw [hall, List.map_cons, h, hlater.outcomes], ?_⟩
        rw [hall]
        refine List.forall_mem_cons.2 ⟨fun l hl' a => ?_, hlater.contents⟩
        obtain rfl : language = l := Except.ok.inj (hl.symm.trans hl')
        have hkept := read_processAll (c := c) hl hg (hnext.isDir hbin) (fun job' hjob' => by
          obtain ⟨other, hother⟩ := hseparate.named _ (hjobs job' hjob')
          exact ⟨other, hother, hothers job' hjob' other hother⟩) a
        rw [hkept, h, ← hread a]
        exact read_congr (by rw [stat_tick])

/-- The directory of the artifacts can be made, or whoever tries again fails in the same way. -/
def Repeatable (p : Plugin) (fs : FileSystem) : Prop :=
  (p.ensureBin.run fs).1 = .ok ()
    ∨ ∀ pause, p.ensureBin.run ((p.prepared fs).tick pause) = ((p.ensureBin.run fs).1, (p.prepared fs).tick pause)

/-- Directories that have been made do not have to be made by the run. -/
theorem process_prepared {events : List Event} (hl : languageName definition = .ok language)
    (hb : p.ensureBin.run fs = (.ok (), base)) :
    (p.process toolchain c definition).run ⟨fs, events⟩ = (p.process toolchain c definition).run ⟨base, events⟩ := by
  have hrun {files : FileSystem} (h : p.ensureBin.run files = (.ok (), base)) :
      (Step.onFiles p.ensureBin).run ⟨files, events⟩ = (.ok (), ⟨base, events⟩) := by
    rw [Step.onFiles_run, h]
  rw [process_named hl, process_named hl, Action.bind_of_ok (hrun hb),
    Action.bind_of_ok (hrun (ensureBin_of_isDir (isDir_of_ensureBin hb)))]

theorem processAll_unmade {jobs : List (Path × Time)} {e : ProcessError}
    (hnamed : ∀ job ∈ jobs, ∃ language, languageName job.1 = .ok language)
    (hb : ∀ pause, p.ensureBin.run (base.tick pause) = (.error e, base.tick pause)) (pause : Time) :
    (p.processAll toolchain c jobs (base.tick pause)).1 = jobs.map (fun job => (job.1, .error e))
      ∧ ∃ pause', (p.processAll toolchain c jobs (base.tick pause)).2 = base.tick pause' := by
  induction jobs generalizing pause with
  | nil => exact ⟨rfl, pause, rfl⟩
  | cons job jobs ih =>
    obtain ⟨⟨language, hl⟩, hnamed⟩ := List.forall_mem_cons.1 hnamed
    obtain ⟨houtcomes, hfiles⟩ := ih hnamed (pause + job.2)
    rw [processAll, process_unmade hl (hb pause), tick_tick]
    exact ⟨by rw [List.map_cons, houtcomes], hfiles⟩

section first

variable {jobs : List (Path × Time)} (hnamed : ∀ job ∈ jobs, ∃ language, languageName job.1 = .ok language)

include hnamed

/-- The first run makes the directory of the artifacts, and from there on it is as if it had been there all the time. -/
theorem AsAlone.of_made (hb : p.ensureBin.run fs = (.ok (), base)) (h : p.AsAlone toolchain c jobs base base) :
    p.AsAlone toolchain c jobs fs fs := by
  have halone : ∀ job ∈ jobs, (p.process toolchain c job.1).run ⟨fs, []⟩
      = (p.process toolchain c job.1).run ⟨base, []⟩ := by
    intro job hjob
    obtain ⟨language, hl⟩ := hnamed job hjob
    exact process_prepared hl hb
  cases jobs with
  | nil => exact ⟨rfl, by simp⟩
  | cons job jobs =>
    have hfrom : p.processAll toolchain c (job :: jobs) fs = p.processAll toolchain c (job :: jobs) base := by
      rw [processAll, processAll, halone job List.mem_cons_self]
    refine ⟨?_, fun job' hjob' language hl a => ?_⟩
    · rw [hfrom, h.outcomes]
      exact List.map_congr_left fun job' hjob' => by rw [halone job' hjob']
    · rw [hfrom, h.contents job' hjob' language hl a, halone job' hjob']

/-- If the directory cannot be made, no run comes any further than that. -/
theorem AsAlone.of_unmade {e : ProcessError} (hb : p.ensureBin.run fs = (.error e, base))
    (hagain : ∀ pause, p.ensureBin.run (base.tick pause) = (.error e, base.tick pause)) :
    p.AsAlone toolchain c jobs fs fs := by
  have halone : ∀ job ∈ jobs, (p.process toolchain c job.1).run ⟨fs, []⟩ = (.error e, ⟨base, []⟩) := by
    intro job hjob
    obtain ⟨language, hl⟩ := hnamed job hjob
    exact process_unmade hl hb
  cases jobs with
  | nil => exact ⟨rfl, by simp⟩
  | cons job jobs =>
    have hrest : (p.processAll toolchain c jobs (base.tick job.2)).1 = jobs.map (fun job => (job.1, .error e))
        ∧ ∃ pause, (p.processAll toolchain c jobs (base.tick job.2)).2 = base.tick pause :=
      processAll_unmade (List.forall_mem_cons.1 hnamed).2 hagain job.2
    obtain ⟨houtcomes, pause, hfiles⟩ := hrest
    have hall : p.processAll toolchain c (job :: jobs) fs
        = ((job :: jobs).map (fun job => (job.1, .error e)), base.tick pause) := by
      rw [processAll, halone job List.mem_cons_self, houtcomes, hfiles]
      rfl
    refine ⟨?_, fun job' hjob' language hl a => ?_⟩
    · rw [hall]
      exact List.map_congr_left fun job' hjob' => by rw [halone job' hjob']
    · rw [hall, halone job' hjob']
      exact read_congr (by rw [stat_tick])

end first

/-! ## Any order -/

/-- What comes of some definitions that are processed from `fs` on does not depend on their order, nor on the pauses:
each comes to what it comes to alone. -/
structure InAnyOrder (p : Plugin) (toolchain : Toolchain) (c : Configuration) (definitions : List Path)
    (fs : FileSystem) : Prop where
  alone : ∀ jobs, (jobs.map Prod.fst).Perm definitions → p.AsAlone toolchain c jobs fs fs
  outcomes : ∀ jobs jobs', (jobs.map Prod.fst).Perm definitions → (jobs'.map Prod.fst).Perm definitions →
    (p.processAll toolchain c jobs fs).1.Perm (p.processAll toolchain c jobs' fs).1
  contents : ∀ jobs jobs', (jobs.map Prod.fst).Perm definitions → (jobs'.map Prod.fst).Perm definitions →
    ∀ d ∈ definitions, ∀ language, languageName d = .ok language → ∀ a,
      (p.processAll toolchain c jobs fs).2.read ((p.artifacts language).path a)
        = (p.processAll toolchain c jobs' fs).2.read ((p.artifacts language).path a)

/-- Where each run is as if it were alone, the order does not matter. -/
theorem inAnyOrder_of_alone {definitions : List Path}
    (h : ∀ jobs, (jobs.map Prod.fst).Perm definitions → p.AsAlone toolchain c jobs fs fs) :
    p.InAnyOrder toolchain c definitions fs where
  alone := h
  outcomes jobs jobs' hjobs hjobs' := by
    have hmap (jobs : List (Path × Time)) :
        jobs.map (fun job => (job.1, ((p.process toolchain c job.1).run ⟨fs, []⟩).1))
          = (jobs.map Prod.fst).map fun d => (d, ((p.process toolchain c d).run ⟨fs, []⟩).1) := by
      rw [List.map_map]
      rfl
    rw [(h jobs hjobs).outcomes, (h jobs' hjobs').outcomes, hmap, hmap]
    exact (hjobs.trans hjobs'.symm).map _
  contents jobs jobs' hjobs hjobs' d hd language hl a := by
    have hread {jobs : List (Path × Time)} (hjobs : (jobs.map Prod.fst).Perm definitions) :
        (p.processAll toolchain c jobs fs).2.read ((p.artifacts language).path a)
          = ((p.process toolchain c d).run ⟨fs, []⟩).2.files.read ((p.artifacts language).path a) := by
      obtain ⟨job, hjob, rfl⟩ := List.mem_map.1 (hjobs.mem_iff.2 hd)
      exact (h jobs hjobs).contents job hjob language hl a
    rw [hread hjobs, hread hjobs']

theorem inAnyOrder_of_separate {definitions : List Path} (hg : toolchain.generate.WritesRaw)
    (hseparate : p.Separate toolchain c definitions (p.prepared fs)) (hrepeatable : p.Repeatable fs) :
    p.InAnyOrder toolchain c definitions fs := by
  refine inAnyOrder_of_alone fun jobs hjobs => ?_
  have hmem : ∀ job ∈ jobs, job.1 ∈ definitions := fun job hjob => hjobs.mem_iff.1 (List.mem_map_of_mem hjob)
  have hnamed : ∀ job ∈ jobs, ∃ language, languageName job.1 = .ok language :=
    fun job hjob => hseparate.named _ (hmem job hjob)
  have hdistinct : jobs.Pairwise fun job job' => languageName job.1 ≠ languageName job'.1 :=
    (List.pairwise_map (f := Prod.fst)).1 ((hjobs.pairwise_iff fun h => Ne.symm h).2 hseparate.distinct)
  cases hb : p.ensureBin.run fs with
  | mk made base =>
    have hprepared : p.prepared fs = base := congrArg Prod.snd hb
    rw [hprepared] at hseparate
    rw [Repeatable, hprepared, hb] at hrepeatable
    cases made with
    | ok u =>
      have hmade := processAll_alike hseparate hg (isDir_of_ensureBin hb) hmem hdistinct
        (.refl id (fun _ => False) base) fun _ _ _ _ _ h => h.elim
      exact .of_made hnamed hb hmade
    | error e => exact .of_unmade hnamed hb (hrepeatable.resolve_left (by simp))

/-- **Languages of one plugin do not interfere.** Let a generator write raw modules and nothing else. A run on one of
two languages with different names, whatever comes of it, leaves the artifacts of the other one and their status as they
are once the directory of the artifacts has been made. Definitions with different names, if no support files are asked
for and no service looks at the artifacts of other languages, come to the same in any order. -/
theorem languages_apart (p : Plugin) (c : Configuration) (hg : toolchain.generate.WritesRaw) :
    (∀ definition definition' language language' fs outcome r, languageName definition = .ok language →
      languageName definition' = .ok language' → language ≠ language' →
      (p.process toolchain c definition).run ⟨fs, []⟩ = (outcome, r) →
        p.Spares language language' definition' fs r.files)
    ∧ ∀ definitions fs, p.Separate toolchain c definitions (p.prepared fs) → p.Repeatable fs →
        p.InAnyOrder toolchain c definitions fs :=
  ⟨fun _ _ _ _ _ _ _ hl hl' hne h => spares_of_process hl hl' hne hg h,
    fun _ _ hseparate hrepeatable => inAnyOrder_of_separate hg hseparate hrepeatable⟩

/-! ### Examples -/

/-- Among the same directories, the generator of the examples writes as much and says the same. -/
theorem leaving_both {grammar transformation : String} {errors : List String} {out : Path} {home : Location}
    (definition : Path) (h : (⟨out, language⟩ : Artifacts).Housed fs home) (hsame : SameDirs fs files) :
    ((Generator.leaving grammar transformation errors definition language out).run files).1
        = ((Generator.leaving grammar transformation errors definition language out).run fs).1
      ∧ ∃ raws, (⟨out, language⟩ : Artifacts).writeAll raws fs
          = .ok ((Generator.leaving grammar transformation errors definition language out).run fs).2
        ∧ (⟨out, language⟩ : Artifacts).writeAll raws files
          = .ok ((Generator.leaving grammar transformation errors definition language out).run files).2 := by
  rcases h.write_both hsame .grammar grammar.toUTF8 with ⟨e, hw, hw'⟩ | ⟨fs₁, files₁, hw, hw'⟩
  · rw [Generator.leaving, Action.bind_of_error (Disk.write_of_error hw _),
      Action.bind_of_error (Disk.write_of_error hw' _)]
    exact ⟨rfl, [], rfl, rfl⟩
  · have hone := Artifacts.writeAll_one hw
    have hone' := Artifacts.writeAll_one hw'
    have hsame₁ : SameDirs fs₁ files₁ := ((h.sameBut_write hw).symm.trans hsame).trans
      ((h.dirsKept hsame.dirsKept).sameBut_write hw').toSameDirs
    rcases (h.kept (grows_write hw)).write_both hsame₁ .transformation transformation.toUTF8 with
      ⟨e, ht, ht'⟩ | ⟨fs₂, files₂, ht, ht'⟩
    · rw [Generator.leaving, Action.bind_of_ok (Disk.write_of_ok hw _), Action.bind_of_ok (Disk.write_of_ok hw' _),
        Action.bind_of_error (Disk.write_of_error ht _), Action.bind_of_error (Disk.write_of_error ht' _)]
      exact ⟨rfl, [(.grammar, grammar)], hone, hone'⟩
    · have hall := Artifacts.writeAll_append hone (Artifacts.writeAll_one ht)
      have hall' := Artifacts.writeAll_append hone' (Artifacts.writeAll_one ht')
      rw [Generator.leaving_run hall errors definition, Generator.leaving_run hall' errors definition]
      exact ⟨rfl, _, hall, hall'⟩

theorem leaving_reports {grammar transformation : String} {errors : List String} {out : Path} {raw : Generated}
    (definition : Path)
    (h : ((Generator.leaving grammar transformation errors definition language out).run fs).1 = .ok raw) :
    raw.grammar = (⟨out, language⟩ : Artifacts).path .grammar
      ∧ raw.transformation = (⟨out, language⟩ : Artifacts).path .transformation := by
  obtain ⟨_, _, _, h⟩ := Action.bind_eq_ok (Prod.ext h rfl)
  obtain ⟨_, _, _, h⟩ := Action.bind_eq_ok h
  cases h
  exact ⟨rfl, rfl⟩

/-- Services for modules that are stored as texts read nothing but the modules of the language. -/
theorem steady_textual {width : Nat} {grammar transformation : String} {errors : List String}
    (hl : languageName definition = .ok language) (hbin : base.isDir p.bin = true)
    (hown : ∀ a, ¬ S (base.aim ((p.artifacts language).path a))) :
    (p.regeneration (.textual width (.leaving grammar transformation errors)) c definition language).Steady S base := by
  obtain ⟨home, hh⟩ := Artifacts.housed_of_isDir (named_artifacts p hl) hbin
  refine ⟨fun files hsame => leaving_both definition hh hsame.toSameDirs, ?_⟩
  intro kind file hfile fs fs' ⟨hbase, hsame⟩
  have hread (a : Artifact) : fs'.read ((p.artifacts language).path a) = fs.read ((p.artifacts language).path a) :=
    read_congr ((hh.dirsKept hbase.dirsKept).stat_sameBut hsame (hh.aim a ▸ hown a))
  have hparse (a : Artifact) : Toolchain.parseText ((p.artifacts language).path a) kind.startSymbol fs'
      = Toolchain.parseText ((p.artifacts language).path a) kind.startSymbol fs := by
    rw [Toolchain.parseText.eq_def, Toolchain.parseText.eq_def, readText.eq_def, readText.eq_def, hread]
  rcases hfile with rfl | ⟨raw, hraw, hfile⟩
  · exact hparse .transformation
  · obtain ⟨hg, ht⟩ := leaving_reports definition hraw
    rcases hfile with rfl | rfl
    · rw [hg]
      exact hparse .grammar
    · rw [ht]
      exact hparse .transformation

def pairFiles : FileSystem where
  nodes := Table.ofList [([], .dir 0), (["p"], .dir 0), (["src", "p"], .dir 0),
    (["x.b", "src", "p"], .file .empty 0 false), (["y.b", "src", "p"], .file .empty 0 false)]
  workingDir := []
  clock := 1

def pairServices : Toolchain := .textual 40 (.leaving "module(x, [], [])" exampleModule.text [])

theorem languageName_pair : languageName ⟨"p/src/y.b"⟩ = .ok "y" := eq_ok_of_toOption (by decide +kernel)

theorem separate_pair : (Plugin.mk ⟨"p"⟩).Separate pairServices .bare [⟨"p/src/x.b"⟩, ⟨"p/src/y.b"⟩]
    ((Plugin.mk ⟨"p"⟩).prepared pairFiles) := by
  let p : Plugin := ⟨⟨"p"⟩⟩
  have hbin : (p.prepared pairFiles).isDir p.bin = true := by decide +kernel
  have haim : (p.prepared pairFiles).aim p.bin = ["bin", "p"] := by decide +kernel
  have hnot (language : String) (name : String) :
      ¬ p.Others [⟨"p/src/x.b"⟩, ⟨"p/src/y.b"⟩] language (p.prepared pairFiles) [name, "src", "p"] := by
    rintro ⟨_, _, other, _, _, htouched⟩
    rw [Touches, haim] at htouched
    rcases htouched with h | ⟨a, h⟩ <;> simp at h
  have hall {P : Path → String → Prop} (hx : P ⟨"p/src/x.b"⟩ "x") (hy : P ⟨"p/src/y.b"⟩ "y") :
      ∀ d ∈ [⟨"p/src/x.b"⟩, ⟨"p/src/y.b"⟩], ∀ language, languageName d = .ok language → P d language := by
    intro d hd language hl
    simp only [List.mem_cons, List.not_mem_nil, or_false] at hd
    rcases hd with rfl | rfl
    · obtain rfl : "x" = language := Except.ok.inj (languageName_example.symm.trans hl)
      exact hx
    · obtain rfl : "y" = language := Except.ok.inj (languageName_pair.symm.trans hl)
      exact hy
  exact {
    support := rfl
    named := by simp [languageName_example, languageName_pair]
    distinct := by simp [languageName_example, languageName_pair]
    located := hall ⟨["x.b", "src", "p"], eq_ok_of_toOption (by decide +kernel), hnot "x" "x.b"⟩
      ⟨["y.b", "src", "p"], eq_ok_of_toOption (by decide +kernel), hnot "y" "y.b"⟩
    steady := hall (steady_textual languageName_example hbin (not_others languageName_example _ _))
      (steady_textual languageName_pair hbin (not_others languageName_pair _ _)) }

/-- Two languages that are processed in both orders. -/
theorem languages_apart_pair : ∃ outcome r,
    ((Plugin.mk ⟨"p"⟩).process pairServices .bare ⟨"p/src/x.b"⟩).run ⟨pairFiles, []⟩ = (outcome, r)
    ∧ (Plugin.mk ⟨"p"⟩).Spares "x" "y" ⟨"p/src/y.b"⟩ pairFiles r.files
    ∧ ((Plugin.mk ⟨"p"⟩).processAll pairServices .bare [(⟨"p/src/x.b"⟩, 0), (⟨"p/src/y.b"⟩, 0)] pairFiles).1.Perm
      ((Plugin.mk ⟨"p"⟩).processAll pairServices .bare [(⟨"p/src/y.b"⟩, 5), (⟨"p/src/x.b"⟩, 0)] pairFiles).1 := by
  have hg : pairServices.generate.WritesRaw := writesRaw_leaving _ _ _
  have hrepeatable : (Plugin.mk ⟨"p"⟩).Repeatable pairFiles := Or.inl (eq_ok_of_toOption (by decide +kernel))
  have hswap : [⟨"p/src/y.b"⟩, ⟨"p/src/x.b"⟩].Perm [(⟨"p/src/x.b"⟩ : Path), ⟨"p/src/y.b"⟩] := .swap _ _ _
  obtain ⟨hspares, horders⟩ := languages_apart ⟨⟨"p"⟩⟩ .bare hg
  cases h : ((Plugin.mk ⟨"p"⟩).process pairServices .bare ⟨"p/src/x.b"⟩).run ⟨pairFiles, []⟩ with
  | mk outcome r =>
    exact ⟨outcome, r, rfl, hspares _ _ _ _ _ _ _ languageName_example languageName_pair (by decide) h,
      (horders _ _ separate_pair hrepeatable).outcomes _ _ (.refl _) hswap⟩

def HasArtifact (p : Plugin) (path : Path) : Prop :=
  ∃ definition language a, languageName definition = .ok language
    ∧ path.components = ((p.artifacts language).path a).components

theorem not_hasArtifact (p : Plugin) {path : Path} {name : String} (hpath : path.components.getLast? = some name)
    (hname : name.toList.getLast? = some 'b') : ¬ p.HasArtifact path := by
  rintro ⟨definition, language, a, hl, hcomponents⟩
  rw [hcomponents, p.components_artifact hl, List.getLast?_concat, Option.some.injEq] at hpath
  rw [← hpath, Artifacts.fileName] at hname
  cases a <;> simp [Artifact.extension, List.getLast?_append] at hname

theorem not_hasArtifact_x (p : Plugin) : ¬ p.HasArtifact ⟨"p/src/x.b"⟩ := by
  have hx : (⟨"p/src/x.b"⟩ : Path).components.getLast? = some "x.b" := by decide +kernel
  exact p.not_hasArtifact hx (by decide)

theorem not_hasArtifact_y (p : Plugin) : ¬ p.HasArtifact ⟨"p/src/y.b"⟩ := by
  have hy : (⟨"p/src/y.b"⟩ : Path).components.getLast? = some "y.b" := by decide +kernel
  exact p.not_hasArtifact hy (by decide)

/-- A plugin whose second language has artifacts that are newer than its definition. -/
def roundaboutPair : FileSystem where
  nodes := Table.ofList ([([], .dir 0), (["p"], .dir 0), (["src", "p"], .dir 0),
    (["x.b", "src", "p"], .file .empty 0 false), (["y.b", "src", "p"], .file .empty 0 false), (["bin", "p"], .dir 1)]
    ++ Artifact.all.map fun a => (["y." ++ a.extension, "bin", "p"], .file .empty 1 false))
  workingDir := []
  clock := 2

/-- Services whose generator fails. -/
def refusing : Toolchain := .textual 40 fun _ language _ => throw (.definition language ["no"])

theorem writesRaw_refusing : refusing.generate.WritesRaw := fun _ _ _ _ => ⟨[], by simp, rfl⟩

/-- On a path through a directory that is not there yet, nothing is found of a language before a run on another one, and
all of it once the run has made that directory. -/
theorem status_roundaboutPair :
    ((Plugin.mk ⟨"p/m/.."⟩).status ⟨"p/src/y.b"⟩ roundaboutPair).toOption = some .stale
    ∧ ((Plugin.mk ⟨"p/m/.."⟩).status ⟨"p/src/y.b"⟩ (((Plugin.mk ⟨"p/m/.."⟩).process refusing .bare
      ⟨"p/src/x.b"⟩).run ⟨roundaboutPair, []⟩).2.files).toOption = some .fresh := by
  decide +kernel

/-- Services whose generator looks whether the grammar of `x` is there already. -/
def peeking : Toolchain := .textual 40 fun _ language out => do
  let artifacts : Artifacts := ⟨out, language⟩
  let late ← Action.query fun fs => .ok (fs.isFile (out.file "x.sdf"))
  (Disk.write (artifacts.path .grammar) (if late then "late" else "early")).mapFailure
    (.ofOs (.write (artifacts.path .grammar)))
  throw (.definition language ["no"])

theorem writesRaw_peeking : peeking.generate.WritesRaw := by
  intro definition language out fs
  let as : Artifacts := ⟨out, language⟩
  let text := if fs.isFile (out.file "x.sdf") then "late" else "early"
  have hrun : (peeking.generate definition language out).run fs
      = ((Disk.write (as.path .grammar) text).mapFailure (.ofOs (.write (as.path .grammar))) >>= fun _ =>
          (throw (.definition language ["no"]) : Disk ProcessError Generated)).run fs := rfl
  rw [hrun]
  cases hw : fs.write (as.path .grammar) text.toUTF8 with
  | error e =>
    rw [Action.bind_of_error (Disk.write_of_error hw _)]
    exact ⟨[], by simp, rfl⟩
  | ok files =>
    rw [Action.bind_of_ok (Disk.write_of_ok hw _)]
    exact ⟨[(.grammar, text)], by simp, Artifacts.writeAll_one hw⟩

/-- With such a generator the order matters, although it writes nothing but its own grammar. -/
theorem contents_peeking :
    (((Plugin.mk ⟨"p"⟩).processAll peeking .bare [(⟨"p/src/x.b"⟩, 0), (⟨"p/src/y.b"⟩, 0)] pairFiles).2.read
      (((Plugin.mk ⟨"p"⟩).artifacts "y").path .grammar)).toOption = some "late".toUTF8
    ∧ (((Plugin.mk ⟨"p"⟩).processAll peeking .bare [(⟨"p/src/y.b"⟩, 0), (⟨"p/src/x.b"⟩, 0)] pairFiles).2.read
      (((Plugin.mk ⟨"p"⟩).artifacts "y").path .grammar)).toOption = some "early".toUTF8 := by
  decide +kernel

/-- Languages are not apart in general: neither where the way to their artifacts goes through directories that a run
makes, nor where a generator looks at the artifacts of others. -/
theorem not_always_apart :
    (¬ ∀ (p : Plugin) (toolchain : Toolchain) (c : Configuration) (definition definition' : Path)
      (language language' : String) (fs : FileSystem) (outcome : Except ProcessError BaseLanguage) (r : Run),
      toolchain.generate.WritesRaw → languageName definition = .ok language →
      languageName definition' = .ok language' → language ≠ language' → ¬ p.HasArtifact definition →
      ¬ p.HasArtifact definition' → (p.process toolchain c definition).run ⟨fs, []⟩ = (outcome, r) →
      p.status definition' r.files = p.status definition' fs)
    ∧ ¬ ∀ (p : Plugin) (toolchain : Toolchain) (c : Configuration) (definitions : List Path)
      (fs : FileSystem) (jobs jobs' : List (Path × Time)), toolchain.generate.WritesRaw → c.supportFiles = [] →
      (∀ d ∈ definitions, ∃ language, languageName d = .ok language) →
      definitions.Pairwise (fun d d' => languageName d ≠ languageName d') → (∀ d ∈ definitions, ¬ p.HasArtifact d) →
      (jobs.map Prod.fst).Perm definitions → (jobs'.map Prod.fst).Perm definitions →
      ∀ d ∈ definitions, ∀ language, languageName d = .ok language → ∀ a,
        (p.processAll toolchain c jobs fs).2.read ((p.artifacts language).path a)
          = (p.processAll toolchain c jobs' fs).2.read ((p.artifacts language).path a) := by
  constructor
  · intro h
    obtain ⟨hbefore, hafter⟩ := status_roundaboutPair
    cases hrun : ((Plugin.mk ⟨"p/m/.."⟩).process refusing .bare ⟨"p/src/x.b"⟩).run ⟨roundaboutPair, []⟩ with
    | mk outcome r =>
      have hsame := h ⟨⟨"p/m/.."⟩⟩ refusing .bare ⟨"p/src/x.b"⟩ ⟨"p/src/y.b"⟩ "x" "y" roundaboutPair outcome r
        writesRaw_refusing languageName_example languageName_pair (by decide) (not_hasArtifact_x _)
        (not_hasArtifact_y _) hrun
      rw [hrun, hsame, hbefore] at hafter
      cases hafter
  · intro h
    obtain ⟨hlate, hearly⟩ := contents_peeking
    have hsame := h ⟨⟨"p"⟩⟩ peeking .bare [⟨"p/src/x.b"⟩, ⟨"p/src/y.b"⟩] pairFiles
      [(⟨"p/src/x.b"⟩, 0), (⟨"p/src/y.b"⟩, 0)] [(⟨"p/src/y.b"⟩, 0), (⟨"p/src/x.b"⟩, 0)] writesRaw_peeking rfl
      (by simp [languageName_example, languageName_pair]) (by simp [languageName_example, languageName_pair])
      (by simp [not_hasArtifact_x, not_hasArtifact_y]) (.refl _) (.swap _ _ _) ⟨"p/src/y.b"⟩ (by simp) "y"
      languageName_pair .grammar
    rw [hsame, hearly] at hlate
    exact absurd hlate (by decide +kernel)

end Plugin

end BaseLang
