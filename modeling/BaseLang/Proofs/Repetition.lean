import BaseLang.Proofs.Extraction
import BaseLang.Proofs.Regeneration

/-!
# Runs that follow a regeneration

* `Plugin.Settled` : files in which a language is up to date and its profile can be read;
* `Settled.process` : a run on such files only reads them;
* `module_of_process` : a run that succeeds leaves a module in which its profile can be read;
* `settled_of_process` : a regeneration leaves such files, if it writes at a time after the definition's;
* `Plugin.filesAfter`, `Settled.filesAfter` : many runs in such files, with pauses before each;
* `process_repeats` : a regeneration and the runs that follow it agree.
-/

namespace BaseLang

open FileSystem

theorem FileSystem.readText_tick (fs : FileSystem) (pause : Time) (p : Path) :
    (fs.tick pause).readText p = fs.readText p := by
  rw [readText.eq_def, readText.eq_def, FileSystem.read.eq_def, FileSystem.read.eq_def, stat_tick]

theorem BaseLanguage.locate_tick (l : BaseLanguage) (file : Path) (fs : FileSystem) (pause : Time) :
    l.locate file (fs.tick pause) = l.locate file fs := by
  have hi : (fs.tick pause).isFile = fs.isFile := funext (isFile_tick fs pause)
  delta locate
  rw [hi]

namespace Plugin

variable {p : Plugin} {c : Configuration} {definition : Path} {base : BaseLanguage} {fs : FileSystem}
  {language : String} {width : Nat} {generate : Generator}

/-- The language `base` is up to date in `fs`, with all its support files, and its transformation module
declares its profile. -/
structure Settled (p : Plugin) (c : Configuration) (definition : Path) (base : BaseLanguage)
    (fs : FileSystem) : Prop where
  plugin : base.plugin = p
  language : languageName definition = .ok base.name
  bin : fs.isDir p.bin = true
  fresh : Freshness.of fs definition (p.artifacts base.name) = .ok .fresh
  module : ∃ module, Toolchain.parseText ((p.artifacts base.name).path .transformation)
      ModuleKind.transformation.startSymbol fs = .ok module
    ∧ Profile.read module base.name (p.artifacts base.name) = .ok base.profile
  support : ∀ file ∈ c.supportFiles, ∃ path, base.locate file fs = .ok path

/-- The call that a run makes to read the transformation module. -/
def rereading (p : Plugin) (c : Configuration) (language : String) : Event :=
  .parse c.tables.transformation ((p.artifacts language).path .transformation)
    ModuleKind.transformation.startSymbol

theorem Settled.tick (h : Settled p c definition base fs) (pause : Time) :
    Settled p c definition base (fs.tick pause) where
  plugin := h.plugin
  language := h.language
  bin := by rw [isDir_tick, h.bin]
  fresh := by
    have hf := h.fresh
    rw [Freshness.of_eq_fresh_iff] at hf ⊢
    simpa only [Freshness.modified, stat_tick] using hf
  module := by
    obtain ⟨module, hm, hp⟩ := h.module
    refine ⟨module, ?_, hp⟩
    rw [← hm, Toolchain.parseText.eq_def, Toolchain.parseText.eq_def, readText_tick]
  support file hfile := by
    rw [BaseLanguage.locate_tick]
    exact h.support file hfile

/-- A run on such files reads the transformation module and nothing more. -/
theorem Settled.process (h : Settled p c definition base fs) (width : Nat) (generate : Generator) :
    (p.process (.textual width generate) c definition).run ⟨fs, []⟩
      = (.ok { base with freshness := .fresh }, ⟨fs, [p.rereading c base.name]⟩) := by
  obtain ⟨module, hm, hp⟩ := h.module
  let r := p.regeneration (.textual width generate) c definition base.name
  let s : Run := ⟨fs, [p.rereading c base.name]⟩
  have hparse : (r.parse .transformation (r.artifacts.path .transformation)).run ⟨fs, []⟩ = (.ok module, s) := by
    rw [← hm]
    rfl
  have hprofile : (r.profile module).run s = (.ok base.profile, s) := by
    have : Profile.read module r.language r.artifacts = .ok base.profile := hp
    rw [Regeneration.profile, this]
    rfl
  have hobtain : (r.obtain .fresh).run ⟨fs, []⟩ = (.ok base.profile, s) := by
    rw [Regeneration.obtain, Regeneration.reload, Action.bind_of_ok hparse, hprofile]
  have hcheck : (BaseLanguage.checkSupport ⟨base.profile, p, .fresh⟩ c.supportFiles).run s = (.ok (), s) := by
    refine BaseLanguage.checkSupport_eq_ok_iff.2 fun file hfile => ?_
    obtain ⟨path, hpath⟩ := h.support file hfile
    refine ⟨path, ?_⟩
    rw [← h.plugin]
    exact hpath
  rw [process_run h.language (ensureBin_of_isDir h.bin) h.fresh, Action.bind_of_ok hobtain,
    BaseLanguage.checked, Action.bind_of_ok hcheck, Action.pure_run]
  obtain rfl := h.plugin
  rfl

/-! ## Many runs -/

/-- The files after runs one after another, each of them after a pause. -/
def filesAfter (p : Plugin) (toolchain : Toolchain) (c : Configuration) (definition : Path)
    (pauses : List Time) (fs : FileSystem) : FileSystem :=
  pauses.foldl (fun fs pause => ((p.process toolchain c definition).run ⟨fs.tick pause, []⟩).2.files) fs

/-- However many runs there are, only time passes. -/
theorem Settled.filesAfter (h : Settled p c definition base fs) (width : Nat) (generate : Generator)
    (pauses : List Time) :
    p.filesAfter (.textual width generate) c definition pauses fs = fs.tick (pauses.foldr (· + ·) 0) := by
  induction pauses generalizing fs with
  | nil => exact fs.tick_zero.symm
  | cons pause pauses ih =>
    have hrun := (h.tick pause).process width generate
    rw [Plugin.filesAfter, List.foldl_cons, hrun]
    exact (ih (h.tick pause)).trans (fs.tick_tick pause _)

/-! ## Runs after a regeneration -/

/-- A run that succeeds leaves a transformation module in which its profile can be read, whether it has written that
module or found it fresh. -/
theorem module_of_process {r : Run} {events : List Event}
    (h : (p.process (.textual width generate) c definition).run ⟨fs, events⟩ = (.ok base, r)) :
    languageName definition = .ok base.name ∧ ∃ module, Toolchain.parseText
        ((p.artifacts base.name).path .transformation) ModuleKind.transformation.startSymbol r.files = .ok module
      ∧ Profile.read module base.name (p.artifacts base.name) = .ok base.profile := by
  obtain ⟨language, before, hl, _, _, hobtain, _, _⟩ := process_eq_ok h
  suffices hread : ∃ module, Toolchain.parseText ((p.artifacts language).path .transformation)
      ModuleKind.transformation.startSymbol r.files = .ok module
      ∧ Profile.read module language (p.artifacts language) = .ok base.profile by
    obtain ⟨module, hm, hp⟩ := hread
    obtain ⟨_, _, hname, _⟩ := Profile.declared_of_read hp
    obtain rfl : base.name = language := hname
    exact ⟨hl, module, hm, hp⟩
  cases hf : base.freshness with
  | stale =>
    rw [hf] at hobtain
    have hleft := Regeneration.regenerated_of_ok (named_artifacts p hl) hobtain
    obtain ⟨file, raws, module, module', text, time, x, hm, hp, hm', htext, hstat⟩ := hleft.module
    obtain rfl : Toolchain.printText width module' = text := Except.ok.inj htext
    have hnamed : module'.WellNamed := by
      obtain ⟨source, _, hread⟩ := Toolchain.parseText_eq_ok hm
      exact wellNamed_rewritten hm' (wellNamed_of_read hread)
    exact ⟨module', Toolchain.parseText_printed _ hnamed hstat, Profile.read_rewritten hm' hp⟩
  | fresh =>
    rw [hf] at hobtain
    obtain ⟨module, s, hparse, hprofile⟩ := Action.bind_eq_ok hobtain
    obtain ⟨hm, hs⟩ := Regeneration.parse_eq_ok hparse
    obtain ⟨hp, rfl⟩ := Regeneration.profile_eq_ok hprofile
    rw [hs]
    exact ⟨module, hm, hp⟩

/-- A regeneration settles the language, if it writes at a time after the definition's. -/
theorem settled_of_process {r : Run} {d : Time}
    (h : (p.process (.textual width generate) c definition).run ⟨fs, []⟩ = (.ok base, r))
    (hs : base.freshness = .stale) (hd : Freshness.modified r.files definition = .ok d)
    (hlt : d < r.files.clock) : Settled p c definition base r.files := by
  obtain ⟨hname, hmodule⟩ := module_of_process h
  obtain ⟨language, _, hl, _, _, hobtain, hplugin, hcheck⟩ := process_eq_ok h
  obtain rfl : base.name = language := Except.ok.inj (hname.symm.trans hl)
  rw [hs] at hobtain
  have hleft := Regeneration.regenerated_of_ok (named_artifacts p hl) hobtain
  obtain ⟨_, _, _, _, _, _, _, _, _, _, _, hstat⟩ := hleft.module
  exact {
    plugin := hplugin
    language := hl
    bin := isDir_bin_of_stat hl hstat
    fresh := Freshness.of_eq_fresh_iff.2 ⟨d, hd, fun a => ⟨r.files.clock, hleft.times a, hlt⟩⟩
    module := hmodule
    support := BaseLanguage.checkSupport_eq_ok_iff.1 hcheck }

/-- **A regeneration and the runs after it agree.** Let a regeneration succeed and write its artifacts at a
time after the definition's. Then each further run, with any width and any generator, finds them fresh, calls
no service but the parser of the transformation module, changes no file, and gives the same profile. -/
theorem process_repeats {r : Run} {d : Time}
    (h : (p.process (.textual width generate) c definition).run ⟨fs, []⟩ = (.ok base, r))
    (hs : base.freshness = .stale) (hd : Freshness.modified r.files definition = .ok d)
    (hlt : d < r.files.clock) (width' : Nat) (generate' : Generator) (pauses : List Time) (pause : Time) :
    let toolchain := Toolchain.textual width' generate'
    let files := (p.filesAfter toolchain c definition pauses r.files).tick pause
    files = r.files.tick (pauses.foldr (· + ·) 0 + pause)
      ∧ (p.process toolchain c definition).run ⟨files, []⟩
        = (.ok { base with freshness := .fresh }, ⟨files, [p.rereading c base.name]⟩) := by
  have hsettled := settled_of_process h hs hd hlt
  have hfiles : (p.filesAfter (.textual width' generate') c definition pauses r.files).tick pause
      = r.files.tick (pauses.foldr (· + ·) 0 + pause) := by
    rw [hsettled.filesAfter, tick_tick]
  intro toolchain files
  have hf : files = r.files.tick (pauses.foldr (· + ·) 0 + pause) := hfiles
  rw [hf]
  exact ⟨rfl, (hsettled.tick (pauses.foldr (· + ·) 0 + pause)).process width' generate'⟩

/-! ### An example -/

/-- A declaration that defines one name. -/
def defining (name : String) (value : Term) : Term :=
  .appl "Strategies" [.list [.appl "SDefNoArgs" [.str name, .appl "Build" [value]]]]

/-- A generated transformation module with an import, a toplevel nonterminal and the definitions that a language needs. -/
def exampleModule : Term :=
  .appl "Module" [.str "x", .list [.appl "Imports" [.list []], defining "sx-ToplevelDeclaration" (.str "X"),
    defining "sx-extensible-file-ext" (.str "e"), defining "sx-base-file-ext" (.str "b"),
    defining "sx-namespace-kind" (.appl "Op" [.str "SXNamespaceFlat", .list []])]]

/-- A generated grammar with the production `"l" -> S` of a constructor `C`. -/
def exampleGrammar : String :=
  "module(x, [], [exports(context-free-syntax([prod([lit(\"\\\"l\\\"\")], sort(\"S\"), "
  ++ "attrs([cons(\"\\\"C\\\"\")]))]))])"

def exampleFiles : FileSystem where
  nodes := Table.ofList [([], .dir 0), (["p"], .dir 0), (["src", "p"], .dir 0),
    (["x.b", "src", "p"], .file .empty 0 false)]
  workingDir := []
  clock := 1

/-- The first run on the example. -/
def exampleRun : Except ProcessError BaseLanguage × Run :=
  ((Plugin.mk ⟨"p"⟩).process (.textual 40 (.leaving exampleGrammar exampleModule.text [])) .bare
    ⟨"p/src/x.b"⟩).run ⟨exampleFiles, []⟩

theorem exampleRun_outcome : (exampleRun.1.toOption.map (·.freshness),
    (Freshness.modified exampleRun.2.files ⟨"p/src/x.b"⟩).toOption, exampleRun.2.files.clock)
      = (some .stale, some 0, 1) := by
  have hmodule : exampleModule.WellNamed := by decide +kernel
  rw [exampleRun, Toolchain.textual_eq_remembering hmodule]
  decide +kernel

theorem exampleRun_eq : ∃ base r, exampleRun = (.ok base, r) ∧ base.freshness = .stale
    ∧ Freshness.modified r.files ⟨"p/src/x.b"⟩ = .ok 0 ∧ r.files.clock = 1 := by
  have hrun := exampleRun_outcome
  cases h : exampleRun with
  | mk outcome r =>
    rw [h] at hrun
    obtain ⟨hbase, hrest⟩ := Prod.mk.inj hrun
    obtain ⟨hmodified, hclock⟩ := Prod.mk.inj hrest
    cases outcome with
    | error e => cases hbase
    | ok base => exact ⟨base, r, rfl, Option.some.inj hbase, eq_ok_of_toOption hmodified, hclock⟩

/-- The first run on the example finds no artifacts, and its generator can write both modules. -/
theorem exampleRun_stale : ∃ before after,
    (Plugin.mk ⟨"p"⟩).ensureBin.run exampleFiles = (.ok (), before)
      ∧ Freshness.of before ⟨"p/src/x.b"⟩ ((Plugin.mk ⟨"p"⟩).artifacts "x") = .ok .stale
      ∧ ((Plugin.mk ⟨"p"⟩).artifacts "x").writeAll
          [(.grammar, exampleGrammar), (.transformation, exampleModule.text)] before = .ok after := by
  have hbin : ((Plugin.mk ⟨"p"⟩).ensureBin.run exampleFiles).1.toOption = some () := by decide +kernel
  have hs : (Freshness.of ((Plugin.mk ⟨"p"⟩).ensureBin.run exampleFiles).2 ⟨"p/src/x.b"⟩
      ((Plugin.mk ⟨"p"⟩).artifacts "x")).toOption = some .stale := by decide +kernel
  have hw : (((Plugin.mk ⟨"p"⟩).artifacts "x").writeAll
      [(.grammar, exampleGrammar), (.transformation, exampleModule.text)]
      ((Plugin.mk ⟨"p"⟩).ensureBin.run exampleFiles).2).toOption.isSome = true := by decide +kernel
  obtain ⟨after, hafter⟩ := Option.isSome_iff_exists.1 hw
  exact ⟨_, after, Prod.ext (eq_ok_of_toOption hbin) rfl, eq_ok_of_toOption hs, eq_ok_of_toOption hafter⟩

/-- Two runs after that one, at other times, with another width and with a generator that fails. -/
theorem process_repeats_example : ∃ base r, exampleRun = (.ok base, r) ∧ base.freshness = .stale
    ∧ Freshness.modified r.files ⟨"p/src/x.b"⟩ = .ok 0 ∧ 0 < r.files.clock
    ∧ let toolchain := Toolchain.textual 7 fun _ _ _ => throw (.definition "x" [])
      let files := ((Plugin.mk ⟨"p"⟩).filesAfter toolchain .bare ⟨"p/src/x.b"⟩ [2] r.files).tick 3
      files = r.files.tick 5
        ∧ ((Plugin.mk ⟨"p"⟩).process toolchain .bare ⟨"p/src/x.b"⟩).run ⟨files, []⟩
          = (.ok { base with freshness := .fresh }, ⟨files, [(Plugin.mk ⟨"p"⟩).rereading .bare base.name]⟩) := by
  obtain ⟨base, r, h, hs, hd, hclock⟩ := exampleRun_eq
  have hlt : 0 < r.files.clock := by
    rw [hclock]
    decide
  exact ⟨base, r, h, hs, hd, hlt, process_repeats h hs hd hlt 7 _ [2] 3⟩

end Plugin

end BaseLang
