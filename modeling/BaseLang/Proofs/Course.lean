import BaseLang.Proofs.Failure
import BaseLang.Proofs.Repetition

/-!
# Courses of events

What a language goes through: its definition is edited, it is processed with one generator or another, and it is
asked for how fresh it is.

* `Course` : what has happened from a first state of the files to a later one;
* `LastWritten` : the artifacts that the last complete regeneration has written;
* `Tracked` : what is known of the pretty-print table at any time. `Tracked.edit`, `Tracked.process` : each thing
  that happens keeps it so, and so does a whole course (`tracked_of_course`);
* `fresh_of_course` : a language is fresh only behind a complete regeneration, if the pretty-print table is a file;
* `fresh_without_regeneration` : it must be a file.
-/

namespace BaseLang

open FileSystem

/-! ## What happens -/

/-- A generator that changes no files but the two raw modules, whatever it says about them. -/
def Generator.WritesRaw (generate : Generator) : Prop :=
  ∀ definition language out fs, ∃ raws : List (Artifact × String),
    (∀ w ∈ raws, w.1 = .grammar ∨ w.1 = .transformation)
      ∧ (⟨out, language⟩ : Artifacts).writeAll raws fs = .ok ((generate definition language out).run fs).2

/-- Something that happens to a language. -/
inductive Happening where
  | edited
  | processed (run : Run)
  | asked

/-- Neither the definition nor an artifact is written. -/
def Happening.Idle : Happening → Prop
  | .edited => False
  | .processed run => ∀ a, .written a ∉ run.events
  | .asked => True

/-- What has happened since the files were as in `start`, and the files now. Before each thing that happens some
time may pass, and each run has services and settings of its own. -/
inductive Course (p : Plugin) (definition : Path) (start : FileSystem) : List Happening → FileSystem → Prop where
  | start : Course p definition start [] start
  | edit {past : List Happening} {fs fs' : FileSystem} {pause : Time} {contents : ByteArray}
      (before : Course p definition start past fs) (later : 0 ≤ pause)
      (edit : (fs.tick pause).write definition contents = .ok fs') :
      Course p definition start (past ++ [.edited]) fs'
  | process {past : List Happening} {fs : FileSystem} {pause : Time} {toolchain : Toolchain} {c : Configuration}
      {outcome : Except ProcessError BaseLanguage} {r : Run}
      (before : Course p definition start past fs) (later : 0 ≤ pause) (raw : toolchain.generate.WritesRaw)
      (run : (p.process toolchain c definition).run ⟨fs.tick pause, []⟩ = (outcome, r)) :
      Course p definition start (past ++ [.processed r]) r.files
  | ask {past : List Happening} {fs : FileSystem} {pause : Time}
      (before : Course p definition start past fs) (later : 0 ≤ pause) :
      Course p definition start (past ++ [.asked]) (fs.tick pause)

/-- A run that has written all artifacts, with these texts. -/
structure Run.Completed (r : Run) (as : Artifacts) (ws : List (Artifact × String)) : Prop where
  all : ws.map Prod.fst = Regeneration.writingOrder
  wrote : ∃ s, (∀ a, .written a ∉ s.events) ∧ Wrote as ws s r

/-- A run has written all artifacts with these texts, and since then neither the definition nor an artifact has been
written. -/
def LastWritten (as : Artifacts) (past : List Happening) (ws : List (Artifact × String)) : Prop :=
  ∃ before r after, past = before ++ .processed r :: after ∧ r.Completed as ws ∧ ∀ e ∈ after, e.Idle

theorem LastWritten.idle {as : Artifacts} {past : List Happening} {ws : List (Artifact × String)} {e : Happening}
    (h : LastWritten as past ws) (he : e.Idle) : LastWritten as (past ++ [e]) ws := by
  obtain ⟨before, r, after, rfl, hr, hafter⟩ := h
  refine ⟨before, r, after ++ [e], by rw [List.append_assoc, List.cons_append], hr, fun e' he' => ?_⟩
  rcases List.mem_append.1 he' with hm | hm
  · exact hafter e' hm
  · exact List.mem_singleton.1 hm ▸ he

namespace Plugin

variable {p : Plugin} {definition : Path} {language : String} {past : List Happening} {fs fs' start : FileSystem}
  {pause : Time} {e : Happening} {toolchain : Toolchain} {c : Configuration}
  {outcome : Except ProcessError BaseLanguage} {r : Run}

/-- Nothing is where the artifacts of a language belong. -/
def Bare (p : Plugin) (language : String) (fs : FileSystem) : Prop :=
  ∀ a, fs.node? (fs.aim ((p.artifacts language).path a)) = none

def table (p : Plugin) (language : String) : Path := (p.artifacts language).path .prettyTable

/-! ## What is known of the pretty-print table -/

/-- If the definition is older than `t`, the artifacts are as the last complete regeneration has left them at `t`. -/
def Lasts (p : Plugin) (definition : Path) (language : String) (past : List Happening) (fs : FileSystem)
    (t : Time) : Prop :=
  ∀ d, Freshness.modified fs definition = .ok d → d < t → ∃ ws, LastWritten (p.artifacts language) past ws
    ∧ ∀ w ∈ ws, ∃ x, fs.stat ((p.artifacts language).path w.1) = .ok (.file w.2.toUTF8 t x)

/-- What is known of the pretty-print table: it has never been written, or it is the definition itself, or it was
written with the last complete regeneration, or together with the definition. -/
inductive Tracked (p : Plugin) (definition : Path) (language : String) (past : List Happening)
    (fs : FileSystem) : Prop where
  | unwritten (dir : ∀ n, fs.node? (fs.aim (p.table language)) = some n → n.isDir = true)
  | same (definition : fs.locate definition = .ok (fs.aim (p.table language)))
  | written {t : Time} (bin : fs.isDir p.bin = true) (table : Freshness.modified fs (p.table language) = .ok t)
      (clock : t ≤ fs.clock) (last : p.Lasts definition language past fs t)

namespace Tracked

theorem tick (h : Tracked p definition language past fs) (hp : 0 ≤ pause) :
    Tracked p definition language past (fs.tick pause) := by
  cases h with
  | unwritten dir => exact .unwritten dir
  | same hdef => exact .same (by rw [locate_tick]; exact hdef)
  | @written t bin table clock last =>
    have hclock : t ≤ (fs.tick pause).clock := Int.le_trans clock (Int.le_add_of_nonneg_right hp)
    refine .written (by rw [isDir_tick, bin]) (by rw [Freshness.modified_tick, table]) hclock fun d hd hlt => ?_
    rw [Freshness.modified_tick] at hd
    obtain ⟨ws, hws, hstat⟩ := last d hd hlt
    refine ⟨ws, hws, fun w hw => ?_⟩
    rw [stat_tick]
    exact hstat w hw

theorem idle (h : Tracked p definition language past fs) (he : e.Idle) :
    Tracked p definition language (past ++ [e]) fs := by
  cases h with
  | unwritten dir => exact .unwritten dir
  | same hdef => exact .same hdef
  | written bin table clock last =>
    refine .written bin table clock fun d hd hlt => ?_
    obtain ⟨ws, hws, hstat⟩ := last d hd hlt
    exact ⟨ws, hws.idle he, hstat⟩

/-- An edited definition is at least as new as the table. -/
theorem edit {contents : ByteArray} (h : Tracked p definition language past fs)
    (hw : fs.write definition contents = .ok fs') : Tracked p definition language (past ++ [.edited]) fs' := by
  have hgrows := grows_write hw
  have haim := hgrows.aim (p.table language)
  obtain ⟨loc, x, hloc, hfile, hother⟩ := node?_write hw
  cases h with
  | unwritten dir =>
    by_cases he : fs'.aim (p.table language) = loc
    · exact .same (he ▸ hloc)
    · refine .unwritten fun n' hn' => ?_
      obtain ⟨n, hn, hd⟩ := hother _ n' he hn'
      rw [hd]
      exact dir n (by rw [← haim, hn])
  | same hdef => exact .same (by rw [haim]; exact hgrows.locate hdef)
  | written bin table clock last =>
    obtain ⟨t', ht', hnew⟩ := Freshness.modified_of_grows hgrows table
    have hclock : t' ≤ fs'.clock := by
      rw [hgrows.clock]
      rcases hnew with rfl | rfl
      · exact clock
      · exact Int.le_refl _
    refine .written (hgrows.isDir bin) ht' hclock fun d hd hlt => ?_
    have hnow : Freshness.modified fs' definition = .ok fs.clock := by
      rw [Freshness.modified, stat_of_locate hloc hfile]
      rfl
    obtain rfl : fs.clock = d := Except.ok.inj (hnow.symm.trans hd)
    rw [hgrows.clock] at hclock
    exact absurd hlt (Int.not_lt.2 hclock)

theorem ensureBin (h : Tracked p definition language past fs) :
    Tracked p definition language past (p.ensureBin.run fs).2 := by
  have hmade : Made fs (p.ensureBin.run fs).2 := Disk.made_makeDirs p.bin fs
  have haim := hmade.grows.aim (p.table language)
  cases h with
  | unwritten dir =>
    refine .unwritten fun n' hn' => ?_
    cases hd : n'.isDir with
    | true => rfl
    | false =>
      obtain ⟨n, hn, hfile⟩ := hmade.file _ ⟨n', hn', hd⟩
      rw [haim] at hn
      exact hfile.symm.trans (dir n hn)
  | same hdef => exact .same (by rw [haim]; exact hmade.grows.locate hdef)
  | written bin table clock last =>
    rw [ensureBin_of_isDir bin]
    exact .written bin table clock last

/-- If the definition were older than the table, all artifacts would be newer than the definition. -/
theorem not_lt_of_stale {t d : Time} (hs : Freshness.of fs definition (p.artifacts language) = .ok .stale)
    (last : p.Lasts definition language past fs t) (hd : Freshness.modified fs definition = .ok d) : ¬ d < t := by
  intro hlt
  obtain ⟨ws, ⟨_, r, _, _, hr, _⟩, hstat⟩ := last d hd hlt
  have hfresh : Freshness.of fs definition (p.artifacts language) = .ok .fresh := by
    refine Freshness.of_eq_fresh_iff.2 ⟨d, hd, fun a => ?_⟩
    have ha : a ∈ ws.map Prod.fst := hr.all ▸ Regeneration.mem_writingOrder a
    obtain ⟨w, hw, rfl⟩ := List.mem_map.1 ha
    obtain ⟨x, hx⟩ := hstat w hw
    exact ⟨t, by rw [Freshness.modified, hx]; rfl, hlt⟩
  rw [hs] at hfresh
  cases hfresh

/-- A run that has written all artifacts is the last one that has. -/
theorem completed {s : Run} {ws : List (Artifact × String)} (hn : (p.artifacts language).Named)
    (hbin : s.files.isDir p.bin = true) (hnew : ∀ a, .written a ∉ s.events)
    (hw : Wrote (p.artifacts language) ws s r) (horder : ws.map Prod.fst = Regeneration.writingOrder) :
    Tracked p definition language (past ++ [.processed r]) r.files := by
  have hgrows := Artifacts.grows_writeAll hw.files
  have hnodup : (ws.map Prod.fst).Nodup := horder ▸ Regeneration.nodup_writingOrder
  have hm : .prettyTable ∈ ws.map Prod.fst := horder ▸ Regeneration.mem_writingOrder .prettyTable
  have htable : Freshness.modified r.files (p.table language) = .ok s.files.clock := by
    obtain ⟨w, hwm, hpretty⟩ := List.mem_map.1 hm
    obtain ⟨x, hx⟩ := hw.stat hn hnodup hwm
    rw [table, ← hpretty, Freshness.modified, hx]
    rfl
  refine .written (hgrows.isDir hbin) htable (Int.le_of_eq hgrows.clock.symm) fun d hd hlt => ⟨ws, ?_, fun w hw' => ?_⟩
  · exact ⟨past, r, [], rfl, ⟨horder, s, hnew, hw⟩, fun e he => by cases he⟩
  · exact hw.stat hn hnodup hw'

/-- If artifacts were stale and the pretty-print table is not written, they stay so: the definition does not become
older than the table. -/
theorem interrupted {before : FileSystem} {home : Location} {ws : List (Artifact × String)} {past' : List Happening}
    (h : Tracked p definition language past before) (hh : (p.artifacts language).Housed before home)
    (hs : Freshness.of before definition (p.artifacts language) = .ok .stale)
    (hall : (p.artifacts language).writeAll ws before = .ok fs) (hnot : .prettyTable ∉ ws.map Prod.fst) :
    Tracked p definition language past' fs := by
  have hgrows := Artifacts.grows_writeAll hall
  have haim := hgrows.aim (p.table language)
  cases h with
  | unwritten dir =>
    refine .unwritten fun n hn => dir n ?_
    have hplace := hh.aim .prettyTable
    have hkept := hh.node?_writeAll hall hnot
    rw [haim, table, hplace, hkept] at hn
    rw [table, hplace, hn]
  | same hdef => exact .same (by rw [haim]; exact hgrows.locate hdef)
  | @written t bin htable clock last =>
    have hkept : Freshness.modified fs (p.table language) = .ok t := by
      rw [← htable, table, hh.modified_writeAll hall, if_neg hnot]
    refine .written (hgrows.isDir bin) hkept (by rw [hgrows.clock]; exact clock) fun d hd hlt => ?_
    obtain ⟨d₀, hd₀⟩ := Freshness.modified_of_eq_ok hs
    have hold : ¬ d₀ < t := not_lt_of_stale hs last hd₀
    obtain ⟨d₁, hd₁, hnow⟩ := Freshness.modified_of_grows hgrows hd₀
    obtain rfl : d₁ = d := Except.ok.inj (hd₁.symm.trans hd)
    rcases hnow with rfl | rfl
    · exact absurd hlt hold
    · exact absurd hlt (Int.not_lt.2 clock)

/-- A run that takes the artifacts for stale writes the pretty-print table last, or not at all. -/
theorem regenerate {before : FileSystem} (h : Tracked p definition language past before)
    (hl : languageName definition = .ok language) (hg : toolchain.generate.WritesRaw)
    (hb : p.ensureBin.run fs = (.ok (), before))
    (hs : Freshness.of before definition (p.artifacts language) = .ok .stale)
    (hrun : (p.process toolchain c definition).run ⟨fs, []⟩ = (outcome, r)) :
    Tracked p definition language (past ++ [.processed r]) r.files := by
  obtain ⟨s, ws, hfiles, hnew, hw, hprefix, _⟩ := process_wrote hl hb hs hrun
  obtain ⟨raws, hraws, hraw⟩ := hg definition language p.bin before
  rw [← hfiles] at hraw
  have hn := named_artifacts p hl
  have hbin : before.isDir p.bin = true := isDir_of_ensureBin hb
  obtain ⟨home, hh⟩ := Artifacts.housed_of_isDir hn hbin
  by_cases hm : .prettyTable ∈ ws.map Prod.fst
  · have hbin' := (Artifacts.grows_writeAll hraw).isDir hbin
    exact completed hn hbin' hnew hw (Regeneration.eq_writingOrder hprefix hm)
  · refine h.interrupted hh hs (Artifacts.writeAll_append hraw hw.files) ?_
    rw [List.map_append, List.mem_append]
    rintro (hm' | hm')
    · obtain ⟨w, hwm, hw'⟩ := List.mem_map.1 hm'
      rcases hraws w hwm with h | h <;> simp [h] at hw'
    · exact hm hm'

theorem process (h : Tracked p definition language past fs) (hl : languageName definition = .ok language)
    (hg : toolchain.generate.WritesRaw)
    (hrun : (p.process toolchain c definition).run ⟨fs, []⟩ = (outcome, r)) :
    Tracked p definition language (past ++ [.processed r]) r.files := by
  have hbin := h.ensureBin
  by_cases hs : ∃ before, p.ensureBin.run fs = (.ok (), before)
      ∧ Freshness.of before definition (p.artifacts language) = .ok .stale
  · obtain ⟨before, hb, hs⟩ := hs
    rw [hb] at hbin
    exact hbin.regenerate hl hg hb hs hrun
  · obtain ⟨hfiles, hnone⟩ := process_kept hl (fun before hb hf => hs ⟨before, hb, hf⟩) hrun
    have hidle : (Happening.processed r).Idle := hnone
    rw [hfiles]
    exact hbin.idle hidle

end Tracked

theorem tracked_of_bare (h : p.Bare language fs) : Tracked p definition language [] fs := by
  refine .unwritten fun n hn => ?_
  rw [table, h .prettyTable] at hn
  cases hn

/-! ## Courses -/

/-- The pretty-print table is tracked through whatever happens. -/
theorem tracked_of_course (h : Course p definition start past fs) (hl : languageName definition = .ok language)
    (hstart : p.Bare language start) : Tracked p definition language past fs := by
  induction h with
  | start => exact tracked_of_bare hstart
  | edit _ later edit ih => exact (ih.tick later).edit edit
  | process _ later raw run ih => exact (ih.tick later).process hl raw run
  | ask _ later ih => exact (ih.tick later).idle trivial

/-- **A language is fresh only behind a complete regeneration.** Let a language start without artifacts, and let
anything happen to it: edits, runs with generators that write what they like to the raw modules and succeed or fail,
questions. Whenever its artifacts are fresh and the pretty-print table is a file, some run has written all five of
them after the last edit, nothing has been written since, and they hold what that run has written. -/
theorem fresh_of_course (hl : languageName definition = .ok language) (hstart : p.Bare language start)
    (h : Course p definition start past fs) (hfresh : p.status definition fs = .ok .fresh)
    (hfile : fs.isFile ((p.artifacts language).path .prettyTable) = true) :
    ∃ ws, LastWritten (p.artifacts language) past ws
      ∧ ∀ w ∈ ws, fs.read ((p.artifacts language).path w.1) = .ok w.2.toUTF8 := by
  rw [status_eq hl] at hfresh
  obtain ⟨d, hd, hall⟩ := Freshness.of_eq_fresh_iff.1 hfresh
  obtain ⟨t, ht, hlt⟩ := hall .prettyTable
  obtain ⟨n, hs, hn⟩ := Freshness.modified_eq_ok ht
  obtain ⟨loc, hloc, hnode⟩ := stat_eq_ok hs
  have haim : fs.aim (p.table language) = loc := aim_of_locate hloc
  cases tracked_of_course h hl hstart with
  | unwritten dir =>
    have hdir : n.isDir = true := dir n (by rw [haim, hnode])
    rw [isFile, hs] at hfile
    cases n with
    | dir t => cases hfile
    | file => cases hdir
  | same hdef =>
    -- The definition cannot be older than itself.
    rw [haim] at hdef
    rw [Freshness.modified, stat_of_locate hdef hnode] at hd
    obtain rfl : n.modified = d := Except.ok.inj hd
    rw [hn] at hlt
    exact absurd hlt (Int.lt_irrefl t)
  | @written t' _ table _ last =>
    obtain rfl : t' = t := Except.ok.inj (table.symm.trans ht)
    obtain ⟨ws, hws, hstat⟩ := last d hd hlt
    refine ⟨ws, hws, fun w hw => ?_⟩
    obtain ⟨x, hx⟩ := hstat w hw
    rw [FileSystem.read, hx]

/-! ### Examples -/

theorem writesRaw_leaving (grammar transformation : String) (errors : List String) :
    (Generator.leaving grammar transformation errors).WritesRaw := by
  intro definition language out fs
  let as : Artifacts := ⟨out, language⟩
  cases hg : fs.write (as.path .grammar) grammar.toUTF8 with
  | error e =>
    refine ⟨[], by simp, ?_⟩
    rw [Generator.leaving, Action.bind_of_error (Disk.write_of_error hg _)]
    rfl
  | ok fs₁ =>
    have hone : as.writeAll [(.grammar, grammar)] fs = .ok fs₁ := Artifacts.writeAll_one hg
    cases ht : fs₁.write (as.path .transformation) transformation.toUTF8 with
    | error e =>
      refine ⟨[(.grammar, grammar)], by simp, ?_⟩
      rw [Generator.leaving, Action.bind_of_ok (Disk.write_of_ok hg _), Action.bind_of_error (Disk.write_of_error ht _)]
      exact hone
    | ok fs₂ =>
      have hall := Artifacts.writeAll_append hone (Artifacts.writeAll_one ht)
      refine ⟨[(.grammar, grammar), (.transformation, transformation)], by simp, ?_⟩
      rw [Generator.leaving_run hall errors definition]
      exact hall

/-- The files of the example before its first run. -/
def unprocessedFiles : FileSystem := { exampleFiles with clock := 0 }

/-- The run of the example, after which somebody asks. -/
theorem fresh_of_course_example : ∃ r,
    (Plugin.mk ⟨"p"⟩).Bare "x" unprocessedFiles
      ∧ Course ⟨⟨"p"⟩⟩ ⟨"p/src/x.b"⟩ unprocessedFiles [.processed r, .asked] (r.files.tick 3)
      ∧ (Plugin.mk ⟨"p"⟩).status ⟨"p/src/x.b"⟩ (r.files.tick 3) = .ok .fresh
      ∧ (r.files.tick 3).isFile (((Plugin.mk ⟨"p"⟩).artifacts "x").path .prettyTable) = true
      ∧ ∃ ws, LastWritten ((Plugin.mk ⟨"p"⟩).artifacts "x") [.processed r, .asked] ws
        ∧ ∀ w ∈ ws, (r.files.tick 3).read (((Plugin.mk ⟨"p"⟩).artifacts "x").path w.1) = .ok w.2.toUTF8 := by
  have hbare : (Plugin.mk ⟨"p"⟩).Bare "x" unprocessedFiles := by
    have hnone : ∀ a ∈ Artifact.all, (unprocessedFiles.node? (unprocessedFiles.aim
        (((Plugin.mk ⟨"p"⟩).artifacts "x").path a))).isNone = true := by decide +kernel
    exact fun a => Option.isNone_iff_eq_none.1 (hnone a (Artifact.mem_all a))
  obtain ⟨base, r, h, hs, hmodified, hclock⟩ := exampleRun_eq
  obtain ⟨before, after, hb, hstale, _⟩ := exampleRun_stale
  have hlt : 0 < r.files.clock := by
    rw [hclock]
    decide
  have hsettled := settled_of_process h hs hmodified hlt
  have hname : base.name = "x" := Except.ok.inj (hsettled.language.symm.trans languageName_example)
  have hfresh : (Plugin.mk ⟨"p"⟩).status ⟨"p/src/x.b"⟩ (r.files.tick 3) = .ok .fresh := by
    rw [status_eq languageName_example, ← hname]
    exact (hsettled.tick 3).fresh
  have hfile : (r.files.tick 3).isFile (((Plugin.mk ⟨"p"⟩).artifacts "x").path .prettyTable) = true := by
    obtain ⟨s, ws, _, _, hw, _, hall⟩ := process_wrote languageName_example hb hstale h
    have horder := hall base rfl
    have hm : .prettyTable ∈ ws.map Prod.fst := horder ▸ Regeneration.mem_writingOrder .prettyTable
    obtain ⟨w, hwm, hpretty⟩ := List.mem_map.1 hm
    obtain ⟨x, hx⟩ := hw.stat (named_artifacts _ languageName_example) (horder ▸ Regeneration.nodup_writingOrder) hwm
    rw [isFile_tick, isFile, ← hpretty, hx]
  have hlater : ((Plugin.mk ⟨"p"⟩).process (.textual 40 (.leaving exampleGrammar exampleModule.text [])) .bare
      ⟨"p/src/x.b"⟩).run ⟨unprocessedFiles.tick 1, []⟩ = (.ok base, r) := h
  have hprocessed := Course.process .start (by decide) (writesRaw_leaving _ _ _) hlater
  have hcourse : Course ⟨⟨"p"⟩⟩ ⟨"p/src/x.b"⟩ unprocessedFiles [.processed r, .asked] (r.files.tick 3) :=
    .ask hprocessed (by decide)
  exact ⟨r, hbare, hcourse, hfresh, hfile, fresh_of_course languageName_example hbare hcourse hfresh hfile⟩

/-- A plugin whose root is said to be above the pretty-print table of a language in its own `bin`. -/
def roundabout : Plugin := ⟨⟨"p/bin/x.pp/../.."⟩⟩

def roundaboutRun : Except ProcessError BaseLanguage × Run :=
  (roundabout.process (.textual 40 (.leaving "module(x, [], [])" exampleModule.text [])) .bare ⟨"p/src/x.b"⟩).run
    ⟨unprocessedFiles.tick 1, []⟩

theorem roundaboutRun_outcome : (roundaboutRun.1.toOption.isSome, roundaboutRun.2.events.filterMap Event.artifact?,
    (roundabout.status ⟨"p/src/x.b"⟩ roundaboutRun.2.files).toOption)
      = (false, [.transformation, .grammar, .editorServices, .packagedGrammar], some .fresh) := by
  have hmodule : exampleModule.WellNamed := by decide +kernel
  rw [roundaboutRun, Toolchain.textual_eq_remembering hmodule]
  decide +kernel

/-- The way to the directory of the artifacts is made with a directory where the pretty-print table belongs. The table
cannot be written, and its directory is taken for a fresh artifact. -/
theorem fresh_without_regeneration : ∃ e r, roundaboutRun = (.error e, r)
    ∧ roundabout.Bare "x" unprocessedFiles
    ∧ Course roundabout ⟨"p/src/x.b"⟩ unprocessedFiles [.processed r] r.files
    ∧ roundabout.status ⟨"p/src/x.b"⟩ r.files = .ok .fresh
    ∧ ¬ ∃ ws, LastWritten (roundabout.artifacts "x") [.processed r] ws := by
  have hbare : roundabout.Bare "x" unprocessedFiles := by
    have hnone : ∀ a ∈ Artifact.all, (unprocessedFiles.node? (unprocessedFiles.aim
        ((roundabout.artifacts "x").path a))).isNone = true := by decide +kernel
    exact fun a => Option.isNone_iff_eq_none.1 (hnone a (Artifact.mem_all a))
  have hrun := roundaboutRun_outcome
  cases h : roundaboutRun with
  | mk outcome r =>
    rw [h] at hrun
    obtain ⟨houtcome, hrest⟩ := Prod.mk.inj hrun
    obtain ⟨hevents, hstatus⟩ := Prod.mk.inj hrest
    have hcourse : Course roundabout ⟨"p/src/x.b"⟩ unprocessedFiles ([] ++ [.processed r]) r.files :=
      .process .start (by decide) (writesRaw_leaving _ _ _) h
    cases outcome with
    | ok base => cases houtcome
    | error e =>
      refine ⟨e, r, rfl, hbare, hcourse, eq_ok_of_toOption hstatus, ?_⟩
      rintro ⟨ws, before, r', after, hpast, hr, _⟩
      obtain ⟨s, hs, hw⟩ := hr.wrote
      have hm : .processed r' ∈ [Happening.processed r] := by
        rw [hpast]
        exact List.mem_append_right before List.mem_cons_self
      obtain rfl : r' = r := Happening.processed.inj (List.mem_singleton.1 hm)
      have hwritten : .written .prettyTable ∈ r'.events := by
        rw [hw.written_iff (hs _), hr.all]
        exact Regeneration.mem_writingOrder .prettyTable
      have hlisted : Artifact.prettyTable ∈ r'.events.filterMap Event.artifact? := Event.mem_artifacts.2 hwritten
      rw [show r'.events.filterMap Event.artifact?
        = [.transformation, .grammar, .editorServices, .packagedGrammar] from hevents] at hlisted
      exact absurd hlisted (by decide)

end Plugin

end BaseLang
