import BaseLang.Proofs.Course
import BaseLang.Proofs.Decision

/-!
# What a run leaves alone

A run on one language changes its own artifacts and the time of their directory. The artifacts of another language are
other files, and stay as they are.

* `FileSystem.SameDirs` : the same directories;
* `FileSystem.SameBut` : the same directories, and the same view of the nodes outside of a set of places;
* `IsTree.makeDirs` : in a tree, no file changes when directories are made;
* `Artifacts.fileName_inj`, `Plugin.components_ne` : artifacts of two languages are told apart by their names;
* `Artifacts.Touches`, `Housed.sameBut_writeAll` : the places that are touched when artifacts are written;
* `Plugin.process_frame` : a run touches nothing else, whatever comes of it;
* `Plugin.Spares`, `Plugin.spares_of_process` : what a run on one language means for another one.
-/

namespace BaseLang

namespace Node

def contents? : Node → Option ByteArray
  | dir _ => none
  | file contents .. => some contents

end Node

namespace FileSystem

variable {α : Type} {view : Node → α} {S S' : Location → Prop} {fs fs' fs'' : FileSystem} {loc loc' : Location}
  {names : List String} {p : Path}

/-! ## The same directories -/

/-- The same directories, and paths start from the same one. -/
structure SameDirs (fs fs' : FileSystem) : Prop where
  workingDir : fs'.workingDir = fs.workingDir
  hasDir : ∀ loc, fs'.HasDir loc ↔ fs.HasDir loc

namespace SameDirs

theorem refl (fs : FileSystem) : SameDirs fs fs := ⟨rfl, fun _ => Iff.rfl⟩

theorem trans (h : SameDirs fs fs') (h' : SameDirs fs' fs'') : SameDirs fs fs'' :=
  ⟨h'.workingDir.trans h.workingDir, fun loc => (h'.hasDir loc).trans (h.hasDir loc)⟩

theorem symm (h : SameDirs fs fs') : SameDirs fs' fs := ⟨h.workingDir.symm, fun loc => (h.hasDir loc).symm⟩

theorem dirsKept (h : SameDirs fs fs') : DirsKept fs fs' := ⟨h.workingDir, fun loc => (h.hasDir loc).2⟩

theorem aim (h : SameDirs fs fs') (p : Path) : fs'.aim p = fs.aim p := by
  unfold FileSystem.aim
  rw [h.workingDir]

theorem locate (h : SameDirs fs fs') (hl : fs.locate p = .ok loc) : fs'.locate p = .ok loc := h.dirsKept.follow hl

theorem isDir (h : SameDirs fs fs') (hd : fs.isDir p = true) : fs'.isDir p = true := by
  obtain ⟨loc, hl, hdir⟩ := isDir_iff.1 hd
  exact isDir_iff.2 ⟨loc, h.locate hl, (h.hasDir loc).2 hdir⟩

end SameDirs

/-! ## The same nodes -/

/-- The same directories, and the same view of each node outside of `S`. -/
structure SameBut (view : Node → α) (S : Location → Prop) (fs fs' : FileSystem) : Prop extends SameDirs fs fs' where
  node : ∀ loc, ¬ S loc → (fs'.node? loc).map view = (fs.node? loc).map view

namespace SameBut

theorem refl (view : Node → α) (S : Location → Prop) (fs : FileSystem) : SameBut view S fs fs :=
  ⟨.refl fs, fun _ _ => rfl⟩

theorem trans (h : SameBut view S fs fs') (h' : SameBut view S fs' fs'') : SameBut view S fs fs'' :=
  ⟨h.toSameDirs.trans h'.toSameDirs, fun loc hS => (h'.node loc hS).trans (h.node loc hS)⟩

theorem mono (h : SameBut view S fs fs') (hS : ∀ loc, S loc → S' loc) : SameBut view S' fs fs' :=
  ⟨h.toSameDirs, fun loc hn => h.node loc (mt (hS loc) hn)⟩

theorem tick (view : Node → α) (S : Location → Prop) (fs : FileSystem) (pause : Time) :
    SameBut view S fs (fs.tick pause) := ⟨⟨rfl, fun _ => Iff.rfl⟩, fun _ _ => rfl⟩

theorem node?_eq (h : SameBut id S fs fs') (hS : ¬ S loc) : fs'.node? loc = fs.node? loc := by
  simpa using h.node loc hS

theorem viewed (h : SameBut id S fs fs') (view : Node → α) : SameBut view S fs fs' :=
  ⟨h.toSameDirs, fun _ hS => by rw [h.node?_eq hS]⟩

/-- A path that means the same place in both shows the same, if this place is not in `S`. -/
theorem stat (h : SameBut view S fs fs') (hl : fs'.locate p = fs.locate p)
    (hS : ∀ loc, fs.locate p = .ok loc → ¬ S loc) : (fs'.stat p).map view = (fs.stat p).map view := by
  rw [FileSystem.stat, FileSystem.stat, hl]
  cases hloc : fs.locate p with
  | error e => rfl
  | ok loc =>
    have hnode := h.node loc (hS loc hloc)
    cases hn : fs.node? loc with
    | none =>
      rw [hn, Option.map_none, Option.map_eq_none_iff] at hnode
      simp only [hn, hnode]
    | some n =>
      rw [hn, Option.map_some] at hnode
      obtain ⟨n', hn', hview⟩ := Option.map_eq_some_iff.1 hnode
      simp only [hn, hn', Except.map, hview]

theorem stat_eq (h : SameBut id S fs fs') (hl : fs.locate p = .ok loc) (hS : ¬ S loc) : fs'.stat p = fs.stat p := by
  have hstat := h.stat ((h.locate hl).trans hl.symm) fun l hl' => by
    obtain rfl : loc = l := Except.ok.inj (hl.symm.trans hl')
    exact hS
  simpa [Except.map_id] using hstat

end SameBut

theorem read_congr (h : (fs'.stat p).map Node.contents? = (fs.stat p).map Node.contents?) : fs'.read p = fs.read p := by
  have hread (fs : FileSystem) : fs.read p = match (fs.stat p).map Node.contents? with
      | .ok (some contents) => .ok contents
      | .ok none => .error .isDirectory
      | .error e => .error e := by
    rw [read]
    cases fs.stat p with
    | error e => rfl
    | ok n => cases n <;> rfl
  rw [hread fs', hread fs, h]

/-! ## Files of a tree -/

/-- A way in a tree leads to a directory, or to a place in one. -/
theorem IsTree.hasDir_of_walk (ht : fs.IsTree) (hs : fs.HasDir loc ∨ fs.HasDir loc.tail)
    (h : fs.walk loc names = .ok loc') : fs.HasDir loc' ∨ fs.HasDir loc'.tail := by
  induction names generalizing loc with
  | nil =>
    cases h
    exact hs
  | cons name names ih =>
    have hd := hasDir_of_walk_cons h
    rw [walk_cons_of_hasDir hd] at h
    split at h
    · exact ih (Or.inl hd) h
    · split at h
      · exact ih (Or.inl (ht.hasDir_of_suffix hd (List.tail_suffix loc))) h
      · split at h
        · cases h
        · have habove : fs.HasDir (name :: loc).tail := hd
          exact ih (Or.inr habove) h

theorem IsTree.hasDir_of_follow (ht : fs.IsTree) (hne : names ≠ []) (h : fs.follow p names = .ok loc) :
    fs.HasDir loc ∨ fs.HasDir loc.tail := by
  obtain ⟨name, names, rfl⟩ := List.exists_cons_of_ne_nil hne
  have hw := (follow_eq_ok h).2
  exact ht.hasDir_of_walk (Or.inl (hasDir_of_walk_cons hw)) hw

/-- What is put into a directory of a tree is the only new file: the directory has a new time, and nothing else. -/
theorem IsTree.add (ht : fs.IsTree) (node : Node) (hnone : fs.node? loc = none) (htime : node.modified = fs.clock)
    (habove : fs.HasDir loc.tail) : (fs.add loc node).IsTree
    ∧ ∀ l n, n.isDir = false → l ≠ loc → ((fs.add loc node).node? l = some n ↔ fs.node? l = some n) := by
  have hkept := (grows_add hnone htime).dirsKept
  obtain ⟨t, hdir⟩ := habove
  constructor
  · intro name l n hn
    refine hkept.hasDir l ?_
    rw [node?_add] at hn
    split at hn
    · rename_i he
      rw [he] at hdir
      exact ⟨t, hdir⟩
    · obtain ⟨n', hn', _⟩ := Option.map_eq_some_iff.1 hn
      exact ht name l n' hn'
  · intro l n hfile hne
    rw [node?_add, if_neg (Ne.symm hne)]
    by_cases htail : l = loc.tail
    · rw [htail, hdir, Option.map_some, if_pos rfl]
      constructor
      · rintro ⟨⟩
        cases hfile
      · rintro ⟨⟩
        cases hfile
    · simp [htail]

/-- A directory that is made in a tree has a directory above it, so no file has a new time. -/
theorem IsTree.makeDir (ht : fs.IsTree) (h : fs.makeDir p = .ok fs') :
    fs'.IsTree ∧ ∀ l n, n.isDir = false → (fs'.node? l = some n ↔ fs.node? l = some n) := by
  obtain ⟨loc, hl, hnone, rfl⟩ := makeDir_eq_ok h
  have hnot : ¬ fs.HasDir loc := by
    rintro ⟨t, hdir⟩
    rw [hnone] at hdir
    cases hdir
  have habove := (ht.hasDir_of_follow (Path.segments_ne_nil _) hl).resolve_left hnot
  obtain ⟨ht', hsame⟩ := ht.add (.dir fs.clock) hnone rfl habove
  refine ⟨ht', fun l n hfile => ?_⟩
  by_cases he : l = loc
  · rw [he, node?_add, if_pos rfl, hnone]
    constructor
    · rintro ⟨⟩
      cases hfile
    · rintro ⟨⟩
  · exact hsame l n hfile he

theorem IsTree.makeDirs (ht : fs.IsTree) (p : Path) : ((Disk.makeDirs p).run fs).2.IsTree
    ∧ ∀ l n, n.isDir = false → (((Disk.makeDirs p).run fs).2.node? l = some n ↔ fs.node? l = some n) := by
  let R (fs fs' : FileSystem) : Prop := fs.IsTree →
    fs'.IsTree ∧ ∀ l n, n.isDir = false → (fs'.node? l = some n ↔ fs.node? l = some n)
  have hrefl (fs : FileSystem) : R fs fs := fun ht => ⟨ht, fun _ _ _ => Iff.rfl⟩
  have htrans {fs fs' fs'' : FileSystem} (h : R fs fs') (h' : R fs' fs'') : R fs fs'' := by
    intro ht
    obtain ⟨ht', hsame⟩ := h ht
    obtain ⟨ht'', hsame'⟩ := h' ht'
    exact ⟨ht'', fun l n hfile => (hsame' l n hfile).trans (hsame l n hfile)⟩
  exact Disk.rel_makeDirs hrefl htrans p (fun _ _ _ _ h ht => ht.makeDir h) fs ht

end FileSystem

open FileSystem

/-! ## Artifacts of two languages -/

namespace Artifacts

variable {α : Type} {view : Node → α} {S : Location → Prop} {as as' : Artifacts} {a b : Artifact}
  {fs fs' : FileSystem} {home loc : Location}

/-- No extension has a dot in it, so the name of a language can be told from the name of each of its artifacts. -/
theorem fileName_inj (h : as.fileName a = as'.fileName b) : as.language = as'.language := by
  have hsplit (as : Artifacts) (a : Artifact) : Text.splitLast '.' (as.fileName a).toList
      = some (as.language.toList, a.extension.toList) := by
    refine Text.splitLast_eq_some_iff.2 ⟨?_, a.dot_notMem_extension⟩
    simp [fileName]
  have hboth := (hsplit as a).symm.trans ((congrArg (fun s => Text.splitLast '.' s.toList) h).trans (hsplit as' b))
  exact String.toList_inj.1 (Prod.mk.inj (Option.some.inj hboth)).1

/-- The places that are touched when artifacts are written: their own, and their directory. -/
def Touches (as : Artifacts) (home loc : Location) : Prop := loc = home ∨ ∃ a, loc = as.fileName a :: home

theorem not_touches (h : as.language ≠ as'.language) (home : Location) (b : Artifact) :
    ¬ as.Touches home (as'.fileName b :: home) := by
  rintro (he | ⟨a, he⟩)
  · exact List.cons_ne_self _ _ he
  · exact h (fileName_inj (List.cons.inj he).1.symm)

theorem Housed.sameBut_write {contents : ByteArray} (h : as.Housed fs home)
    (hw : fs.write (as.path a) contents = .ok fs') : SameBut id (as.Touches home) fs fs' := by
  have hgrows := grows_write hw
  obtain ⟨_, hdir, rfl⟩ := h.write_eq_ok hw
  obtain ⟨x, hx⟩ := node?_store_self fs (as.fileName a :: home) contents false
  have hother (loc : Location) (hne : loc ≠ home) (hne' : loc ≠ as.fileName a :: home) :
      (fs.store (as.fileName a :: home) contents false).node? loc = fs.node? loc :=
    node?_store_of_ne hne' hne contents false
  refine ⟨⟨hgrows.workingDir, fun loc => ⟨fun hloc => ?_, hgrows.dirsKept.hasDir loc⟩⟩, fun loc hloc => ?_⟩
  · by_cases hhome : loc = home
    · rw [hhome]
      exact h.hasDir
    · by_cases hplace : loc = as.fileName a :: home
      · obtain ⟨t, ht⟩ := hloc
        rw [hplace, hx] at ht
        cases ht
      · obtain ⟨t, ht⟩ := hloc
        exact ⟨t, (hother loc hhome hplace).symm.trans ht⟩
  · simp only [Touches, not_or, not_exists] at hloc
    rw [hother loc hloc.1 (hloc.2 a)]

/-- Whatever artifacts are written, nothing else is touched. -/
theorem Housed.sameBut_writeAll {ws : List (Artifact × String)} (h : as.Housed fs home)
    (hw : as.writeAll ws fs = .ok fs') : SameBut id (as.Touches home) fs fs' := by
  induction ws generalizing fs with
  | nil =>
    cases hw
    exact .refl id _ _
  | cons w ws ih =>
    obtain ⟨fs₁, hw₁, hws⟩ := writeAll_cons_eq_ok hw
    exact (h.sameBut_write hw₁).trans (ih (h.kept (grows_write hw₁)) hws)

theorem Housed.stat_sameBut (h : as.Housed fs home) (hsame : SameBut view S fs fs') (hS : ¬ S (as.fileName a :: home)) :
    (fs'.stat (as.path a)).map view = (fs.stat (as.path a)).map view := by
  refine hsame.stat (by rw [(h.dirsKept hsame.dirsKept).locate, h.locate]) fun loc hloc => ?_
  rw [h.locate] at hloc
  rwa [place_eq_ok hloc]

end Artifacts

namespace Freshness

variable {fs fs' : FileSystem} {source : Time} {definition : Path} {as : Artifacts}

theorem check_congr {paths : List Path} (h : ∀ p ∈ paths, fs'.stat p = fs.stat p) :
    check fs' source paths = check fs source paths := by
  induction paths with
  | nil => rfl
  | cons p paths ih =>
    obtain ⟨hp, hpaths⟩ := List.forall_mem_cons.1 h
    rw [check, check, modified, modified, hp, ih hpaths]

theorem of_congr (hd : fs'.stat definition = fs.stat definition)
    (ha : ∀ a, fs'.stat (as.path a) = fs.stat (as.path a)) : of fs' definition as = of fs definition as := by
  have hall : ∀ p ∈ as.paths, fs'.stat p = fs.stat p := by
    intro p hp
    obtain ⟨a, _, rfl⟩ := List.mem_map.1 hp
    exact ha a
  rw [of, of, modified, modified, hd]
  simp only [check_congr hall]

end Freshness

namespace Plugin

variable {p : Plugin} {toolchain : Toolchain} {c : Configuration} {definition definition' : Path}
  {language language' : String} {fs : FileSystem} {loc : Location} {outcome : Except ProcessError BaseLanguage}
  {r : Run}

theorem components_artifact (p : Plugin) (hl : languageName definition = .ok language) (a : Artifact) :
    ((p.artifacts language).path a).components = p.bin.components ++ [(p.artifacts language).fileName a] := by
  have hs := languageName_eq_ok hl
  obtain ⟨_, _, hne⟩ := Path.stem?_eq_some hs
  exact Path.components_file p.bin (Path.isName_dotted hne (Path.notMem_stem hs) a.notMem_extension)

/-- The paths of two languages' artifacts do not even differ only in how they are written. -/
theorem components_ne (p : Plugin) (hl : languageName definition = .ok language)
    (hl' : languageName definition' = .ok language') (hne : language ≠ language') (a b : Artifact) :
    ((p.artifacts language').path b).components ≠ ((p.artifacts language).path a).components := by
  rw [p.components_artifact hl', p.components_artifact hl]
  intro h
  have hlast := List.append_cancel_left h
  exact hne (Artifacts.fileName_inj (List.cons.inj hlast).1).symm

/-- The places that a run on a language may touch. -/
def Touches (p : Plugin) (language : String) (fs : FileSystem) : Location → Prop :=
  (p.artifacts language).Touches (fs.aim p.bin)

theorem not_touches (hl' : languageName definition' = .ok language') (hne : language ≠ language') (fs : FileSystem)
    (b : Artifact) : ¬ p.Touches language fs (fs.aim ((p.artifacts language').path b)) := by
  have hlanguages : (p.artifacts language).language ≠ (p.artifacts language').language := hne
  rw [(named_artifacts p hl').aim]
  exact Artifacts.not_touches hlanguages _ b

/-- The files once the directory of the artifacts has been made, or as much of the way to it as can be made. -/
def prepared (p : Plugin) (fs : FileSystem) : FileSystem := (p.ensureBin.run fs).2

theorem grows_prepared (p : Plugin) (fs : FileSystem) : Grows fs (p.prepared fs) := (Disk.made_makeDirs p.bin fs).grows

theorem prepared_of_isDir (h : fs.isDir p.bin = true) : p.prepared fs = fs := by
  rw [prepared, ensureBin_of_isDir h]

/-- **A run touches its own artifacts and their directory.** Behind the directories that it makes, everything else stays
as it is, whatever comes of the run. -/
theorem process_frame (hl : languageName definition = .ok language) (hg : toolchain.generate.WritesRaw)
    (h : (p.process toolchain c definition).run ⟨fs, []⟩ = (outcome, r)) :
    SameBut id (p.Touches language fs) (p.prepared fs) r.files := by
  by_cases hs : ∃ before, p.ensureBin.run fs = (.ok (), before)
      ∧ Freshness.of before definition (p.artifacts language) = .ok .stale
  · obtain ⟨before, hb, hs⟩ := hs
    obtain ⟨s, ws, hfiles, _, hw, _⟩ := process_wrote hl hb hs h
    obtain ⟨raws, _, hraw⟩ := hg definition language p.bin before
    rw [← hfiles] at hraw
    obtain ⟨home, hh⟩ := Artifacts.housed_of_isDir (named_artifacts p hl) (isDir_of_ensureBin hb)
    have hprepared : p.prepared fs = before := congrArg Prod.snd hb
    have hhome : fs.aim p.bin = home := by
      rw [← (p.grows_prepared fs).aim, hprepared]
      exact hh.aim_dir
    rw [hprepared, Touches, hhome]
    exact hh.sameBut_writeAll (Artifacts.writeAll_append hraw hw.files)
  · obtain ⟨hfiles, _⟩ := process_kept hl (fun before hb hf => hs ⟨before, hb, hf⟩) h
    rw [hfiles]
    exact .refl id _ _

/-- What a run on one language, from the files `fs` to `after`, means for another language. Its artifacts have other
paths and are in other places; no file but the artifacts of the first language is changed; and what is found of it is
what is found once the directory of the artifacts has been made. This is what was found before if the directory is
there already, or if the way to it only leads down. -/
structure Spares (p : Plugin) (language language' : String) (definition' : Path) (fs after : FileSystem) : Prop where
  apart : ∀ a b, ((p.artifacts language').path b).components ≠ ((p.artifacts language).path a).components
  untouched : ∀ b, ¬ p.Touches language fs (fs.aim ((p.artifacts language').path b))
  frame : SameBut id (p.Touches language fs) (p.prepared fs) after
  files : fs.IsTree → ∀ loc n, n.isDir = false → ¬ p.Touches language fs loc →
    (after.node? loc = some n ↔ fs.node? loc = some n)
  artifacts : ∀ b, after.stat ((p.artifacts language').path b) = (p.prepared fs).stat ((p.artifacts language').path b)
  status : ∀ loc, (p.prepared fs).locate definition' = .ok loc → ¬ p.Touches language fs loc →
    p.status definition' after = p.status definition' (p.prepared fs)
  standing : fs.isDir p.bin = true → p.prepared fs = fs
  plain : fs.IsTree → ".." ∉ p.bin.segments →
    (∀ b n, after.stat ((p.artifacts language').path b) = .ok n ↔ fs.stat ((p.artifacts language').path b) = .ok n)
      ∧ ∀ loc, fs.locate definition' = .ok loc → fs.isFile definition' = true → ¬ p.Touches language fs loc →
        (∀ b e, fs.stat ((p.artifacts language').path b) = .error e → e = .notFound) →
        (∀ b e, (p.prepared fs).stat ((p.artifacts language').path b) = .error e → e = .notFound) →
        p.status definition' after = p.status definition' fs

/-- A run has a directory for the artifacts, or leaves the files as it has prepared them. -/
theorem isDir_or_kept (hl : languageName definition = .ok language)
    (h : (p.process toolchain c definition).run ⟨fs, []⟩ = (outcome, r)) :
    (p.prepared fs).isDir p.bin = true ∨ r.files = p.prepared fs := by
  cases hb : p.ensureBin.run fs with
  | mk made before =>
    have hprepared : p.prepared fs = before := congrArg Prod.snd hb
    rw [hprepared]
    cases made with
    | ok u => exact Or.inl (isDir_of_ensureBin hb)
    | error e =>
      rw [process_unmade hl hb] at h
      cases h
      exact Or.inr rfl

/-- In a tree, where the directory of the artifacts is missing and the way to it only leads down, a definition that is
there is stale before the directories are made and stale behind them. -/
theorem status_prepared (hl : languageName definition = .ok language) (ht : fs.IsTree) (hup : ".." ∉ p.bin.segments)
    (hloc : fs.locate definition = .ok loc) (hfile : fs.isFile definition = true)
    (hlook : ∀ a e, fs.stat ((p.artifacts language).path a) = .error e → e = .notFound)
    (hlook' : ∀ a e, (p.prepared fs).stat ((p.artifacts language).path a) = .error e → e = .notFound) :
    p.status definition (p.prepared fs) = p.status definition fs := by
  by_cases hbin : fs.isDir p.bin = true
  · rw [prepared_of_isDir hbin]
  obtain ⟨n, hs, hn⟩ : ∃ n, fs.node? loc = some n ∧ n.isDir = false := by
    rw [isFile, stat, hloc] at hfile
    cases hn : fs.node? loc with
    | none => simp [hn] at hfile
    | some n =>
      cases n with
      | dir t => simp [hn] at hfile
      | file contents t x => exact ⟨_, rfl, rfl⟩
  have hs' : (p.prepared fs).node? loc = some n := ((ht.makeDirs p.bin).2 loc n hn).2 hs
  have hloc' := (p.grows_prepared fs).locate hloc
  have hd : Freshness.modified fs definition = .ok n.modified := by
    rw [Freshness.modified, stat_of_locate hloc hs]
    rfl
  have hd' : Freshness.modified (p.prepared fs) definition = .ok n.modified := by
    rw [Freshness.modified, stat_of_locate hloc' hs']
    rfl
  have hstale := (status_eq_stale_iff hl hd hlook).2 fun hfresh => hbin (isDir_bin_of_fresh hl hfresh)
  have hstale' := (status_eq_stale_iff hl hd' hlook').2 fun hfresh => by
    obtain ⟨n', hs⟩ := stat_of_fresh hl hfresh .grammar
    exact hbin (isDir_bin_of_made hl ht hup hs)
  rw [hstale, hstale']

theorem spares_of_process (hl : languageName definition = .ok language)
    (hl' : languageName definition' = .ok language') (hne : language ≠ language') (hg : toolchain.generate.WritesRaw)
    (h : (p.process toolchain c definition).run ⟨fs, []⟩ = (outcome, r)) :
    p.Spares language language' definition' fs r.files := by
  have hframe := process_frame hl hg h
  have huntouched := not_touches (p := p) hl' hne fs
  have hartifacts (b : Artifact) : r.files.stat ((p.artifacts language').path b)
      = (p.prepared fs).stat ((p.artifacts language').path b) := by
    rcases isDir_or_kept hl h with hbin | hkept
    · obtain ⟨home, hh⟩ := Artifacts.housed_of_isDir (named_artifacts p hl') hbin
      have haim := hh.aim b
      rw [(p.grows_prepared fs).aim] at haim
      simpa [Except.map_id] using hh.stat_sameBut hframe (haim ▸ huntouched b)
    · rw [hkept]
  have hstatus {loc : Location} (hloc : (p.prepared fs).locate definition' = .ok loc)
      (hnot : ¬ p.Touches language fs loc) : p.status definition' r.files = p.status definition' (p.prepared fs) := by
    rw [status_eq hl', status_eq hl']
    exact Freshness.of_congr (hframe.stat_eq hloc hnot) hartifacts
  exact {
    apart := p.components_ne hl hl' hne
    untouched := huntouched
    frame := hframe
    files := fun ht loc n hfile hnot => by
      rw [hframe.node?_eq hnot]
      exact (ht.makeDirs p.bin).2 loc n hfile
    artifacts := hartifacts
    status := fun loc => hstatus
    standing := prepared_of_isDir
    plain := fun ht hup => by
      refine ⟨fun b n => ?_, fun loc hloc hfile hnot hlook hlook' => ?_⟩
      · rw [hartifacts]
        constructor
        · intro hs
          rwa [prepared_of_isDir (isDir_bin_of_made hl' ht hup hs)] at hs
        · intro hs
          rwa [prepared_of_isDir (isDir_bin_of_stat hl' hs)]
      · rw [hstatus ((p.grows_prepared fs).locate hloc) hnot]
        exact status_prepared hl' ht hup hloc hfile hlook hlook' }

end Plugin

end BaseLang
