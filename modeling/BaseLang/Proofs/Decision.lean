import BaseLang.Proofs.Components
import BaseLang.Proofs.Stages

/-!
# Whether to regenerate

The status is asked for on the files as they are, and a run asks once more when it has made the directory of the
artifacts.

* `FileSystem.IsTree` : everything is in a directory. `IsTree.walk` : a way down to a directory of a tree;
* `FileSystem.reach`, `FileSystem.NewWithin` : how deep a path leads, and directories that are made no deeper than that;
* `Plugin.status_of_ensureBin` : making the directory of the artifacts leaves their status alone;
* `Plugin.process_cases` : a run ends early, reads artifacts that are fresh, or regenerates stale ones;
* `Plugin.Decided`, `Plugin.process_decides` : what a run does, in view of the status before it.
-/

namespace BaseLang

/-! ## Ancestors of a path -/

namespace Path

variable {p q d : Path} {cs ds : List Char}

theorem names_slashes (h : ∀ c ∈ ds, c = '/') : (ofChars ds).names = [] := by
  induction ds with
  | nil => rfl
  | cons c ds ih =>
    obtain ⟨rfl, hds⟩ := List.forall_mem_cons.1 h
    have hn := names_append [] ds
    rw [ih hds] at hn
    exact hn

theorem names_bare (p : Path) : (FileSystem.bare p).1.names = p.names := by
  let cs := p.chars.reverse.dropWhile (· = '/')
  let ds := (p.chars.reverse.takeWhile (· = '/')).reverse
  have hchars : p.chars = cs.reverse ++ ds := by
    rw [← List.reverse_append, List.takeWhile_append_dropWhile, List.reverse_reverse]
  have hds : ∀ c ∈ ds, c = '/' := by
    intro c hc
    simpa using List.all_eq_true.1 List.all_takeWhile c (List.mem_reverse.1 hc)
  have hbare : (FileSystem.bare p).1 = if cs = [] then p else ofChars cs.reverse := rfl
  rw [hbare]
  split
  · rfl
  · rw [← ofChars_chars p, hchars]
    cases hd : ds with
    | nil => rw [List.append_nil]
    | cons c ds' =>
      rw [hd] at hds
      obtain ⟨rfl, hds'⟩ := List.forall_mem_cons.1 hds
      rw [names_append, names_slashes hds', List.append_nil]

theorem of_mem_parentsUpTo {count : Nat} (h : q ∈ parentsUpTo count p) :
    q.isAbsolute = p.isAbsolute ∧ q.names.length ≤ p.names.length := by
  induction count generalizing p with
  | zero => cases h
  | succ count ih =>
    rw [parentsUpTo] at h
    split at h
    · cases h
    · rename_i d hd
      have habs := isAbsolute_of_parent hd
      have hlen := (names_of_parent hd).length_le
      rcases List.mem_cons.1 h with rfl | h
      · exact ⟨habs, hlen⟩
      · obtain ⟨habs', hlen'⟩ := ih h
        exact ⟨habs'.trans habs, hlen'.trans hlen⟩

/-- The parents of a path start where the path does, and have no more names. -/
theorem of_mem_ancestors (h : q ∈ p.ancestors) :
    q.isAbsolute = p.isAbsolute ∧ q.names.length ≤ p.names.length := by
  rcases List.mem_cons.1 h with rfl | h
  · exact ⟨rfl, le_refl _⟩
  · exact of_mem_parentsUpTo h

end Path

/-! ## Trees -/

namespace FileSystem

variable {fs fs' : FileSystem} {loc loc' : Location} {names : List String} {p : Path}

/-- Everything but the root is in a directory. -/
def IsTree (fs : FileSystem) : Prop := ∀ name loc n, fs.node? (name :: loc) = some n → fs.HasDir loc

theorem isTree_of_keys (h : fs.nodes.keys.all (fun loc => loc = [] || (fs.node? loc.tail).any Node.isDir) = true) :
    fs.IsTree := by
  intro name loc n hn
  have hkey : name :: loc ∈ fs.nodes.keys := by
    rw [← Table.contains_iff, Table.contains, show fs.nodes.get? (name :: loc) = some n from hn]
    rfl
  have habove : (fs.node? loc).any Node.isDir = true := by simpa using List.all_eq_true.1 h _ hkey
  obtain ⟨n', hn', hdir⟩ := (Option.any_eq_true ..).1 habove
  cases n' with
  | dir t => exact ⟨t, hn'⟩
  | file => cases hdir

theorem IsTree.hasDir_of_suffix (h : fs.IsTree) (hd : fs.HasDir loc') (hs : loc <:+ loc') : fs.HasDir loc := by
  induction loc' with
  | nil => rwa [List.suffix_nil.1 hs]
  | cons name loc' ih =>
    rcases List.suffix_cons_iff.1 hs with rfl | hs
    · exact hd
    · obtain ⟨t, ht⟩ := hd
      exact ih (h name loc' _ ht) hs

/-- Without `..` a way only leads down. -/
theorem suffix_of_walk (hup : ".." ∉ names) (h : fs.walk loc names = .ok loc') : loc <:+ loc' := by
  induction names generalizing loc with
  | nil =>
    cases h
    exact List.suffix_rfl
  | cons name names ih =>
    simp only [List.mem_cons, not_or] at hup
    rw [walk_cons_of_hasDir (hasDir_of_walk_cons h)] at h
    split at h
    · exact ih hup.2 h
    · rw [if_neg (Ne.symm hup.1)] at h
      split at h
      · cases h
      · exact (List.suffix_cons name loc).trans (ih hup.2 h)

/-- A way down to a directory of a tree can be taken in that tree. -/
theorem IsTree.walk (ht : fs.IsTree) (hup : ".." ∉ names) (h : fs'.walk loc names = .ok loc') (hd : fs.HasDir loc') :
    fs.walk loc names = .ok loc' := by
  induction names generalizing loc with
  | nil => exact h
  | cons name names ih =>
    have hloc := ht.hasDir_of_suffix hd (suffix_of_walk hup h)
    simp only [List.mem_cons, not_or] at hup
    rw [walk_cons_of_hasDir (hasDir_of_walk_cons h)] at h
    rw [walk_cons_of_hasDir hloc]
    split
    · rename_i hdot
      rw [if_pos hdot] at h
      exact ih hup.2 h
    · rename_i hdot
      rw [if_neg hdot, if_neg (Ne.symm hup.1)] at h
      rw [if_neg (Ne.symm hup.1)]
      split at h
      · cases h
      · rename_i hlong
        rw [if_neg hlong]
        exact ih hup.2 h

/-! ## How deep directories are made -/

/-- How many names on a way are components. -/
def depth (names : List String) : Nat := (names.filter fun s => s ≠ "" && s ≠ ".").length

theorem depth_cons (name : String) (names : List String) :
    depth (name :: names) = if name = "" || name = "." then depth names else depth names + 1 := by
  rw [depth, depth, List.filter_cons]
  by_cases h : name = "" ∨ name = "."
  · rw [if_neg (by simpa using fun h' => h.resolve_left h'), if_pos (by simpa using h)]
  · rw [if_pos (by simpa using h), if_neg (by simpa using h), List.length_cons]

theorem length_along_le (loc : Location) (names : List String) :
    (along loc names).length ≤ loc.length + depth names := by
  induction names generalizing loc with
  | nil => exact Nat.le_refl _
  | cons name names ih =>
    rw [along, depth_cons]
    split
    · exact ih loc
    · split
      · have htail : loc.tail.length ≤ loc.length := by
          rw [List.length_tail]
          omega
        have hrest := ih loc.tail
        omega
      · have hrest := ih (name :: loc)
        rw [List.length_cons] at hrest
        omega

/-- Without `..` every component leads one step down. -/
theorem length_along (loc : Location) (hup : ".." ∉ names) : (along loc names).length = loc.length + depth names := by
  induction names generalizing loc with
  | nil => rfl
  | cons name names ih =>
    simp only [List.mem_cons, not_or] at hup
    rw [along, depth_cons]
    split
    · exact ih loc hup.2
    · rw [if_neg (Ne.symm hup.1), ih (name :: loc) hup.2, List.length_cons]
      omega

/-- How many steps below the root a path can lead. -/
def reach (fs : FileSystem) (p : Path) : Nat :=
  (if p.isAbsolute then [] else fs.workingDir).length + p.names.length

/-- A path that leads to a place reaches it, and without `..` no further than there. -/
theorem length_of_locate (h : fs.locate p = .ok loc) (hup : ".." ∉ p.segments) : loc.length = fs.reach p := by
  rw [← along_of_walk (follow_eq_ok h).2]
  exact length_along _ hup

/-- What is new is no further below the root than a path can lead. -/
structure NewWithin (p : Path) (fs fs' : FileSystem) : Prop where
  workingDir : fs'.workingDir = fs.workingDir
  node : ∀ l n, fs'.node? l = some n → (∃ n', fs.node? l = some n') ∨ l.length ≤ fs.reach p

theorem NewWithin.refl (p : Path) (fs : FileSystem) : NewWithin p fs fs := ⟨rfl, fun _ n hn => Or.inl ⟨n, hn⟩⟩

theorem NewWithin.trans {fs'' : FileSystem} (h : NewWithin p fs fs') (h' : NewWithin p fs' fs'') :
    NewWithin p fs fs'' where
  workingDir := h'.workingDir.trans h.workingDir
  node l n hn := by
    have hreach : fs'.reach p = fs.reach p := by rw [reach, reach, h.workingDir]
    rcases h'.node l n hn with ⟨n', hn'⟩ | hlen
    · exact h.node l n' hn'
    · exact Or.inr (hreach ▸ hlen)

theorem NewWithin.of_ancestor {q : Path} (h : NewWithin q fs fs') (hq : q ∈ p.ancestors) : NewWithin p fs fs' where
  workingDir := h.workingDir
  node l n hn := by
    obtain ⟨habs, hnames⟩ := Path.of_mem_ancestors hq
    refine (h.node l n hn).imp_right fun hlen => hlen.trans ?_
    rw [reach, reach, habs]
    exact Nat.add_le_add_left hnames _

/-- A directory is made where its path leads. -/
theorem newWithin_makeDir (h : fs.makeDir p = .ok fs') : NewWithin p fs fs' where
  workingDir := (Disk.made_makeDir h).grows.workingDir
  node l n hn := by
    obtain ⟨loc, hl, _, rfl⟩ := makeDir_eq_ok h
    rw [node?_add] at hn
    split at hn
    · rename_i he
      have hlen := length_along_le (if p.isAbsolute then [] else fs.workingDir) (bare p).1.segments
      have hnames : depth (bare p).1.segments = p.names.length := congrArg List.length p.names_bare
      rw [along_of_walk (follow_eq_ok hl).2, hnames, he] at hlen
      exact Or.inr hlen
    · obtain ⟨n', hn', _⟩ := Option.map_eq_some_iff.1 hn
      exact Or.inl ⟨n', hn'⟩

theorem newWithin_makeDirs (p : Path) (fs : FileSystem) : NewWithin p fs ((Disk.makeDirs p).run fs).2 :=
  Disk.rel_makeDirs (.refl p) .trans p (fun _ hq _ _ h => (newWithin_makeDir h).of_ancestor hq) fs

end FileSystem

open FileSystem

def Event.isGenerate : Event → Bool
  | .generate .. => true
  | _ => false

/-! ## Status -/

namespace Freshness

theorem check_cases {fs : FileSystem} {source : Time} {paths : List Path}
    (h : ∀ p ∈ paths, ∀ e, fs.stat p = .error e → e = .notFound) :
    check fs source paths = .ok .fresh ∨ check fs source paths = .ok .stale := by
  induction paths with
  | nil => exact Or.inl rfl
  | cons p paths ih =>
    obtain ⟨hp, hpaths⟩ := List.forall_mem_cons.1 h
    rw [check]
    cases hs : fs.stat p with
    | error e =>
      obtain rfl := hp e hs
      have hm : modified fs p = .error .notFound := by rw [modified, hs]; rfl
      rw [hm]
      exact Or.inr rfl
    | ok n =>
      have hm : modified fs p = .ok n.modified := by rw [modified, hs]; rfl
      rw [hm]
      by_cases hlt : source < n.modified
      · simp only [if_pos hlt]
        exact ih hpaths
      · exact Or.inr (if_neg hlt)

end Freshness

namespace Plugin

variable {p : Plugin} {toolchain : Toolchain} {c : Configuration} {definition : Path} {language : String}
  {fs before : FileSystem} {source : Time} {outcome : Except ProcessError BaseLanguage} {r : Run} {a : Artifact}
  {freshness : Freshness}

theorem stat_of_fresh (hl : languageName definition = .ok language) (h : p.status definition fs = .ok .fresh)
    (a : Artifact) : ∃ n, fs.stat ((p.artifacts language).path a) = .ok n := by
  rw [status_eq hl, Freshness.of_eq_fresh_iff] at h
  obtain ⟨_, _, hnewer⟩ := h
  obtain ⟨t, hm, _⟩ := hnewer a
  obtain ⟨n, hs, _⟩ := Freshness.modified_eq_ok hm
  exact ⟨n, hs⟩

theorem isDir_bin_of_fresh (hl : languageName definition = .ok language) (h : p.status definition fs = .ok .fresh) :
    fs.isDir p.bin = true := by
  obtain ⟨n, hs⟩ := stat_of_fresh hl h .grammar
  exact isDir_bin_of_stat hl hs

/-- What is found behind a way that only leads down when the directory of the artifacts has been made was there before,
and so was the directory. -/
theorem isDir_bin_of_made {n : Node} (hl : languageName definition = .ok language) (ht : fs.IsTree)
    (hup : ".." ∉ p.bin.segments)
    (hs : (p.ensureBin.run fs).2.stat ((p.artifacts language).path a) = .ok n) : fs.isDir p.bin = true := by
  have hnew : NewWithin p.bin fs (p.ensureBin.run fs).2 := newWithin_makeDirs p.bin fs
  obtain ⟨home, hlocate, hdir⟩ := isDir_iff.1 (isDir_bin_of_stat hl hs)
  have hh : (p.artifacts language).Housed (p.ensureBin.run fs).2 home :=
    ⟨named_artifacts p hl, (follow_eq_ok hlocate).2, hdir⟩
  obtain ⟨loc, hloc, hnode⟩ := stat_eq_ok hs
  rw [hh.locate] at hloc
  obtain rfl := Artifacts.place_eq_ok hloc
  -- The artifact is deeper than the directories that have been made, so it was there before with all above it.
  rcases hnew.node _ n hnode with ⟨n', hn'⟩ | hlen
  · have hstood := ht _ _ _ hn'
    have hwalk := ht.walk hup hh.walk hstood
    rw [hnew.workingDir] at hwalk
    refine isDir_iff.2 ⟨home, ?_, hstood⟩
    rw [FileSystem.locate, follow, (follow_eq_ok hlocate).1]
    exact hwalk
  · have hreach : (p.ensureBin.run fs).2.reach p.bin = fs.reach p.bin := by rw [reach, reach, hnew.workingDir]
    have hhome := length_of_locate hlocate hup
    rw [List.length_cons] at hlen
    omega

section status

variable (hl : languageName definition = .ok language) (hd : Freshness.modified fs definition = .ok source)

include hl hd

theorem status_eq_fresh_iff : p.status definition fs = .ok .fresh
    ↔ ∀ a, ∃ t, Freshness.modified fs ((p.artifacts language).path a) = .ok t ∧ source < t := by
  rw [status_eq hl, Freshness.of_eq_fresh_iff, hd]
  constructor
  · rintro ⟨_, ⟨⟩, h⟩
    exact h
  · exact fun h => ⟨source, rfl, h⟩

variable (hlook : ∀ a e, fs.stat ((p.artifacts language).path a) = .error e → e = .notFound)

include hlook

theorem status_cases : p.status definition fs = .ok .fresh ∨ p.status definition fs = .ok .stale := by
  have hall : ∀ path ∈ (p.artifacts language).paths, ∀ e, fs.stat path = .error e → e = .notFound := by
    intro path hpath
    obtain ⟨a, _, rfl⟩ := List.mem_map.1 hpath
    exact hlook a
  rw [status_eq hl, Freshness.of, hd]
  exact Freshness.check_cases hall

theorem status_eq_stale_iff : p.status definition fs = .ok .stale ↔ p.status definition fs ≠ .ok .fresh := by
  rcases status_cases hl hd hlook with h | h
  · simp [h]
  · simp [h]

/-- Making the directory of the artifacts leaves their status alone, if it is there already or the way to it only leads
down. -/
theorem status_of_ensureBin (hplain : fs.isDir p.bin = true ∨ fs.IsTree ∧ ".." ∉ p.bin.segments)
    (hb : p.ensureBin.run fs = (.ok (), before)) (hf : p.status definition before = .ok freshness) :
    p.status definition fs = .ok freshness := by
  by_cases hbin : fs.isDir p.bin = true
  · rw [ensureBin_of_isDir hbin] at hb
    cases hb
    exact hf
  obtain ⟨ht, hup⟩ := hplain.resolve_left hbin
  have hstale : p.status definition fs ≠ .ok .fresh := fun hfresh => hbin (isDir_bin_of_fresh hl hfresh)
  cases freshness with
  | stale => exact (status_eq_stale_iff hl hd hlook).2 hstale
  | fresh =>
    obtain ⟨n, hs⟩ := stat_of_fresh hl hf .grammar
    exact absurd (isDir_bin_of_made hl ht hup (by rwa [hb])) hbin

end status

/-! ## Runs -/

/-- A run that finds the artifacts fresh reads the transformation module and changes nothing, whatever comes of it. -/
theorem process_fresh (hl : languageName definition = .ok language) (hb : p.ensureBin.run fs = (.ok (), before))
    (hs : p.status definition before = .ok .fresh) :
    ((p.process toolchain c definition).run ⟨fs, []⟩).2 = ⟨before, [p.rereading c language]⟩ := by
  rw [status_eq hl] at hs
  let r := p.regeneration toolchain c definition language
  let s : Run := ⟨before, [p.rereading c language]⟩
  have hparse : (r.parse .transformation (r.artifacts.path .transformation)).run ⟨before, []⟩
      = (toolchain.parse (r.table .transformation) (r.artifacts.path .transformation)
          ModuleKind.transformation.startSymbol before, s) := rfl
  rw [process_run hl hb hs, Regeneration.obtain, Regeneration.reload, Action.bind_bind]
  cases hm : toolchain.parse (r.table .transformation) (r.artifacts.path .transformation)
      ModuleKind.transformation.startSymbol before with
  | error e =>
    rw [hm] at hparse
    rw [Action.bind_of_error hparse]
  | ok module =>
    rw [hm] at hparse
    rw [Action.bind_of_ok hparse]
    cases hp : Profile.read module r.language r.artifacts with
    | error e =>
      have hfails : (r.profile module).run s = (.error (.ofExtract r.language e), s) := by
        rw [Regeneration.profile, Step.ofExcept_run, hp]
        rfl
      rw [Action.bind_of_error hfails]
    | ok profile =>
      have hprofile : (r.profile module).run s = (.ok profile, s) := by
        rw [Regeneration.profile, Step.ofExcept_run, hp]
        rfl
      rw [Action.bind_of_ok hprofile]
      exact (BaseLanguage.checked_eq rfl).1

/-- A run that finds the artifacts stale calls the generator once. -/
theorem process_generates (hl : languageName definition = .ok language) (hb : p.ensureBin.run fs = (.ok (), before))
    (hs : p.status definition before = .ok .stale) (h : (p.process toolchain c definition).run ⟨fs, []⟩ = (outcome, r)) :
    r.events.filter Event.isGenerate = [.generate definition language p.bin] := by
  obtain ⟨done, result, hstopped, _⟩ := process_stops hl hb hs h
  rcases Regeneration.conclude_of_ends hstopped.ends with ⟨e, _, rfl⟩ | ⟨raw, hraw, hrun⟩
  · rfl
  · obtain ⟨ws, hw, _⟩ := Regeneration.writes_conclude (p.regeneration toolchain c definition language) raw
      ((p.regeneration toolchain c definition language).begun before)
    rw [hrun] at hw
    obtain ⟨es, hes, _⟩ := hw.events
    -- The first event is a call to the generator, and there is only one among all calls of a regeneration.
    have hfirst : r.events.filter Event.isGenerate
        = .generate definition language p.bin :: es.filter Event.isGenerate := by
      rw [hes, List.filter_append]
      rfl
    have hcalls := (hstopped.calls raw fun v hv => Except.ok.inj (hv.symm.trans hraw)).filter Event.isGenerate
    have hsub : (r.events.filter Event.isCall).filter Event.isGenerate = r.events.filter Event.isGenerate := by
      rw [List.filter_filter]
      refine List.filter_congr fun e _ => ?_
      cases e <;> rfl
    have hone : ((p.regeneration toolchain c definition language).calls raw).filter Event.isGenerate
        = [.generate definition language p.bin] := rfl
    rw [hsub, hfirst, hone, List.cons_prefix_cons] at hcalls
    rw [hfirst, List.prefix_nil.1 hcalls.2]

/-- A run ends before it calls a service, or reads artifacts that are fresh, or regenerates those that are stale. -/
theorem process_cases (hl : languageName definition = .ok language)
    (h : (p.process toolchain c definition).run ⟨fs, []⟩ = (outcome, r)) :
    ((∃ e, outcome = .error e) ∧ r.events = [])
      ∨ ∃ before, p.ensureBin.run fs = (.ok (), before)
        ∧ (p.status definition before = .ok .fresh ∧ r = ⟨before, [p.rereading c language]⟩
          ∨ p.status definition before = .ok .stale
            ∧ r.events.filter Event.isGenerate = [.generate definition language p.bin]) := by
  cases hb : p.ensureBin.run fs with
  | mk made before =>
    cases made with
    | error e =>
      rw [process_unmade hl hb] at h
      cases h
      exact Or.inl ⟨⟨e, rfl⟩, rfl⟩
    | ok u =>
      have hstatus : p.status definition before = Freshness.of before definition (p.artifacts language) :=
        status_eq hl before
      cases hf : Freshness.of before definition (p.artifacts language) with
      | error e =>
        rw [process_unknown hl hb hf] at h
        cases h
        exact Or.inl ⟨⟨e, rfl⟩, rfl⟩
      | ok freshness =>
        rw [hf] at hstatus
        refine Or.inr ⟨before, rfl, ?_⟩
        cases freshness with
        | fresh =>
          have hr : ((p.process toolchain c definition).run ⟨fs, []⟩).2 = _ := process_fresh hl hb hstatus
          rw [h] at hr
          exact Or.inl ⟨hstatus, hr⟩
        | stale => exact Or.inr ⟨hstatus, process_generates hl hb hstatus h⟩

/-! ## The decision -/

/-- What a run that starts on the files `fs` decides, in view of the status before it. -/
structure Decided (p : Plugin) (c : Configuration) (definition : Path) (language : String) (fs : FileSystem)
    (source : Time) (outcome : Except ProcessError BaseLanguage) (r : Run) : Prop where
  fresh : p.status definition fs = .ok .fresh
    ↔ ∀ a, ∃ t, Freshness.modified fs ((p.artifacts language).path a) = .ok t ∧ source < t
  stale : p.status definition fs = .ok .stale
    ↔ ¬ ∀ a, ∃ t, Freshness.modified fs ((p.artifacts language).path a) = .ok t ∧ source < t
  once : r.events.filter Event.isGenerate = [] ∨ r.events.filter Event.isGenerate = [.generate definition language p.bin]
  generates : .generate definition language p.bin ∈ r.events
    ↔ ∃ before, p.ensureBin.run fs = (.ok (), before) ∧ p.status definition before = .ok .stale
  readOnly : p.status definition fs = .ok .fresh → r = ⟨fs, [p.rereading c language]⟩
  standing : fs.isDir p.bin = true →
    (.generate definition language p.bin ∈ r.events ↔ p.status definition fs = .ok .stale)
  plain : fs.IsTree → ".." ∉ p.bin.segments →
    (.generate definition language p.bin ∈ r.events → p.status definition fs = .ok .stale)
      ∧ (p.status definition fs = .ok .stale →
          .generate definition language p.bin ∈ r.events ∨ (∃ e, outcome = .error e) ∧ r.events = [])

/-- **Whether a run regenerates.** Let the definition be there, and let look-ups of artifacts fail only where nothing is.
Then the status is fresh exactly if each artifact is newer than the definition, and stale otherwise. A run on fresh
artifacts reads the transformation module and leaves everything as it is. A run calls the generator at most once, and
exactly if it can make the directory of the artifacts and then finds them stale. This is what the status before it says
if the directory is there already. It is also so where the directory is missing and the way to it only leads down, but
then the run can end before it calls a service, because a directory cannot be made or the look-ups fail behind it. -/
theorem process_decides (hl : languageName definition = .ok language)
    (hd : Freshness.modified fs definition = .ok source)
    (hlook : ∀ a e, fs.stat ((p.artifacts language).path a) = .error e → e = .notFound)
    (h : (p.process toolchain c definition).run ⟨fs, []⟩ = (outcome, r)) :
    p.Decided c definition language fs source outcome r := by
  have hmem : r.events.filter Event.isGenerate = [.generate definition language p.bin] →
      .generate definition language p.bin ∈ r.events := by
    intro hfilter
    exact (List.mem_filter.1 (hfilter ▸ List.mem_singleton_self _)).1
  have hgenerates : .generate definition language p.bin ∈ r.events
      ↔ ∃ before, p.ensureBin.run fs = (.ok (), before) ∧ p.status definition before = .ok .stale := by
    constructor
    · intro hg
      rcases process_cases hl h with ⟨_, hnil⟩ | ⟨before, hb, ⟨_, rfl⟩ | ⟨hs, _⟩⟩
      · simp [hnil] at hg
      · simp [rereading] at hg
      · exact ⟨before, hb, hs⟩
    · rintro ⟨before, hb, hs⟩
      exact hmem (process_generates hl hb hs h)
  exact {
    fresh := status_eq_fresh_iff hl hd
    stale := by rw [status_eq_stale_iff hl hd hlook, Ne, status_eq_fresh_iff hl hd]
    once := by
      rcases process_cases hl h with ⟨_, hnil⟩ | ⟨before, _, ⟨_, rfl⟩ | ⟨_, hone⟩⟩
      · exact Or.inl (by rw [hnil]; rfl)
      · exact Or.inl rfl
      · exact Or.inr hone
    generates := hgenerates
    readOnly := fun hs => by
      have hmade := ensureBin_of_isDir (isDir_bin_of_fresh hl hs)
      have hr : ((p.process toolchain c definition).run ⟨fs, []⟩).2 = _ := process_fresh hl hmade hs
      rwa [h] at hr
    standing := fun hbin => by
      have hsame := ensureBin_of_isDir hbin
      rw [hgenerates]
      constructor
      · rintro ⟨before, hb, hs⟩
        exact status_of_ensureBin hl hd hlook (Or.inl hbin) hb hs
      · exact fun hs => ⟨fs, hsame, hs⟩
    plain := fun ht hup => by
      refine ⟨fun hg => ?_, fun hs => ?_⟩
      · obtain ⟨before, hb, hs⟩ := hgenerates.1 hg
        exact status_of_ensureBin hl hd hlook (Or.inr ⟨ht, hup⟩) hb hs
      · rcases process_cases hl h with hended | ⟨before, hb, ⟨hfresh, _⟩ | ⟨_, hone⟩⟩
        · exact Or.inr hended
        · have hsame := status_of_ensureBin hl hd hlook (Or.inr ⟨ht, hup⟩) hb hfresh
          rw [hs] at hsame
          cases hsame
        · exact Or.inl (hmem hone) }

/-! ### An example -/

/-- Whether a look-up fails only because nothing is there. -/
def lookedUp (fs : FileSystem) (path : Path) : Bool :=
  match fs.stat path with
  | .ok _ => true
  | .error e => e = .notFound

theorem eq_notFound_of_lookedUp {path : Path} {e : OsError} (h : lookedUp fs path = true)
    (he : fs.stat path = .error e) : e = .notFound := by
  rw [lookedUp, he] at h
  simpa using h

theorem isTree_exampleFiles : exampleFiles.IsTree := isTree_of_keys (by decide +kernel)

/-- A run that makes the directory of the artifacts and calls the generator, as the status before it says. -/
theorem process_decides_stale : ∃ outcome r, haltingRun = (outcome, r)
    ∧ r.events.filter Event.isGenerate = [.generate ⟨"p/src/x.b"⟩ "x" ⟨"p/bin"⟩]
    ∧ (Plugin.mk ⟨"p"⟩).status ⟨"p/src/x.b"⟩ exampleFiles = .ok .stale := by
  have hd : Freshness.modified exampleFiles ⟨"p/src/x.b"⟩ = .ok 0 := eq_ok_of_toOption (by decide +kernel)
  have hlook (a : Artifact) : lookedUp exampleFiles (((Plugin.mk ⟨"p"⟩).artifacts "x").path a) = true := by
    cases a <;> decide +kernel
  obtain ⟨before, _, hb, hs, _⟩ := exampleRun_stale
  cases h : haltingRun with
  | mk outcome r =>
    have hdecided := process_decides languageName_example hd (fun a e => eq_notFound_of_lookedUp (hlook a)) h
    have hg := hdecided.generates.2 ⟨before, hb, by rw [status_eq languageName_example, hs]⟩
    refine ⟨outcome, r, rfl, hdecided.once.resolve_left fun hnone => ?_,
      (hdecided.plain isTree_exampleFiles (by decide +kernel)).1 hg⟩
    have hkept := List.mem_filter.2 ⟨hg, show Event.isGenerate _ = true from rfl⟩
    rw [hnone] at hkept
    cases hkept

/-- A plugin with artifacts that are newer than the definition. -/
def roundaboutFiles : FileSystem where
  nodes := Table.ofList ([([], .dir 0), (["p"], .dir 0), (["src", "p"], .dir 0),
    (["x.b", "src", "p"], .file .empty 0 false), (["bin", "p"], .dir 1)]
    ++ Artifact.all.map fun a => (["x." ++ a.extension, "bin", "p"], .file .empty 1 false))
  workingDir := []
  clock := 2

/-- On a path through a directory that is not there yet, no artifact is found before the run, and all of them once the
run has made that directory. -/
theorem not_always_decides : ¬ ∀ (p : Plugin) (toolchain : Toolchain) (c : Configuration) (definition : Path)
    (language : String) (fs : FileSystem) (source : Time) (outcome : Except ProcessError BaseLanguage) (r : Run),
    languageName definition = .ok language → Freshness.modified fs definition = .ok source →
    (∀ a e, fs.stat ((p.artifacts language).path a) = .error e → e = .notFound) →
    (p.process toolchain c definition).run ⟨fs, []⟩ = (outcome, r) →
    (.generate definition language p.bin ∈ r.events ↔ p.status definition fs = .ok .stale) := by
  intro h
  have hd : Freshness.modified roundaboutFiles ⟨"p/src/x.b"⟩ = .ok 0 := eq_ok_of_toOption (by decide +kernel)
  have hlook (a : Artifact) : lookedUp roundaboutFiles (((Plugin.mk ⟨"p/m/.."⟩).artifacts "x").path a) = true := by
    cases a <;> decide +kernel
  have hs : (Plugin.mk ⟨"p/m/.."⟩).status ⟨"p/src/x.b"⟩ roundaboutFiles = .ok .stale :=
    eq_ok_of_toOption (by decide +kernel)
  have hevents : (((Plugin.mk ⟨"p/m/.."⟩).process grammarless .bare ⟨"p/src/x.b"⟩).run ⟨roundaboutFiles, []⟩).2.events
      = [.parse "Stratego.tbl" ⟨"p/m/../bin/x.str"⟩ "StrategoModule"] := by decide +kernel
  cases hrun : ((Plugin.mk ⟨"p/m/.."⟩).process grammarless .bare ⟨"p/src/x.b"⟩).run ⟨roundaboutFiles, []⟩ with
  | mk outcome r =>
    rw [hrun] at hevents
    have hg := (h (Plugin.mk ⟨"p/m/.."⟩) grammarless .bare ⟨"p/src/x.b"⟩ "x" roundaboutFiles 0 outcome r
      languageName_example hd (fun a e => eq_notFound_of_lookedUp (hlook a)) hrun).2 hs
    rw [hevents] at hg
    simp at hg

end Plugin

end BaseLang
