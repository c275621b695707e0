import BaseLang.Proofs.Files

/-!
# Changes that take nothing away

* `FileSystem.aim` : the place that a path means if there are directories all the way. `aim_of_locate` : a path
  that can be followed leads there;
* `FileSystem.Grows` : nothing is gone, and what is different has the time of the clock. Written files and new
  directories are such changes (`grows_write`, `made_makeDirs`);
* `Grows.locate`, `Grows.stat`, `Grows.modified` : what a path means before and after such a change;
* `node?_write` : a file that has just been written;
* `FileSystem.Made` : changes that make directories and no files. `rel_makeDirs` : what single directories that are
  made have in common, all of them have;
* `isDir_of_makeDirs`, `makeDirs_of_isDir` : directories are made once.
-/

namespace BaseLang

namespace Node

@[simp] theorem modified_withTime (n : Node) (t : Time) : (n.withTime t).modified = t := by
  cases n <;> rfl

@[simp] theorem isDir_withTime (n : Node) (t : Time) : (n.withTime t).isDir = n.isDir := by
  cases n <;> rfl

end Node

namespace FileSystem

variable {fs fs' fs'' : FileSystem} {loc loc' l : Location} {p : Path} {names : List String}

/-! ## Places -/

/-- The place that names lead to from another one if there are directories all the way. -/
def along : Location → List String → Location
  | loc, [] => loc
  | loc, name :: names =>
    if name = "" || name = "." then along loc names
    else if name = ".." then along loc.tail names
    else along (name :: loc) names

/-- The place that a path means if there are directories all the way. -/
def aim (fs : FileSystem) (p : Path) : Location :=
  along (if p.isAbsolute then [] else fs.workingDir) p.segments

theorem along_append (loc : Location) (names names' : List String) :
    along loc (names ++ names') = along (along loc names) names' := by
  induction names generalizing loc with
  | nil => rfl
  | cons name names ih =>
    rw [List.cons_append, along, along]
    split
    · exact ih loc
    · split
      · exact ih loc.tail
      · exact ih (name :: loc)

theorem along_of_walk (h : fs.walk loc names = .ok loc') : along loc names = loc' := by
  induction names generalizing loc with
  | nil =>
    cases h
    rfl
  | cons name names ih =>
    have hd := hasDir_of_walk_cons h
    rw [walk_cons_of_hasDir hd] at h
    rw [along]
    split at h
    · rename_i hdot
      rw [if_pos hdot]
      exact ih h
    · rename_i hdot
      rw [if_neg hdot]
      split at h
      · rename_i hup
        rw [if_pos hup]
        exact ih h
      · rename_i hup
        rw [if_neg hup]
        split at h
        · cases h
        · exact ih h

theorem aim_of_locate (h : fs.locate p = .ok loc) : fs.aim p = loc := by
  have hwalk := (follow_eq_ok h).2
  exact along_of_walk hwalk

theorem stat_of_locate {n : Node} (hl : fs.locate p = .ok loc) (hn : fs.node? loc = some n) :
    fs.stat p = .ok n := by
  rw [stat, hl]
  simp only [hn]

theorem stat_eq_ok {n : Node} (h : fs.stat p = .ok n) :
    ∃ loc, fs.locate p = .ok loc ∧ fs.node? loc = some n := by
  rw [stat] at h
  split at h
  · cases h
  · rename_i loc hl
    split at h
    · rename_i hn
      cases h
      exact ⟨loc, hl, hn⟩
    · cases h

/-! ## Growing file systems -/

/-- Nothing is gone, directories are still directories, and what is different has the time of the clock. -/
structure Grows (fs fs' : FileSystem) : Prop where
  workingDir : fs'.workingDir = fs.workingDir
  clock : fs'.clock = fs.clock
  node : ∀ l n, fs.node? l = some n →
    ∃ n', fs'.node? l = some n' ∧ n'.isDir = n.isDir ∧ (n' = n ∨ n'.modified = fs.clock)

namespace Grows

theorem refl (fs : FileSystem) : Grows fs fs := ⟨rfl, rfl, fun _ n hn => ⟨n, hn, rfl, Or.inl rfl⟩⟩

theorem trans (h : Grows fs fs') (h' : Grows fs' fs'') : Grows fs fs'' where
  workingDir := h'.workingDir.trans h.workingDir
  clock := h'.clock.trans h.clock
  node l n hn := by
    obtain ⟨n₁, hn₁, hd₁, ht₁⟩ := h.node l n hn
    obtain ⟨n₂, hn₂, hd₂, ht₂⟩ := h'.node l n₁ hn₁
    refine ⟨n₂, hn₂, hd₂.trans hd₁, ?_⟩
    rcases ht₂ with rfl | ht₂
    · exact ht₁
    · exact Or.inr (ht₂.trans h.clock)

theorem dirsKept (h : Grows fs fs') : DirsKept fs fs' where
  workingDir := h.workingDir
  hasDir l hl := by
    obtain ⟨t, ht⟩ := hl
    obtain ⟨n', hn', hd, _⟩ := h.node l (.dir t) ht
    cases n' with
    | dir t' => exact ⟨t', hn'⟩
    | file => cases hd

theorem aim (h : Grows fs fs') (p : Path) : fs'.aim p = fs.aim p := by
  unfold FileSystem.aim
  rw [h.workingDir]

/-- A path that could be followed leads to the same place. -/
theorem locate (h : Grows fs fs') (hl : fs.locate p = .ok loc) : fs'.locate p = .ok loc :=
  h.dirsKept.follow hl

theorem stat {n : Node} (h : Grows fs fs') (hs : fs.stat p = .ok n) :
    ∃ n', fs'.stat p = .ok n' ∧ n'.isDir = n.isDir ∧ (n' = n ∨ n'.modified = fs.clock) := by
  obtain ⟨loc, hl, hn⟩ := stat_eq_ok hs
  obtain ⟨n', hn', hd, ht⟩ := h.node loc n hn
  exact ⟨n', stat_of_locate (h.locate hl) hn', hd, ht⟩

theorem isDir (h : Grows fs fs') (hd : fs.isDir p = true) : fs'.isDir p = true := by
  obtain ⟨loc, hl, hdir⟩ := isDir_iff.1 hd
  exact isDir_iff.2 ⟨loc, h.locate hl, h.dirsKept.hasDir loc hdir⟩

end Grows

theorem grows_put {node : Node} (ht : node.modified = fs.clock)
    (hd : ∀ n, fs.node? loc = some n → node.isDir = n.isDir) : Grows fs (fs.put loc node) where
  workingDir := rfl
  clock := rfl
  node l n hn := by
    rw [node?_put]
    by_cases h : loc = l
    · subst h
      exact ⟨node, if_pos rfl, hd n hn, Or.inr ht⟩
    · exact ⟨n, by rw [if_neg h, hn], rfl, Or.inl rfl⟩

theorem grows_touchParent (fs : FileSystem) (loc : Location) : Grows fs (fs.touchParent loc) := by
  unfold touchParent
  split
  · rename_i parent hp
    refine grows_put (Node.modified_withTime parent fs.clock) fun n hn => ?_
    have hn' : parent = n := Option.some.inj (hp.symm.trans hn)
    rw [Node.isDir_withTime, hn']
  · exact .refl fs

theorem grows_add {node : Node} (h : fs.node? loc = none) (ht : node.modified = fs.clock) :
    Grows fs (fs.add loc node) := by
  have hclock : node.modified = (fs.touchParent loc).clock := by rw [clock_touchParent, ht]
  refine (grows_touchParent fs loc).trans (grows_put hclock fun n hn => ?_)
  rw [node?_touchParent, h] at hn
  cases hn

theorem grows_store (h : ¬ fs.HasDir loc) (contents : ByteArray) (executable : Bool) :
    Grows fs (fs.store loc contents executable) := by
  have hfile : ∀ n, fs.node? loc = some n → n.isDir = false := by
    intro n hn
    cases n with
    | dir t => exact absurd ⟨t, hn⟩ h
    | file => rfl
  unfold store
  split
  · exact grows_put rfl fun n hn => (hfile n hn).symm
  · rename_i t hd
    exact absurd ⟨t, hd⟩ h
  · rename_i hn
    exact grows_add hn rfl

/-- Where nothing is, nothing is put but a file in its own place. -/
theorem node?_store_of_none (hne : l ≠ loc) (hn : fs.node? l = none) (contents : ByteArray) (executable : Bool) :
    (fs.store loc contents executable).node? l = none := by
  unfold store
  split
  · rw [node?_put, if_neg (Ne.symm hne), hn]
  · rw [node?_put, if_neg (Ne.symm hne), hn]
  · rw [node?_add, if_neg (Ne.symm hne), hn]
    rfl

theorem grows_write {contents : ByteArray} (h : fs.write p contents = .ok fs') : Grows fs fs' := by
  obtain ⟨loc, ht, rfl⟩ := write_eq_ok h
  exact grows_store (target_eq_ok ht).2.2 contents false

theorem bare_eq_self (h : (bare p).2 = false) : (bare p).1 = p := by
  cases hc : p.chars.getLast? with
  | none =>
    have hnil : p.chars = [] := List.getLast?_eq_none_iff.1 hc
    simp [bare, hnil]
  | some c =>
    have hne : c ≠ '/' := by
      rintro rfl
      simp [bare, hc] at h
    rw [bare_of_ending hc hne]

/-- A path can be opened for writing where it leads, unless there is a directory. -/
theorem locate_of_target (h : fs.target p = .ok loc) : fs.locate p = .ok loc ∧ ¬ fs.HasDir loc := by
  obtain ⟨hl, hslash, hdir⟩ := target_eq_ok h
  rw [locateBare, bare_eq_self hslash] at hl
  exact ⟨hl, hdir⟩

/-- A file that has just been written is where its path leads, and no other node is new. -/
theorem node?_write {contents : ByteArray} (h : fs.write p contents = .ok fs') :
    ∃ loc x, fs'.locate p = .ok loc ∧ fs'.node? loc = some (.file contents fs.clock x)
      ∧ ∀ l n', l ≠ loc → fs'.node? l = some n' → ∃ n, fs.node? l = some n ∧ n'.isDir = n.isDir := by
  have hgrows := grows_write h
  obtain ⟨loc, ht, rfl⟩ := write_eq_ok h
  obtain ⟨hl, _⟩ := locate_of_target ht
  obtain ⟨x, hx⟩ := node?_store_self fs loc contents false
  refine ⟨loc, x, hgrows.locate hl, hx, fun l n' hne hn' => ?_⟩
  cases hn : fs.node? l with
  | some n =>
    obtain ⟨n₁, hn₁, hd, _⟩ := hgrows.node l n hn
    have he : n₁ = n' := Option.some.inj (hn₁.symm.trans hn')
    exact ⟨n, rfl, he ▸ hd⟩
  | none =>
    rw [node?_store_of_none hne hn] at hn'
    cases hn'

/-! ## Made directories -/

/-- Directories have been made, and no files. -/
structure Made (fs fs' : FileSystem) : Prop where
  grows : Grows fs fs'
  file : ∀ l, (∃ n, fs'.node? l = some n ∧ n.isDir = false) → ∃ n, fs.node? l = some n ∧ n.isDir = false

namespace Made

theorem refl (fs : FileSystem) : Made fs fs := ⟨.refl fs, fun _ h => h⟩

theorem trans (h : Made fs fs') (h' : Made fs' fs'') : Made fs fs'' :=
  ⟨h.grows.trans h'.grows, fun l hl => h.file l (h'.file l hl)⟩

end Made

theorem made_add_dir (h : fs.node? loc = none) : Made fs (fs.add loc (.dir fs.clock)) where
  grows := grows_add h rfl
  file l hl := by
    obtain ⟨n, hn, hfile⟩ := hl
    rw [node?_add] at hn
    split at hn
    · cases hn
      cases hfile
    · obtain ⟨old, hold, rfl⟩ := Option.map_eq_some_iff.1 hn
      refine ⟨old, hold, ?_⟩
      split at hfile
      · -- The directory above has a new time, and is as much of a directory as before.
        rwa [Node.isDir_withTime] at hfile
      · exact hfile

end FileSystem

/-! ## Making directories -/

namespace Disk

open FileSystem

variable {fs fs' : FileSystem} {p : Path} {missing : Disk OsError Unit}

theorem isDir_of_makeDir (hb : (bare p).1 = p) (h : fs.makeDir p = .ok fs') : fs'.isDir p = true := by
  obtain ⟨loc, hl, hn, rfl⟩ := makeDir_eq_ok h
  rw [locateBare, hb] at hl
  refine isDir_iff.2 ⟨loc, (grows_add hn rfl).locate hl, fs.clock, ?_⟩
  rw [node?_add, if_pos rfl]

/-- A directory is there once it is ensured, if the way out for a missing parent ensures it too. -/
theorem isDir_of_ensureDir (hb : (bare p).1 = p) (hm : ∀ fs', missing.run fs = (.ok (), fs') → fs'.isDir p = true)
    (h : (ensureDir p missing).run fs = (.ok (), fs')) : fs'.isDir p = true := by
  rw [Action.run, ensureDir] at h
  split at h
  · rename_i hd
    cases h
    exact isDir_of_makeDir hb hd
  · exact hm fs' h
  · split at h
    · rename_i hd
      cases h
      exact hd
    · cases h

theorem ensureDir_of_isDir (hb : (bare p).1 = p) (h : fs.isDir p = true) :
    (ensureDir p missing).run fs = (.ok (), fs) := by
  obtain ⟨loc, hl, t, ht⟩ := isDir_iff.1 h
  have hm : fs.makeDir p = .error .alreadyExists := by
    rw [FileSystem.makeDir, locateBare, hb]
    simp only [show fs.follow p p.segments = .ok loc from hl, ht]
  simp only [Action.run, ensureDir, hm, h, if_true]

theorem makeDirs_of_isDir {c : Char} (hp : p.chars.getLast? = some c) (hc : c ≠ '/') (h : fs.isDir p = true) :
    (makeDirs p).run fs = (.ok (), fs) := by
  have hne : p.text ≠ "" := by
    intro e
    simp [Path.chars, e] at hp
  rw [makeDirs, Path.ancestors, makeChain, if_neg hne]
  exact ensureDir_of_isDir (by rw [bare_of_ending hp hc]) h

theorem isDir_of_makeDirs {c : Char} (hp : p.chars.getLast? = some c) (hc : c ≠ '/')
    (h : (makeDirs p).run fs = (.ok (), fs')) : fs'.isDir p = true := by
  have hne : p.text ≠ "" := by
    intro e
    simp [Path.chars, e] at hp
  have hb : (bare p).1 = p := by rw [bare_of_ending hp hc]
  rw [makeDirs, Path.ancestors, makeChain, if_neg hne] at h
  refine isDir_of_ensureDir hb (fun fs' h => ?_) h
  obtain ⟨_, fs₁, _, h⟩ := Action.bind_eq_ok h
  refine isDir_of_ensureDir hb (fun fs' h => ?_) h
  cases h

theorem made_makeDir (h : fs.makeDir p = .ok fs') : Made fs fs' := by
  obtain ⟨loc, _, hn, rfl⟩ := makeDir_eq_ok h
  exact made_add_dir hn

section steps

variable {R : FileSystem → FileSystem → Prop} (refl : ∀ fs, R fs fs)

include refl

theorem rel_ensureDir (make : ∀ fs fs', fs.makeDir p = .ok fs' → R fs fs') (hm : ∀ fs, R fs (missing.run fs).2)
    (fs : FileSystem) : R fs ((ensureDir p missing).run fs).2 := by
  unfold Action.run ensureDir
  split
  · rename_i fs' hd
    exact make fs fs' hd
  · exact hm fs
  · split
    · exact refl fs
    · exact refl fs

variable (trans : ∀ {fs fs' fs''}, R fs fs' → R fs' fs'' → R fs fs'')

include trans

theorem rel_makeChain {paths : List Path} (make : ∀ q ∈ paths, ∀ fs fs', fs.makeDir q = .ok fs' → R fs fs')
    (fs : FileSystem) : R fs ((makeChain paths).run fs).2 := by
  induction paths generalizing fs with
  | nil => exact refl fs
  | cons p parents ih =>
    obtain ⟨hp, hparents⟩ := List.forall_mem_cons.1 make
    rw [makeChain]
    split
    · exact refl fs
    · refine rel_ensureDir refl hp (fun fs => ?_) fs
      have hchain := ih hparents fs
      cases hrun : (makeChain parents).run fs with
      | mk outcome fs₁ =>
        rw [hrun] at hchain
        cases outcome with
        | error e =>
          rw [Action.bind_of_error hrun]
          exact hchain
        | ok u =>
          have hlast (fs : FileSystem) : R fs ((throw .notFound : Disk OsError Unit).run fs).2 := refl fs
          rw [Action.bind_of_ok hrun]
          exact trans hchain (rel_ensureDir refl hp hlast fs₁)

/-- What holds of single directories that are made holds of a directory that is made with those above it, also if this
fails half-way. -/
theorem rel_makeDirs (p : Path) (make : ∀ q ∈ p.ancestors, ∀ fs fs', fs.makeDir q = .ok fs' → R fs fs')
    (fs : FileSystem) : R fs ((makeDirs p).run fs).2 :=
  rel_makeChain refl trans make fs

end steps

theorem made_makeDirs (p : Path) (fs : FileSystem) : Made fs ((makeDirs p).run fs).2 :=
  rel_makeDirs Made.refl Made.trans p (fun _ _ _ _ => made_makeDir) fs

end Disk

end BaseLang
