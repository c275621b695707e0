import BaseLang.Plugin
import BaseLang.Proofs.Growth

/-!
# Artifacts on the file system

* `Artifacts.Named` : a directory whose path ends in a name, and a language whose name is one;
* `Artifacts.Housed` : the place of the directory of some artifacts. `Housed.locate` gives their places;
* `Housed.stat_self`, `Housed.stat_of_ne` : what writing one artifact does to it and to the others;
* `Artifacts.writeAll` : artifacts written one after another, with `stat_of_mem` and `modified_writeAll`;
* `Freshness.of_eq_fresh_iff` : artifacts are fresh if each of them is newer than the definition.
-/

namespace BaseLang

open FileSystem

namespace Artifact

theorem extension_injective {a b : Artifact} (h : a.extension = b.extension) : a = b := by
  revert h
  cases a <;> cases b <;> decide

theorem extension_ending (a : Artifact) :
    ∃ c, a.extension.toList.getLast? = some c ∧ c ≠ '/' ∧ c ≠ '.' := by
  cases a
  · exact ⟨'f', by decide⟩
  · exact ⟨'r', by decide⟩
  · exact ⟨'v', by decide⟩
  · exact ⟨'f', by decide⟩
  · exact ⟨'p', by decide⟩

theorem notMem_extension (a : Artifact) : '/' ∉ a.extension.toList := by
  cases a <;> decide

theorem dot_notMem_extension (a : Artifact) : '.' ∉ a.extension.toList := by
  cases a <;> decide

end Artifact

namespace Artifacts

variable {as : Artifacts} {a b : Artifact} {fs fs' : FileSystem} {home : Location}

/-! ## Names -/

def fileName (as : Artifacts) (a : Artifact) : String := as.language ++ "." ++ a.extension

theorem fileName_injective (h : as.fileName a = as.fileName b) : a = b :=
  Artifact.extension_injective (String.append_right_inj _ |>.1 h)

/-- The path of the directory ends in a name, and the name of the language has no slash. -/
structure Named (as : Artifacts) : Prop where
  dir : ∃ c, as.dir.chars.getLast? = some c ∧ c ≠ '/'
  language : '/' ∉ as.language.toList

theorem Named.notMem_fileName (h : as.Named) (a : Artifact) : '/' ∉ (as.fileName a).toList := by
  have ha := a.notMem_extension
  have hl := h.language
  simp [fileName, ha, hl]

theorem fileName_ending (as : Artifacts) (a : Artifact) :
    ∃ c, (as.fileName a).toList.getLast? = some c ∧ c ≠ '/' ∧ c ≠ '.' := by
  obtain ⟨c, hc, hne⟩ := a.extension_ending
  refine ⟨c, ?_, hne⟩
  simp [fileName, List.getLast?_append, List.getLast?_cons, hc]

theorem fileName_ne_dot (as : Artifacts) (a : Artifact) :
    ¬ (as.fileName a = "" || as.fileName a = ".") = true := by
  obtain ⟨c, hc, _, hdot⟩ := as.fileName_ending a
  intro e
  simp only [Bool.or_eq_true, decide_eq_true_eq] at e
  rcases e with e | e
  · simp [e] at hc
  · exact hdot (by simpa [e] using hc.symm)

theorem fileName_ne_up (as : Artifacts) (a : Artifact) : as.fileName a ≠ ".." := by
  obtain ⟨c, hc, _, hdot⟩ := as.fileName_ending a
  intro e
  exact hdot (by simpa [e] using hc.symm)

theorem Named.segments (h : as.Named) (a : Artifact) :
    (as.path a).segments = as.dir.segments ++ [as.fileName a] := by
  obtain ⟨c, hd, hc⟩ := h.dir
  exact Path.segments_file hd hc (h.notMem_fileName a)

theorem Named.isAbsolute (h : as.Named) (a : Artifact) : (as.path a).isAbsolute = as.dir.isAbsolute := by
  obtain ⟨c, hd, hc⟩ := h.dir
  exact Path.isAbsolute_file hd hc (h.notMem_fileName a)

/-- The place that the path of an artifact means is in its directory. -/
theorem Named.aim (h : as.Named) (fs : FileSystem) (a : Artifact) :
    fs.aim (as.path a) = as.fileName a :: fs.aim as.dir := by
  rw [FileSystem.aim, h.segments, h.isAbsolute, along_append, along, if_neg (as.fileName_ne_dot a),
    if_neg (as.fileName_ne_up a)]
  rfl

theorem Named.bare (h : as.Named) (a : Artifact) : FileSystem.bare (as.path a) = (as.path a, false) := by
  obtain ⟨c, hl, hc, _⟩ := as.fileName_ending a
  exact bare_of_ending (Path.getLast?_file (h.notMem_fileName a) hl) hc

/-! ## Places -/

/-- The directory of the artifacts is at `home`. -/
structure Housed (as : Artifacts) (fs : FileSystem) (home : Location) : Prop where
  named : as.Named
  walk : fs.walk (if as.dir.isAbsolute then [] else fs.workingDir) as.dir.segments = .ok home
  hasDir : fs.HasDir home

def place (as : Artifacts) (home : Location) (a : Artifact) : Except OsError Location :=
  match accept (as.path a) with
  | .error e => .error e
  | .ok () => if 255 < (as.fileName a).utf8ByteSize then .error .nameTooLong else .ok (as.fileName a :: home)

theorem place_eq_ok {loc : Location} (h : as.place home a = .ok loc) : loc = as.fileName a :: home := by
  rw [place] at h
  split at h
  · cases h
  · split at h
    · cases h
    · cases h
      rfl

theorem Housed.locate (h : as.Housed fs home) (a : Artifact) : fs.locate (as.path a) = as.place home a := by
  rw [FileSystem.locate, follow, place]
  cases accept (as.path a) with
  | error e => rfl
  | ok u =>
    have hw (loc : Location) : fs.walk loc (as.dir.segments ++ [as.fileName a])
        = (fs.walk loc as.dir.segments).bind fun loc => fs.walk loc [as.fileName a] :=
      walk_append loc as.dir.segments [as.fileName a]
    simp only [h.named.segments, h.named.isAbsolute, hw, h.walk, Except.bind]
    rw [walk_cons_of_hasDir h.hasDir, if_neg (as.fileName_ne_dot a), if_neg (as.fileName_ne_up a)]
    rfl

theorem Housed.aim_dir (h : as.Housed fs home) : fs.aim as.dir = home := along_of_walk h.walk

theorem Housed.aim (h : as.Housed fs home) (a : Artifact) : fs.aim (as.path a) = as.fileName a :: home := by
  rw [h.named.aim, h.aim_dir]

theorem Housed.dirsKept (h : as.Housed fs home) (hk : DirsKept fs fs') : as.Housed fs' home where
  named := h.named
  walk := by
    rw [hk.workingDir]
    exact hk.walk h.walk
  hasDir := hk.hasDir home h.hasDir

theorem Housed.kept (h : as.Housed fs home) (hg : Grows fs fs') : as.Housed fs' home := h.dirsKept hg.dirsKept

theorem housed_of_isDir (hn : as.Named) (h : fs.isDir as.dir = true) : ∃ home, as.Housed fs home := by
  obtain ⟨home, hl, hd⟩ := isDir_iff.1 h
  exact ⟨home, hn, (follow_eq_ok hl).2, hd⟩

theorem Housed.isDir (h : as.Housed fs home) (ha : accept as.dir = .ok ()) : fs.isDir as.dir = true := by
  refine isDir_iff.2 ⟨home, ?_, h.hasDir⟩
  rw [FileSystem.locate, follow, ha]
  exact h.walk

/-- An artifact whose path can be followed has its directory somewhere. -/
theorem housed_of_locate {loc : Location} (hn : as.Named) (h : fs.locate (as.path a) = .ok loc) :
    ∃ home, as.Housed fs home := by
  rw [FileSystem.locate, hn.segments] at h
  have hw := (follow_eq_ok h).2
  rw [walk_append, hn.isAbsolute] at hw
  cases hd : fs.walk (if as.dir.isAbsolute then [] else fs.workingDir) as.dir.segments with
  | error e => simp [hd, Except.bind] at hw
  | ok home =>
    rw [hd] at hw
    exact ⟨home, hn, hd, hasDir_of_walk_cons hw⟩

/-- A directory can be named if a file in it can. -/
theorem Named.accept (h : as.Named) (ha : FileSystem.accept (as.path a) = .ok ()) :
    FileSystem.accept as.dir = .ok () := by
  obtain ⟨c, hd, hc⟩ := h.dir
  have hchars : (as.path a).chars = as.dir.chars ++ '/' :: (as.fileName a).toList :=
    Path.chars_file hd hc (h.notMem_fileName a)
  have htext : (as.path a).text = as.dir.text ++ ("/" ++ as.fileName a) := by
    rw [← String.toList_inj, String.toList_append, String.toList_append]
    exact hchars
  rw [FileSystem.accept] at ha
  split at ha
  · cases ha
  · rename_i hnul
    split at ha
    · cases ha
    · split at ha
      · cases ha
      · rename_i hlong
        have hnul' : '\x00' ∉ as.dir.chars := fun hm => hnul (by simp [hchars, hm])
        have hne : as.dir.text ≠ "" := by
          intro e
          simp [Path.chars, e] at hd
        have hshort : ¬ maxPathBytes ≤ as.dir.text.utf8ByteSize := by
          rw [htext, String.utf8ByteSize_append] at hlong
          omega
        rw [FileSystem.accept, if_neg hnul', if_neg hne, if_neg hshort]

theorem isDir_of_stat {n : Node} (hn : as.Named) (h : fs.stat (as.path a) = .ok n) : fs.isDir as.dir = true := by
  obtain ⟨loc, hloc, _⟩ := stat_eq_ok h
  obtain ⟨home, hh⟩ := housed_of_locate hn hloc
  exact hh.isDir (hn.accept (follow_eq_ok hloc).1)

/-- An artifact that can be written has its directory somewhere. -/
theorem housed_of_write {contents : ByteArray} (hn : as.Named) (h : fs.write (as.path a) contents = .ok fs') :
    ∃ home, as.Housed fs home := by
  obtain ⟨loc, ht, _⟩ := write_eq_ok h
  have hl := (target_eq_ok ht).1
  rw [locateBare, hn.bare] at hl
  exact housed_of_locate hn hl

/-! ## Writing one artifact -/

section write

variable {contents : ByteArray} (h : as.Housed fs home) (hw : fs.write (as.path a) contents = .ok fs')

include h hw

/-- An artifact is written in its place, where no directory is. -/
theorem Housed.write_eq_ok : as.place home a = .ok (as.fileName a :: home)
    ∧ ¬ fs.HasDir (as.fileName a :: home) ∧ fs' = fs.store (as.fileName a :: home) contents false := by
  obtain ⟨loc, ht, rfl⟩ := FileSystem.write_eq_ok hw
  obtain ⟨hl, _, hd⟩ := target_eq_ok ht
  rw [locateBare, h.named.bare, show fs.follow (as.path a) (as.path a).segments = as.place home a from h.locate a]
    at hl
  obtain rfl := place_eq_ok hl
  exact ⟨hl, hd, rfl⟩

theorem Housed.stat_self : ∃ x, fs'.stat (as.path a) = .ok (.file contents fs.clock x) := by
  obtain ⟨hp, hd, rfl⟩ := h.write_eq_ok hw
  obtain ⟨x, hx⟩ := node?_store_self fs (as.fileName a :: home) contents false
  refine ⟨x, ?_⟩
  rw [stat, (h.kept (grows_store hd contents false)).locate, hp]
  simp only [hx]

theorem Housed.node?_of_ne (hne : b ≠ a) :
    fs'.node? (as.fileName b :: home) = fs.node? (as.fileName b :: home) := by
  obtain ⟨_, _, rfl⟩ := h.write_eq_ok hw
  have hloc : as.fileName b :: home ≠ as.fileName a :: home := by
    intro e
    exact hne (fileName_injective (List.cons.inj e).1)
  have htail : as.fileName b :: home ≠ (as.fileName a :: home).tail := List.cons_ne_self _ _
  exact node?_store_of_ne hloc htail contents false

theorem Housed.stat_of_ne (hne : b ≠ a) : fs'.stat (as.path b) = fs.stat (as.path b) := by
  have hnode := h.node?_of_ne hw hne
  rw [stat, stat, (h.kept (grows_write hw)).locate, h.locate]
  cases hb : as.place home b with
  | error e => rfl
  | ok loc =>
    obtain rfl := place_eq_ok hb
    simp only [hnode]

end write

/-! ## Writing several artifacts -/

/-- Writes artifacts with their texts, one after another. -/
def writeAll (as : Artifacts) (ws : List (Artifact × String)) (fs : FileSystem) : Except OsError FileSystem :=
  ws.foldlM (fun fs w => fs.write (as.path w.1) w.2.toUTF8) fs

theorem writeAll_append {ws ws' : List (Artifact × String)} {fs₁ fs₂ : FileSystem}
    (h : as.writeAll ws fs = .ok fs₁) (h' : as.writeAll ws' fs₁ = .ok fs₂) :
    as.writeAll (ws ++ ws') fs = .ok fs₂ := by
  rw [writeAll, List.foldlM_append]
  rw [writeAll] at h
  rw [h]
  exact h'

theorem writeAll_cons_eq_ok {w : Artifact × String} {ws : List (Artifact × String)}
    (h : as.writeAll (w :: ws) fs = .ok fs') :
    ∃ fs₁, fs.write (as.path w.1) w.2.toUTF8 = .ok fs₁ ∧ as.writeAll ws fs₁ = .ok fs' := by
  rw [writeAll, List.foldlM_cons] at h
  cases hw : fs.write (as.path w.1) w.2.toUTF8 with
  | error e =>
    rw [hw] at h
    cases h
  | ok fs₁ =>
    rw [hw] at h
    exact ⟨fs₁, rfl, h⟩

theorem writeAll_one {text : String} (h : fs.write (as.path a) text.toUTF8 = .ok fs') :
    as.writeAll [(a, text)] fs = .ok fs' := by
  rw [writeAll, List.foldlM_cons, h]
  rfl

theorem grows_writeAll {ws : List (Artifact × String)} (h : as.writeAll ws fs = .ok fs') : Grows fs fs' := by
  induction ws generalizing fs with
  | nil =>
    cases h
    exact .refl _
  | cons w ws ih =>
    obtain ⟨fs₁, hw, hws⟩ := writeAll_cons_eq_ok h
    exact (grows_write hw).trans (ih hws)

/-- Artifacts that can be written have their directory somewhere. -/
theorem housed_of_writeAll {ws : List (Artifact × String)} (hn : as.Named) (hne : ws ≠ [])
    (h : as.writeAll ws fs = .ok fs') : ∃ home, as.Housed fs home := by
  obtain ⟨w, ws, rfl⟩ := List.exists_cons_of_ne_nil hne
  obtain ⟨fs₁, hw, _⟩ := writeAll_cons_eq_ok h
  exact housed_of_write hn hw

section writeAll

variable {ws : List (Artifact × String)} (h : as.Housed fs home) (hw : as.writeAll ws fs = .ok fs')

include h hw

theorem Housed.stat_writeAll (ha : a ∉ ws.map Prod.fst) : fs'.stat (as.path a) = fs.stat (as.path a) := by
  induction ws generalizing fs with
  | nil =>
    cases hw
    rfl
  | cons w ws ih =>
    obtain ⟨fs₁, hw₁, hws⟩ := writeAll_cons_eq_ok hw
    simp only [List.map_cons, List.mem_cons, not_or] at ha
    rw [ih (h.kept (grows_write hw₁)) hws ha.2, h.stat_of_ne hw₁ ha.1]

theorem Housed.node?_writeAll (ha : a ∉ ws.map Prod.fst) :
    fs'.node? (as.fileName a :: home) = fs.node? (as.fileName a :: home) := by
  induction ws generalizing fs with
  | nil =>
    cases hw
    rfl
  | cons w ws ih =>
    obtain ⟨fs₁, hw₁, hws⟩ := writeAll_cons_eq_ok hw
    simp only [List.map_cons, List.mem_cons, not_or] at ha
    rw [ih (h.kept (grows_write hw₁)) hws ha.2, h.node?_of_ne hw₁ ha.1]

theorem Housed.stat_of_mem {w : Artifact × String} (hnodup : (ws.map Prod.fst).Nodup) (hm : w ∈ ws) :
    ∃ x, fs'.stat (as.path w.1) = .ok (.file w.2.toUTF8 fs.clock x) := by
  induction ws generalizing fs with
  | nil => cases hm
  | cons w' ws ih =>
    obtain ⟨fs₁, hw₁, hws⟩ := writeAll_cons_eq_ok hw
    have h₁ := h.kept (grows_write hw₁)
    obtain ⟨hnew, hrest⟩ := List.nodup_cons.1 hnodup
    rcases List.mem_cons.1 hm with rfl | hm
    · obtain ⟨x, hx⟩ := h.stat_self hw₁
      exact ⟨x, (h₁.stat_writeAll hws hnew).trans hx⟩
    · have hlast := ih h₁ hws hrest hm
      rwa [(grows_write hw₁).clock] at hlast

/-- The written artifacts, and no other ones, have the time of the clock. -/
theorem Housed.modified_writeAll (a : Artifact) : Freshness.modified fs' (as.path a)
    = if a ∈ ws.map Prod.fst then .ok fs.clock else Freshness.modified fs (as.path a) := by
  induction ws generalizing fs with
  | nil =>
    cases hw
    rfl
  | cons w ws ih =>
    obtain ⟨fs₁, hw₁, hws⟩ := writeAll_cons_eq_ok hw
    rw [ih (h.kept (grows_write hw₁)) hws, (grows_write hw₁).clock]
    by_cases hm : a ∈ ws.map Prod.fst
    · simp [hm]
    · rw [if_neg hm]
      by_cases hb : a = w.1
      · obtain ⟨x, hx⟩ := h.stat_self hw₁
        rw [if_pos (by simp [hb]), Freshness.modified, hb, hx]
        rfl
      · rw [if_neg (by simpa [hb] using hm), Freshness.modified, Freshness.modified, h.stat_of_ne hw₁ hb]

end writeAll

end Artifacts

/-! ## Freshness -/

namespace Freshness

theorem modified_tick (fs : FileSystem) (pause : Time) (p : Path) : modified (fs.tick pause) p = modified fs p := by
  rw [modified, modified, stat_tick]

theorem modified_eq_ok {fs : FileSystem} {p : Path} {t : Time} (h : modified fs p = .ok t) :
    ∃ n, fs.stat p = .ok n ∧ n.modified = t := by
  rw [modified] at h
  cases hs : fs.stat p with
  | error e =>
    rw [hs] at h
    cases h
  | ok n =>
    rw [hs] at h
    exact ⟨n, rfl, Except.ok.inj h⟩

/-- In a growing file system, what is there keeps its time or gets the time of the clock. -/
theorem modified_of_grows {fs fs' : FileSystem} {p : Path} {t : Time} (h : Grows fs fs') (ht : modified fs p = .ok t) :
    ∃ t', modified fs' p = .ok t' ∧ (t' = t ∨ t' = fs.clock) := by
  obtain ⟨n, hs, rfl⟩ := modified_eq_ok ht
  obtain ⟨n', hs', _, hn'⟩ := h.stat hs
  refine ⟨n'.modified, by rw [modified, hs']; rfl, ?_⟩
  rcases hn' with rfl | hn'
  · exact Or.inl rfl
  · exact Or.inr hn'

theorem check_eq_fresh_iff {fs : FileSystem} {source : Time} {paths : List Path} :
    check fs source paths = .ok .fresh ↔ ∀ p ∈ paths, ∃ t, modified fs p = .ok t ∧ source < t := by
  induction paths with
  | nil => simp [check]
  | cons p paths ih =>
    rw [check, List.forall_mem_cons]
    split
    · rename_i t ht
      by_cases hlt : source < t
      · simp [hlt, ht, ih]
      · simp [hlt, ht]
    · rename_i he
      simp [he]
    · rename_i e _ he
      simp [he]

theorem modified_of_eq_ok {fs : FileSystem} {definition : Path} {as : Artifacts} {freshness : Freshness}
    (h : Freshness.of fs definition as = .ok freshness) : ∃ source, modified fs definition = .ok source := by
  rw [Freshness.of] at h
  split at h
  · exact ⟨_, ‹_›⟩
  · cases h

theorem of_eq_fresh_iff {fs : FileSystem} {definition : Path} {as : Artifacts} :
    Freshness.of fs definition as = .ok .fresh ↔ ∃ source, modified fs definition = .ok source
      ∧ ∀ a, ∃ t, modified fs (as.path a) = .ok t ∧ source < t := by
  rw [Freshness.of]
  cases hd : modified fs definition with
  | error e => simp
  | ok source =>
    simp only [Artifacts.paths, check_eq_fresh_iff, List.forall_mem_map]
    constructor
    · exact fun h => ⟨source, rfl, fun a => h a (Artifact.mem_all a)⟩
    · rintro ⟨_, ⟨⟩, h⟩ a _
      exact h a

end Freshness

end BaseLang
