import BaseLang.FileSystem.Disk

/-!
# What file operations change

* `Path.segments_file`, `FileSystem.bare_of_ending` : the names in the path of a file;
* `HasDir`, `DirsKept` : directories, and changes that keep all of them;
* `DirsKept.walk` : a way through directories stays one under such changes;
* `node?_add` : what is put somewhere changes the time of the directory that holds it, and nothing else;
* `node?_store_self`, `node?_store_of_ne` : a written file is there, and nothing else changes but the directory
  that it is in;
* `stat_tick` : nothing changes when time passes.
-/

namespace BaseLang

/-! ## Paths -/

namespace Path

variable {dir : Path} {name : String}

theorem isAbsolute_of_notMem (h : '/' ∉ name.toList) : (⟨name⟩ : Path).isAbsolute = false := by
  cases hc : name.toList with
  | nil => simp [isAbsolute, chars, hc]
  | cons c cs =>
    have hne : c ≠ '/' := fun e => h (by simp [hc, e])
    simp [isAbsolute, chars, hc, hne]

theorem chars_file {c : Char} (hd : dir.chars.getLast? = some c) (hc : c ≠ '/') (hn : '/' ∉ name.toList) :
    (dir.file name).chars = dir.chars ++ '/' :: name.toList := by
  have hne : dir.text ≠ "" := by
    intro e
    simp [chars, e] at hd
  rw [file, join, if_neg (by simp [isAbsolute_of_notMem hn]), if_neg (by simp [hd, hne, hc])]
  simp [chars]

theorem segments_file {c : Char} (hd : dir.chars.getLast? = some c) (hc : c ≠ '/') (hn : '/' ∉ name.toList) :
    (dir.file name).segments = dir.segments ++ [name] := by
  rw [segments, segments, chars_file hd hc hn, Text.fields_append_sep, Text.fields_eq_singleton hn,
    List.map_append, List.map_singleton, String.ofList_toList]

theorem isAbsolute_file {c : Char} (hd : dir.chars.getLast? = some c) (hc : c ≠ '/') (hn : '/' ∉ name.toList) :
    (dir.file name).isAbsolute = dir.isAbsolute := by
  rw [isAbsolute, isAbsolute, chars_file hd hc hn]
  cases h : dir.chars with
  | nil => simp [h] at hd
  | cons => rfl

theorem getLast?_file {c : Char} (hn : '/' ∉ name.toList) (hl : name.toList.getLast? = some c) :
    (dir.file name).chars.getLast? = some c := by
  rw [file, join, if_neg (by simp [isAbsolute_of_notMem hn])]
  split <;> simp [chars, List.getLast?_append, List.getLast?_cons, hl]

end Path

namespace FileSystem

variable {fs fs' : FileSystem} {loc loc' l : Location} {p : Path}

theorem bare_of_ending {c : Char} (hp : p.chars.getLast? = some c) (hc : c ≠ '/') : bare p = (p, false) := by
  obtain ⟨cs, h⟩ := List.getLast?_eq_some_iff.1 hp
  have hr : p.chars.reverse.dropWhile (· = '/') = c :: cs.reverse := by
    simp [h, hc]
  have hp' : Path.ofChars (c :: cs.reverse).reverse = p := by
    rw [List.reverse_cons, List.reverse_reverse, ← h, Path.ofChars, Path.chars, String.ofList_toList]
  simp only [bare, hr, hp', hp]
  simp [hc]

/-! ## Directories -/

def HasDir (fs : FileSystem) (loc : Location) : Prop := ∃ t, fs.node? loc = some (.dir t)

/-- Every directory is still one, and paths start from the same one. -/
structure DirsKept (fs fs' : FileSystem) : Prop where
  workingDir : fs'.workingDir = fs.workingDir
  hasDir : ∀ loc, fs.HasDir loc → fs'.HasDir loc

theorem walk_cons_of_hasDir (h : fs.HasDir loc) (name : String) (names : List String) :
    fs.walk loc (name :: names) = if name = "" || name = "." then fs.walk loc names
      else if name = ".." then fs.walk loc.tail names
      else if 255 < name.utf8ByteSize then .error .nameTooLong
      else fs.walk (name :: loc) names := by
  obtain ⟨t, ht⟩ := h
  rw [walk, ht]

theorem hasDir_of_walk_cons {name : String} {names : List String}
    (h : fs.walk loc (name :: names) = .ok loc') : fs.HasDir loc := by
  rw [walk] at h
  split at h
  · cases h
  · cases h
  · exact ⟨_, ‹_›⟩

theorem walk_append (loc : Location) (names names' : List String) :
    fs.walk loc (names ++ names') = (fs.walk loc names).bind fun loc => fs.walk loc names' := by
  induction names generalizing loc with
  | nil => rfl
  | cons name names ih =>
    rw [List.cons_append, walk, walk]
    split
    · rfl
    · rfl
    · split
      · exact ih loc
      · split
        · exact ih loc.tail
        · split
          · rfl
          · exact ih (name :: loc)

theorem DirsKept.walk (h : DirsKept fs fs') {names : List String} (hw : fs.walk loc names = .ok loc') :
    fs'.walk loc names = .ok loc' := by
  induction names generalizing loc with
  | nil => exact hw
  | cons name names ih =>
    have hd := hasDir_of_walk_cons hw
    rw [walk_cons_of_hasDir hd] at hw
    rw [walk_cons_of_hasDir (h.hasDir loc hd)]
    split
    · exact ih (by simpa [*] using hw)
    · split
      · exact ih (by simpa [*] using hw)
      · split
        · simp [*] at hw
        · exact ih (by simpa [*] using hw)

theorem follow_eq_ok {names : List String} (h : fs.follow p names = .ok loc) :
    accept p = .ok () ∧ fs.walk (if p.isAbsolute then [] else fs.workingDir) names = .ok loc := by
  rw [follow] at h
  split at h
  · cases h
  · exact ⟨‹_›, h⟩

theorem DirsKept.follow (h : DirsKept fs fs') {names : List String} (hf : fs.follow p names = .ok loc) :
    fs'.follow p names = .ok loc := by
  obtain ⟨ha, hw⟩ := follow_eq_ok hf
  rw [FileSystem.follow, ha, h.workingDir]
  exact h.walk hw

theorem isDir_iff : fs.isDir p = true ↔ ∃ loc, fs.locate p = .ok loc ∧ fs.HasDir loc := by
  rw [isDir, stat]
  cases fs.locate p with
  | error e => simp
  | ok loc =>
    cases h : fs.node? loc with
    | none => simp [HasDir, h]
    | some node => cases node <;> simp [HasDir, h]

/-! ## Changes at a location -/

theorem node?_put (fs : FileSystem) (loc l : Location) (node : Node) :
    (fs.put loc node).node? l = if loc = l then some node else fs.node? l :=
  Table.get?_insert fs.nodes loc l node

theorem node?_touchParent (fs : FileSystem) (loc l : Location) : (fs.touchParent loc).node? l
    = (fs.node? l).map fun n => if l = loc.tail then n.withTime fs.clock else n := by
  rw [touchParent]
  by_cases h : l = loc.tail
  · subst h
    split
    · rename_i n hn
      simp [node?_put, hn]
    · rename_i hn
      simp [hn]
  · split
    · simp [node?_put, h, Ne.symm h]
    · simp [h]

theorem node?_add (fs : FileSystem) (loc l : Location) (node : Node) : (fs.add loc node).node? l
    = if loc = l then some node else (fs.node? l).map fun n => if l = loc.tail then n.withTime fs.clock else n := by
  rw [add, node?_put, node?_touchParent]

@[simp] theorem clock_touchParent (fs : FileSystem) (loc : Location) : (fs.touchParent loc).clock = fs.clock := by
  rw [touchParent]
  split <;> rfl

theorem node?_store_self (fs : FileSystem) (loc : Location) (contents : ByteArray) (executable : Bool) :
    ∃ x, (fs.store loc contents executable).node? loc = some (.file contents fs.clock x) := by
  rw [store]
  split
  · exact ⟨_, by rw [node?_put, if_pos rfl]⟩
  · exact ⟨_, by rw [node?_put, if_pos rfl]⟩
  · exact ⟨_, by rw [node?_add, if_pos rfl]⟩

/-- A file is written into its own place and the time of its directory. -/
theorem node?_store_of_ne (h : l ≠ loc) (ht : l ≠ loc.tail) (contents : ByteArray) (executable : Bool) :
    (fs.store loc contents executable).node? l = fs.node? l := by
  rw [store]
  split
  · rw [node?_put, if_neg (Ne.symm h)]
  · rw [node?_put, if_neg (Ne.symm h)]
  · rw [node?_add, if_neg (Ne.symm h)]
    simp [ht]

/-! ## Writing -/

theorem target_eq_ok (h : fs.target p = .ok loc) :
    fs.locateBare p = .ok loc ∧ (bare p).2 = false ∧ ¬ fs.HasDir loc := by
  rw [target] at h
  split at h
  · cases h
  · rename_i loc' hl
    split at h
    · cases h
    · rename_i hb
      split at h
      · cases h
      · rename_i hd
        cases h
        exact ⟨hl, by simpa using hb, fun ⟨t, ht⟩ => hd t ht⟩

theorem write_eq_ok {contents : ByteArray} (h : fs.write p contents = .ok fs') :
    ∃ loc, fs.target p = .ok loc ∧ fs' = fs.store loc contents false := by
  rw [write] at h
  cases ht : fs.target p with
  | error e => simp [ht, Except.map] at h
  | ok loc =>
    rw [ht] at h
    cases h
    exact ⟨loc, rfl, rfl⟩

theorem makeDir_eq_ok (h : fs.makeDir p = .ok fs') :
    ∃ loc, fs.locateBare p = .ok loc ∧ fs.node? loc = none ∧ fs' = fs.add loc (.dir fs.clock) := by
  rw [makeDir] at h
  split at h
  · cases h
  · rename_i loc hl
    split at h
    · cases h
    · rename_i hn
      cases h
      exact ⟨loc, hl, hn, rfl⟩

/-! ## Time -/

theorem walk_tick (fs : FileSystem) (pause : Time) (loc : Location) (names : List String) :
    (fs.tick pause).walk loc names = fs.walk loc names := by
  induction names generalizing loc with
  | nil => rfl
  | cons name names ih =>
    have hn : (fs.tick pause).node? loc = fs.node? loc := rfl
    rw [walk, walk, hn]
    simp only [ih]

theorem locate_tick (fs : FileSystem) (pause : Time) (p : Path) : (fs.tick pause).locate p = fs.locate p := by
  simp only [locate, follow, walk_tick]
  rfl

theorem stat_tick (fs : FileSystem) (pause : Time) (p : Path) : (fs.tick pause).stat p = fs.stat p := by
  rw [stat, stat, locate_tick]
  rfl

theorem isDir_tick (fs : FileSystem) (pause : Time) (p : Path) : (fs.tick pause).isDir p = fs.isDir p := by
  rw [isDir, isDir, stat_tick]

theorem isFile_tick (fs : FileSystem) (pause : Time) (p : Path) : (fs.tick pause).isFile p = fs.isFile p := by
  rw [isFile, isFile, stat_tick]

theorem tick_zero (fs : FileSystem) : fs.tick 0 = fs := by
  rw [tick, Int.add_zero]

theorem tick_tick (fs : FileSystem) (pause pause' : Time) :
    (fs.tick pause).tick pause' = fs.tick (pause + pause') := by
  rw [tick, tick, tick, Int.add_assoc]

end FileSystem

end BaseLang
