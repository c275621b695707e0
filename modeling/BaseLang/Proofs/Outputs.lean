import BaseLang.Proofs.Compilation
import BaseLang.Proofs.Frame
import BaseLang.Proofs.Nameable

/-!
# Outputs that are compiled to one place

The suffix of an output is replaced when it is compiled, so outputs with the same directory parts and the same stem go to
the same place, and the last one of them is found there.

* `FileSystem.aim_join` : the place of a path below another one. `FileSystem.Apart` : no path below the one is in a place
  of a path below the other;
* `FileSystem.FilesKept` : a change that keeps all directories, and all files outside of a set of places;
* `Path.Namesakes`, `Path.BelongsAt` : outputs that differ at most in their suffix, and where they are compiled to;
* `SourceUnit.compileOutput_eq_ok` : one output that is compiled. `SourceUnit.compile_eq_ok` : all of them;
* `SourceUnit.compile_lossless_iff` : what each path holds in the end, and when nothing is lost.
-/

namespace BaseLang

theorem exists_mem_zip {α β : Type} {as : List α} {bs : List β} {a : α} (h : as.length ≤ bs.length) (ha : a ∈ as) :
    ∃ b, (a, b) ∈ as.zip bs := by
  rw [← List.map_fst_zip h] at ha
  obtain ⟨⟨a', b⟩, hab, rfl⟩ := List.mem_map.1 ha
  exact ⟨b, hab⟩

/-! ## Places below a directory -/

namespace Path

variable {p q : Path}

theorem names_join (p : Path) (hq : q.isAbsolute = false) : (p.join q).names = p.names ++ q.names := by
  by_cases hp : p.text = ""
  · rw [join_empty hp hq, show p = ⟨""⟩ from congrArg Path.mk hp]
    rfl
  · obtain ⟨cs, hcs, hj⟩ := join_eq hp hq
    have hnil : (ofChars []).names = [] := rfl
    rw [hj, ← hcs.names, names_append, names_append, ofChars_chars, hnil, List.append_nil]

theorem isAbsolute_join (p : Path) (hq : q.isAbsolute = false) : (p.join q).isAbsolute = p.isAbsolute := by
  have hroot : ∀ q : Path, "/" ∉ q.names := by
    intro q hmem
    rw [names_eq] at hmem
    simpa using (List.mem_filter.1 hmem).2
  rw [Bool.eq_iff_iff, isAbsolute_iff, isAbsolute_iff, components_join p hq]
  split
  · rename_i hp
    rw [← isAbsolute_iff, hq, show p = ⟨""⟩ from congrArg Path.mk hp]
    decide
  · cases hc : p.components with
    | nil =>
      simp only [List.nil_append, List.head?_nil, reduceCtorEq, iff_false]
      exact fun h => hroot q (List.mem_of_head? h)
    | cons => simp

theorem Ordinary.names (h : p.Ordinary) : p.names = p.components := by
  have hstart : p.start = [] := by
    rw [start, if_neg (by simp [h.relative])]
    split
    · rename_i hdot
      refine absurd ?_ h.dot_notMem
      rw [components_eq, start, if_neg (by simp [h.relative]), if_pos hdot]
      exact List.mem_cons_self ..
    · rfl
  rw [components_eq, hstart, List.nil_append]

/-- Every path is written as something without a slash behind what can stand before it. -/
theorem exists_endsIn (p : Path) : ∃ n, '/' ∉ n.toList ∧ p.EndsIn n := by
  cases hs : Text.splitLast '/' p.chars with
  | none =>
    have hn : '/' ∉ p.text.toList := Text.splitLast_eq_none_iff.1 hs
    exact ⟨p.text, hn, [], .inl rfl, (ofChars_chars p).symm⟩
  | some parts =>
    obtain ⟨hp, hn⟩ := Text.splitLast_eq_some_iff.1 hs
    refine ⟨String.ofList parts.2, by rwa [String.toList_ofList], parts.1 ++ ['/'], .inr ⟨_, rfl⟩, ?_⟩
    rw [String.toList_ofList, List.append_assoc, List.singleton_append, ← hp, ofChars_chars]

end Path

namespace FileSystem

variable {fs fs' fs'' : FileSystem} {S S' : Location → Prop} {loc loc' : Location}
  {p q source destination out bin : Path} {n : String} {contents : ByteArray}

theorem along_filter (loc : Location) (names : List String) :
    along loc (names.filter fun s => s ≠ "" && s ≠ ".") = along loc names := by
  induction names generalizing loc with
  | nil => rfl
  | cons name names ih =>
    by_cases hblank : name = "" ∨ name = "."
    · rw [List.filter_cons_of_neg (by simpa [or_iff_not_imp_left] using hblank), ih, along,
        if_pos (by simpa using hblank)]
    · rw [List.filter_cons_of_pos (by simpa [not_or] using hblank), along, along, ih, ih, ih]

/-- Where there is no `..` among the names, each of them leads down. -/
theorem along_names (hup : ".." ∉ p.names) (loc : Location) : along loc p.names = p.names.reverse ++ loc := by
  have hblank : ∀ s ∈ p.names, (s = "" || s = ".") = false := by
    intro s hs
    have hkept := (List.mem_filter.1 hs).2
    simpa using hkept
  generalize p.names = names at hup hblank
  induction names generalizing loc with
  | nil => rfl
  | cons name names ih =>
    obtain ⟨hname, hnames⟩ := List.forall_mem_cons.1 hblank
    simp only [List.mem_cons, not_or] at hup
    rw [along, hname, if_neg (by simp), if_neg (Ne.symm hup.1), ih _ hup.2 hnames, List.reverse_cons, List.append_assoc,
      List.singleton_append]

theorem aim_eq (fs : FileSystem) (p : Path) :
    fs.aim p = along (if p.isAbsolute then [] else fs.workingDir) p.names := by
  rw [aim, Path.names, along_filter]

/-- A path below another one means the place that its names lead to from there. -/
theorem aim_join (fs : FileSystem) (p : Path) (hq : q.Ordinary) :
    fs.aim (p.join q) = q.components.reverse ++ fs.aim p := by
  have hup : ".." ∉ q.names := by
    rw [hq.names]
    exact hq.up_notMem
  rw [aim_eq, aim_eq, Path.isAbsolute_join p hq.relative, Path.names_join p hq.relative, along_append, along_names hup,
    hq.names]

/-- Neither of two paths means a place in the other one. -/
structure Apart (fs : FileSystem) (out bin : Path) : Prop where
  out_outside : ¬ fs.aim bin <:+ fs.aim out
  bin_outside : ¬ fs.aim out <:+ fs.aim bin

theorem Apart.ne (h : fs.Apart out bin) (hl : fs.aim out <:+ loc) (hl' : fs.aim bin <:+ loc') : loc ≠ loc' := by
  rintro rfl
  exact (List.suffix_or_suffix_of_suffix hl hl').elim h.bin_outside h.out_outside

theorem Apart.congr (h : fs.Apart out bin) (hw : fs'.workingDir = fs.workingDir) : fs'.Apart out bin := by
  have haim (p : Path) : fs'.aim p = fs.aim p := by rw [aim, aim, hw]
  exact ⟨by simpa only [haim] using h.out_outside, by simpa only [haim] using h.bin_outside⟩

/-! ## Files outside of some places -/

/-- Every directory is still one, everything is in a directory, and outside of `S` there are the same files. -/
structure FilesKept (S : Location → Prop) (fs fs' : FileSystem) : Prop extends DirsKept fs fs' where
  isTree : fs'.IsTree
  file : ∀ loc n, n.isDir = false → ¬ S loc → (fs'.node? loc = some n ↔ fs.node? loc = some n)

namespace FilesKept

theorem refl (S : Location → Prop) (ht : fs.IsTree) : FilesKept S fs fs :=
  ⟨⟨rfl, fun _ => id⟩, ht, fun _ _ _ _ => Iff.rfl⟩

theorem trans (h : FilesKept S fs fs') (h' : FilesKept S fs' fs'') : FilesKept S fs fs'' where
  workingDir := h'.workingDir.trans h.workingDir
  hasDir loc := h'.hasDir loc ∘ h.hasDir loc
  isTree := h'.isTree
  file loc n hfile hS := (h'.file loc n hfile hS).trans (h.file loc n hfile hS)

theorem mono (h : FilesKept S fs fs') (hS : ∀ loc, S loc → S' loc) : FilesKept S' fs fs' :=
  ⟨h.toDirsKept, h.isTree, fun loc n hfile hn => h.file loc n hfile (mt (hS loc) hn)⟩

theorem locate (h : FilesKept S fs fs') (hl : fs.locate p = .ok loc) : fs'.locate p = .ok loc := h.toDirsKept.follow hl

theorem aim (h : FilesKept S fs fs') (p : Path) : fs'.aim p = fs.aim p := by
  rw [FileSystem.aim, FileSystem.aim, h.workingDir]

/-- A file that is not in one of the places can still be read. -/
theorem read (h : FilesKept S fs fs') (hr : fs.read p = .ok contents) (hS : ¬ S (fs.aim p)) :
    fs'.read p = .ok contents := by
  obtain ⟨t, x, hs⟩ := read_eq_ok_iff.1 hr
  obtain ⟨loc, hl, hn⟩ := stat_eq_ok hs
  rw [aim_of_locate hl] at hS
  exact read_eq_ok_iff.2 ⟨t, x, stat_of_locate (h.locate hl) ((h.file loc _ rfl hS).2 hn)⟩

end FilesKept

theorem filesKept_makeDirs (ht : fs.IsTree) (p : Path) : FilesKept (fun _ => False) fs ((Disk.makeDirs p).run fs).2 := by
  obtain ⟨ht', hsame⟩ := ht.makeDirs p
  exact ⟨(Disk.made_makeDirs p fs).grows.dirsKept, ht', fun loc n hfile _ => hsame loc n hfile⟩

theorem filesKept_copy (ht : fs.IsTree) (h : fs.copy source destination = .ok fs') :
    FilesKept (· = fs.aim destination) fs fs' := by
  obtain ⟨loc, loc', contents, t, x, _, _, htarget, hfs⟩ := copy_eq_ok h
  obtain ⟨hl, hdir⟩ := locate_of_target htarget
  have hgrows := grows_copy h
  rw [aim_of_locate hl]
  cases hn : fs.node? loc' with
  | none =>
    have habove := (ht.hasDir_of_follow (Path.segments_ne_nil _) hl).resolve_left hdir
    rw [hn, Option.isSome_none, if_neg (by simp)] at hfs
    obtain ⟨ht', hsame⟩ := ht.add (.file _ fs.clock x) hn rfl habove
    exact ⟨hgrows.dirsKept, hfs ▸ ht', fun l n hfile hne => hfs ▸ hsame l n hfile hne⟩
  | some old =>
    rw [hn, Option.isSome_some, if_pos rfl] at hfs
    refine ⟨hgrows.dirsKept, fun name l n hname => hgrows.dirsKept.hasDir l ?_, fun l n hfile hne => ?_⟩
    · rw [hfs, node?_put] at hname
      split at hname
      · rename_i he
        exact ht name l old (he ▸ hn)
      · exact ht name l n hname
    · rw [hfs, node?_put, if_neg (Ne.symm hne)]

/-- In a tree, a path to something other than a directory is written with a name at its end. -/
theorem IsTree.isName_of_locate (ht : fs.IsTree) (hp : p.EndsIn n) (hn : '/' ∉ n.toList) (hl : fs.locate p = .ok loc)
    (hdir : ¬ fs.HasDir loc) : Path.IsName n ∧ n ≠ ".." := by
  obtain ⟨home, hhome, hw⟩ := walk_last hp hn hl
  rw [walk_cons_of_hasDir hhome] at hw
  split at hw
  · cases hw
    exact absurd hhome hdir
  · rename_i hblank
    simp only [Bool.or_eq_true, decide_eq_true_eq, not_or] at hblank
    refine ⟨⟨hn, hblank.1, hblank.2⟩, fun hup => ?_⟩
    rw [if_pos hup] at hw
    cases hw
    exact hdir (ht.hasDir_of_suffix hhome (List.tail_suffix home))

end FileSystem

/-! ## Other suffixes -/

namespace Path

variable {o o' o'' : Path} {b name name' : List Char} {n e suffix : String} {home loc loc' : Location}

theorem isAbsolute_leads (hb : Leads b) (hn : '/' ∉ name) (hn' : '/' ∉ name') :
    (ofChars (b ++ name)).isAbsolute = (ofChars (b ++ name')).isAbsolute := by
  rcases hb with rfl | ⟨cs, rfl⟩
  · have hrelative {name : List Char} (hn : '/' ∉ name) : (ofChars name).isAbsolute = false :=
      isAbsolute_of_notMem (by rwa [String.toList_ofList])
    rw [List.nil_append, List.nil_append, hrelative hn, hrelative hn']
  · rw [isAbsolute, isAbsolute, chars_ofChars, chars_ofChars]
    cases cs <;> rfl

theorem directories_ofChars (hb : Leads b) (hn : IsName n) :
    (ofChars (b ++ n.toList)).directories = (ofChars b).components := by
  have hlast := (lastPart_ofChars hb hn).1
  have hne : (ofChars (b ++ n.toList)).lastPart ≠ [] := by
    rw [hlast]
    exact hn.toList.1
  have hcut := components_eq_directories hne
  rw [hlast, components_append hb hn.notMem hn.toList.1 fun h => absurd h hn.toList.2] at hcut
  exact (List.append_inj_left' hcut rfl).symm

/-- An ordinary path with another suffix is written with something at its end again. If this is a name, the path is an
ordinary one in the same directory. -/
theorem Ordinary.withExtension? (ho : o.Ordinary) (hp : o.EndsIn n) (hn : IsName n) (hup : n ≠ "..")
    (he : '/' ∉ e.toList) : ∃ m q t, o.stem? = some m ∧ o.withExtension? e = some q ∧ q.isAbsolute = false
      ∧ q.EndsIn t ∧ '/' ∉ t.toList
      ∧ (IsName t → t ≠ ".." → q.Ordinary ∧ q.components = o.directories ++ [suffixed m e]) := by
  obtain ⟨b, hb, rfl⟩ := hp
  obtain ⟨m, hm⟩ : ∃ m, (ofChars (b ++ n.toList)).stem? = some m := ⟨_, stem?_ofChars hb hn hup⟩
  have ht : '/' ∉ (if m = "." then ".." else suffixed m e).toList := by
    split
    · decide
    · have hslash := notMem_stem hm
      rw [toList_suffixed]
      split <;> simp [hslash, he]
  have hrelative := (isAbsolute_leads hb ht hn.notMem).trans ho.relative
  refine ⟨m, _, _, hm, withExtension?_ofChars hb hn hm he, hrelative, ⟨b, hb, rfl⟩, ht, fun hname htup => ?_⟩
  have hdot : m ≠ "." := fun h => htup (if_pos h)
  rw [if_neg hdot] at hname htup hrelative ⊢
  have hcomponents : (ofChars (b ++ (suffixed m e).toList)).components
      = (ofChars (b ++ n.toList)).directories ++ [suffixed m e] := by
    rw [components_append hb hname.notMem hname.toList.1 fun h => absurd h hname.toList.2, directories_ofChars hb hn,
      String.ofList_toList]
  have hnot {s : String} (hs : s ∉ (ofChars (b ++ n.toList)).components) (hne : suffixed m e ≠ s) :
      s ∉ (ofChars (b ++ (suffixed m e).toList)).components := by
    rw [components_append hb hn.notMem hn.toList.1 fun h => absurd h hn.toList.2, ← directories_ofChars hb hn,
      List.mem_append, not_or] at hs
    simp [hcomponents, hs.1, Ne.symm hne]
  exact ⟨⟨hrelative, hnot ho.dot_notMem hname.ne_dot, hnot ho.up_notMem htup⟩, hcomponents⟩

/-- Two outputs that differ at most in their suffix. -/
structure Namesakes (o o' : Path) : Prop where
  directories : o.directories = o'.directories
  stem : o.stem? = o'.stem?

namespace Namesakes

theorem refl (o : Path) : o.Namesakes o := ⟨rfl, rfl⟩

theorem symm (h : o.Namesakes o') : o'.Namesakes o := ⟨h.directories.symm, h.stem.symm⟩

theorem trans (h : o.Namesakes o') (h' : o'.Namesakes o'') : o.Namesakes o'' :=
  ⟨h.directories.trans h'.directories, h.stem.trans h'.stem⟩

end Namesakes

/-- The place below a directory that an output is compiled to: its stem, with the suffix, in its own directory. -/
def BelongsAt (o : Path) (suffix : String) (home loc : Location) : Prop :=
  ∃ m, o.stem? = some m ∧ loc = suffixed m suffix :: (o.directories.reverse ++ home)

theorem BelongsAt.below (h : o.BelongsAt suffix home loc) : home <:+ loc := by
  obtain ⟨m, _, rfl⟩ := h
  exact (List.suffix_append ..).trans (List.suffix_cons ..)

/-- Outputs belong at one place if they are namesakes, and only then. -/
theorem BelongsAt.namesakes_iff (h : o.BelongsAt suffix home loc) (h' : o'.BelongsAt suffix home loc') :
    o.Namesakes o' ↔ loc = loc' := by
  obtain ⟨m, hm, rfl⟩ := h
  obtain ⟨m', hm', rfl⟩ := h'
  rw [List.cons.injEq, suffixed_inj, List.append_left_inj, List.reverse_inj]
  constructor
  · rintro ⟨hd, hstem⟩
    exact ⟨Option.some.inj (hm.symm.trans (hstem.trans hm')), hd⟩
  · rintro ⟨rfl, hd⟩
    exact ⟨hd, hm.trans hm'.symm⟩

/-- The last namesake of `o` among some outputs. -/
def LastNamesake (outputs : List Path) (o o' : Path) : Prop :=
  ∃ before after, outputs = before ++ o' :: after ∧ o.Namesakes o' ∧ ∀ o'' ∈ after, ¬ o.Namesakes o''

theorem LastNamesake.cons {outputs : List Path} (h : LastNamesake outputs o o') (first : Path) :
    LastNamesake (first :: outputs) o o' := by
  obtain ⟨before, after, rfl, hrest⟩ := h
  exact ⟨first :: before, after, rfl, hrest⟩

theorem LastNamesake.congr {outputs : List Path} (h : LastNamesake outputs o o') (hname : o''.Namesakes o) :
    LastNamesake outputs o'' o' := by
  obtain ⟨before, after, rfl, hsame, hafter⟩ := h
  exact ⟨before, after, rfl, hname.trans hsame, fun x hx hx' => hafter x hx (hname.symm.trans hx')⟩

end Path

/-! ## Compiling -/

namespace SourceUnit

open FileSystem

variable {u : SourceUnit} {fs fs' : FileSystem} {out bin o w : Path} {outputs written : List Path}

theorem filesKept_makeParent (ht : fs.IsTree) {file : Path} (h : (makeParent file).run fs = (.ok (), fs')) :
    FilesKept (fun _ => False) fs fs' := by
  rw [makeParent] at h
  split at h
  · rename_i dir _
    have hkept := filesKept_makeDirs ht dir
    rwa [Action.mapFailure_eq_ok h] at hkept
  · cases h
    exact .refl _ ht

/-- An output is compiled to a path: this is the path with the suffix of the base language, below `bin`. A file is there, in
the place of the output, and the output is still a file. -/
structure Compiled (u : SourceUnit) (out bin o w : Path) (fs : FileSystem) : Prop where
  renamed : ∃ q, withSuffix o u.profile.baseSuffix = .ok q ∧ w = bin.join q
  place : ∃ loc, fs.locate w = .ok loc ∧ o.BelongsAt u.profile.baseSuffix (fs.aim bin) loc
  source : ∃ contents, fs.read (out.join o) = .ok contents

/-- An output that is compiled: once its directory is there, it is copied to the path with the other suffix. -/
theorem copied_of_compileOutput (ht : fs.IsTree) (h : (u.compileOutput out bin o).run fs = (.ok w, fs')) :
    ∃ q fs₁, withSuffix o u.profile.baseSuffix = .ok q ∧ w = bin.join q ∧ FilesKept (fun _ => False) fs fs₁
      ∧ fs₁.copy (out.join o) (bin.join q) = .ok fs' := by
  obtain ⟨q, _, hsuffix, h⟩ := Action.bind_eq_ok h
  obtain ⟨hq, rfl⟩ := Prod.mk.inj hsuffix
  obtain ⟨_, fs₁, hparent, h⟩ := Action.bind_eq_ok h
  obtain ⟨_, _, hcopied, h⟩ := Action.bind_eq_ok h
  cases h
  exact ⟨q, fs₁, hq, rfl, filesKept_makeParent ht hparent, Action.update_eq_ok (Action.mapFailure_eq_ok hcopied)⟩

/-- In a tree, an ordinary output is copied to where it belongs. -/
theorem belongsAt_of_copy {suffix : String} {q : Path} (hs : '/' ∉ suffix.toList) (ho : o.Ordinary) (ht : fs.IsTree)
    (hq : withSuffix o suffix = .ok q) (h : fs.copy (out.join o) (bin.join q) = .ok fs') :
    o.BelongsAt suffix (fs.aim bin) (fs.aim (bin.join q)) := by
  obtain ⟨loc, loc', contents, t, x, hl, hn, htarget, _⟩ := copy_eq_ok h
  obtain ⟨hl', hdir'⟩ := locate_of_target htarget
  have hdir : ¬ fs.HasDir loc := by
    rintro ⟨t', hdir⟩
    rw [hn] at hdir
    cases hdir
  -- Both paths lead to files, so there are names at their ends.
  obtain ⟨n, hslash, hend⟩ := o.exists_endsIn
  obtain ⟨hname, hup⟩ := ht.isName_of_locate (hend.join ho.relative out) hslash hl hdir
  obtain ⟨m, q', n', hm, hq', hrelative, hend', hslash', hordinary⟩ := ho.withExtension? hend hname hup hs
  obtain rfl : q' = q := Except.ok.inj ((withSuffix_eq hq').symm.trans hq)
  obtain ⟨hname', hup'⟩ := ht.isName_of_locate (hend'.join hrelative bin) hslash' hl' hdir'
  obtain ⟨hq'o, hcomponents⟩ := hordinary hname' hup'
  refine ⟨m, hm, ?_⟩
  rw [aim_join fs bin hq'o, hcomponents, List.reverse_append, List.reverse_singleton, List.singleton_append,
    List.cons_append]

/-- No output is compiled to the place of a source. -/
theorem not_belongsAt (hapart : fs.Apart out bin) (ho : o.Ordinary) {o' : Path} {suffix : String} :
    ¬ o'.BelongsAt suffix (fs.aim bin) (fs.aim (out.join o)) := by
  intro h
  refine hapart.ne ?_ h.below rfl
  rw [aim_join fs out ho]
  exact List.suffix_append ..

/-- **One output that is compiled.** It is copied to its place, and no other file is different. -/
theorem compileOutput_eq_ok (hs : '/' ∉ u.profile.baseSuffix.toList) (ho : o.Ordinary) (ht : fs.IsTree)
    (hapart : fs.Apart out bin) (h : (u.compileOutput out bin o).run fs = (.ok w, fs')) :
    FilesKept (o.BelongsAt u.profile.baseSuffix (fs.aim bin)) fs fs' ∧ u.Compiled out bin o w fs'
      ∧ fs'.read w = fs'.read (out.join o) := by
  obtain ⟨q, fs₁, hq, rfl, hmade, hcopy⟩ := copied_of_compileOutput ht h
  have hplace := belongsAt_of_copy hs ho hmade.isTree hq hcopy
  have hsource : ¬ o.BelongsAt u.profile.baseSuffix (fs₁.aim bin) (fs₁.aim (out.join o)) :=
    not_belongsAt (hapart.congr hmade.workingDir) ho
  have hkept : FilesKept (o.BelongsAt u.profile.baseSuffix (fs₁.aim bin)) fs₁ fs' :=
    (filesKept_copy hmade.isTree hcopy).mono fun l e => e ▸ hplace
  obtain ⟨loc, loc', contents, t, x, hl, hn, htarget, _⟩ := copy_eq_ok hcopy
  have hl' := (locate_of_target htarget).1
  have hread : fs₁.read (out.join o) = .ok contents := read_eq_ok_iff.2 ⟨t, x, stat_of_locate hl hn⟩
  have hcopied : fs'.read (bin.join q) = .ok contents := read_copy hcopy hread fun l hl₁ hl₂ => by
    rw [aim_of_locate hl₁] at hsource
    rw [aim_of_locate hl₂] at hplace
    exact hsource hplace
  have hread' := hkept.read hread hsource
  refine ⟨?_, ⟨⟨q, hq, rfl⟩, ⟨loc', hkept.locate hl', ?_⟩, contents, hread'⟩, hcopied.trans hread'.symm⟩
  · rw [hmade.aim] at hkept
    exact (hmade.mono fun _ => False.elim).trans hkept
  · rw [hkept.aim, ← aim_of_locate hl']
    exact hplace

namespace Compiled

theorem kept {S : Location → Prop} (h : u.Compiled out bin o w fs) (hkept : FilesKept S fs fs')
    (hS : ¬ S (fs.aim (out.join o))) : u.Compiled out bin o w fs' := by
  obtain ⟨loc, hl, hplace⟩ := h.place
  obtain ⟨contents, hr⟩ := h.source
  exact ⟨h.renamed, ⟨loc, hkept.locate hl, by rwa [hkept.aim]⟩, contents, hkept.read hr hS⟩

/-- One file is what namesakes are compiled to. -/
theorem read_eq {o' w' : Path} (h : u.Compiled out bin o w fs) (h' : u.Compiled out bin o' w' fs)
    (hname : o.Namesakes o') : fs.read w = fs.read w' := by
  obtain ⟨loc, hl, hplace⟩ := h.place
  obtain ⟨loc', hl', hplace'⟩ := h'.place
  obtain rfl := (hplace.namesakes_iff hplace').1 hname
  rw [FileSystem.read, FileSystem.read, stat, stat, hl, hl']

end Compiled

/-- **All outputs, compiled one after another.** Each path holds what the last namesake of its output holds, and no other
file is different. -/
theorem compile_eq_ok (hs : '/' ∉ u.profile.baseSuffix.toList) (ho : ∀ o ∈ outputs, o.Ordinary) (ht : fs.IsTree)
    (hapart : fs.Apart out bin) (h : (u.compile out bin outputs).run fs = (.ok written, fs')) :
    FilesKept (fun loc => ∃ o ∈ outputs, o.BelongsAt u.profile.baseSuffix (fs.aim bin) loc) fs fs'
      ∧ List.Forall₂ (fun o w => u.Compiled out bin o w fs'
          ∧ ∃ o', Path.LastNamesake outputs o o' ∧ fs'.read w = fs'.read (out.join o')) outputs written := by
  induction outputs generalizing fs written with
  | nil =>
    cases h
    exact ⟨.refl _ ht, .nil⟩
  | cons o outputs ih =>
    obtain ⟨hordinary, hordinaries⟩ := List.forall_mem_cons.1 ho
    obtain ⟨w, fs₁, hfirst, h⟩ := Action.bind_eq_ok h
    obtain ⟨ws, fs₂, hrest, h⟩ := Action.bind_eq_ok h
    cases h
    obtain ⟨hkept₁, hcompiled₁, hread₁⟩ := compileOutput_eq_ok hs hordinary ht hapart hfirst
    have hapart₁ := hapart.congr hkept₁.workingDir
    obtain ⟨hkept, hall⟩ := ih hordinaries hkept₁.isTree hapart₁ hrest
    have hcompiled : u.Compiled out bin o w fs' :=
      hcompiled₁.kept hkept fun ⟨_, _, h⟩ => not_belongsAt hapart₁ hordinary h
    refine ⟨(hkept₁.mono fun loc h => ⟨o, List.mem_cons_self .., h⟩).trans (hkept.mono ?_), .cons ⟨hcompiled, ?_⟩ ?_⟩
    · rintro loc ⟨o', ho', h⟩
      rw [hkept₁.aim] at h
      exact ⟨o', List.mem_cons_of_mem o ho', h⟩
    · by_cases hlater : ∃ o' ∈ outputs, o.Namesakes o'
      · -- The place of the first output is the one of a later output, which has been compiled since.
        obtain ⟨o', ho', hname⟩ := hlater
        obtain ⟨w', hpair⟩ := exists_mem_zip hall.length_eq.le ho'
        obtain ⟨hcompiled', last, hlast, hread⟩ := List.forall₂_zip hall hpair
        exact ⟨last, (hlast.congr hname).cons o, (hcompiled.read_eq hcompiled' hname).trans hread⟩
      · simp only [not_exists, not_and] at hlater
        refine ⟨o, ⟨[], outputs, rfl, .refl o, hlater⟩, ?_⟩
        obtain ⟨contents, hsource₁⟩ := hcompiled₁.source
        obtain ⟨loc, hl, hplace⟩ := hcompiled₁.place
        have hout : ¬ ∃ o' ∈ outputs, o'.BelongsAt u.profile.baseSuffix (fs₁.aim bin) (fs₁.aim w) := by
          rintro ⟨o', ho', h⟩
          rw [aim_of_locate hl] at h
          exact hlater o' ho' ((hplace.namesakes_iff h).2 rfl)
        rw [hkept.read (hread₁.trans hsource₁) hout,
          hkept.read hsource₁ fun ⟨_, _, h⟩ => not_belongsAt hapart₁ hordinary h]
    · refine hall.imp fun o' w' ⟨hcompiled', last, hlast, hread⟩ => ⟨hcompiled', last, hlast.cons o, hread⟩

/-- **When nothing is lost.** Let outputs be ordinary paths below `out`, and compile them to below `bin`, in a tree where
neither of the two is inside of the other one, with a suffix that has no slash. If this succeeds, there is a path for each
output, in order, which is the one that the output is compiled to. What could be read at an output before can be read
there still. The path holds what the last output holds that has the same directory parts and the same stem. So each path
holds what its own output holds if any two outputs with the same directory parts and the same stem hold the same, and
only then. -/
theorem compile_lossless_iff (hs : '/' ∉ u.profile.baseSuffix.toList) (ho : ∀ o ∈ outputs, o.Ordinary) (ht : fs.IsTree)
    (hapart : fs.Apart out bin) (h : (u.compile out bin outputs).run fs = (.ok written, fs')) :
    List.Forall₂ (fun o w => u.Compiled out bin o w fs'
        ∧ ∃ o', Path.LastNamesake outputs o o' ∧ fs'.read w = fs'.read (out.join o')) outputs written
      ∧ (∀ o ∈ outputs, ∀ contents, fs.read (out.join o) = .ok contents → fs'.read (out.join o) = .ok contents)
      ∧ (List.Forall₂ (fun o w => fs'.read w = fs'.read (out.join o)) outputs written
        ↔ ∀ o ∈ outputs, ∀ o' ∈ outputs, o.Namesakes o' → fs'.read (out.join o) = fs'.read (out.join o')) := by
  obtain ⟨hkept, hall⟩ := compile_eq_ok hs ho ht hapart h
  refine ⟨hall, fun o hmem contents hr => hkept.read hr ?_, fun hown o hmem o' hmem' hname => ?_, fun hsame => ?_⟩
  · exact fun ⟨_, _, h⟩ => not_belongsAt hapart (ho o hmem) h
  · obtain ⟨w, hw⟩ := exists_mem_zip hall.length_eq.le hmem
    obtain ⟨w', hw'⟩ := exists_mem_zip hall.length_eq.le hmem'
    calc fs'.read (out.join o)
        = fs'.read w := (List.forall₂_zip hown hw).symm
      _ = fs'.read w' := (List.forall₂_zip hall hw).1.read_eq (List.forall₂_zip hall hw').1 hname
      _ = fs'.read (out.join o') := List.forall₂_zip hown hw'
  · refine List.forall₂_iff_zip.2 ⟨hall.length_eq, fun {o w} hpair => ?_⟩
    obtain ⟨_, last, ⟨before, after, hsplit, hname, _⟩, hread⟩ := List.forall₂_zip hall hpair
    have hlast : last ∈ outputs := by
      rw [hsplit]
      exact List.mem_append_right before (List.mem_cons_self ..)
    exact hread.trans (hsame o (List.of_mem_zip hpair).1 last hlast hname).symm

/-! ### An example -/

/-- Two files with one stem in the directory `out`. -/
def namesakeFiles : FileSystem where
  nodes := Table.ofList [([], .dir 0), (["out"], .dir 0), (["m.x", "out"], .file ⟨#[1]⟩ 0 false),
    (["m.y", "out"], .file ⟨#[2]⟩ 0 false), (["bin"], .dir 0)]
  workingDir := []
  clock := 1

/-- What comes of compiling both. -/
def namesakeRun (u : SourceUnit) : Except SourceError (List Path) × FileSystem :=
  (u.compile ⟨"out"⟩ ⟨"bin"⟩ [⟨"m.x"⟩, ⟨"m.y"⟩]).run namesakeFiles

theorem namesakeRun_outcome : ∃ u, ofPath exampleProfile ⟨"m.xb"⟩ = .ok u ∧ u.profile = exampleProfile
    ∧ (namesakeRun u).1.toOption = some [⟨"bin/m.b"⟩, ⟨"bin/m.b"⟩]
    ∧ ((namesakeRun u).2.read ⟨"bin/m.b"⟩).toOption = some ⟨#[2]⟩
    ∧ ((namesakeRun u).2.read ⟨"out/m.x"⟩).toOption = some ⟨#[1]⟩ := by
  refine ⟨_, rfl, rfl, ?_, ?_, ?_⟩
  · decide +kernel
  · decide +kernel
  · decide +kernel

theorem ordinary_namesakes : ∀ o ∈ ([⟨"m.x"⟩, ⟨"m.y"⟩] : List Path), o.Ordinary := by
  simp only [List.forall_mem_cons, List.not_mem_nil, false_implies, implies_true, and_true]
  exact ⟨⟨by decide +kernel, by decide +kernel, by decide +kernel⟩, by decide +kernel, by decide +kernel,
    by decide +kernel⟩

theorem isTree_namesakeFiles : namesakeFiles.IsTree := isTree_of_keys (by decide +kernel)

theorem apart_namesakeFiles : namesakeFiles.Apart ⟨"out"⟩ ⟨"bin"⟩ := ⟨by decide +kernel, by decide +kernel⟩

/-- The first one of two outputs with one stem is lost. -/
theorem compile_lossless_iff_namesakes : ∃ u fs', ofPath exampleProfile ⟨"m.xb"⟩ = .ok u
    ∧ namesakeRun u = (.ok [⟨"bin/m.b"⟩, ⟨"bin/m.b"⟩], fs')
    ∧ ¬ List.Forall₂ (fun o w => fs'.read w = fs'.read ((⟨"out"⟩ : Path).join o)) [⟨"m.x"⟩, ⟨"m.y"⟩]
        [⟨"bin/m.b"⟩, ⟨"bin/m.b"⟩] := by
  obtain ⟨u, hu, hp, hrun, _⟩ := namesakeRun_outcome
  have hrun' : namesakeRun u = (.ok [⟨"bin/m.b"⟩, ⟨"bin/m.b"⟩], (namesakeRun u).2) :=
    Prod.ext (eq_ok_of_toOption hrun) rfl
  obtain ⟨_, hkept, hiff⟩ := compile_lossless_iff (by rw [hp]; decide +kernel) ordinary_namesakes isTree_namesakeFiles
    apart_namesakeFiles hrun'
  refine ⟨u, _, hu, hrun', fun h => ?_⟩
  have hx := hkept ⟨"m.x"⟩ (by simp) ⟨#[1]⟩ (eq_ok_of_toOption (by decide +kernel))
  have hy := hkept ⟨"m.y"⟩ (by simp) ⟨#[2]⟩ (eq_ok_of_toOption (by decide +kernel))
  have hsame := hiff.1 h ⟨"m.x"⟩ (by simp) ⟨"m.y"⟩ (by simp) ⟨by decide +kernel, by decide +kernel⟩
  rw [hx, hy] at hsame
  cases hsame

/-- Not every output is where the path leads that is returned for it, even if all outputs are different. -/
theorem not_always_delivered : ¬ ∀ (profile : Profile) (source out bin : Path) (u : SourceUnit)
    (outputs written : List Path) (fs fs' : FileSystem), ofPath profile source = .ok u →
    '/' ∉ profile.baseSuffix.toList → fs.IsTree → fs.isDir out = true → fs.isDir bin = true → fs.Apart out bin →
    outputs.Nodup → (∀ o ∈ outputs, o.Ordinary) → (u.compile out bin outputs).run fs = (.ok written, fs') →
    List.Forall₂ (fun o w => fs'.read w = fs'.read (out.join o)) outputs written := by
  intro h
  obtain ⟨u, hu, _, hrun, hfound, hsource⟩ := namesakeRun_outcome
  have hall := h exampleProfile ⟨"m.xb"⟩ ⟨"out"⟩ ⟨"bin"⟩ u [⟨"m.x"⟩, ⟨"m.y"⟩] [⟨"bin/m.b"⟩, ⟨"bin/m.b"⟩] namesakeFiles
    (namesakeRun u).2 hu (by decide +kernel) isTree_namesakeFiles (by decide +kernel) (by decide +kernel)
    apart_namesakeFiles (by decide +kernel) ordinary_namesakes (Prod.ext (eq_ok_of_toOption hrun) rfl)
  obtain ⟨hfirst, _⟩ := List.forall₂_cons.1 hall
  have hsame : (⟨#[2]⟩ : ByteArray) = ⟨#[1]⟩ := by
    have hread := (eq_ok_of_toOption hfound).symm.trans (hfirst.trans (eq_ok_of_toOption hsource))
    exact Except.ok.inj hread
  cases hsame

end SourceUnit

end BaseLang
