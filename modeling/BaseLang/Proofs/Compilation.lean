import BaseLang.Profile.Extraction
import BaseLang.Proofs.Encoding
import BaseLang.Proofs.Extension
import BaseLang.Proofs.Growth
import BaseLang.Proofs.QualifiedName

/-!
# Where generated sources are compiled to

* `FileSystem.head_of_locate` : the name at the end of a path is the one of its place;
* `FileSystem.KeepsFiles` : changes that keep the contents of all files. Made directories are such changes;
* `FileSystem.read_copy` : a copy holds what its source holds, unless it goes onto the source;
* `Profile.baseSuffix_proper` : the suffix of base-language files in a profile that is read off a module;
* `SourceUnit.publish` : source text that is written and then compiled. `publish_run` : what comes of it, and where.
-/

namespace BaseLang

open FileSystem

namespace FileSystem

variable {fs fs' fs'' : FileSystem} {loc : Location} {p q source destination : Path} {n : String} {contents : ByteArray}

theorem walk_last (hp : p.EndsIn n) (hn : '/' ∉ n.toList) (h : fs.locate p = .ok loc) :
    ∃ home, fs.HasDir home ∧ fs.walk home [n] = .ok loc := by
  obtain ⟨front, hs⟩ := hp.segments hn
  obtain ⟨_, hw⟩ := follow_eq_ok h
  rw [hs, walk_append] at hw
  cases hf : fs.walk (if p.isAbsolute then [] else fs.workingDir) front with
  | error e =>
    rw [hf] at hw
    cases hw
  | ok home =>
    rw [hf] at hw
    have hw' : fs.walk home [n] = .ok loc := hw
    exact ⟨home, hasDir_of_walk_cons hw', hw'⟩

theorem head_of_locate (hp : p.EndsIn n) (hn : Path.IsName n) (hup : n ≠ "..") (h : fs.locate p = .ok loc) :
    ∃ home, loc = n :: home := by
  obtain ⟨home, hd, hw⟩ := walk_last hp hn.notMem h
  rw [walk_cons_of_hasDir hd, if_neg (by simp [hn.ne_empty, hn.ne_dot]), if_neg hup] at hw
  split at hw
  · cases hw
  · cases hw
    exact ⟨home, rfl⟩

/-! ## Files that stay -/

theorem read_eq_ok_iff : fs.read p = .ok contents ↔ ∃ t x, fs.stat p = .ok (.file contents t x) := by
  rw [read]
  split
  · rename_i c t x hs
    rw [hs]
    constructor
    · intro h
      cases h
      exact ⟨t, x, rfl⟩
    · rintro ⟨_, _, h⟩
      cases h
      rfl
  · rename_i hs
    simp [hs]
  · rename_i e hs
    simp [hs]

/-- Every file still has its contents. -/
def KeepsFiles (fs fs' : FileSystem) : Prop := ∀ p contents, fs.read p = .ok contents → fs'.read p = .ok contents

theorem keepsFiles_makeDir (h : fs.makeDir p = .ok fs') : KeepsFiles fs fs' := by
  intro q contents hq
  obtain ⟨t, x, hs⟩ := read_eq_ok_iff.1 hq
  obtain ⟨l, hl, hn⟩ := stat_eq_ok hs
  have hl' := (Disk.made_makeDir h).grows.locate hl
  obtain ⟨loc, _, hnone, rfl⟩ := makeDir_eq_ok h
  have hne : loc ≠ l := by
    rintro rfl
    rw [hnone] at hn
    cases hn
  have hkept : ∃ t', (fs.add loc (.dir fs.clock)).node? l = some (.file contents t' x) := by
    rw [node?_add, if_neg hne, hn, Option.map_some]
    split
    · exact ⟨fs.clock, rfl⟩
    · exact ⟨t, rfl⟩
  obtain ⟨t', hn'⟩ := hkept
  exact read_eq_ok_iff.2 ⟨t', x, stat_of_locate hl' hn'⟩

theorem keepsFiles_makeDirs (p : Path) (fs : FileSystem) : KeepsFiles fs ((Disk.makeDirs p).run fs).2 :=
  Disk.rel_makeDirs (fun _ _ _ h => h) (fun h h' p contents hp => h' p contents (h p contents hp)) p
    (fun _ _ _ _ => keepsFiles_makeDir) fs

/-! ## Copies -/

theorem copy_eq_ok (h : fs.copy source destination = .ok fs') : ∃ loc loc' contents t x,
    fs.locate source = .ok loc ∧ fs.node? loc = some (.file contents t x) ∧ fs.target destination = .ok loc'
      ∧ fs' = if (fs.node? loc').isSome then fs.put loc' (.file (if loc' = loc then .empty else contents) fs.clock x)
        else fs.add loc' (.file (if loc' = loc then .empty else contents) fs.clock x) := by
  rw [copy] at h
  split at h
  · cases h
  · rename_i loc hl
    split at h
    · cases h
    · cases h
    · rename_i contents t x hn
      split at h
      · cases h
      · rename_i loc' ht
        cases h
        exact ⟨loc, loc', contents, t, x, hl, hn, ht, rfl⟩

theorem grows_copy (h : fs.copy source destination = .ok fs') : Grows fs fs' := by
  obtain ⟨loc, loc', contents, t, x, _, _, ht, rfl⟩ := copy_eq_ok h
  split
  · refine grows_put rfl fun n hn => ?_
    cases n with
    | dir t => exact absurd ⟨t, hn⟩ (locate_of_target ht).2
    | file => rfl
  · rename_i hnone
    exact grows_add (Option.not_isSome_iff_eq_none.1 hnone) rfl

/-- A copy that does not go onto its own source holds what the source holds. -/
theorem read_copy (h : fs.copy source destination = .ok fs') (hr : fs.read source = .ok contents)
    (hne : ∀ loc, fs.locate source = .ok loc → fs.locate destination ≠ .ok loc) :
    fs'.read destination = .ok contents := by
  obtain ⟨loc, loc', c, t, x, hl, hn, ht, hfs⟩ := copy_eq_ok h
  obtain rfl : c = contents := by
    obtain ⟨t', x', hs⟩ := read_eq_ok_iff.1 hr
    rw [stat_of_locate hl hn] at hs
    cases hs
    rfl
  have hl' := (locate_of_target ht).1
  have hloc : loc' ≠ loc := fun e => hne loc hl (e ▸ hl')
  have hn' : fs'.node? loc' = some (.file c fs.clock x) := by
    rw [hfs, if_neg hloc]
    split
    · rw [node?_put, if_pos rfl]
    · rw [node?_add, if_pos rfl]
  exact read_eq_ok_iff.2 ⟨fs.clock, x, stat_of_locate ((grows_copy h).locate hl') hn'⟩

theorem read_write (h : fs.write p contents = .ok fs') : fs'.read p = .ok contents := by
  obtain ⟨loc, x, hl, hn, _⟩ := node?_write h
  exact read_eq_ok_iff.2 ⟨fs.clock, x, stat_of_locate hl hn⟩

end FileSystem

/-! ## Profiles -/

theorem fileSuffix_proper {rhs : Term} {suffix : String} (h : fileSuffix rhs = .ok suffix) :
    suffix ≠ "" ∧ suffix.toList.head? ≠ some '.' := by
  obtain ⟨body, _, h⟩ := exists_of_bind h
  obtain ⟨s, _, h⟩ := exists_of_bind h
  split at h
  · cases h
  · rename_i hs
    cases h
    simpa using hs

namespace Declarations

variable {decls decls' : Declarations}

/-- The suffix of base-language files is not empty and has no dot in front, if it is declared. -/
def Suffixed (decls : Declarations) : Prop := ∀ s, decls.baseSuffix = some s → s ≠ "" ∧ s.toList.head? ≠ some '.'

theorem Suffixed.decode {x : Definition} {rhs : Term} (hd : decls.Suffixed) (h : x.decode rhs decls = .ok decls') :
    decls'.Suffixed := by
  cases x with
  | baseSuffix =>
    obtain ⟨suffix, hs, h⟩ := exists_of_bind h
    cases h
    intro s e
    cases e
    exact fileSuffix_proper hs
  | extensionSuffix | namespaceKind =>
    obtain ⟨_, _, h⟩ := exists_of_bind h
    cases h
    exact hd
  | toplevel | body | namespaceDecl | imports | namespaceSuffixes =>
    obtain ⟨_, _, h⟩ := exists_of_bind h
    obtain ⟨_, _, h⟩ := exists_of_bind h
    cases h
    exact hd

theorem Suffixed.add {t : Term} (hd : decls.Suffixed) (h : decls.add t = .ok decls') : decls'.Suffixed := by
  rw [Declarations.add] at h
  split at h
  · cases h
    exact hd
  · split at h
    · cases h
      exact hd
    · rename_i rhs _ _ x _
      cases hx : x.decode rhs decls with
      | error e =>
        rw [hx] at h
        cases h
      | ok decls₁ =>
        rw [hx] at h
        cases h
        exact hd.decode hx

theorem Suffixed.foldlM {ts : List Term} (hd : decls.Suffixed) (h : ts.foldlM Declarations.add decls = .ok decls') :
    decls'.Suffixed := by
  induction ts generalizing decls with
  | nil =>
    cases h
    exact hd
  | cons t ts ih =>
    rw [List.foldlM_cons] at h
    obtain ⟨decls₁, ht, hts⟩ := exists_of_bind h
    exact ih (hd.add ht) hts

end Declarations

/-- The suffix of base-language files in a profile that is read off a module is not empty, and has no dot in front. -/
theorem Profile.baseSuffix_proper {module : Term} {language : String} {artifacts : Artifacts} {profile : Profile}
    (h : Profile.read module language artifacts = .ok profile) :
    profile.baseSuffix ≠ "" ∧ profile.baseSuffix.toList.head? ≠ some '.' := by
  obtain ⟨decls, hread, hcomplete⟩ := exists_of_bind h
  obtain ⟨_, _, hread⟩ := exists_of_bind hread
  obtain ⟨ts, _, hread⟩ := exists_of_bind hread
  have hempty : Declarations.empty.Suffixed := fun s e => by cases e
  have hsuffixed := hempty.foldlM hread
  rw [Declarations.complete] at hcomplete
  split at hcomplete
  · cases hcomplete
  · cases hcomplete
  · cases hcomplete
  · rename_i hb _
    cases hcomplete
    exact hsuffixed _ hb

theorem Profile.baseSuffix_ne_empty {module : Term} {language : String} {artifacts : Artifacts} {profile : Profile}
    (h : Profile.read module language artifacts = .ok profile) : profile.baseSuffix ≠ "" :=
  (Profile.baseSuffix_proper h).1

namespace SourceError

/-- Whether an error is one of a file operation. -/
def IsRefusal : SourceError → Prop
  | write .. | copy .. => True
  | _ => False

end SourceError

namespace SourceUnit

variable {u : SourceUnit} {fs fs' : FileSystem} {q output : Path}

/-- Writes the source text below `out`, and compiles it from there to below `bin`. -/
def publish (u : SourceUnit) (out bin : Path) : Disk SourceError (List Path) := do
  let _ ← u.writeGenerated out
  let file ← .ofExcept u.outFile
  u.compile out bin [file]

theorem makeParent_run (file : Path) (fs : FileSystem) :
    (∃ e fs', (makeParent file).run fs = (.error e, fs') ∧ e.IsRefusal)
      ∨ ∃ fs', (makeParent file).run fs = (.ok (), fs') ∧ KeepsFiles fs fs' := by
  rw [makeParent]
  split
  · rename_i dir _
    have hkeeps := keepsFiles_makeDirs dir fs
    cases hrun : (Disk.makeDirs dir).run fs with
    | mk outcome fs₁ =>
      rw [hrun] at hkeeps
      have hmapped : ((Disk.makeDirs dir).mapFailure (SourceError.write file)).run fs
          = (outcome.mapError (.write file), fs₁) := by
        change ((Disk.makeDirs dir fs).1.mapError _, (Disk.makeDirs dir fs).2) = _
        rw [show Disk.makeDirs dir fs = (outcome, fs₁) from hrun]
      rw [hmapped]
      cases outcome with
      | error e => exact Or.inl ⟨.write file e, fs₁, rfl, trivial⟩
      | ok v => exact Or.inr ⟨fs₁, rfl, hkeeps⟩
  · exact Or.inr ⟨fs, rfl, fun _ _ h => h⟩

/-- A file is put into its place by one operation, once its directory is there. -/
theorem place_run (file : Path) (change : FileSystem → Except OsError FileSystem) (failure : OsError → SourceError)
    (hf : ∀ e, (failure e).IsRefusal) (fs : FileSystem) {a : Disk SourceError Path}
    (ha : a = do
      makeParent file
      (Action.update change).mapFailure failure
      return file) :
    (∃ e fs', a.run fs = (.error e, fs') ∧ e.IsRefusal)
      ∨ ∃ fs₁ fs', KeepsFiles fs fs₁ ∧ change fs₁ = .ok fs' ∧ a.run fs = (.ok file, fs') := by
  subst ha
  rcases makeParent_run file fs with ⟨e, fs', hrun, he⟩ | ⟨fs₁, hrun, hkeeps⟩
  · exact Or.inl ⟨e, fs', Action.bind_of_error hrun _, he⟩
  · rw [Action.bind_of_ok hrun]
    cases hc : change fs₁ with
    | error e =>
      have hfailed : ((Action.update change).mapFailure failure).run fs₁ = (.error (failure e), fs₁) := by
        simp only [Action.run, Action.mapFailure, Action.update, hc]
        rfl
      exact Or.inl ⟨failure e, fs₁, Action.bind_of_error hfailed _, hf e⟩
    | ok fs' =>
      have hdone : ((Action.update change).mapFailure failure).run fs₁ = (.ok (), fs') := by
        simp only [Action.run, Action.mapFailure, Action.update, hc]
        rfl
      exact Or.inr ⟨fs₁, fs', hkeeps, hc, Action.bind_of_ok hdone _⟩

theorem writeGenerated_run (hq : u.outFile = .ok q) (out : Path) (fs : FileSystem) :
    (∃ e fs', (u.writeGenerated out).run fs = (.error e, fs') ∧ e.IsRefusal)
      ∨ ∃ fs', (u.writeGenerated out).run fs = (.ok (out.join q), fs')
        ∧ fs'.read (out.join q) = .ok u.generated.toUTF8 := by
  have hrun := place_run (out.join q) (·.write (out.join q) u.generated.toUTF8) (.write (out.join q))
    (fun _ => trivial) fs rfl
  have hout : (Action.ofExcept u.outFile : Disk SourceError Path).run fs = (.ok q, fs) := by
    rw [hq]
    rfl
  rw [writeGenerated, Action.bind_of_ok hout]
  rcases hrun with hfailed | ⟨fs₁, fs', _, hw, hdone⟩
  · exact Or.inl hfailed
  · exact Or.inr ⟨fs', hdone, read_write hw⟩

theorem compileOutput_run (hq : withSuffix output u.profile.baseSuffix = .ok q) (out bin : Path) (fs : FileSystem) :
    (∃ e fs', (u.compileOutput out bin output).run fs = (.error e, fs') ∧ e.IsRefusal)
      ∨ ∃ fs₁ fs', KeepsFiles fs fs₁ ∧ fs₁.copy (out.join output) (bin.join q) = .ok fs'
        ∧ (u.compileOutput out bin output).run fs = (.ok (bin.join q), fs') := by
  have hrun := place_run (bin.join q) (·.copy (out.join output) (bin.join q))
    (.copy (out.join output) (bin.join q)) (fun _ => trivial) fs rfl
  have hsuffix : (Action.ofExcept (withSuffix output u.profile.baseSuffix) : Disk SourceError Path).run fs
      = (.ok q, fs) := by
    rw [hq]
    rfl
  rw [compileOutput, Action.bind_of_ok hsuffix]
  exact hrun

theorem compile_one (u : SourceUnit) (out bin output : Path) :
    u.compile out bin [output] = u.compileOutput out bin output >>= fun destination => pure [destination] := rfl

theorem source_add {t : Term} (u : SourceUnit) : ((add t).run u).2.source = u.source := by
  cases hrun : (add t).run u with
  | mk outcome v =>
    cases added_of_run hrun with
    | header | importDecl | body | duplicate | misnamed | unexpected => rfl

theorem source_addAll (u : SourceUnit) (ts : List Term) : (u.addAll ts).source = u.source := by
  induction ts generalizing u with
  | nil => rfl
  | cons t ts ih =>
    have hall : u.addAll (t :: ts) = ((add t).run u).2.addAll ts := rfl
    rw [hall, ih, source_add]

theorem withSuffix_eq {p : Path} {suffix : String} (h : p.withExtension? suffix = some q) :
    withSuffix p suffix = .ok q := by
  rw [withSuffix, h]

/-- Source text that is written and compiled, by the names of the two files. -/
theorem publish_run_of_names {d q q' : Path} {n n' : String} (h : u.outFile = .ok q)
    (h' : withSuffix q u.profile.baseSuffix = .ok q') (hd : d.isAbsolute = false) (hn : q.IsFile d n)
    (hn' : q'.IsFile d n') (hne : n ≠ n') (out bin : Path) (fs : FileSystem) :
    (∃ e fs', (u.publish out bin).run fs = (.error e, fs') ∧ e.IsRefusal)
      ∨ ∃ fs', (u.publish out bin).run fs = (.ok [bin.join q'], fs')
        ∧ fs'.read (bin.join q') = .ok u.generated.toUTF8 := by
  rw [publish]
  rcases writeGenerated_run h out fs with ⟨e, fs', hrun, he⟩ | ⟨fs₁, hrun, hread⟩
  · exact Or.inl ⟨e, fs', Action.bind_of_error hrun _, he⟩
  have hout : (Action.ofExcept u.outFile : Disk SourceError Path).run fs₁ = (.ok q, fs₁) := by
    rw [h]
    rfl
  rw [Action.bind_of_ok hrun, Action.bind_of_ok hout, compile_one]
  rcases compileOutput_run h' out bin fs₁ with ⟨e, fs', hrun, he⟩ | ⟨fs₂, fs', hkeeps, hcopy, hrun⟩
  · exact Or.inl ⟨e, fs', Action.bind_of_error hrun _, he⟩
  · refine Or.inr ⟨fs', Action.bind_of_ok hrun _, read_copy hcopy (hkeeps _ _ hread) fun loc hl hl' => ?_⟩
    -- The two files have different names, so neither of them is in the place of the other one.
    have hj : (out.join q).EndsIn n := hn.endsIn.join (by rw [hn.isAbsolute, hd]) out
    have hj' : (bin.join q').EndsIn n' := hn'.endsIn.join (by rw [hn'.isAbsolute, hd]) bin
    obtain ⟨home, hhome⟩ := head_of_locate hj hn.name hn.ne_up hl
    obtain ⟨home', hhome'⟩ := head_of_locate hj' hn'.name hn'.ne_up hl'
    exact hne (List.cons.inj (hhome.symm.trans hhome')).1

/-- **Where generated source text is compiled to.** Let a profile be read off a module, with a suffix of base-language
files that has no slash, and take any declarations for a relative path. When their source text is written below `out` and
compiled from there to below `bin`, a file operation is refused, or one file is compiled. It holds the source text, and it
is in the directory of the path. Its name is the stem with the suffix exactly if there is no dot in the suffix: what
stands before the last dot of the suffix counts as part of the stem, and is in the name once more. Stems that are a dot
(as in `..x`) are left out, since their extension cannot be replaced. -/
theorem publish_run {module : Term} {language : String} {artifacts : Artifacts} {profile : Profile} {source : Path}
    (hp : Profile.read module language artifacts = .ok profile) (hs : '/' ∉ profile.baseSuffix.toList)
    (ha : source.isAbsolute = false) (hu : ofPath profile source = .ok u) (hm : u.moduleName ≠ ".") (ts : List Term)
    (out bin : Path) (fs : FileSystem) : ∃ d, source.parent? = some d
      ∧ ((∃ e fs', ((u.addAll ts).publish out bin).run fs = (.error e, fs') ∧ e.IsRefusal)
        ∨ ∃ destination fs', ((u.addAll ts).publish out bin).run fs = (.ok [destination], fs')
          ∧ fs'.read destination = .ok (u.addAll ts).generated.toUTF8
          ∧ destination.components = (bin.join (d.file
              (u.moduleName ++ Path.heldBack profile.baseSuffix ++ "." ++ profile.baseSuffix))).components
          ∧ (destination.components
              = (bin.join (d.file (u.moduleName ++ "." ++ profile.baseSuffix))).components
            ↔ '.' ∉ profile.baseSuffix.toList)) := by
  obtain ⟨hplace, hstem, _⟩ := place_of_ofPath hu
  obtain ⟨d, q, q', hd, hq, hfile, hq', hfile'⟩ :=
    Path.withExtension?_marked hstem hm hs (Profile.baseSuffix_ne_empty hp)
  have hdrel : d.isAbsolute = false := by rw [Path.isAbsolute_of_parent hd, ha]
  have hprofile : (u.addAll ts).profile = profile := (collected_addAll u ts).profile.trans (ofPath_eq_ok hu).1
  have hsource : (u.addAll ts).source = source := by rw [source_addAll, hplace]
  have hout : (u.addAll ts).outFile = .ok q := by
    rw [outFile, hprofile, hsource]
    exact withSuffix_eq hq
  have hcompiled : withSuffix q (u.addAll ts).profile.baseSuffix = .ok q' := by
    rw [hprofile]
    exact withSuffix_eq hq'
  refine ⟨d, hd, ?_⟩
  rcases publish_run_of_names hout hcompiled hdrel hfile hfile' (Path.marked_ne_held _ _) out bin fs
    with hfailed | ⟨fs', hrun, hread⟩
  · exact Or.inl hfailed
  · have hwhere := Path.components_join_congr bin
      (by rw [Path.isAbsolute_file_of_isName d hfile'.name, hdrel]) hfile'.components
    refine Or.inr ⟨bin.join q', fs', hrun, hread, hwhere, ?_⟩
    have hname : Path.IsName (u.moduleName ++ "." ++ profile.baseSuffix) :=
      Path.isName_dotted (Path.stem?_eq_some hstem).2.2 (Path.notMem_stem hstem) hs
    rw [hwhere, Path.join_file_inj bin hdrel hname hfile'.name, ← Path.heldBack_eq_empty_iff]
    constructor
    · intro e
      simpa using congrArg String.toList e
    · intro e
      rw [e, String.append_empty]

/-! ### An example -/

/-- A module that declares a suffix with a dot in it. -/
def dottedModule : Term :=
  .appl "Module" [.str "x", .list [Definition.extensionSuffix.declaration (.str "e"),
    Definition.baseSuffix.declaration (.str "a.b"), Definition.namespaceDecl.declaration (Term.encodePair ("Module", 0)),
    Definition.namespaceKind.declaration (Term.encodeKind .flat)]]

def dottedProfile : Profile where
  language := "x"
  extensionSuffix := "e"
  baseSuffix := "a.b"
  toplevel := none
  namespaceDecl := some ⟨"Module", 0⟩
  namespaceKind := .flat
  namespaceSuffixes := .empty
  imports := .empty
  body := .empty
  artifacts := ⟨⟨"bin"⟩, "x"⟩

theorem read_dottedModule : Profile.read dottedModule "x" ⟨⟨"bin"⟩, "x"⟩ = .ok dottedProfile := by
  rfl

/-- What comes of one namespace declaration in a tree without files. -/
def dottedRun (u : SourceUnit) : Except SourceError (List Path) × FileSystem :=
  ((u.addAll [.appl "Module" [.str "m"]]).publish ⟨"out"⟩ ⟨"bin"⟩).run (.empty 0)

theorem dottedRun_outcome : ∃ u, ofPath dottedProfile ⟨"d/m.e"⟩ = .ok u ∧ u.moduleName = "m"
    ∧ (u.addAll [.appl "Module" [.str "m"]]).generated = "Module(\"m\")\n\n"
    ∧ (dottedRun u).1.toOption = some [⟨"bin/d/m.a.a.b"⟩] := by
  refine ⟨_, rfl, ?_, ?_, ?_⟩
  · decide +kernel
  · decide +kernel
  · decide +kernel

/-- The file is compiled to a name with the front of the suffix twice. -/
theorem publish_run_dotted : ∃ u destination fs', ofPath dottedProfile ⟨"d/m.e"⟩ = .ok u
    ∧ dottedRun u = (.ok [destination], fs') ∧ fs'.read destination = .ok "Module(\"m\")\n\n".toUTF8
    ∧ destination.components = ["bin", "d", "m.a.a.b"] := by
  obtain ⟨u, hu, hm, hgenerated, hrun⟩ := dottedRun_outcome
  obtain ⟨d, hd, hpublish⟩ := publish_run read_dottedModule (by decide +kernel) (by decide +kernel) hu
    (by rw [hm]; decide) [.appl "Module" [.str "m"]] ⟨"out"⟩ ⟨"bin"⟩ (.empty 0)
  obtain rfl : d = ⟨"d"⟩ := by
    have hparent : (⟨"d/m.e"⟩ : Path).parent? = some ⟨"d"⟩ := by decide +kernel
    exact Option.some.inj (hd.symm.trans hparent)
  rcases hpublish with ⟨e, fs', he, _⟩ | ⟨destination, fs', hok, hread, hwhere, _⟩
  · rw [dottedRun, he] at hrun
    cases hrun
  · rw [hgenerated] at hread
    rw [hm] at hwhere
    refine ⟨u, destination, fs', hu, hok, hread, hwhere.trans ?_⟩
    decide +kernel

/-- The stem and the suffix do not always make up the name of the compiled file. -/
theorem not_always_compiled : ¬ ∀ (module : Term) (language : String) (artifacts : Artifacts) (profile : Profile)
    (source d out bin : Path) (u : SourceUnit) (ts : List Term) (fs fs' : FileSystem) (destinations : List Path),
    Profile.read module language artifacts = .ok profile → '/' ∉ profile.baseSuffix.toList →
    source.isAbsolute = false → ofPath profile source = .ok u → source.parent? = some d → out ≠ bin →
    ((u.addAll ts).publish out bin).run fs = (.ok destinations, fs') →
    destinations.map Path.components
      = [(bin.join (d.file (u.moduleName ++ "." ++ profile.baseSuffix))).components] := by
  intro h
  obtain ⟨u, hu, hm, _, hrun⟩ := dottedRun_outcome
  cases hd : dottedRun u with
  | mk outcome fs' =>
    rw [hd] at hrun
    cases outcome with
    | error e => cases hrun
    | ok destinations =>
      obtain rfl : destinations = [⟨"bin/d/m.a.a.b"⟩] := Option.some.inj hrun
      have hname := h dottedModule "x" ⟨⟨"bin"⟩, "x"⟩ dottedProfile ⟨"d/m.e"⟩ ⟨"d"⟩ ⟨"out"⟩ ⟨"bin"⟩ u _ _ fs' _
        read_dottedModule (by decide +kernel) (by decide +kernel) hu (by decide +kernel) (by decide) hd
      rw [hm] at hname
      exact absurd hname (by decide +kernel)

end SourceUnit

end BaseLang
