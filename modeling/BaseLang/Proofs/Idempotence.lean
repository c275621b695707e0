import BaseLang.Proofs.Canonical

/-!
# Regenerating twice

Raw modules and finished ones share their paths. A module that the generator leaves alone is therefore read again in
the form in which the run before has written it.

* `TransformationOf.again`, `GrammarOf.again` : what a canonical module is made of once more. Its imports stay, and the
  production for a toplevel nonterminal comes once more (`GrammarOf.appended`);
* `Generator.Leaves` : a generator that writes the same raw modules on each call;
* `left_of_ok` : what a run that succeeds has read and written;
* `read_of_rerun`, `grammar_of_rerun` : what a second run on the artifacts of the first one writes;
* `same_artifacts_iff` : when a second run leaves the artifacts as they are.
-/

namespace BaseLang

open FileSystem Term

/-! ## Canonical modules once more -/

section again

variable {c : Configuration} {language T T' G G' toplevel : String} {declared : Option String}
  {module grammar grammar' : Term}

/-- A canonical transformation module is its own canonical form. -/
theorem TransformationOf.again (h : TransformationOf c T declared module) (hread : Term.read T' = .ok module) :
    TransformationOf c T' declared module := by
  obtain ⟨cons, header, ts, decls, _, hdecls, hdeclared, rfl⟩ := h
  have hmodule : rewriteTransformationImports (.appl cons [header, .list ts]) c.canonical.transformation
      = .ok (.appl cons [header, .list (transformationImport c.canonical.transformation
          :: ts.filter fun t => !t.isAppl "Imports")]) := rfl
  have hrewritten := Declarations.read_rewritten hmodule hdecls
  refine ⟨cons, header, _, decls, hread, hrewritten, hdeclared, ?_⟩
  have himport (args : List Term) : (appl "Imports" args).isAppl "Imports" = true := rfl
  rw [List.filter_cons_of_neg (by simp [himport]), List.filter_filter]
  simp only [Bool.and_self]

/-- A canonical grammar is its own canonical form if there is no toplevel nonterminal. -/
theorem GrammarOf.again (h : GrammarOf c language none G grammar) (hread : Term.read G' = .ok grammar) :
    GrammarOf c language none G' grammar := by
  obtain ⟨cons, header, imports, body, body', _, hbody, rfl⟩ := h
  exact ⟨cons, header, [grammarImport c.canonical.grammar], body', body', hread, .none body', rfl⟩

/-- The production for a toplevel nonterminal is put behind the one that is there already. -/
theorem GrammarOf.appended (h : GrammarOf c language (some toplevel) G grammar) (hread : Term.read G' = .ok grammar)
    (h' : GrammarOf c language (some toplevel) G' grammar') : ∃ cons header imports sections,
      grammar = .appl cons [header, imports, .list sections]
      ∧ grammar' = .appl cons [header, imports, .list (sections ++ [c.augmentation.production language toplevel])] := by
  obtain ⟨cons, header, imports, body, body', _, hbody, rfl⟩ := h
  obtain ⟨cons', header', imports', body₁, body₂, hread', hbody', rfl⟩ := h'
  rw [hread] at hread'
  cases hbody with
  | some _ sections =>
    cases hread'
    cases hbody' with
    | some => exact ⟨cons, header, _, _, rfl, rfl⟩

end again

/-! ## Generators with a fixed effect -/

/-- A generator that writes the same raw modules on each call for a definition, unless it fails, and has nothing to say
against the definition. -/
structure Generator.Leaves (generate : Generator) (definition : Path) (as : Artifacts)
    (raws : List (Artifact × String)) : Prop where
  nodup : (raws.map Prod.fst).Nodup
  raw : ∀ w ∈ raws, w.1 = .grammar ∨ w.1 = .transformation
  left : ∀ fs generated fs', (generate definition as.language as.dir).run fs = (.ok generated, fs') →
    generated = ⟨as.path .grammar, as.path .transformation, []⟩ ∧ as.writeAll raws fs = .ok fs'

/-- A generator that writes a transformation module and leaves the grammar alone. -/
def Generator.transforming (text : String) : Generator := fun _ language out => do
  let artifacts : Artifacts := ⟨out, language⟩
  (Disk.write (artifacts.path .transformation) text).mapFailure (.ofOs (.write (artifacts.path .transformation)))
  return ⟨artifacts.path .grammar, artifacts.path .transformation, []⟩

theorem Generator.leaves_transforming (text : String) (definition : Path) (as : Artifacts) :
    (Generator.transforming text).Leaves definition as [(.transformation, text)] where
  nodup := by simp
  raw := by simp
  left fs generated fs' h := by
    cases hw : fs.write (as.path .transformation) text.toUTF8 with
    | error e =>
      rw [Generator.transforming, Action.bind_of_error (Disk.write_of_error hw _)] at h
      cases h
    | ok fs₁ =>
      rw [Generator.transforming, Action.bind_of_ok (Disk.write_of_ok hw _)] at h
      cases h
      exact ⟨rfl, Artifacts.writeAll_one hw⟩

namespace Artifacts

variable {as : Artifacts} {a : Artifact} {fs fs' fs₁ fs₁' : FileSystem} {home home₁ : Location}
  {ws : List (Artifact × String)}

theorem Housed.read_writeAll (h : as.Housed fs home) (hw : as.writeAll ws fs = .ok fs') (ha : a ∉ ws.map Prod.fst) :
    fs'.read (as.path a) = fs.read (as.path a) := by
  rw [FileSystem.read, FileSystem.read, h.stat_writeAll hw ha]

/-- What is written does not depend on where it is written. -/
theorem Housed.read_of_mem (h : as.Housed fs home) (h₁ : as.Housed fs₁ home₁) (hw : as.writeAll ws fs = .ok fs')
    (hw₁ : as.writeAll ws fs₁ = .ok fs₁') (hnodup : (ws.map Prod.fst).Nodup) (ha : a ∈ ws.map Prod.fst) :
    fs₁'.read (as.path a) = fs'.read (as.path a) := by
  obtain ⟨w, hm, rfl⟩ := List.mem_map.1 ha
  obtain ⟨x, hx⟩ := h.stat_of_mem hw hnodup hm
  obtain ⟨x₁, hx₁⟩ := h₁.stat_of_mem hw₁ hnodup hm
  rw [FileSystem.read, FileSystem.read, hx, hx₁]

end Artifacts

namespace Plugin

variable {p : Plugin} {c : Configuration} {definition : Path} {language : String} {width : Nat} {generate : Generator}
  {raws : List (Artifact × String)} {fs fs₁ fs₂ before after : FileSystem} {base base₁ base₂ : BaseLanguage}
  {r r₁ r₂ : Run}

/-- What a run that succeeds has read and written. -/
theorem left_of_ok (hl : languageName definition = .ok language)
    (hg : generate.Leaves definition (p.artifacts language) raws)
    (h : (p.process (.textual width generate) c definition).run ⟨fs, []⟩ = (.ok base, r))
    (hs : base.freshness = .stale) : ∃ before after T G module grammar,
      p.ensureBin.run fs = (.ok (), before) ∧ (p.artifacts language).writeAll raws before = .ok after
      ∧ after.readText ((p.artifacts language).path .transformation) = .ok T
      ∧ after.readText ((p.artifacts language).path .grammar) = .ok G
      ∧ TransformationOf c T base.profile.toplevel module
      ∧ GrammarOf c language base.profile.toplevel G grammar
      ∧ ∀ a, r.files.read ((p.artifacts language).path a)
        = .ok (canonicalText width language module grammar a).toUTF8 := by
  obtain ⟨language', before, hl', hb, hfresh, _⟩ := process_eq_ok h
  obtain rfl : language' = language := Except.ok.inj (hl'.symm.trans hl)
  rw [hs] at hfresh
  have hwritten := written_of_ok hl hb hfresh h .prettyTable
  cases hgen : (generate definition language' p.bin).run before with
  | mk result after =>
    cases result with
    | error e =>
      have hfailed : ((Toolchain.textual width generate).generate definition language' p.bin).run before
          = (.error e, after) := hgen
      have hraw : (Action.ofExcept (.error e) : Step Generated).run ⟨after, [.generate definition language' p.bin]⟩
          = (.error e, ⟨after, [.generate definition language' p.bin]⟩) := rfl
      rw [process_stale hl hb hfresh hfailed, Action.bind_of_error hraw] at h
      cases h
    | ok generated =>
      obtain ⟨hgenerated, hraws⟩ := hg.left before generated after hgen
      obtain ⟨profile, hc, hprofile⟩ := conclude_of_written hl hb hfresh hgen h hwritten
      rw [hgenerated] at hc
      obtain ⟨T, G, module, grammar, hT, hG, hm, hgr, hread⟩ :=
        Regeneration.read_of_conclude rfl (named_artifacts p hl) hc
      obtain rfl : base.profile = profile := hprofile base rfl
      exact ⟨before, after, T, G, module, grammar, hb, hraws, hT, hG, hm, hgr, hread⟩

/-- Where an artifact can be read, the directory of the artifacts is there and need not be made. -/
theorem ensureBin_of_read {contents : ByteArray} {a : Artifact} (hl : languageName definition = .ok language)
    (hread : fs.read ((p.artifacts language).path a) = .ok contents) (hb : p.ensureBin.run fs = (.ok (), before)) :
    before = fs := by
  rw [FileSystem.read] at hread
  cases hs : fs.stat ((p.artifacts language).path a) with
  | error e =>
    rw [hs] at hread
    cases hread
  | ok n =>
    rw [ensureBin_of_isDir (isDir_bin_of_stat hl hs)] at hb
    exact (Prod.mk.inj hb).2.symm

section rerun

variable (hl : languageName definition = .ok language) (hg : generate.Leaves definition (p.artifacts language) raws)
  (h₁ : (p.process (.textual width generate) c definition).run ⟨fs₁, []⟩ = (.ok base₁, r₁))
  (hs₁ : base₁.freshness = .stale)
  (hleft : ∀ a, fs₂.read ((p.artifacts language).path a) = r₁.files.read ((p.artifacts language).path a))
  (h₂ : (p.process (.textual width generate) c definition).run ⟨fs₂, []⟩ = (.ok base₂, r₂))
  (hs₂ : base₂.freshness = .stale)

include hl hg h₁ hs₁ hleft h₂ hs₂

/-- The artifacts of two runs, the second one on what the first one has left. The transformation module is the same.
The grammar is the same if the generator writes it again or there is no toplevel nonterminal, and has one more
production otherwise. -/
theorem read_of_rerun : ∃ module grammar grammar', grammar.WellNamed ∧ grammar'.WellNamed
    ∧ (∀ a, r₁.files.read ((p.artifacts language).path a)
        = .ok (canonicalText width language module grammar a).toUTF8)
    ∧ (∀ a, r₂.files.read ((p.artifacts language).path a)
        = .ok (canonicalText width language module grammar' a).toUTF8)
    ∧ (.grammar ∈ raws.map Prod.fst ∨ base₁.profile.toplevel = none → grammar' = grammar)
    ∧ ∀ toplevel, .grammar ∉ raws.map Prod.fst → base₁.profile.toplevel = some toplevel →
      ∃ cons header imports sections, grammar = .appl cons [header, imports, .list sections]
        ∧ grammar' = .appl cons [header, imports, .list (sections ++ [c.augmentation.production language toplevel])] := by
  obtain ⟨before₁, after₁, T₁, G₁, module₁, grammar₁, hb₁, hraws₁, hT₁, hG₁, hm₁, hgr₁, hread₁⟩ :=
    left_of_ok hl hg h₁ hs₁
  obtain ⟨before₂, after₂, T₂, G₂, module₂, grammar₂, hb₂, hraws₂, hT₂, hG₂, hm₂, hgr₂, hread₂⟩ :=
    left_of_ok hl hg h₂ hs₂
  have hn := named_artifacts p hl
  obtain ⟨home₁, hh₁⟩ := Artifacts.housed_of_isDir hn (isDir_of_ensureBin hb₁)
  obtain ⟨home₂, hh₂⟩ := Artifacts.housed_of_isDir hn (isDir_of_ensureBin hb₂)
  obtain rfl : before₂ = fs₂ := ensureBin_of_read hl ((hleft .grammar).trans (hread₁ .grammar)) hb₂
  -- The raw texts of the second run are those of the first one, or what the first one has written.
  have hraw {a : Artifact} (ha : a ∈ raws.map Prod.fst) :
      after₂.readText ((p.artifacts language).path a) = after₁.readText ((p.artifacts language).path a) := by
    rw [readText, readText, hh₁.read_of_mem hh₂ hraws₁ hraws₂ hg.nodup ha]
  have hold {a : Artifact} (ha : a ∉ raws.map Prod.fst) :
      after₂.readText ((p.artifacts language).path a) = .ok (canonicalText width language module₁ grammar₁ a) := by
    refine Toolchain.readText_of_read ?_
    rw [hh₂.read_writeAll hraws₂ ha, hleft, hread₁]
  have hmodule : base₁.profile.toplevel = base₂.profile.toplevel ∧ module₁ = module₂ := by
    rcases Decidable.em (.transformation ∈ raws.map Prod.fst) with ha | ha
    · obtain rfl : T₁ = T₂ := Except.ok.inj (hT₁.symm.trans ((hraw ha).symm.trans hT₂))
      exact hm₁.unique hm₂
    · have hT : Toolchain.printText width module₁ = T₂ := Except.ok.inj ((hold ha).symm.trans hT₂)
      exact (hm₁.again (hT ▸ Toolchain.read_printText hm₁.wellNamed width)).unique hm₂
  obtain ⟨htoplevel, rfl⟩ := hmodule
  rw [← htoplevel] at hgr₂
  have hreread (ha : .grammar ∉ raws.map Prod.fst) : Term.read G₂ = .ok grammar₁ := by
    have hG : Toolchain.printText width grammar₁ = G₂ := Except.ok.inj ((hold ha).symm.trans hG₂)
    rw [← hG, Toolchain.read_printText hgr₁.wellNamed width]
  refine ⟨module₁, grammar₁, grammar₂, hgr₁.wellNamed, hgr₂.wellNamed, hread₁, hread₂, fun hsame => ?_,
    fun toplevel ha hdeclared => ?_⟩
  · rcases Decidable.em (.grammar ∈ raws.map Prod.fst) with ha | ha
    · obtain rfl : G₁ = G₂ := Except.ok.inj (hG₁.symm.trans ((hraw ha).symm.trans hG₂))
      exact hgr₂.unique hgr₁
    · rw [hsame.resolve_left ha] at hgr₁ hgr₂
      exact hgr₂.unique (hgr₁.again (hreread ha))
  · rw [hdeclared] at hgr₁ hgr₂
    exact hgr₁.appended (hreread ha) hgr₂

/-- If the generator leaves the grammar alone and the language declares a toplevel nonterminal, the grammar does not
stay as it is. -/
theorem grammar_of_rerun {toplevel : String} (ha : .grammar ∉ raws.map Prod.fst)
    (hdeclared : base₁.profile.toplevel = some toplevel) :
    r₂.files.read ((p.artifacts language).path .grammar) ≠ r₁.files.read ((p.artifacts language).path .grammar) := by
  intro hsame
  obtain ⟨module, grammar, grammar', hw, hw', hread, hread', _, hmore⟩ :=
    read_of_rerun hl hg h₁ hs₁ hleft h₂ hs₂
  obtain ⟨cons, header, imports, sections, hgrammar, hgrammar'⟩ := hmore toplevel ha hdeclared
  -- Equal texts would be read as equal grammars.
  have htext : Toolchain.printText width grammar' = Toolchain.printText width grammar := by
    have h := Toolchain.readText_of_read (hsame.trans (hread .grammar))
    exact Except.ok.inj ((Toolchain.readText_of_read (hread' .grammar)).symm.trans h)
  have hequal : grammar' = grammar := by
    have h := Toolchain.read_printText hw' width
    rw [htext, Toolchain.read_printText hw width] at h
    exact (Except.ok.inj h).symm
  rw [hgrammar, hgrammar'] at hequal
  simp at hequal

/-- **When regenerating is idempotent.** Let a generator write the same raw modules on each call, both of them, one or
none, and let two runs with it find stale artifacts and succeed, the second one on the artifacts that the first one has
left. Then the second run leaves all artifacts as they are if and only if the generator writes the grammar or the
language declares no toplevel nonterminal. -/
theorem same_artifacts_iff :
    (∀ a, r₂.files.read ((p.artifacts language).path a) = r₁.files.read ((p.artifacts language).path a))
      ↔ .grammar ∈ raws.map Prod.fst ∨ base₁.profile.toplevel = none := by
  constructor
  · intro hall
    rcases Decidable.em (.grammar ∈ raws.map Prod.fst) with ha | ha
    · exact Or.inl ha
    · cases hdeclared : base₁.profile.toplevel with
      | none => exact Or.inr rfl
      | some toplevel => exact absurd (hall .grammar) (grammar_of_rerun hl hg h₁ hs₁ hleft h₂ hs₂ ha hdeclared)
  · intro h a
    obtain ⟨module, grammar, grammar', _, _, hread, hread', hsame, _⟩ := read_of_rerun hl hg h₁ hs₁ hleft h₂ hs₂
    rw [hread, hread', hsame h]

end rerun

/-! ### An example -/

/-- A generated transformation module that declares a toplevel nonterminal. -/
def toplevelModule : Term :=
  .appl "Module" [.str "x", .list [defining "sx-ToplevelDeclaration" (.str "X"),
    defining "sx-extensible-file-ext" (.str "e"), defining "sx-base-file-ext" (.str "b"),
    defining "sx-namespace-kind" (.appl "Op" [.str "SXNamespaceFlat", .list []])]]

/-- A plugin with a definition from a later time, and with a grammar. -/
def grownFiles : FileSystem where
  nodes := Table.ofList [([], .dir 0), (["p"], .dir 0), (["src", "p"], .dir 0), (["bin", "p"], .dir 0),
    (["x.b", "src", "p"], .file .empty 9 false), (["x.sdf", "bin", "p"], .file "module(x, [], [])".toUTF8 0 false)]
  workingDir := []
  clock := 1

def growingRun (fs : FileSystem) : Except ProcessError BaseLanguage × Run :=
  ((Plugin.mk ⟨"p"⟩).process (.textual 1000 (.transforming toplevelModule.text)) .bare ⟨"p/src/x.b"⟩).run ⟨fs, []⟩

theorem growingRun_outcome : ((growingRun grownFiles).1.toOption.map fun base => (base.freshness, base.profile.toplevel),
    (growingRun (growingRun grownFiles).2.files).1.toOption.map (·.freshness))
      = (some (.stale, some "X"), some .stale) := by
  have hmodule : toplevelModule.WellNamed := by decide +kernel
  unfold growingRun
  rw [Toolchain.textual_eq_remembering hmodule]
  decide +kernel

theorem growingRun_eq : ∃ base₁ r₁ base₂ r₂, growingRun grownFiles = (.ok base₁, r₁) ∧ base₁.freshness = .stale
    ∧ base₁.profile.toplevel = some "X" ∧ growingRun r₁.files = (.ok base₂, r₂) ∧ base₂.freshness = .stale := by
  have hrun := growingRun_outcome
  cases h₁ : growingRun grownFiles with
  | mk outcome₁ r₁ =>
    rw [h₁] at hrun
    obtain ⟨hfirst, hsecond⟩ := Prod.mk.inj hrun
    cases outcome₁ with
    | error e => cases hfirst
    | ok base₁ =>
      obtain ⟨hs₁, hdeclared⟩ := Prod.mk.inj (Option.some.inj hfirst)
      cases h₂ : growingRun r₁.files with
      | mk outcome₂ r₂ =>
        rw [h₂] at hsecond
        cases outcome₂ with
        | error e => cases hsecond
        | ok base₂ => exact ⟨base₁, r₁, base₂, r₂, rfl, hs₁, hdeclared, h₂, Option.some.inj hsecond⟩

/-- The generator of the example does not write the grammar, and the language declares a toplevel nonterminal. -/
theorem same_artifacts_iff_example : ∃ base₁ r₁ base₂ r₂, growingRun grownFiles = (.ok base₁, r₁)
    ∧ growingRun r₁.files = (.ok base₂, r₂)
    ∧ ¬ ∀ a, r₂.files.read (((Plugin.mk ⟨"p"⟩).artifacts "x").path a)
      = r₁.files.read (((Plugin.mk ⟨"p"⟩).artifacts "x").path a) := by
  obtain ⟨base₁, r₁, base₂, r₂, h₁, hs₁, hdeclared, h₂, hs₂⟩ := growingRun_eq
  refine ⟨base₁, r₁, base₂, r₂, h₁, h₂, fun hsame => ?_⟩
  have hiff := same_artifacts_iff languageName_example (Generator.leaves_transforming _ _ _) h₁ hs₁ (fun _ => rfl) h₂ hs₂
  rcases hiff.1 hsame with hm | hnone
  · simp at hm
  · rw [hdeclared] at hnone
    cases hnone

/-- Two regenerations in a row do not always leave the same artifacts: the grammar of the example grows. -/
theorem not_always_same_artifacts :
    ¬ ∀ (p : Plugin) (width : Nat) (generate : Generator) (c : Configuration) (definition : Path) (language : String)
      (raws : List (Artifact × String)) (fs : FileSystem) (base₁ base₂ : BaseLanguage) (r₁ r₂ : Run),
      languageName definition = .ok language → generate.Leaves definition (p.artifacts language) raws →
      (p.process (.textual width generate) c definition).run ⟨fs, []⟩ = (.ok base₁, r₁) → base₁.freshness = .stale →
      (p.process (.textual width generate) c definition).run ⟨r₁.files, []⟩ = (.ok base₂, r₂) →
      base₂.freshness = .stale →
      ∀ a, r₂.files.read ((p.artifacts language).path a) = r₁.files.read ((p.artifacts language).path a) := by
  intro hall
  obtain ⟨base₁, r₁, base₂, r₂, h₁, hs₁, hdeclared, h₂, hs₂⟩ := growingRun_eq
  have hleaves := Generator.leaves_transforming toplevelModule.text ⟨"p/src/x.b"⟩ ((Plugin.mk ⟨"p"⟩).artifacts "x")
  have hsame := hall _ _ _ _ _ _ _ _ base₁ base₂ r₁ r₂ languageName_example hleaves h₁ hs₁ h₂ hs₂ .grammar
  have hgrows := grammar_of_rerun languageName_example hleaves h₁ hs₁ (fun _ => rfl) h₂ hs₂ (by simp) hdeclared
  exact hgrows hsame

end Plugin

end BaseLang
