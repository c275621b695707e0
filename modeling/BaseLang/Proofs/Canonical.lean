import BaseLang.Proofs.Augmentation
import BaseLang.Proofs.Repetition

/-!
# The canonical artifacts

What a complete regeneration writes follows from the texts of the two raw modules.

* `TransformationOf`, `GrammarOf` : the modules in their canonical form, as a relation to the raw texts, with
  `TransformationOf.unique`, `GrammarOf.unique`, `TransformationOf.wellNamed`, `GrammarOf.wellNamed`;
* `canonicalText` : the texts of the artifacts by the two modules;
* `read_of_conclude` : a regeneration leaves these texts;
* `Step.EndsWith` : a step that writes some artifact at its end. A run that has written the pretty-print table has
  come through (`conclude_of_written`);
* `artifacts_canonical` : the artifacts of a complete run, and of any other one with the same raw texts.
-/

namespace BaseLang

open FileSystem Term

/-! ## Canonical modules -/

/-- The body of a grammar, as it is or with another section at its end: the production from the ground sort of a
toplevel nonterminal to the common sort, both as they are configured. -/
inductive Connected (c : Configuration) (language : String) : Option String → Term → Term → Prop where
  | none (body : Term) : Connected c language none body body
  | some (toplevel : String) (sections : List Term) : Connected c language (some toplevel) (.list sections)
      (.list (sections ++ [.appl "exports" [.appl "context-free-syntax" [.list [.appl "prod"
        [.list [.appl "sort" [.str (language ++ c.groundMarker ++ toplevel)]], .appl "sort" [.str c.toplevelSort],
          .appl "no-attrs" []]]]]]))

/-- The module in the text `T` is `module` once the configured import has taken the place of its imports, and declares
`toplevel`. -/
def TransformationOf (c : Configuration) (T : String) (toplevel : Option String) (module : Term) : Prop :=
  ∃ cons header ts decls, Term.read T = .ok (.appl cons [header, .list ts])
    ∧ Declarations.read (.appl cons [header, .list ts]) = .ok decls ∧ decls.toplevel = toplevel
    ∧ module = .appl cons [header, .list (.appl "Imports" [.list [.appl "Import" [.str c.canonical.transformation]]]
        :: ts.filter fun t => !t.isAppl "Imports")]

/-- The module in the text `G` is `module` once its import clause is the configured import and its body is connected. -/
def GrammarOf (c : Configuration) (language : String) (toplevel : Option String) (G : String) (module : Term) : Prop :=
  ∃ cons header imports body body', Term.read G = .ok (.appl cons [header, .list imports, body])
    ∧ Connected c language toplevel body body'
    ∧ module = .appl cons [header,
        .list [.appl "imports" [.appl "module" [.appl "unparameterized" [.str c.canonical.grammar]]]], body']

section modules

variable {c : Configuration} {language T G : String} {toplevel toplevel' : Option String}
  {module module' body body' body'' : Term}

theorem Connected.unique (h : Connected c language toplevel body body') (h' : Connected c language toplevel body body'') :
    body' = body'' := by
  cases h <;> cases h' <;> rfl

/-- A text has at most one canonical form. -/
theorem TransformationOf.unique (h : TransformationOf c T toplevel module)
    (h' : TransformationOf c T toplevel' module') : toplevel = toplevel' ∧ module = module' := by
  obtain ⟨cons, header, ts, decls, hread, hdecls, rfl, rfl⟩ := h
  obtain ⟨cons', header', ts', decls', hread', hdecls', rfl, rfl⟩ := h'
  rw [hread] at hread'
  cases hread'
  rw [hdecls] at hdecls'
  cases hdecls'
  exact ⟨rfl, rfl⟩

theorem GrammarOf.unique (h : GrammarOf c language toplevel G module) (h' : GrammarOf c language toplevel G module') :
    module = module' := by
  obtain ⟨cons, header, imports, body, body', hread, hbody, rfl⟩ := h
  obtain ⟨cons', header', imports', bodyᵣ, body'', hread', hbody', rfl⟩ := h'
  rw [hread] at hread'
  cases hread'
  rw [hbody.unique hbody']

theorem wellNamed_grammarImport (target : String) : (grammarImport target).WellNamed := by
  rw [grammarImport, wellNamed_appl]
  refine ⟨by decide, ?_⟩
  rw [List.forall_mem_singleton, wellNamed_appl]
  refine ⟨by decide, ?_⟩
  rw [List.forall_mem_singleton, wellNamed_appl]
  exact ⟨by decide, List.forall_mem_singleton.2 (wellNamed_str target)⟩

theorem wellNamed_sort (name : String) : (Augmentation.sort name).WellNamed :=
  wellNamed_appl.2 ⟨by decide, List.forall_mem_singleton.2 (wellNamed_str name)⟩

theorem wellNamed_production (a : Augmentation) (language toplevel : String) :
    (a.production language toplevel).WellNamed := by
  have hno : (appl "no-attrs" []).WellNamed := wellNamed_appl.2 ⟨by decide, by simp⟩
  have hsorts : (list [Augmentation.sort (a.groundSort language toplevel)]).WellNamed :=
    wellNamed_list.2 (List.forall_mem_singleton.2 (wellNamed_sort _))
  have hprod : (appl "prod" [.list [Augmentation.sort (a.groundSort language toplevel)],
      Augmentation.sort a.toplevelSort, .appl "no-attrs" []]).WellNamed := by
    refine wellNamed_appl.2 ⟨by decide, ?_⟩
    simp only [List.forall_mem_cons]
    exact ⟨hsorts, wellNamed_sort _, hno, by simp⟩
  have hsyntax := wellNamed_appl.2 (show Lexer.isIdent "context-free-syntax".toList ∧ _ from
    ⟨by decide, List.forall_mem_singleton.2 (wellNamed_list.2 (List.forall_mem_singleton.2 hprod))⟩)
  exact wellNamed_appl.2 ⟨by decide, List.forall_mem_singleton.2 hsyntax⟩

theorem Connected.wellNamed (h : Connected c language toplevel body body') (hb : body.WellNamed) :
    body'.WellNamed := by
  cases h with
  | none => exact hb
  | some toplevel sections =>
    refine wellNamed_list.2 (List.forall_mem_append.2 ⟨wellNamed_list.1 hb, ?_⟩)
    exact List.forall_mem_singleton.2 (wellNamed_production c.augmentation language toplevel)

theorem TransformationOf.wellNamed (h : TransformationOf c T toplevel module) : module.WellNamed := by
  obtain ⟨cons, header, ts, decls, hread, _, _, rfl⟩ := h
  exact wellNamed_rewritten rfl (wellNamed_of_read hread)

theorem GrammarOf.wellNamed (h : GrammarOf c language toplevel G module) : module.WellNamed := by
  obtain ⟨cons, header, imports, body, body', hread, hbody, rfl⟩ := h
  obtain ⟨hcons, hargs⟩ := wellNamed_appl.1 (wellNamed_of_read hread)
  have himport : (list [grammarImport c.canonical.grammar]).WellNamed :=
    wellNamed_list.2 (List.forall_mem_singleton.2 (wellNamed_grammarImport _))
  refine wellNamed_appl.2 ⟨hcons, ?_⟩
  simp only [List.forall_mem_cons]
  exact ⟨hargs header (by simp), himport, hbody.wellNamed (hargs body (by simp)), by simp⟩

end modules

/-! ## Canonical texts -/

/-- The texts of the artifacts by the two modules. -/
def canonicalText (width : Nat) (language : String) (module grammar : Term) : Artifact → String
  | .grammar => Toolchain.printText width grammar
  | .transformation => Toolchain.printText width module
  | .editorServices => Regeneration.editorServices language
  | .packagedGrammar => Regeneration.preamble ++ Toolchain.printText width grammar
  | .prettyTable => (PrettyTable.ofGrammar grammar).text

namespace Regeneration

open Step

variable {r : Regeneration} {s s' : Run} {profile : Profile}

theorem normalize_eq_ok {module module' : Term} (h : (r.normalize module).run s = (.ok module', s')) :
    r.toolchain.normalize module = .ok module' ∧ s'.files = s.files := by
  obtain ⟨_, s₁, hrec, h⟩ := Action.bind_eq_ok h
  cases hrec
  obtain ⟨hm, rfl⟩ := ofExcept_eq_ok h
  exact ⟨hm, rfl⟩

/-- The grammar module is written with its imports rewritten and its body connected. -/
theorem grammar_eq_ok {file : Path} {module : Term} {text : String}
    (h : (r.grammar profile file).run s = (.ok (module, text), s')) :
    ∃ raw rewritten connected,
      r.toolchain.parse (r.table .grammar) file ModuleKind.grammar.startSymbol s.files = .ok raw
      ∧ rewriteGrammarImports raw (r.canonical .grammar) = .ok rewritten
      ∧ r.connect profile rewritten = .ok connected
      ∧ r.toolchain.normalize connected = .ok module
      ∧ r.toolchain.print .grammar module = .ok text
      ∧ r.artifacts.writeAll [(.grammar, text)] s.files = .ok s'.files := by
  obtain ⟨raw, s₁, hparse, h₁⟩ := Action.bind_eq_ok h
  obtain ⟨hraw, hs₁⟩ := parse_eq_ok hparse
  obtain ⟨rewritten, s₂, hrewrite, h₂⟩ := Action.bind_eq_ok h₁
  obtain ⟨hr, hs₂⟩ := ofShape_eq_ok hrewrite
  obtain ⟨connected, s₃, hconnect, h₃⟩ := Action.bind_eq_ok h₂
  obtain ⟨hc, hs₃⟩ := ofShape_eq_ok hconnect
  obtain ⟨module', s₄, hnormalize, h₄⟩ := Action.bind_eq_ok h₃
  obtain ⟨hm, hs₄⟩ := normalize_eq_ok hnormalize
  obtain ⟨text', s₅, hprint, h₅⟩ := Action.bind_eq_ok h₄
  obtain ⟨ht, hs₅⟩ := print_eq_ok hprint
  obtain ⟨_, s₆, hwrite, h₆⟩ := Action.bind_eq_ok h₅
  cases h₆
  have hw := write_eq_ok hwrite
  rw [hs₅, hs₄, hs₃, hs₂, hs₁] at hw
  exact ⟨raw, rewritten, connected, hraw, hr, hc, hm, ht, hw⟩

theorem derived_eq_ok {module : Term} {text : String} {u : Unit}
    (h : (r.derived module text).run s = (.ok u, s')) :
    ∃ table, r.toolchain.prettyTable module = .ok table
      ∧ r.artifacts.writeAll [(.editorServices, editorServices r.language), (.packagedGrammar, preamble ++ text),
          (.prettyTable, table)] s.files = .ok s'.files := by
  obtain ⟨_, s₁, hserv, h₁⟩ := Action.bind_eq_ok h
  obtain ⟨_, s₂, hdef, h₂⟩ := Action.bind_eq_ok h₁
  obtain ⟨_, s₃, hrec, h₃⟩ := Action.bind_eq_ok h₂
  cases hrec
  obtain ⟨table, s₄, htable, h₄⟩ := Action.bind_eq_ok h₃
  obtain ⟨ht, rfl⟩ := ofExcept_eq_ok htable
  have hfirst := Artifacts.writeAll_append (Step.write_eq_ok hserv) (Step.write_eq_ok hdef)
  have hlast := Step.write_eq_ok h₄
  exact ⟨table, ht, Artifacts.writeAll_append hfirst hlast⟩

/-- After the transformation module the grammar is written, and what follows from it. -/
theorem finish_run_eq_ok {file : Path} (h : (r.finish file profile).run s = (.ok profile, s')) :
    ∃ module text s₁, (r.grammar profile file).run s = (.ok (module, text), s₁)
      ∧ (r.derived module text).run s₁ = (.ok (), s') := by
  obtain ⟨⟨module, text⟩, s₁, hg, h₁⟩ := Action.bind_eq_ok h
  obtain ⟨_, s₂, hd, h₂⟩ := Action.bind_eq_ok h₁
  cases h₂
  exact ⟨module, text, s₁, hg, hd⟩

theorem connect_eq_ok {cons : String} {header imports body module : Term}
    (h : r.connect profile (.appl cons [header, imports, body]) = .ok module) : ∃ body',
      Connected r.configuration r.language profile.toplevel body body' ∧ module = .appl cons [header, imports, body'] := by
  rw [connect] at h
  split at h
  · rename_i toplevel ht
    obtain ⟨_, _, _, sections, heq, rfl⟩ := Augmentation.append_eq_ok h
    cases heq
    rw [ht]
    exact ⟨_, .some toplevel sections, rfl⟩
  · rename_i ht
    cases h
    rw [ht]
    exact ⟨body, .none body, rfl⟩

/-- What follows the generator leaves the canonical texts of the modules that the generator has left. -/
theorem read_of_conclude {width : Nat} {generate : Generator} (htool : r.toolchain = .textual width generate)
    (hn : r.artifacts.Named)
    (h : (r.conclude ⟨r.artifacts.path .grammar, r.artifacts.path .transformation, []⟩).run s = (.ok profile, s')) :
    ∃ T G module grammar, s.files.readText (r.artifacts.path .transformation) = .ok T
      ∧ s.files.readText (r.artifacts.path .grammar) = .ok G
      ∧ TransformationOf r.configuration T profile.toplevel module
      ∧ GrammarOf r.configuration r.language profile.toplevel G grammar
      ∧ ∀ a, s'.files.read (r.artifacts.path a) = .ok (canonicalText width r.language module grammar a).toUTF8 := by
  obtain ⟨s₁, ht, hf⟩ := conclude_eq_ok h
  obtain ⟨raw, module, text, hraw, hprofile, hmodule, htext, hw₁⟩ := transformation_eq_ok ht
  obtain ⟨grammar, text', s₂, hg, hd⟩ := finish_run_eq_ok hf
  obtain ⟨raw', rewritten, connected, hraw', hrewritten, hconnected, hnormal, htext', hw₂⟩ := grammar_eq_ok hg
  obtain ⟨table, htable, hw₃⟩ := derived_eq_ok hd
  rw [htool] at hraw htext hraw' hnormal htext' htable
  obtain rfl : Toolchain.printText width module = text := Except.ok.inj htext
  obtain rfl : connected = grammar := Except.ok.inj hnormal
  obtain rfl : Toolchain.printText width connected = text' := Except.ok.inj htext'
  obtain rfl : (PrettyTable.ofGrammar connected).text = table := Except.ok.inj htable
  obtain ⟨home, hh⟩ := Artifacts.housed_of_writeAll hn (by simp) hw₁
  have hall := Artifacts.writeAll_append (Artifacts.writeAll_append hw₁ hw₂) hw₃
  obtain ⟨T, hT, hreadT⟩ := Toolchain.parseText_eq_ok hraw
  obtain ⟨G, hG, hreadG⟩ := Toolchain.parseText_eq_ok hraw'
  refine ⟨T, G, module, connected, hT, ?_, ?_, ?_, fun a => ?_⟩
  · -- The transformation module has been written since, and the grammar module has not.
    have hstat := hh.stat_writeAll hw₁ (a := .grammar) (by simp)
    rw [← hG, readText, readText, FileSystem.read, FileSystem.read, hstat]
  · obtain ⟨decls, hdecls, _, htoplevel⟩ := Profile.declared_of_read hprofile
    obtain ⟨cons, header, ts, rfl, rfl⟩ := rewriteTransformationImports_eq_ok hmodule
    exact ⟨cons, header, ts, decls, hreadT, hdecls, htoplevel.symm, rfl⟩
  · obtain ⟨cons, header, imports, body, rfl, rfl⟩ := rewriteGrammarImports_eq_ok hrewritten
    obtain ⟨body', hbody, rfl⟩ := connect_eq_ok hconnected
    exact ⟨cons, header, imports, body, body', hreadG, hbody, rfl⟩
  · have hm : (a, canonicalText width r.language module connected a) ∈
        [(Artifact.transformation, Toolchain.printText width module)]
          ++ [(.grammar, Toolchain.printText width connected)]
          ++ [(.editorServices, editorServices r.language),
            (.packagedGrammar, preamble ++ Toolchain.printText width connected),
            (.prettyTable, (PrettyTable.ofGrammar connected).text)] := by
      cases a <;> simp [canonicalText]
    obtain ⟨x, hx⟩ := hh.stat_of_mem hall nodup_writingOrder hm
    rw [FileSystem.read, hx]

end Regeneration

/-! ## Runs that come through -/

namespace Step

variable {α β : Type} {as : Artifacts} {order : List Artifact} {x : Artifact}

/-- What is put down as written after a step that writes other artifacts was so before. -/
theorem Writes.spares {a : Step α} {r r' : Run} {outcome : Except ProcessError α} (h : Writes as order a)
    (hx : x ∉ order) (hr : a.run r = (outcome, r')) (hm : .written x ∈ r'.events) : .written x ∈ r.events := by
  obtain ⟨ws, hw, hp, _⟩ := h r
  rw [hr] at hw
  rcases Decidable.em (.written x ∈ r.events) with hold | hnew
  · exact hold
  · exact absurd (hp.subset ((hw.written_iff hnew).1 hm)) hx

/-- A step that writes an artifact at its end: if it fails, it has not put it down. -/
def EndsWith (x : Artifact) (a : Step α) : Prop :=
  ∀ r e r', a.run r = (.error e, r') → .written x ∈ r'.events → .written x ∈ r.events

theorem EndsWith.after {a : Step α} {f : α → Step β} (ha : Writes as order a) (hx : x ∉ order)
    (hf : ∀ v, EndsWith x (f v)) : EndsWith x (a >>= f) := by
  intro r e r' h hm
  cases ha' : a.run r with
  | mk outcome r₁ =>
    cases outcome with
    | error e' =>
      rw [Action.bind_of_error ha'] at h
      cases h
      exact ha.spares hx ha' hm
    | ok v =>
      rw [Action.bind_of_ok ha'] at h
      exact ha.spares hx ha' (hf v r₁ e r' h hm)

/-- What cannot fail may follow. -/
theorem EndsWith.map {a : Step α} (ha : EndsWith x a) (g : α → β) : EndsWith x (a >>= fun v => pure (g v)) := by
  intro r e r' h hm
  cases ha' : a.run r with
  | mk outcome r₁ =>
    cases outcome with
    | error e' =>
      rw [Action.bind_of_error ha'] at h
      cases h
      exact ha r e r' ha' hm
    | ok v =>
      rw [Action.bind_of_ok ha'] at h
      cases h

theorem endsWith_write (as : Artifacts) (x : Artifact) (text : String) : EndsWith x (write as x text) := by
  intro r e r' h hm
  rw [write_run] at h
  split at h
  · cases h
  · cases h
    exact hm

end Step

namespace Regeneration

open Step

theorem endsWith_derived (r : Regeneration) (module : Term) (text : String) :
    EndsWith .prettyTable (r.derived module text) := by
  have hrecord : Writes r.artifacts [] (record .prettyTable) := writes_record rfl
  have htable : Writes r.artifacts [] (Action.ofExcept (r.toolchain.prettyTable module) : Step String) :=
    writes_ofExcept _
  refine .after (writes_write r.artifacts .editorServices _) (by decide) fun _ => ?_
  refine .after (writes_write r.artifacts .packagedGrammar _) (by decide) fun _ => ?_
  refine .after hrecord (by decide) fun _ => .after htable (by decide) fun table => ?_
  exact endsWith_write r.artifacts .prettyTable table

/-- The pretty-print table is the last thing that is written, and nothing can fail behind it. -/
theorem endsWith_conclude (r : Regeneration) (raw : Generated) : EndsWith .prettyTable (r.conclude raw) := by
  rw [conclude]
  split
  · intro s e s' h hm
    cases h
    exact hm
  · refine .after (writes_transformation r raw.transformation) (by decide) fun profile => ?_
    refine .after (writes_grammar r profile raw.grammar) (by decide) fun written => ?_
    exact (endsWith_derived r written.1 written.2).map fun _ => profile

end Regeneration

namespace Plugin

variable {p : Plugin} {toolchain : Toolchain} {c : Configuration} {definition : Path} {language : String}
  {fs before after : FileSystem} {outcome : Except ProcessError BaseLanguage} {r : Run} {width : Nat}
  {generate : Generator}

/-- A run that has written the pretty-print table has come through what follows the generator. -/
theorem conclude_of_written {raw : Generated} (hl : languageName definition = .ok language)
    (hb : p.ensureBin.run fs = (.ok (), before))
    (hs : Freshness.of before definition (p.artifacts language) = .ok .stale)
    (hg : (toolchain.generate definition language p.bin).run before = (.ok raw, after))
    (h : (p.process toolchain c definition).run ⟨fs, []⟩ = (outcome, r)) (hw : .written .prettyTable ∈ r.events) :
    ∃ profile, ((p.regeneration toolchain c definition language).conclude raw).run
        ⟨after, [.generate definition language p.bin]⟩ = (.ok profile, r)
      ∧ ∀ base, outcome = .ok base → base.profile = profile := by
  have hraw : (Action.ofExcept (.ok raw) : Step Generated).run ⟨after, [.generate definition language p.bin]⟩
      = (.ok raw, ⟨after, [.generate definition language p.bin]⟩) := rfl
  rw [process_stale hl hb hs hg, Action.bind_of_ok hraw] at h
  cases hc : ((p.regeneration toolchain c definition language).conclude raw).run
      ⟨after, [.generate definition language p.bin]⟩ with
  | mk result r₁ =>
    cases result with
    | error e =>
      rw [Action.bind_of_error hc] at h
      cases h
      have hold := Regeneration.endsWith_conclude _ raw _ e _ hc hw
      simp at hold
    | ok profile =>
      rw [Action.bind_of_ok hc] at h
      obtain ⟨rfl, hbase⟩ := BaseLanguage.checked_eq h
      exact ⟨profile, rfl, fun base he => by rw [hbase base he]⟩

/-! ## Complete runs -/

/-- A run that takes the artifacts for stale and writes all of them. Its generator has nothing to say against the
definition and leaves the raw texts `T` and `G`; what is in the files before, and what else the generator does to them,
does not matter. -/
structure Regenerates (p : Plugin) (width : Nat) (c : Configuration) (definition : Path) (language T G : String)
    (r : Run) : Prop where
  name : languageName definition = .ok language
  run : ∃ (generate : Generator) (fs before after : FileSystem) (outcome : Except ProcessError BaseLanguage),
    p.ensureBin.run fs = (.ok (), before)
      ∧ Freshness.of before definition (p.artifacts language) = .ok .stale
      ∧ (generate definition language p.bin).run before
        = (.ok ⟨(p.artifacts language).path .grammar, (p.artifacts language).path .transformation, []⟩, after)
      ∧ after.readText ((p.artifacts language).path .transformation) = .ok T
      ∧ after.readText ((p.artifacts language).path .grammar) = .ok G
      ∧ (p.process (.textual width generate) c definition).run ⟨fs, []⟩ = (outcome, r)
  all : ∀ a, .written a ∈ r.events

/-- A complete run leaves the canonical texts of the raw ones. -/
theorem Regenerates.read {T G : String} (h : p.Regenerates width c definition language T G r) :
    ∃ toplevel module grammar, TransformationOf c T toplevel module ∧ GrammarOf c language toplevel G grammar
      ∧ ∀ a, r.files.read ((p.artifacts language).path a)
        = .ok (canonicalText width language module grammar a).toUTF8 := by
  obtain ⟨generate, fs, before, after, outcome, hb, hs, hg, hT, hG, hrun⟩ := h.run
  obtain ⟨profile, hc, _⟩ := conclude_of_written h.name hb hs hg hrun (h.all .prettyTable)
  obtain ⟨T', G', module, grammar, hT', hG', hm, hgr, hread⟩ := Regeneration.read_of_conclude rfl
    (named_artifacts p h.name) hc
  obtain rfl : T' = T := Except.ok.inj (hT'.symm.trans hT)
  obtain rfl : G' = G := Except.ok.inj (hG'.symm.trans hG)
  exact ⟨profile.toplevel, module, grammar, hm, hgr, hread⟩

theorem exampleRun_regenerates : ∃ base r, exampleRun = (.ok base, r)
    ∧ (Plugin.mk ⟨"p"⟩).Regenerates 40 .bare ⟨"p/src/x.b"⟩ "x" exampleModule.text exampleGrammar r := by
  obtain ⟨base, r, h, _⟩ := exampleRun_eq
  obtain ⟨before, after, hb, hs, hw⟩ := exampleRun_stale
  obtain ⟨home, hh⟩ := Artifacts.housed_of_isDir (named_artifacts _ languageName_example) (isDir_of_ensureBin hb)
  have htext {a : Artifact} {text : String}
      (hm : (a, text) ∈ [(Artifact.grammar, exampleGrammar), (.transformation, exampleModule.text)]) :
      after.readText (((Plugin.mk ⟨"p"⟩).artifacts "x").path a) = .ok text := by
    have hnodup : [Artifact.grammar, .transformation].Nodup := by decide
    obtain ⟨x, hx⟩ := hh.stat_of_mem hw hnodup hm
    exact Toolchain.readText_of_read (by rw [FileSystem.read, hx])
  refine ⟨base, r, h, languageName_example, ?_, written_of_ok languageName_example hb hs h⟩
  exact ⟨_, exampleFiles, before, after, .ok base, hb, hs, Generator.leaving_run hw [] ⟨"p/src/x.b"⟩,
    htext (by simp), htext (by simp), h⟩

/-- **The artifacts follow from the raw modules, and agree with each other.** After a complete run the transformation
module reads back as the raw one with its imports replaced, and the grammar as the raw one with its import clause
replaced and, if the transformation module declares a toplevel nonterminal, the production for it at the end of the
body. The packaged grammar is the text of the grammar behind its preamble, the editor services name the language, and
the pretty-print table is the one of the grammar that is read back. Every other complete run with the same raw texts
leaves the same artifacts, for whatever definition and plugin, and whatever was there before. -/
theorem artifacts_canonical {T G : String} (h : p.Regenerates width c definition language T G r) :
    (∃ toplevel module grammar str sdf, TransformationOf c T toplevel module ∧ GrammarOf c language toplevel G grammar
      ∧ r.files.readText ((p.artifacts language).path .transformation) = .ok str ∧ Term.read str = .ok module
      ∧ r.files.readText ((p.artifacts language).path .grammar) = .ok sdf ∧ Term.read sdf = .ok grammar
      ∧ r.files.readText ((p.artifacts language).path .packagedGrammar) = .ok ("definition\n\n" ++ sdf)
      ∧ r.files.readText ((p.artifacts language).path .editorServices) = .ok ("module " ++ language ++ "\n")
      ∧ r.files.readText ((p.artifacts language).path .prettyTable) = .ok (PrettyTable.ofGrammar grammar).text)
    ∧ ∀ (p' : Plugin) (definition' : Path) (r' : Run), p'.Regenerates width c definition' language T G r' →
      ∀ a, r'.files.read ((p'.artifacts language).path a) = r.files.read ((p.artifacts language).path a) := by
  obtain ⟨toplevel, module, grammar, hm, hg, hread⟩ := h.read
  constructor
  · have htext (a : Artifact) := Toolchain.readText_of_read (hread a)
    exact ⟨toplevel, module, grammar, Toolchain.printText width module, Toolchain.printText width grammar, hm, hg,
      htext .transformation, Toolchain.read_printText hm.wellNamed width,
      htext .grammar, Toolchain.read_printText hg.wellNamed width,
      htext .packagedGrammar, htext .editorServices, htext .prettyTable⟩
  · intro p' definition' r' h' a
    obtain ⟨toplevel', module', grammar', hm', hg', hread'⟩ := h'.read
    obtain ⟨rfl, rfl⟩ := hm.unique hm'
    obtain rfl := hg.unique hg'
    rw [hread, hread']

/-- The artifacts of the example, whose module declares the toplevel nonterminal `X`, and whose grammar has a production
of its own. -/
theorem artifacts_canonical_example :
    let exporting (symbol : Term) (sort : String) (attributes : Term) : Term :=
      .appl "exports" [.appl "context-free-syntax" [.list [.appl "prod" [.list [symbol], .appl "sort" [.str sort],
        attributes]]]]
    ∃ r str sdf, (Plugin.mk ⟨"p"⟩).Regenerates 40 .bare ⟨"p/src/x.b"⟩ "x" exampleModule.text exampleGrammar r
      ∧ r.files.readText (((Plugin.mk ⟨"p"⟩).artifacts "x").path .transformation) = .ok str
      ∧ Term.read str = .ok (.appl "Module" [.str "x", .list [
          .appl "Imports" [.list [.appl "Import" [.str "basil/Common"]]],
          defining "sx-ToplevelDeclaration" (.str "X"), defining "sx-extensible-file-ext" (.str "e"),
          defining "sx-base-file-ext" (.str "b"),
          defining "sx-namespace-kind" (.appl "Op" [.str "SXNamespaceFlat", .list []])]])
      ∧ r.files.readText (((Plugin.mk ⟨"p"⟩).artifacts "x").path .grammar) = .ok sdf
      ∧ Term.read sdf = .ok (.appl "module" [.appl "x" [],
          .list [.appl "imports" [.appl "module" [.appl "unparameterized" [.str "basil/Common"]]]],
          .list [exporting (.appl "lit" [.str "\"l\""]) "S" (.appl "attrs" [.list [.appl "cons" [.str "\"C\""]]]),
            exporting (.appl "sort" [.str "xGndX"]) "ToplevelDeclaration" (.appl "no-attrs" [])]])
      ∧ r.files.readText (((Plugin.mk ⟨"p"⟩).artifacts "x").path .packagedGrammar) = .ok ("definition\n\n" ++ sdf)
      ∧ r.files.readText (((Plugin.mk ⟨"p"⟩).artifacts "x").path .editorServices) = .ok "module x\n"
      ∧ r.files.readText (((Plugin.mk ⟨"p"⟩).artifacts "x").path .prettyTable)
        = .ok "[\n   C -- H[KW[\"l\"]]\n]\n" := by
  intro exporting
  obtain ⟨_, r, _, hr⟩ := exampleRun_regenerates
  obtain ⟨⟨toplevel, module, grammar, str, sdf, hm, hg, hstr, hmodule, hsdf, hgrammar, hdef, hserv, hpp⟩, _⟩ :=
    artifacts_canonical hr
  have hdeclared : (Declarations.read exampleModule).toOption.map (·.toplevel) = some (some "X") := by decide +kernel
  obtain ⟨decls, hdecls, htoplevel⟩ := Option.map_eq_some_iff.1 hdeclared
  obtain ⟨rfl, rfl⟩ := hm.unique ⟨"Module", .str "x", _, decls, read_text (by decide +kernel),
    eq_ok_of_toOption hdecls, htoplevel, rfl⟩
  have hraw : Term.read exampleGrammar = .ok (.appl "module" [.appl "x" [], .list [],
      .list [exporting (.appl "lit" [.str "\"l\""]) "S" (.appl "attrs" [.list [.appl "cons" [.str "\"C\""]]])]]) :=
    eq_ok_of_toOption (by decide +kernel)
  obtain rfl := hg.unique ⟨_, _, _, _, _, hraw, .some "X" _, rfl⟩
  rw [show (PrettyTable.ofGrammar _).text = "[\n   C -- H[KW[\"l\"]]\n]\n" by decide +kernel] at hpp
  exact ⟨r, str, sdf, hr, hstr, hmodule, hsdf, hgrammar, hdef, hserv, hpp⟩

end Plugin

end BaseLang
