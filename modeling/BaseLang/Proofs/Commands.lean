import BaseLang.CommandLine.Run
import BaseLang.Proofs.Repetition

/-!
# Two commands for one profile

* `Declarations.DescribedBy` : the lines that are printed for a language. `Profile.describedBy_of_read` : a profile that
  is read off a module has the lines for what is declared in the module;
* `Plugin.languageName_artifact`, `Plugin.parent?_artifact` : the language and the directory of an artifact can be
  told from its path;
* `Command.runProcess_eq_ok` : a definition that is processed, by the parts of the command;
* `Command.runProfile_artifact` : the profile that is read from a transformation module in a plugin;
* `Command.profile_of_process` : both commands print the same.
-/

namespace BaseLang

/-! ## Printed profiles -/

/-- The lines that describe a language: its name, what is declared about it, and its artifacts in `dir`. -/
def Declarations.DescribedBy (d : Declarations) (language : String) (dir : Path) (lines : List String) : Prop :=
  ∃ extensionSuffix baseSuffix kind,
    d.extensionSuffix = some extensionSuffix ∧ d.baseSuffix = some baseSuffix ∧ d.namespaceKind = some kind
    ∧ lines =
      ["language: " ++ language,
        "extension file suffix: " ++ extensionSuffix,
        "base file suffix: " ++ baseSuffix]
      ++ (match d.toplevel with
        | some toplevel => ["toplevel nonterminal: " ++ toplevel]
        | none => [])
      ++ (match d.namespaceDecl with
        | some decl => ["namespace declaration: " ++ decl.cons ++ "#" ++ toString decl.index]
        | none => [])
      ++ [match kind with
          | .flat => "namespace kind: flat"
          | .nested separator => "namespace kind: nested `" ++ toString separator ++ "`"
          | .prefixed separator => "namespace kind: prefixed `" ++ toString separator ++ "`",
        "namespace suffixes: ["
          ++ ", ".intercalate (d.namespaceSuffixes.entries.map fun e => e.1 ++ "#" ++ toString e.2) ++ "]",
        "imports: [" ++ ", ".intercalate (d.imports.entries.map fun e => e.1 ++ "#" ++ toString e.2) ++ "]",
        "body declarations: [" ++ ", ".intercalate d.body.keys ++ "]",
        "artifact: " ++ (dir.file (language ++ ".sdf")).text,
        "artifact: " ++ (dir.file (language ++ ".str")).text,
        "artifact: " ++ (dir.file (language ++ ".serv")).text,
        "artifact: " ++ (dir.file (language ++ ".def")).text,
        "artifact: " ++ (dir.file (language ++ ".pp")).text]

theorem Artifacts.paths_eq (dir : Path) (language : String) : (⟨dir, language⟩ : Artifacts).paths
    = [dir.file (language ++ ".sdf"), dir.file (language ++ ".str"), dir.file (language ++ ".serv"),
      dir.file (language ++ ".def"), dir.file (language ++ ".pp")] := by
  have hpath (extension : String) : language ++ "." ++ extension = language ++ ("." ++ extension) :=
    String.append_assoc
  simp only [paths, Artifact.all, List.map_cons, List.map_nil, path, hpath, Artifact.extension]
  rfl

theorem NamespaceKind.text_eq (kind : NamespaceKind) : "namespace kind: " ++ kind.text =
    match kind with
    | .flat => "namespace kind: flat"
    | .nested separator => "namespace kind: nested `" ++ toString separator ++ "`"
    | .prefixed separator => "namespace kind: prefixed `" ++ toString separator ++ "`" := by
  cases kind with
  | flat => rfl
  | nested c => rfl
  | prefixed c => rfl

theorem Profile.describedBy_of_read {module : Term} {language : String} {dir : Path} {profile : Profile}
    (h : Profile.read module language ⟨dir, language⟩ = .ok profile) :
    ∃ decls, Declarations.read module = .ok decls ∧ decls.DescribedBy language dir profile.lines := by
  obtain ⟨decls, hd, hc⟩ := exists_of_bind h
  refine ⟨decls, hd, ?_⟩
  rw [Declarations.complete] at hc
  split at hc
  · cases hc
  · cases hc
  · cases hc
  · rename_i extensionSuffix baseSuffix kind hextension hbase hkind
    cases hc
    refine ⟨extensionSuffix, baseSuffix, kind, hextension, hbase, hkind, ?_⟩
    rw [Profile.lines, Artifacts.paths_eq, ← NamespaceKind.text_eq]
    cases decls.toplevel <;> cases decls.namespaceDecl <;> rfl

/-! ## Artifacts and their language -/

namespace Plugin

variable {definition : Path} {language : String}

/-- An artifact has the stem of its language, however many dots there are in its name. -/
theorem languageName_artifact (p : Plugin) (h : languageName definition = .ok language) (a : Artifact) :
    languageName ((p.artifacts language).path a) = .ok language := by
  have hs := languageName_eq_ok h
  obtain ⟨_, _, hne⟩ := Path.stem?_eq_some hs
  have he : a.extension ≠ "" := by cases a <;> decide
  have hstem : ((p.artifacts language).path a).stem? = some language :=
    Path.stem?_file p.bin_ending (by decide) hne (Path.notMem_stem hs) he a.notMem_extension a.dot_notMem_extension
  rw [languageName, hstem]

theorem parent?_artifact (p : Plugin) (h : languageName definition = .ok language) (a : Artifact) :
    ((p.artifacts language).path a).parent? = some p.bin := by
  have hs := languageName_eq_ok h
  obtain ⟨_, _, hne⟩ := Path.stem?_eq_some hs
  exact Path.parent?_file p.bin_ending (by decide) (by decide)
    (Path.isName_dotted hne (Path.notMem_stem hs) a.notMem_extension)

end Plugin

/-! ## Commands -/

namespace Command

variable {env : Environment} {definition : Path} {plugin conf : Option Path} {text language : String}
  {fs fs' : FileSystem}

theorem processFiles_run (env : Environment) (p : Plugin) (c : Configuration) (definition : Path) (fs : FileSystem) :
    (processFiles env p c definition).run fs
      = (((p.process (toolchain env c) c definition).run ⟨fs, []⟩).1,
        ((p.process (toolchain env c) c definition).run ⟨fs, []⟩).2.files) := rfl

/-- A definition is processed with the plugin and the configuration that are found for it. -/
theorem runProcess_eq_ok (h : (runProcess env definition plugin conf).run fs = (.ok text, fs')) :
    ∃ p c fs₁ base r, pluginOf definition plugin = .ok p ∧ (configuration env conf).run fs = (.ok c, fs₁)
      ∧ (p.process (toolchain env c) c definition).run ⟨fs₁, []⟩ = (.ok base, r)
      ∧ text = base.profile.text ∧ fs' = r.files := by
  obtain ⟨p, s₁, hplugin, h⟩ := Action.bind_eq_ok h
  obtain ⟨c, s₂, hconf, h⟩ := Action.bind_eq_ok h
  obtain ⟨base, s₃, hprocess, h⟩ := Action.bind_eq_ok h
  cases h
  obtain ⟨hp, rfl⟩ := Prod.mk.inj hplugin
  have hrun := Action.mapFailure_eq_ok hprocess
  rw [processFiles_run] at hrun
  obtain ⟨hbase, hfiles⟩ := Prod.mk.inj hrun
  exact ⟨p, c, s₂, base, _, hp, Action.mapFailure_eq_ok hconf, Prod.ext hbase rfl, rfl, hfiles.symm⟩

/-- A profile is read from a transformation module as the one of the language and the plugin of this module. -/
theorem runProfile_artifact {p : Plugin} {module : Term} {profile : Profile}
    (hl : languageName definition = .ok language)
    (hm : Toolchain.parseText ((p.artifacts language).path .transformation) ModuleKind.transformation.startSymbol fs
      = .ok module)
    (hp : Profile.read module language (p.artifacts language) = .ok profile) :
    runProfile ((p.artifacts language).path .transformation) fs = .ok profile.text := by
  obtain ⟨source, hsource, hread⟩ := Toolchain.parseText_eq_ok hm
  have hname := p.languageName_artifact hl .transformation
  have hdir := p.parent?_artifact hl .transformation
  have hp' : Profile.read module language ⟨p.bin, language⟩ = .ok profile := hp
  rw [runProfile, hsource, hname, hdir]
  change (Term.read source).mapError _ >>= _ = _
  rw [hread]
  change (Profile.read module language ⟨p.bin, language⟩).mapError _ >>= _ = _
  rw [hp']
  rfl

/-- **The two commands that print a profile agree.** If a definition is processed and the profile of its language is
printed, whether its artifacts had to be written or were fresh, then the transformation module in the directory of the
artifacts declares what is printed: a line for the name of the language, for each suffix, for each table with its
entries, and for each of the five artifacts. The same text is printed from now on for this module, by whatever
environment, and nothing is changed by it. -/
theorem profile_of_process {verbose : Bool}
    (h : (run env (.process definition plugin conf verbose)).run fs = (.ok text, fs')) :
    ∃ p language source module decls lines, pluginOf definition plugin = .ok p ∧ languageName definition = .ok language
      ∧ fs'.readText ((p.artifacts language).path .transformation) = .ok source ∧ Term.read source = .ok module
      ∧ Declarations.read module = .ok decls ∧ decls.DescribedBy language p.bin lines
      ∧ text = String.join (lines.map (· ++ "\n"))
      ∧ ∀ env' verbose' pause,
        (run env' (.profile ((p.artifacts language).path .transformation) verbose')).run (fs'.tick pause)
          = (.ok text, fs'.tick pause) := by
  obtain ⟨p, c, fs₁, base, r, hplugin, -, hrun, rfl, rfl⟩ := runProcess_eq_ok h
  obtain ⟨hl, module, hm, hp⟩ := Plugin.module_of_process hrun
  obtain ⟨source, hsource, hread⟩ := Toolchain.parseText_eq_ok hm
  obtain ⟨decls, hdecls, hlines⟩ := Profile.describedBy_of_read hp
  refine ⟨p, base.name, source, module, decls, base.profile.lines, hplugin, hl, hsource, hread, hdecls, hlines, rfl,
    fun env' verbose' pause => ?_⟩
  have hlater : Toolchain.parseText ((p.artifacts base.name).path .transformation)
      ModuleKind.transformation.startSymbol (r.files.tick pause) = .ok module := by
    rw [← hm, Toolchain.parseText.eq_def, Toolchain.parseText.eq_def, FileSystem.readText_tick]
  exact Prod.ext (runProfile_artifact hl hlater hp) rfl

/-! ### An example -/

/-- A configuration file, and a definition with two dots in its name. -/
def dottedFiles : FileSystem where
  nodes := Table.ofList [([], .dir 0), (["c"], .file "support_files = []".toUTF8 0 false), (["p"], .dir 0),
    (["src", "p"], .dir 0), (["x.y.b", "src", "p"], .file .empty 0 false)]
  workingDir := []
  clock := 1

/-- A transformation module with all definitions that a language can have. -/
def dottedModule : Term :=
  .appl "Module" [.str "x", .list [Plugin.defining "sx-ToplevelDeclaration" (.str "X"),
    Plugin.defining "sx-extensible-file-ext" (.str "e"), Plugin.defining "sx-base-file-ext" (.str "b"),
    Plugin.defining "sx-body-decs" (.appl "ListTail" [.list [.str "D"], .list [.str "U"]]),
    Plugin.defining "sx-namespace-dec" (.list [.str "N", .int 0]),
    Plugin.defining "sx-import-decs" (.appl "ListTail" [.list [.list [.str "I", .int 0]],
      .list [.list [.str "O", .int 1]]]),
    Plugin.defining "sx-namespace-kind" (.appl "Op" [.str "SXNamespaceNested", .list [.str ":"]]),
    Plugin.defining "sx-namespace-suffices" (.list [.list [.str "S", .int 2]])]]

/-- All programs leave the same two modules. -/
def dottedEnvironment : Environment where
  userConfiguration := ⟨"/c"⟩
  cache := ⟨"/cache"⟩
  programs _ _ := do
    Disk.write ⟨"/p/bin/x.y.sdf"⟩ "module(x, [], [])"
    Disk.write ⟨"/p/bin/x.y.str"⟩ dottedModule.text
    return .silent 0

def dottedText : String :=
  "language: x.y\nextension file suffix: e\nbase file suffix: b\ntoplevel nonterminal: X\n"
  ++ "namespace declaration: N#0\nnamespace kind: nested `:`\nnamespace suffixes: [S#2]\nimports: [I#0, O#1]\n"
  ++ "body declarations: [D, U]\nartifact: /p/bin/x.y.sdf\nartifact: /p/bin/x.y.str\n"
  ++ "artifact: /p/bin/x.y.serv\nartifact: /p/bin/x.y.def\nartifact: /p/bin/x.y.pp\n"

/-- The definition is processed, where the parser may know the generated module by heart. -/
theorem dotted_outcome :
    ((run dottedEnvironment (.process ⟨"/p/src/x.y.b"⟩ none none false)).run dottedFiles).1.toOption
      = some dottedText := by
  have hmodule : dottedModule.WellNamed := by decide +kernel
  have hfiles : processFiles dottedEnvironment = fun p c definition fs =>
      let toolchain := (toolchain dottedEnvironment c).remembering dottedModule.text dottedModule
      let ended := (p.process toolchain c definition).run ⟨fs, []⟩
      (ended.1, ended.2.files) := by
    funext p c definition fs
    rw [toolchain, ← Toolchain.textual_eq_remembering hmodule]
    rfl
  change ((runProcess dottedEnvironment ⟨"/p/src/x.y.b"⟩ none none).run dottedFiles).1.toOption = _
  rw [runProcess, hfiles]
  decide +kernel

/-- The artifacts have to be written first, and afterwards their profile is printed at any time. -/
theorem profile_of_process_dotted : ∃ (fs' : FileSystem) (decls : Declarations) (lines : List String),
    (run dottedEnvironment (.process ⟨"/p/src/x.y.b"⟩ none none false)).run dottedFiles = (.ok dottedText, fs')
    ∧ decls.DescribedBy "x.y" ⟨"/p/bin"⟩ lines ∧ dottedText = String.join (lines.map (· ++ "\n"))
    ∧ ∀ pause, (run dottedEnvironment (.profile ⟨"/p/bin/x.y.str"⟩ true)).run (fs'.tick pause)
      = (.ok dottedText, fs'.tick pause) := by
  obtain ⟨fs', hrun⟩ : ∃ fs', (run dottedEnvironment (.process ⟨"/p/src/x.y.b"⟩ none none false)).run dottedFiles
      = (.ok dottedText, fs') := ⟨_, Prod.ext (eq_ok_of_toOption dotted_outcome) rfl⟩
  obtain ⟨p, language, _, _, decls, lines, hp, hl, _, _, _, hlines, htext, hprofile⟩ := profile_of_process hrun
  obtain rfl : p = ⟨⟨"/p"⟩⟩ := by
    have hplugin : (pluginOf ⟨"/p/src/x.y.b"⟩ none).toOption = some ⟨⟨"/p"⟩⟩ := by decide +kernel
    exact Except.ok.inj (hp.symm.trans (eq_ok_of_toOption hplugin))
  obtain rfl : language = "x.y" := by
    have hname : (languageName ⟨"/p/src/x.y.b"⟩).toOption = some "x.y" := by decide +kernel
    exact Except.ok.inj (hl.symm.trans (eq_ok_of_toOption hname))
  have hbin : (Plugin.mk ⟨"/p"⟩).bin = ⟨"/p/bin"⟩ := by decide +kernel
  have hpath : (Plugin.artifacts ⟨⟨"/p"⟩⟩ "x.y").path .transformation = ⟨"/p/bin/x.y.str"⟩ := by
    decide +kernel
  rw [hbin] at hlines
  rw [hpath] at hprofile
  exact ⟨fs', decls, lines, hrun, hlines, htext, hprofile dottedEnvironment true⟩

end Command

end BaseLang
