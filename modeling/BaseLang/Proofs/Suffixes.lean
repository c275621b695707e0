import BaseLang.Proofs.Compilation

/-!
# Suffixes with a slash

A file suffix is declared without a dot in front, and it is not empty. Nothing keeps a slash out of it, and then the steps
that replace the suffix of a path abort.

* `Declarations.plain`, `plainModule` : a module for every suffix. `Profile.exists_read_iff` : the suffixes that can be
  declared;
* `SourceError.AbortsIf` : a step that aborts exactly on a condition, and otherwise gives a result or is refused a file
  operation;
* `SourceUnit.aborts_iff_slash` : the steps of a source file abort if there is a slash in the suffix.
-/

namespace BaseLang

/-! ## Declared suffixes -/

namespace Declarations

open Term

/-- The declarations of a language with as little as possible beside its suffix. -/
def plain (suffix : String) : Declarations :=
  { empty with extensionSuffix := some "e", baseSuffix := some suffix, namespaceKind := some .flat }

/-- What a module says to declare these. -/
def plainDecls (suffix : String) : List Term :=
  [Definition.extensionSuffix.declaration (encodeString "e"), Definition.baseSuffix.declaration (encodeString suffix),
    Definition.namespaceKind.declaration (encodeKind .flat)]

theorem proper_plain {suffix : String} (h : suffix ≠ "" ∧ suffix.toList.head? ≠ some '.') : (plain suffix).Proper where
  extensionSuffix := by
    rintro s ⟨⟩
    decide
  baseSuffix := by
    rintro s ⟨⟩
    exact h
  namespaceDecl := by simp [plain, empty]
  imports := by simp [plain, empty, Table.empty]
  namespaceSuffixes := by simp [plain, empty, Table.empty]

theorem encodes_plain (suffix : String) : (plain suffix).Encodes (plainDecls suffix) where
  spelled := by
    simp only [plainDecls, List.forall_mem_cons]
    exact ⟨.inr ⟨_, _, .extensionSuffix rfl, rfl⟩, .inr ⟨_, _, .baseSuffix rfl, rfl⟩,
      .inr ⟨_, _, .namespaceKind rfl, rfl⟩, by simp⟩
  covered := by
    intro x hx
    cases x with
    | toplevel | body | namespaceDecl | imports | namespaceSuffixes => exact absurd rfl hx
    | extensionSuffix => exact ⟨_, .extensionSuffix rfl, by simp [plainDecls]⟩
    | baseSuffix => exact ⟨_, .baseSuffix rfl, by simp [plainDecls]⟩
    | namespaceKind => exact ⟨_, .namespaceKind rfl, by simp [plainDecls]⟩

end Declarations

/-- A module that declares a suffix of base-language files. -/
def plainModule (suffix : String) : Term := .appl "Module" [.str "x", .list (Declarations.plainDecls suffix)]

def plainProfile (language : String) (artifacts : Artifacts) (suffix : String) : Profile where
  language := language
  extensionSuffix := "e"
  baseSuffix := suffix
  toplevel := none
  namespaceDecl := none
  namespaceKind := .flat
  namespaceSuffixes := .empty
  imports := .empty
  body := .empty
  artifacts := artifacts

theorem read_plainModule {suffix : String} (h : suffix ≠ "" ∧ suffix.toList.head? ≠ some '.') (language : String)
    (artifacts : Artifacts) : Profile.read (plainModule suffix) language artifacts
        = .ok (plainProfile language artifacts suffix)
      ∧ ∃ text module, Term.read text = .ok module
        ∧ Profile.read module language artifacts = .ok (plainProfile language artifacts suffix) := by
  obtain ⟨hread, hback⟩ := @Declarations.read_encoded _ _ (.str "x") (Declarations.proper_plain h)
    (Declarations.encodes_plain suffix)
  have hprofile {module : Term} (hm : Declarations.read module = .ok (.plain suffix)) :
      Profile.read module language artifacts = .ok (plainProfile language artifacts suffix) := by
    rw [Profile.read, hm]
    rfl
  have hnone : ∀ t ∈ Declarations.plainDecls suffix, t.Unrecognized → t.WellNamed := by
    intro t ht hu
    simp only [Declarations.plainDecls, List.mem_cons, List.not_mem_nil, or_false] at ht
    rcases ht with rfl | rfl | rfl <;> exact absurd rfl (hu _ _)
  obtain ⟨module, hmodule, hread'⟩ := hback (Term.wellNamed_str "x") hnone 80
  exact ⟨hprofile hread, _, module, hmodule, hprofile hread'⟩

/-- Every suffix that is not empty and has no dot in front can be declared by the text of a module, and no other one. -/
theorem Profile.exists_read_iff (language : String) (artifacts : Artifacts) (suffix : String) :
    (∃ text module profile, Term.read text = .ok module ∧ Profile.read module language artifacts = .ok profile
        ∧ profile.baseSuffix = suffix)
      ↔ suffix ≠ "" ∧ suffix.toList.head? ≠ some '.' := by
  constructor
  · rintro ⟨_, _, profile, _, hp, rfl⟩
    exact Profile.baseSuffix_proper hp
  · intro h
    obtain ⟨_, text, module, htext, hread⟩ := read_plainModule h language artifacts
    exact ⟨text, module, _, htext, hread, rfl⟩

/-! ## Steps that abort -/

namespace SourceError

variable {α : Type} {P : Prop} {outcome : Except SourceError α} {suffix : String}

/-- A step has aborted on a suffix with a slash. -/
def Aborts (outcome : Except SourceError α) : Prop := ∃ suffix, outcome = .error (.suffixWithSlash suffix)

/-- A step has given a result, or a file operation has been refused. -/
def Settles (outcome : Except SourceError α) : Prop := (∃ v, outcome = .ok v) ∨ ∃ e, outcome = .error e ∧ e.IsRefusal

theorem Settles.not_aborts (h : Settles outcome) : ¬ Aborts outcome := by
  rintro ⟨suffix, rfl⟩
  rcases h with ⟨v, ⟨⟩⟩ | ⟨e, he, hrefusal⟩
  cases he
  exact hrefusal

/-- A step aborts on a condition. Otherwise it gives a result, or is refused a file operation. -/
structure AbortsIf (P : Prop) (outcome : Except SourceError α) : Prop where
  aborts_iff : Aborts outcome ↔ P
  settles : ¬ P → Settles outcome

theorem abortsIf (haborts : P → Aborts outcome) (hsettles : ¬ P → Settles outcome) : AbortsIf P outcome where
  aborts_iff := ⟨fun h => by_contra fun hP => (hsettles hP).not_aborts h, haborts⟩
  settles := hsettles

end SourceError

namespace SourceUnit

open SourceError

variable {u : SourceUnit} {out bin o : Path} {outputs : List Path} {fs : FileSystem} {suffix : String}

theorem withSuffix_of_slash (h : '/' ∈ suffix.toList) (p : Path) : withSuffix p suffix = .error (.suffixWithSlash suffix) := by
  rw [withSuffix, Path.withExtension?, if_pos h]

theorem exists_withSuffix (h : '/' ∉ suffix.toList) (p : Path) : ∃ q, withSuffix p suffix = .ok q := by
  rw [withSuffix, Path.withExtension?, if_neg h]
  exact ⟨_, rfl⟩

theorem slash_mem_marked : '/' ∈ (suffix ++ "-src").toList ↔ '/' ∈ suffix.toList := by simp

theorem outFile_abortsIf (u : SourceUnit) : AbortsIf ('/' ∈ u.profile.baseSuffix.toList) u.outFile := by
  refine abortsIf (fun h => ⟨_, withSuffix_of_slash (slash_mem_marked.2 h) u.source⟩) fun h => .inl ?_
  exact exists_withSuffix (mt slash_mem_marked.1 h) u.source

/-- An action that starts with a path aborts if there is none. -/
theorem aborts_bind {α : Type} {x : Except SourceError Path} (h : Aborts x) (f : Path → Disk SourceError α)
    (fs : FileSystem) : Aborts (((Action.ofExcept x : Disk SourceError Path) >>= f).run fs).1 := by
  obtain ⟨suffix, rfl⟩ := h
  exact ⟨suffix, rfl⟩

theorem writeGenerated_abortsIf (u : SourceUnit) (out : Path) (fs : FileSystem) :
    AbortsIf ('/' ∈ u.profile.baseSuffix.toList) ((u.writeGenerated out).run fs).1 := by
  refine abortsIf (fun h => aborts_bind (u.outFile_abortsIf.aborts_iff.2 h) _ fs) fun h => ?_
  obtain ⟨q, hq⟩ : ∃ q, u.outFile = .ok q := exists_withSuffix (mt slash_mem_marked.1 h) u.source
  rcases writeGenerated_run hq out fs with ⟨e, fs', hrun, he⟩ | ⟨fs', hrun, _⟩
  · rw [hrun]
    exact .inr ⟨e, rfl, he⟩
  · rw [hrun]
    exact .inl ⟨_, rfl⟩

/-- Without a slash in the suffix, outputs are compiled one after another until an operation is refused. -/
theorem compile_settles (h : '/' ∉ u.profile.baseSuffix.toList) (out bin : Path) (outputs : List Path) (fs : FileSystem) :
    Settles ((u.compile out bin outputs).run fs).1 := by
  induction outputs generalizing fs with
  | nil => exact .inl ⟨[], rfl⟩
  | cons o outputs ih =>
    obtain ⟨q, hq⟩ := exists_withSuffix h o
    rw [compile]
    rcases compileOutput_run hq out bin fs with ⟨e, fs', hrun, he⟩ | ⟨_, fs', _, _, hrun⟩
    · rw [Action.bind_of_error hrun]
      exact .inr ⟨e, rfl, he⟩
    · rw [Action.bind_of_ok hrun]
      have hrest := ih fs'
      cases hall : (u.compile out bin outputs).run fs' with
      | mk outcome fs'' =>
        rw [hall] at hrest
        rcases hrest with ⟨ws, rfl⟩ | ⟨e, rfl, he⟩
        · rw [Action.bind_of_ok hall]
          exact .inl ⟨_, rfl⟩
        · rw [Action.bind_of_error hall]
          exact .inr ⟨e, rfl, he⟩

theorem compile_abortsIf (u : SourceUnit) (out bin : Path) (outputs : List Path) (fs : FileSystem) :
    AbortsIf ('/' ∈ u.profile.baseSuffix.toList ∧ outputs ≠ []) ((u.compile out bin outputs).run fs).1 := by
  refine abortsIf (fun ⟨h, hne⟩ => ?_) fun h => ?_
  · obtain ⟨o, outputs, rfl⟩ := List.exists_cons_of_ne_nil hne
    have hfirst := withSuffix_of_slash h o
    have hone : (u.compileOutput out bin o).run fs = (.error (.suffixWithSlash u.profile.baseSuffix), fs) := by
      have hsuffix : (Action.ofExcept (withSuffix o u.profile.baseSuffix) : Disk SourceError Path).run fs
          = (.error (.suffixWithSlash u.profile.baseSuffix), fs) := by
        rw [hfirst]
        rfl
      rw [compileOutput]
      exact Action.bind_of_error hsuffix _
    rw [compile, Action.bind_of_error hone]
    exact ⟨_, rfl⟩
  · cases outputs with
    | nil => exact .inl ⟨[], rfl⟩
    | cons o outputs => exact compile_settles (fun hs => h ⟨hs, by simp⟩) out bin _ fs

/-- **The steps that abort.** The suffixes that can be declared are those that are not empty and have no dot in front. For
each of them, the name of the generated file, writing it, and compiling any outputs (if there are any) abort if there is
a slash in the suffix. If there is none, each of them gives a path, or is refused a file operation. -/
theorem aborts_iff_slash (language : String) (artifacts : Artifacts) (suffix : String) :
    ((∃ text module profile, Term.read text = .ok module ∧ Profile.read module language artifacts = .ok profile
        ∧ profile.baseSuffix = suffix)
      ↔ suffix ≠ "" ∧ suffix.toList.head? ≠ some '.')
    ∧ ∀ u : SourceUnit, u.profile.baseSuffix = suffix → AbortsIf ('/' ∈ suffix.toList) u.outFile
      ∧ (∀ out fs, AbortsIf ('/' ∈ suffix.toList) ((u.writeGenerated out).run fs).1)
      ∧ ∀ out bin outputs fs,
        AbortsIf ('/' ∈ suffix.toList ∧ outputs ≠ []) ((u.compile out bin outputs).run fs).1 := by
  refine ⟨Profile.exists_read_iff language artifacts suffix, ?_⟩
  rintro u rfl
  exact ⟨u.outFile_abortsIf, u.writeGenerated_abortsIf, u.compile_abortsIf⟩

/-- A suffix with a slash is declared, and a source file of the language has no generated file. -/
theorem aborts_iff_slash_nested : ∃ module profile u, Profile.read module "x" ⟨⟨"bin"⟩, "x"⟩ = .ok profile
    ∧ profile.baseSuffix = "a/b" ∧ ofPath profile ⟨"m.e"⟩ = .ok u ∧ Aborts u.outFile := by
  obtain ⟨hdeclared, hsteps⟩ := aborts_iff_slash "x" ⟨⟨"bin"⟩, "x"⟩ "a/b"
  obtain ⟨_, module, profile, _, hp, hs⟩ := hdeclared.2 (by decide)
  obtain ⟨m, hm⟩ : ∃ m, (⟨"m.e"⟩ : Path).stem? = some m := ⟨"m", by decide +kernel⟩
  obtain ⟨u, hu⟩ : ∃ u, ofPath profile ⟨"m.e"⟩ = .ok u := ⟨_, by rw [ofPath, hm]⟩
  have hprofile : u.profile.baseSuffix = "a/b" := by rw [(ofPath_eq_ok hu).1, hs]
  exact ⟨module, profile, u, hp, hs, hu, (hsteps u hprofile).1.aborts_iff.2 (by decide)⟩

/-- Not every language that can be declared is free of aborts. -/
theorem not_always_settled : ¬ ∀ (module : Term) (language : String) (artifacts : Artifacts) (profile : Profile)
    (source out bin : Path) (u : SourceUnit) (outputs : List Path) (fs : FileSystem),
    Profile.read module language artifacts = .ok profile → ofPath profile source = .ok u →
    ¬ Aborts u.outFile ∧ ¬ Aborts ((u.writeGenerated out).run fs).1
      ∧ ¬ Aborts ((u.compile out bin outputs).run fs).1 := by
  intro h
  have hsuffix : "a/b" ≠ "" ∧ "a/b".toList.head? ≠ some '.' := by decide
  have hread := (read_plainModule hsuffix "x" ⟨⟨"bin"⟩, "x"⟩).1
  obtain ⟨m, hm⟩ : ∃ m, (⟨"m.e"⟩ : Path).stem? = some m := ⟨"m", by decide +kernel⟩
  obtain ⟨u, hu⟩ : ∃ u, ofPath (plainProfile "x" ⟨⟨"bin"⟩, "x"⟩ "a/b") ⟨"m.e"⟩ = .ok u := ⟨_, by rw [ofPath, hm]⟩
  obtain ⟨hnot, _⟩ := h (plainModule "a/b") "x" ⟨⟨"bin"⟩, "x"⟩ _ ⟨"m.e"⟩ ⟨"out"⟩ ⟨"bin"⟩ u [] (.empty 0) hread hu
  refine hnot (u.outFile_abortsIf.aborts_iff.2 ?_)
  rw [(ofPath_eq_ok hu).1]
  decide

end SourceUnit

end BaseLang
