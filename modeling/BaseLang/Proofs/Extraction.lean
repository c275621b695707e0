import BaseLang.Profile.Extraction
import BaseLang.Proofs.Except
import BaseLang.Proofs.Printing
import BaseLang.Toolchain

/-!
# The profile in a rewritten module

* `Declarations.foldlM_kept` : import declarations say nothing about a language;
* `Profile.read_rewritten` : a transformation module declares the same profile once its imports are
  rewritten;
* `wellNamed_rewritten` : its constructors are still identifiers, so that it can be read back;
* `Toolchain.parseText_printed` : a printed module is parsed as what it was, at every width;
* `Toolchain.textual_eq_remembering` : services for texts may know the term of a text by heart.
-/

namespace BaseLang

open Term

variable {module module' : Term} {target : String}

/-! ## Declarations -/

theorem Term.eq_appl_of_isAppl {t : Term} {cons : String} (h : t.isAppl cons = true) :
    ∃ args, t = .appl cons args := by
  cases t with
  | appl c args =>
    obtain rfl : c = cons := by simpa [isAppl, cons?] using h
    exact ⟨args, rfl⟩
  | list => simp [isAppl, cons?] at h
  | str => simp [isAppl, cons?] at h
  | int => simp [isAppl, cons?] at h

theorem singleDefinition?_imports (args : List Term) : singleDefinition? (.appl "Imports" args) = none := by
  rw [singleDefinition?.eq_def]
  split
  · rename_i e
    cases e
    rfl
  · rfl

theorem Declarations.add_imports (args : List Term) (decls : Declarations) :
    decls.add (.appl "Imports" args) = .ok decls := by
  rw [Declarations.add, singleDefinition?_imports]

/-- What a module declares is declared without its import declarations. -/
theorem Declarations.foldlM_kept (ts : List Term) (decls : Declarations) :
    (ts.filter fun t => !t.isAppl "Imports").foldlM add decls = ts.foldlM add decls := by
  induction ts generalizing decls with
  | nil => rfl
  | cons t ts ih =>
    by_cases h : t.isAppl "Imports" = true
    · obtain ⟨args, rfl⟩ := eq_appl_of_isAppl h
      rw [List.filter_cons_of_neg (by simp [h]), ih, List.foldlM_cons, add_imports]
      rfl
    · rw [List.filter_cons_of_pos (by simpa using h), List.foldlM_cons, List.foldlM_cons]
      exact bind_congr fun decls => ih decls

/-! ## Rewritten modules -/

/-- The imports of a transformation module stand among its declarations. -/
theorem rewriteTransformationImports_eq_ok (h : rewriteTransformationImports module target = .ok module') :
    ∃ cons header ts, module = .appl cons [header, .list ts] ∧ module' = .appl cons
      [header, .list (transformationImport target :: ts.filter fun t => !t.isAppl "Imports")] := by
  rw [rewriteTransformationImports.eq_def] at h
  split at h
  · rename_i cons header decls
    cases decls with
    | list ts =>
      cases h
      exact ⟨cons, header, ts, rfl, rfl⟩
    | appl => cases h
    | str => cases h
    | int => cases h
  · cases h

/-- The imports of a grammar module are a clause of their own. -/
theorem rewriteGrammarImports_eq_ok (h : rewriteGrammarImports module target = .ok module') :
    ∃ cons header imports body, module = .appl cons [header, .list imports, body]
      ∧ module' = .appl cons [header, .list [grammarImport target], body] := by
  rw [rewriteGrammarImports.eq_def] at h
  split at h
  · rename_i cons header imports body
    cases imports with
    | list ts =>
      cases h
      exact ⟨cons, header, ts, body, rfl, rfl⟩
    | appl => cases h
    | str => cases h
    | int => cases h
  · cases h

theorem Declarations.read_module (header : Term) (ts : List Term) :
    Declarations.read (.appl "Module" [header, .list ts]) = ts.foldlM add empty := rfl

theorem Declarations.read_of_ne {cons : String} (h : cons ≠ "Module") (args : List Term) :
    Declarations.read (.appl cons args) = .error (.module ⟨.applicationOf "Module", .appl cons args⟩) := by
  have hd : (Term.appl cons args).destruct₂ "Module" = .error ⟨.applicationOf "Module", .appl cons args⟩ := by
    rw [destruct₂, destruct, argsOf, if_neg h]
  rw [Declarations.read, hd]
  rfl

/-- Only an application of `Module` declares anything. -/
theorem Declarations.cons_of_read {cons : String} {args : List Term} {decls : Declarations}
    (h : Declarations.read (.appl cons args) = .ok decls) : cons = "Module" := by
  by_cases hc : cons = "Module"
  · exact hc
  · rw [read_of_ne hc] at h
    cases h

/-- What is read off a module, be it declarations or an error, is read off it with other imports. -/
theorem Declarations.read_kept (header : Term) (ts : List Term) (target : String) :
    Declarations.read (.appl "Module"
        [header, .list (transformationImport target :: ts.filter fun t => !t.isAppl "Imports")])
      = Declarations.read (.appl "Module" [header, .list ts]) := by
  rw [read_module, read_module, List.foldlM_cons, transformationImport, add_imports]
  exact foldlM_kept ts empty

theorem Declarations.read_rewritten {decls : Declarations}
    (h : rewriteTransformationImports module target = .ok module') (hr : Declarations.read module = .ok decls) :
    Declarations.read module' = .ok decls := by
  obtain ⟨cons, header, ts, rfl, rfl⟩ := rewriteTransformationImports_eq_ok h
  obtain rfl := cons_of_read hr
  rw [read_kept, hr]

/-- Rewriting the imports of a module changes nothing about the profile in it. -/
theorem Profile.read_rewritten {language : String} {artifacts : Artifacts} {profile : Profile}
    (h : rewriteTransformationImports module target = .ok module')
    (hr : Profile.read module language artifacts = .ok profile) :
    Profile.read module' language artifacts = .ok profile := by
  obtain ⟨decls, hd, hc⟩ := exists_of_bind hr
  rw [Profile.read, Declarations.read_rewritten h hd]
  exact hc

/-- A profile is the one of the language that it is read for, with the toplevel nonterminal that is declared. -/
theorem Profile.declared_of_read {language : String} {artifacts : Artifacts} {profile : Profile}
    (h : Profile.read module language artifacts = .ok profile) : ∃ decls, Declarations.read module = .ok decls
      ∧ profile.language = language ∧ profile.toplevel = decls.toplevel := by
  obtain ⟨decls, hd, hc⟩ := exists_of_bind h
  refine ⟨decls, hd, ?_⟩
  rw [Declarations.complete] at hc
  split at hc
  · cases hc
  · cases hc
  · cases hc
  · cases hc
    exact ⟨rfl, rfl⟩

theorem wellNamed_transformationImport (target : String) : (transformationImport target).WellNamed := by
  rw [transformationImport, wellNamed_appl]
  refine ⟨by decide, ?_⟩
  rw [List.forall_mem_singleton, wellNamed_list, List.forall_mem_singleton, wellNamed_appl]
  exact ⟨by decide, List.forall_mem_singleton.2 (wellNamed_str target)⟩

theorem wellNamed_rewritten (h : rewriteTransformationImports module target = .ok module')
    (hn : module.WellNamed) : module'.WellNamed := by
  obtain ⟨cons, header, ts, rfl, rfl⟩ := rewriteTransformationImports_eq_ok h
  obtain ⟨hc, hargs⟩ := wellNamed_appl.1 hn
  have hheader : header.WellNamed := hargs header (by simp)
  have hts := wellNamed_list.1 (hargs (.list ts) (by simp))
  have hkept : (Term.list (transformationImport target :: ts.filter fun t => !t.isAppl "Imports")).WellNamed := by
    rw [wellNamed_list, List.forall_mem_cons]
    exact ⟨wellNamed_transformationImport target, fun t ht => hts t (List.mem_filter.1 ht).1⟩
  exact wellNamed_appl.2 ⟨hc, List.forall_mem_cons.2 ⟨hheader, List.forall_mem_singleton.2 hkept⟩⟩

/-! ## Stored modules -/

namespace Toolchain

theorem read_printText {t : Term} (h : t.WellNamed) (width : Nat) : Term.read (printText width t) = .ok t :=
  read_pretty_append h width (isSpace_newline 0)

theorem fromUTF8?_toUTF8 (text : String) : String.fromUTF8? text.toUTF8 = some text :=
  dif_pos text.isValidUTF8

theorem readText_of_read {file : Path} {fs : FileSystem} {text : String} (h : fs.read file = .ok text.toUTF8) :
    fs.readText file = .ok text := by
  rw [FileSystem.readText, h]
  simp only [fromUTF8?_toUTF8]

theorem parseText_eq_ok {file : Path} {startSymbol : String} {fs : FileSystem} {t : Term}
    (h : parseText file startSymbol fs = .ok t) : ∃ text, fs.readText file = .ok text ∧ Term.read text = .ok t := by
  rw [parseText] at h
  split at h
  · cases h
  · rename_i text htext
    split at h
    · cases h
      exact ⟨text, htext, ‹_›⟩
    · cases h

theorem parseText_of_read {file : Path} {fs : FileSystem} {text : String} {t : Term} (startSymbol : String)
    (hf : fs.read file = .ok text.toUTF8) (h : Term.read text = .ok t) :
    parseText file startSymbol fs = .ok t := by
  rw [parseText, readText_of_read hf]
  simp only [h]

/-- A printed module is parsed as what it was. -/
theorem parseText_printed {file : Path} {fs : FileSystem} {t : Term} {width : Nat} {time : Time}
    {executable : Bool} (startSymbol : String) (h : t.WellNamed)
    (hf : fs.stat file = .ok (.file (printText width t).toUTF8 time executable)) :
    parseText file startSymbol fs = .ok t := by
  refine parseText_of_read startSymbol ?_ (read_printText h width)
  rw [FileSystem.read, hf]

/-! ## Known modules -/

/-- The same services with a parser that knows the term of one text by heart. -/
def remembering (toolchain : Toolchain) (text : String) (t : Term) : Toolchain :=
  { toolchain with
    parse := fun table file startSymbol fs =>
      if (fs.read file).toOption.map (·.data.toList) = some text.toUTF8.data.toList then .ok t
      else toolchain.parse table file startSymbol fs }

/-- Services for texts may know the text of a module: reading it would give the same. -/
theorem textual_eq_remembering {t : Term} (h : t.WellNamed) (width : Nat) (generate : Generator) :
    textual width generate = (textual width generate).remembering t.text t := by
  have hread := read_text h
  rw [remembering, textual]
  congr
  funext table file startSymbol fs
  split
  · rename_i hf
    cases hr : fs.read file with
    | error e => simp [hr, Except.toOption] at hf
    | ok contents =>
      have hdata : contents.data = t.text.toUTF8.data := by
        rw [hr] at hf
        exact Array.toList_inj.1 (Option.some.inj hf)
      obtain rfl : contents = t.text.toUTF8 := ByteArray.ext hdata
      exact parseText_of_read startSymbol hr hread
  · rfl

end Toolchain

end BaseLang
