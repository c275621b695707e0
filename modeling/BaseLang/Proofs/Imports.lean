import BaseLang.Proofs.Definitions
import Mathlib.Data.List.Count

/-!
# Replaced imports

What it means that the import of one module takes the place of all imports, and what it does not touch.

* `WithoutImports` : the declarations of a list that are no imports, each as often as before and in the same order;
* `ModuleKind.Replaced` : a module of either kind, before and after. `rewriteImports_eq_ok_iff` : this is all that
  rewriting imports does;
* `rewriteImports_last` : the imports that are put in later take the place of the ones before;
* `Declarations.read_of_replaced` : a module declares the same before and after, or is malformed in the same way.
-/

namespace BaseLang

open Term

/-- The declarations that are left of a list when all imports are taken out, whatever they are applied to. -/
structure WithoutImports (ts kept : List Term) : Prop where
  sublist : kept.Sublist ts
  notMem : ∀ args, .appl "Imports" args ∉ kept
  count_eq : ∀ t, (∀ args, t ≠ .appl "Imports" args) → kept.count t = ts.count t

namespace WithoutImports

variable {ts kept : List Term}

theorem not_isAppl_iff {t : Term} : (!t.isAppl "Imports") = true ↔ ∀ args, t ≠ .appl "Imports" args := by
  rw [Bool.not_eq_true']
  constructor
  · rintro h args rfl
    cases h
  · intro h
    rw [Bool.eq_false_iff]
    intro happl
    obtain ⟨args, rfl⟩ := eq_appl_of_isAppl happl
    exact h args rfl

theorem filter (ts : List Term) : WithoutImports ts (ts.filter fun t => !t.isAppl "Imports") where
  sublist := List.filter_sublist
  notMem args h := not_isAppl_iff.1 (List.mem_filter.1 h).2 args rfl
  count_eq _ h := List.count_filter (not_isAppl_iff.2 h)

/-- Order and multiplicity leave no choice. -/
theorem eq_filter (h : WithoutImports ts kept) : kept = ts.filter fun t => !t.isAppl "Imports" := by
  have hkept : kept.filter (fun t => !t.isAppl "Imports") = kept := by
    refine List.filter_eq_self.2 fun t ht => not_isAppl_iff.2 ?_
    rintro args rfl
    exact h.notMem args ht
  have hsublist : kept.Sublist (ts.filter fun t => !t.isAppl "Imports") := hkept ▸ h.sublist.filter _
  have hperm : kept.Perm (ts.filter fun t => !t.isAppl "Imports") := by
    refine List.perm_iff_count.2 fun t => ?_
    by_cases ht : ∃ args, t = .appl "Imports" args
    · obtain ⟨args, rfl⟩ := ht
      rw [List.count_eq_zero.2 (h.notMem args), List.count_eq_zero.2 ((filter ts).notMem args)]
    · have hother : ∀ args, t ≠ .appl "Imports" args := fun args heq => ht ⟨args, heq⟩
      rw [h.count_eq t hother, (filter ts).count_eq t hother]
  exact hsublist.eq_of_length hperm.length_eq

theorem cons_imports (h : WithoutImports ts kept) (args : List Term) :
    WithoutImports (.appl "Imports" args :: kept) kept where
  sublist := List.sublist_cons_self _ _
  notMem := h.notMem
  count_eq _ ht := (List.count_cons_of_ne (ht args).symm).symm

end WithoutImports

/-- The import of `target` stands in a module for all imports that were there before: in the import clause of a grammar,
and in front of the declarations of a transformation module. -/
inductive ModuleKind.Replaced (target : String) : ModuleKind → Term → Term → Prop where
  | grammar (cons : String) (header : Term) (imports : List Term) (body : Term) :
      Replaced target .grammar (.appl cons [header, .list imports, body])
        (.appl cons [header,
          .list [.appl "imports" [.appl "module" [.appl "unparameterized" [.str target]]]], body])
  | transformation (cons : String) (header : Term) {ts kept : List Term} (h : WithoutImports ts kept) :
      Replaced target .transformation (.appl cons [header, .list ts])
        (.appl cons [header, .list (.appl "Imports" [.list [.appl "Import" [.str target]]] :: kept)])

namespace ModuleKind

variable {kind : ModuleKind} {module module' : Term} {source target : String}

theorem rewriteImports_eq_ok_iff :
    kind.rewriteImports module target = .ok module' ↔ kind.Replaced target module module' := by
  constructor
  · intro h
    cases kind with
    | grammar =>
      obtain ⟨cons, header, imports, body, rfl, rfl⟩ := rewriteGrammarImports_eq_ok h
      exact .grammar cons header imports body
    | transformation =>
      obtain ⟨cons, header, ts, rfl, rfl⟩ := rewriteTransformationImports_eq_ok h
      exact .transformation cons header (.filter ts)
  · rintro (⟨cons, header, imports, body⟩ | ⟨cons, header, hkept⟩)
    · rfl
    · rw [hkept.eq_filter]
      rfl

/-- Other imports could have been put in. They replace those of the module, and those that have replaced them. -/
theorem Replaced.again (h : kind.Replaced source module module') (target : String) :
    ∃ module'', kind.Replaced target module' module'' ∧ kind.Replaced target module module'' := by
  cases h with
  | grammar cons header imports body => exact ⟨_, .grammar cons header _ body, .grammar cons header imports body⟩
  | transformation cons header hkept =>
    exact ⟨_, .transformation cons header (hkept.cons_imports _), .transformation cons header hkept⟩

/-- **The last imports win.** A module whose imports are rewritten keeps its constructor and its header, and the one
new import takes the place of all others; of a transformation module all other declarations stay as they are and in
their order, of a grammar the body. Rewriting the imports of the outcome gives what rewriting those of the module gives,
and does not fail. -/
theorem rewriteImports_last (h : kind.rewriteImports module source = .ok module') (target : String) :
    kind.Replaced source module module' ∧ ∃ module'', kind.rewriteImports module' target = .ok module''
      ∧ kind.rewriteImports module target = .ok module'' := by
  have hreplaced := rewriteImports_eq_ok_iff.1 h
  obtain ⟨module'', h₁, h₂⟩ := hreplaced.again target
  exact ⟨hreplaced, module'', rewriteImports_eq_ok_iff.2 h₁, rewriteImports_eq_ok_iff.2 h₂⟩

/-- Imports in three places, two of them without the usual argument, between helpers that occur twice. -/
theorem rewriteImports_last_scattered :
    let module : Term := .appl "Module" [.str "x", .list [.str "helper", .appl "Imports" [], .int 1,
      .appl "Imports" [.list [.appl "Import" [.str "lib"]]], .appl "Imports" [.int 1, .int 2], .str "helper"]]
    let importing (target : String) : Term := .appl "Module" [.str "x",
      .list [.appl "Imports" [.list [.appl "Import" [.str target]]], .str "helper", .int 1, .str "helper"]]
    ModuleKind.transformation.rewriteImports module "a" = .ok (importing "a")
    ∧ ModuleKind.transformation.Replaced "a" module (importing "a")
    ∧ ModuleKind.transformation.rewriteImports (importing "a") "b" = .ok (importing "b")
    ∧ ModuleKind.transformation.rewriteImports module "b" = .ok (importing "b") := by
  intro module importing
  have h : ModuleKind.transformation.rewriteImports module "a" = .ok (importing "a") := rfl
  have hb : ModuleKind.transformation.rewriteImports module "b" = .ok (importing "b") := rfl
  obtain ⟨hreplaced, module'', hagain, hlast⟩ := rewriteImports_last h "b"
  obtain rfl : importing "b" = module'' := Except.ok.inj (hb.symm.trans hlast)
  exact ⟨h, hreplaced, hagain, hlast⟩

/-- The clause of a grammar has one import afterwards, of whatever there was in it. -/
example : ModuleKind.grammar.rewriteImports (.appl "module" [.str "x", .list [.int 1, .int 2], .list []]) "a"
    = .ok (.appl "module" [.str "x",
        .list [.appl "imports" [.appl "module" [.appl "unparameterized" [.str "a"]]]], .list []]) := rfl

end ModuleKind

namespace Declarations

/-- A module fails with the first malformed definition, and not for its shape. -/
theorem malformed_of_read {header : Term} {ts : List Term} {err : ExtractError}
    (h : read (.appl "Module" [header, .list ts]) = .error err) : ∃ x shape, err = .malformed x shape := by
  rw [read_eq] at h
  obtain ⟨-, x, -, -, shape, -, -, -, rfl⟩ := foldlM_define_eq_error_iff.1 h
  exact ⟨x, shape, rfl⟩

/-- **Imports declare nothing.** When the imports of a transformation module are rewritten, the same declarations are
read off it, or the same definition is malformed in the same way. What is no application of `Module` cannot be read
before and after. -/
theorem read_of_replaced {module module' : Term} {target : String}
    (h : rewriteTransformationImports module target = .ok module') :
    (∃ decls, read module' = .ok decls ∧ read module = .ok decls)
    ∨ (∃ x shape, read module' = .error (.malformed x shape) ∧ read module = .error (.malformed x shape))
    ∨ ((∀ args, module ≠ .appl "Module" args)
      ∧ read module' = .error (.module ⟨.applicationOf "Module", module'⟩)
      ∧ read module = .error (.module ⟨.applicationOf "Module", module⟩)) := by
  obtain ⟨cons, header, ts, rfl, rfl⟩ := rewriteTransformationImports_eq_ok h
  by_cases hc : cons = "Module"
  · subst hc
    rw [read_kept]
    cases hread : read (.appl "Module" [header, .list ts]) with
    | ok decls => exact .inl ⟨decls, rfl, rfl⟩
    | error err =>
      obtain ⟨x, shape, rfl⟩ := malformed_of_read hread
      exact .inr (.inl ⟨x, shape, rfl, rfl⟩)
  · exact .inr (.inr ⟨fun args heq => hc (Term.appl.inj heq).1, read_of_ne hc _, read_of_ne hc _⟩)

/-- Imports around two malformed definitions: the first one is reported, with or without the imports. -/
theorem read_of_replaced_malformed :
    let suffix : Term := Definition.baseSuffix.declaration (.str "b")
    let module : Term := .appl "Module" [.str "x", .list [.appl "Imports" [], suffix, .appl "Imports" [.int 1, .int 2],
      .appl "Strategies" [], Definition.imports.declaration (.int 0)]]
    let module' : Term := .appl "Module" [.str "x", .list [transformationImport "a", suffix, .appl "Strategies" [],
      Definition.imports.declaration (.int 0)]]
    rewriteTransformationImports module "a" = .ok module'
    ∧ ∃ x shape, read module' = .error (.malformed x shape) ∧ read module = .error (.malformed x shape) := by
  intro suffix module module'
  have h : rewriteTransformationImports module "a" = .ok module' := rfl
  refine ⟨h, ?_⟩
  rcases read_of_replaced h with ⟨decls, -, hok⟩ | hmalformed | ⟨hne, -⟩
  · cases hok
  · exact hmalformed
  · exact absurd rfl (hne _)

end Declarations

end BaseLang
