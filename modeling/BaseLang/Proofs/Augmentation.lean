import BaseLang.Grammar.PrettyTable
import BaseLang.Module.Augmentation
import BaseLang.Proofs.Extraction

/-!
# The production for a toplevel nonterminal

Connecting a grammar to the common toplevel nonterminal adds one production to it and changes nothing else.

* `Term.constructorFrom?_append`, `Term.productionsFrom_append` : what is found when terms are put on a stack of others;
* `Term.Silent` : a section that says nothing about how terms are printed. `productions_snoc` : a grammar has the same
  productions with such a section at its end;
* `Augmentation.append_eq_ok` : what a grammar is made of before and after;
* `append_rewriteGrammarImports` : the imports can be rewritten before or after;
* `append_only_adds` : the three together.
-/

namespace BaseLang

namespace Term

theorem constructorFrom?_append (ts us : List Term) :
    constructorFrom? (ts ++ us) = (constructorFrom? ts).or (constructorFrom? us) := by
  fun_induction constructorFrom? ts with
  | case1 => rfl
  | case2 t ts hnaming name hname =>
    rw [List.cons_append, constructorFrom?, if_pos hnaming, hname]
    rfl
  | case3 t ts hnaming hname ih =>
    rw [List.cons_append, constructorFrom?, if_pos hnaming, hname]
    exact ih
  | case4 t ts hnaming ih => rw [List.cons_append, constructorFrom?, if_neg hnaming, ← ih, List.append_assoc]

theorem productionsFrom_append (ts us : List Term) :
    productionsFrom (ts ++ us) = productionsFrom ts ++ productionsFrom us := by
  fun_induction productionsFrom ts with
  | case1 => rfl
  | case2 t ts ih => rw [List.cons_append, productionsFrom, ← List.append_assoc t.children, ih, List.append_assoc]

theorem productionsFrom_cons (t : Term) (stack : List Term) :
    productionsFrom (t :: stack) = t.productions ++ productionsFrom stack :=
  productionsFrom_append [t] stack

theorem productions_eq_append (t : Term) : t.productions = (production? t).toList ++ productionsFrom t.children := by
  rw [productions, productionsFrom, List.append_nil]

theorem productions_list (elems : List Term) : (list elems).productions = productionsFrom elems :=
  productions_eq_append _

theorem constructor?_list (elems : List Term) : (list elems).constructor? = constructorFrom? elems := by
  have hopen : (list elems).isNaming = false := rfl
  rw [constructor?, constructorFrom?, hopen, if_neg Bool.false_ne_true, children, List.append_nil]

/-- No production of a term has a constructor, and as an attribute it names none. -/
structure Silent (t : Term) : Prop where
  constructor?_eq : t.constructor? = none
  productions_eq : t.productions = []

section snoc

variable {added : Term}

theorem Silent.constructor?_snoc (h : added.Silent) (sections : List Term) :
    (list (sections ++ [added])).constructor? = (list sections).constructor? := by
  have hadded : constructorFrom? [added] = none := h.constructor?_eq
  rw [constructor?_list, constructor?_list, constructorFrom?_append, hadded, Option.or_none]

theorem Silent.productionsFrom_snoc (h : added.Silent) (sections : List Term) :
    productionsFrom (sections ++ [added]) = productionsFrom sections := by
  have hadded : productionsFrom [added] = [] := h.productions_eq
  rw [productionsFrom_append, hadded, List.append_nil]

/-- A node with three arguments is a production before and after, or neither, even if its last argument, which stands
for the attributes then, is the list of sections. -/
theorem Silent.production?_snoc (h : added.Silent) (cons : String) (header imports : Term) (sections : List Term) :
    production? (.appl cons [header, imports, .list (sections ++ [added])])
      = production? (.appl cons [header, imports, .list sections]) := by
  cases header with
  | list symbols => rw [production?, production?, h.constructor?_snoc]
  | appl => rfl
  | str => rfl
  | int => rfl

theorem Silent.productions_snoc (h : added.Silent) (cons : String) (header imports : Term) (sections : List Term) :
    (appl cons [header, imports, .list (sections ++ [added])]).productions
      = (appl cons [header, imports, .list sections]).productions := by
  have hbody : (list (sections ++ [added])).productions = (list sections).productions := by
    rw [productions_list, productions_list, h.productionsFrom_snoc]
  have hargs : productionsFrom [header, imports, .list (sections ++ [added])]
      = productionsFrom [header, imports, .list sections] := by
    simp only [productionsFrom_cons, hbody]
  rw [productions_eq_append, productions_eq_append, h.production?_snoc, children, children, hargs]

end snoc

end Term

namespace Augmentation

open Term

variable {a : Augmentation} {module module' : Term} {language toplevel : String}

theorem silent_production (a : Augmentation) (language toplevel : String) :
    (a.production language toplevel).Silent where
  constructor?_eq := by simp [production, sort, constructor?, constructorFrom?, isNaming, children]
  productions_eq := by simp [production, sort, productions, productionsFrom, production?, constructor?,
    constructorFrom?, isNaming, children]

theorem append_eq_ok (h : a.append module language toplevel = .ok module') : ∃ cons header imports sections,
    module = .appl cons [header, imports, .list sections]
      ∧ module' = .appl cons [header, imports, .list (sections ++ [a.production language toplevel])] := by
  rw [append.eq_def] at h
  split at h
  · rename_i cons header imports body
    cases body with
    | list sections =>
      cases h
      exact ⟨cons, header, imports, sections, rfl, rfl⟩
    | appl => cases h
    | str => cases h
    | int => cases h
  · cases h

theorem ofGrammar_append (h : a.append module language toplevel = .ok module') :
    PrettyTable.ofGrammar module' = PrettyTable.ofGrammar module := by
  obtain ⟨cons, header, imports, sections, rfl, rfl⟩ := append_eq_ok h
  rw [PrettyTable.ofGrammar, PrettyTable.ofGrammar, (silent_production a language toplevel).productions_snoc]

/-- The imports of a grammar can be rewritten before it is connected or after it. -/
theorem append_rewriteGrammarImports (a : Augmentation) (module module' : Term) (language toplevel target : String) :
    (rewriteGrammarImports module target >>= fun m => a.append m language toplevel) = .ok module'
      ↔ (a.append module language toplevel >>= fun m => rewriteGrammarImports m target) = .ok module' := by
  constructor
  · intro h
    obtain ⟨rewritten, hrewritten, happend⟩ := exists_of_bind h
    obtain ⟨cons, header, imports, body, rfl, rfl⟩ := rewriteGrammarImports_eq_ok hrewritten
    obtain ⟨_, _, _, sections, heq, rfl⟩ := append_eq_ok happend
    cases heq
    rfl
  · intro h
    obtain ⟨appended, happend, hrewritten⟩ := exists_of_bind h
    obtain ⟨cons, header, clause, sections, rfl, rfl⟩ := append_eq_ok happend
    obtain ⟨_, _, imports, _, heq, rfl⟩ := rewriteGrammarImports_eq_ok hrewritten
    cases heq
    rfl

/-- **Connecting a grammar only adds.** A grammar that is connected keeps its constructor, its header and its imports,
and has one section more behind those of its body. The section exports one production without attributes, from the sort
named by the language, the marker and the toplevel nonterminal to the common sort. The pretty-print table of the grammar
stays the same. Connecting it and rewriting its imports can be done in either order: if one order succeeds then so does
the other one, with the same outcome. -/
theorem append_only_adds (a : Augmentation) (module : Term) (language toplevel : String) :
    (∀ module', a.append module language toplevel = .ok module' →
      (∃ cons header imports sections, module = .appl cons [header, imports, .list sections]
        ∧ module' = .appl cons [header, imports, .list (sections ++
          [.appl "exports" [.appl "context-free-syntax" [.list [.appl "prod"
            [.list [.appl "sort" [.str (language ++ a.marker ++ toplevel)]], .appl "sort" [.str a.toplevelSort],
              .appl "no-attrs" []]]]]])])
      ∧ PrettyTable.ofGrammar module' = PrettyTable.ofGrammar module)
    ∧ ∀ target module',
        (rewriteGrammarImports module target >>= fun m => a.append m language toplevel) = .ok module'
          ↔ (a.append module language toplevel >>= fun m => rewriteGrammarImports m target) = .ok module' :=
  ⟨fun _ h => ⟨append_eq_ok h, ofGrammar_append h⟩,
    fun target module' => append_rewriteGrammarImports a module module' language toplevel target⟩

/-- A module that is a production itself, with its sections for attributes: the constructor in them is still the one
that is found when there is another section, with another marker and another common sort than the usual ones. -/
theorem append_only_adds_production :
    let naming : Term := .appl "attrs" [.appl "cons" [.str "\"C\""]]
    let connecting : Term := .appl "exports" [.appl "context-free-syntax" [.list [.appl "prod"
      [.list [.appl "sort" [.str "xBaseX"]], .appl "sort" [.str "Top"], .appl "no-attrs" []]]]]
    let module (sections : List Term) : Term :=
      .appl "prod" [.list [.appl "lit" [.str "\"x\""]], .list [], .list sections]
    (Augmentation.mk "Base" "Top").append (module [.appl "cons" [.int 0], naming]) "x" "X"
        = .ok (module [.appl "cons" [.int 0], naming, connecting])
      ∧ (∃ cons header imports sections,
        module [.appl "cons" [.int 0], naming] = .appl cons [header, imports, .list sections]
          ∧ module [.appl "cons" [.int 0], naming, connecting]
            = .appl cons [header, imports, .list (sections ++ [connecting])])
      ∧ PrettyTable.ofGrammar (module [.appl "cons" [.int 0], naming, connecting])
        = PrettyTable.ofGrammar (module [.appl "cons" [.int 0], naming])
      ∧ (PrettyTable.ofGrammar (module [.appl "cons" [.int 0], naming, connecting])).entries
        = [("C", "KW[\"x\"]")] := by
  intro naming connecting module
  have h : (Augmentation.mk "Base" "Top").append (module [.appl "cons" [.int 0], naming]) "x" "X"
      = .ok (module [.appl "cons" [.int 0], naming, connecting]) := rfl
  obtain ⟨hadded, htable⟩ := (append_only_adds ⟨"Base", "Top"⟩ _ "x" "X").1 _ h
  exact ⟨h, hadded, htable, by rw [htable]; decide +kernel⟩

end Augmentation

end BaseLang
