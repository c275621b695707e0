import BaseLang.Proofs.Collection
import BaseLang.Proofs.Encoding

/-!
# Generated source text

The declarations of a source file can be read off the source text that is generated for it.

* `Term.newline_notMem_chars`, `Term.chars_ne_nil` : the compact text of a term is one line, and not an empty one;
* `Text.filled` : the lines of a text that are not empty; `filled_intercalate` : those of joined lines;
* `Profile.perm_parts` : the parts of a list make up the list;
* `SourceUnit.read_generated` : what is read line by line are the accepted declarations.
-/

namespace BaseLang

open Term

/-! ## One declaration -/

theorem Lexer.newline_notMem_of_isIdent {name : List Char} (h : isIdent name = true) : '\n' ∉ name := by
  cases name with
  | nil => simp
  | cons c cs =>
    intro hm
    simp only [isIdent, Bool.and_eq_true, List.all_eq_true] at h
    rcases List.mem_cons.1 hm with rfl | hm
    · exact absurd h.1 (by decide)
    · exact absurd (h.2 _ hm) (by decide)

namespace Term

variable {t : Term} {ts : List Term}

theorem newline_notMem_charsAfter (h : ∀ t ∈ ts, '\n' ∉ t.chars) : '\n' ∉ charsAfter ts := by
  induction ts with
  | nil => simp [charsAfter]
  | cons t ts ih =>
    obtain ⟨ht, hts⟩ := List.forall_mem_cons.1 h
    simp [charsAfter, ht, ih hts]

theorem newline_notMem_chars (h : t.WellNamed) : '\n' ∉ t.chars := by
  induction t using Term.induct with
  | appl cons args ih =>
    obtain ⟨hc, hargs⟩ := wellNamed_appl.1 h
    have hcons := Lexer.newline_notMem_of_isIdent hc
    have hitems : ∀ t ∈ args, '\n' ∉ t.chars := fun t ht => ih t ht (hargs t ht)
    cases args with
    | nil => simpa [chars] using hcons
    | cons t ts =>
      obtain ⟨ht, hts⟩ := List.forall_mem_cons.1 hitems
      simp [chars, hcons, ht, newline_notMem_charsAfter hts]
  | list elems ih =>
    have hitems : ∀ t ∈ elems, '\n' ∉ t.chars := fun t ht => ih t ht (wellNamed_list.1 h t ht)
    cases elems with
    | nil => simp [chars]
    | cons t ts =>
      obtain ⟨ht, hts⟩ := List.forall_mem_cons.1 hitems
      simp [chars, ht, newline_notMem_charsAfter hts]
  | str text =>
    rw [chars]
    exact Text.newline_notMem_quoted text.toList
  | int value =>
    rw [chars]
    exact Text.newline_notMem_decimal value.toInt

theorem chars_ne_nil (h : t.WellNamed) : t.chars ≠ [] := by
  cases t with
  | appl cons args =>
    have hcons : cons.toList ≠ [] := fun hnil => by simpa [hnil, Lexer.isIdent] using (wellNamed_appl.1 h).1
    cases args with
    | nil => simpa [chars] using hcons
    | cons t ts => simp [chars]
  | list elems => cases elems <;> simp [chars]
  | str text => simp [chars, Text.quoted]
  | int value =>
    rw [chars]
    exact Text.decimal_ne_nil value.toInt

end Term

/-! ## Lines -/

namespace Text

variable {cs ds : List Char} {parts : List (List Char)}

/-- The lines of a text that are not empty. -/
def filled (cs : List Char) : List (List Char) := (fields '\n' cs).filter (· ≠ [])

theorem filled_append_newline (cs ds : List Char) : filled (cs ++ '\n' :: ds) = filled cs ++ filled ds := by
  rw [filled, fields_append_sep, List.filter_append]
  rfl

theorem filled_singleton (h : '\n' ∉ cs) (hne : cs ≠ []) : filled cs = [cs] := by
  rw [filled, fields_eq_singleton h]
  exact List.filter_cons_of_pos (by simpa using hne)

/-- Joined lines are taken apart again. If there are none, there is one empty line, which is left out. -/
theorem filled_intercalate (h : ∀ part ∈ parts, '\n' ∉ part ∧ part ≠ []) :
    filled (['\n'].intercalate parts) = parts := by
  induction parts with
  | nil => rfl
  | cons part parts ih =>
    obtain ⟨⟨hline, hne⟩, hparts⟩ := List.forall_mem_cons.1 h
    cases parts with
    | nil => rw [List.intercalate_singleton, filled_singleton hline hne]
    | cons next rest =>
      rw [List.intercalate_cons_cons, List.append_assoc, List.singleton_append, filled_append_newline, ih hparts,
        filled_singleton hline hne]
      rfl

end Text

/-- The terms in the lines of a text, one in each line that is not empty. -/
def readLines (text : String) : Except ReadError (List Term) :=
  ((Text.filled text.toList).map String.ofList).mapM Term.read

theorem filled_texts {ts : List Term} (h : ∀ t ∈ ts, t.WellNamed) :
    Text.filled ("\n".intercalate (ts.map Term.text)).toList = ts.map Term.chars := by
  have hchars : (ts.map Term.text).map String.toList = ts.map Term.chars := by
    rw [List.map_map]
    exact List.map_congr_left fun t _ => String.toList_ofList
  rw [String.toList_intercalate, hchars]
  refine Text.filled_intercalate (List.forall_mem_map.2 fun t ht => ?_)
  exact ⟨newline_notMem_chars (h t ht), chars_ne_nil (h t ht)⟩

/-- Every term in a line of its own is read back. -/
theorem mapM_read_chars {ts : List Term} (h : ∀ t ∈ ts, t.WellNamed) :
    ((ts.map Term.chars).map String.ofList).mapM Term.read = .ok ts := by
  rw [List.map_map]
  exact mapM_encoded fun t ht => read_text (h t ht)

/-! ## Source files -/

/-- The parts that declarations play make up the declarations. -/
theorem Profile.perm_parts {p : Profile} {ts : List Term} (h : ∀ t ∈ ts, p.role t ≠ .other) :
    (p.namespaceDecls ts ++ (p.importDecls ts ++ p.bodyDecls ts)).Perm ts := by
  induction ts with
  | nil => rfl
  | cons t ts ih =>
    obtain ⟨ht, hts⟩ := List.forall_mem_cons.1 h
    rw [namespaceDecls_cons, importDecls_cons, bodyDecls_cons]
    cases hr : p.role t with
    | namespaceDecl => simpa [Role.isNamespaceDecl, Role.isImportDecl] using ih hts
    | importDecl => simpa [Role.isNamespaceDecl, Role.isImportDecl] using List.perm_middle.trans ((ih hts).cons t)
    | body =>
      have hmiddle : (p.namespaceDecls ts ++ p.importDecls ts ++ t :: p.bodyDecls ts).Perm
          (t :: (p.namespaceDecls ts ++ p.importDecls ts ++ p.bodyDecls ts)) := List.perm_middle
      rw [List.append_assoc, List.append_assoc] at hmiddle
      simpa [Role.isNamespaceDecl, Role.isImportDecl] using hmiddle.trans ((ih hts).cons t)
    | other => exact absurd hr ht

namespace SourceUnit

variable {u : SourceUnit} {profile : Profile} {source : Path} {ts : List Term}

/-- **The generated source text carries exactly the accepted declarations.** If the names in them are identifiers and
one is a namespace declaration, each of its lines is empty or can be read, and the terms in them are the header, all
imports and all declarations of the body, each once and in its order. -/
theorem read_generated (h : ofPath profile source = .ok u) (hn : ∀ t ∈ u.accepted ts, t.WellNamed)
    (hd : profile.namespaceDecls (u.accepted ts) ≠ []) :
    ∃ header, profile.namespaceDecls (u.accepted ts) = [header]
      ∧ readLines (u.addAll ts).generated
        = .ok (header :: (profile.importDecls (u.accepted ts) ++ profile.bodyDecls (u.accepted ts)))
      ∧ (header :: (profile.importDecls (u.accepted ts) ++ profile.bodyDecls (u.accepted ts))).Perm (u.accepted ts)
      ∧ profile.importDecls (u.accepted ts) = profile.importDecls ts
      ∧ profile.bodyDecls (u.accepted ts) = profile.bodyDecls ts := by
  obtain ⟨rfl, hnone, hnoImports, hnoBody⟩ := ofPath_eq_ok h
  obtain ⟨-, hheader, himports, hbody, hpart⟩ := collected_addAll u ts
  rw [hnone] at hheader
  rw [hnoImports, List.nil_append] at himports
  rw [hnoBody, List.nil_append] at hbody
  have hperm := Profile.perm_parts hpart
  cases hs : u.profile.namespaceDecls (u.accepted ts) with
  | nil => exact absurd hs hd
  | cons header rest =>
    rw [hs] at hheader hperm
    -- a unit has room for one header only
    obtain ⟨htext, rfl⟩ : (u.addAll ts).header = some header.text ∧ rest = [] := by
      cases hh : (u.addAll ts).header with
      | none => simp [hh] at hheader
      | some text => simpa [hh] using hheader
    have hnamed : ∀ t ∈ header :: (u.profile.importDecls (u.accepted ts) ++ u.profile.bodyDecls (u.accepted ts)),
        t.WellNamed := fun t ht => hn t (hperm.mem_iff.1 ht)
    obtain ⟨hh, hparts⟩ := List.forall_mem_cons.1 hnamed
    obtain ⟨hi, hb⟩ := List.forall_mem_append.1 hparts
    refine ⟨header, rfl, ?_, hperm, parts_accepted u ts⟩
    have hlines : Text.filled (u.addAll ts).generated.toList
        = (header :: (u.profile.importDecls (u.accepted ts) ++ u.profile.bodyDecls (u.accepted ts))).map chars := by
      have hfirst : Text.filled header.text.toList = [header.chars] := by
        rw [Term.text, String.toList_ofList, Text.filled_singleton (newline_notMem_chars hh) (chars_ne_nil hh)]
      have hnewline : "\n".toList = ['\n'] := rfl
      rw [generated, htext, himports, hbody]
      simp only [String.toList_append, hnewline, List.append_assoc, List.cons_append, List.nil_append]
      rw [Text.filled_append_newline, Text.filled_append_newline, hfirst, filled_texts hi, filled_texts hb,
        List.map_cons, List.map_append, List.singleton_append]
    rw [readLines, hlines, mapM_read_chars hnamed]

/-- Declarations with line feeds, quotes and backslashes in them, the header not first and something that plays no
part in between. -/
def breakingDecls : List Term :=
  [.appl "Def" [.str "\n\n"], .appl "Import" [.str "\\\n"], .appl "a b" [], .appl "Module" [.str "\"a.m\""],
   .appl "Def" [.list [.int (-1)], .str "\"\n"]]

theorem read_generated_breaking : ∃ u, ofPath exampleProfile ⟨"a/m.xb"⟩ = .ok u
    ∧ (∀ t ∈ u.accepted breakingDecls, t.WellNamed)
    ∧ exampleProfile.namespaceDecls (u.accepted breakingDecls) ≠ []
    ∧ readLines (u.addAll breakingDecls).generated
      = .ok [.appl "Module" [.str "\"a.m\""], .appl "Import" [.str "\\\n"], .appl "Def" [.str "\n\n"],
          .appl "Def" [.list [.int (-1)], .str "\"\n"]] := by
  have htaken : (ofPath exampleProfile ⟨"a/m.xb"⟩).toOption.map (fun u => u.accepted breakingDecls)
      = some [.appl "Def" [.str "\n\n"], .appl "Import" [.str "\\\n"], .appl "Module" [.str "\"a.m\""],
          .appl "Def" [.list [.int (-1)], .str "\"\n"]] := by decide +kernel
  cases h : ofPath exampleProfile ⟨"a/m.xb"⟩ with
  | error e =>
    rw [h] at htaken
    cases htaken
  | ok u =>
    rw [h] at htaken
    have haccepted : u.accepted breakingDecls = [.appl "Def" [.str "\n\n"], .appl "Import" [.str "\\\n"],
        .appl "Module" [.str "\"a.m\""], .appl "Def" [.list [.int (-1)], .str "\"\n"]] := Option.some.inj htaken
    have hnamed : ∀ t ∈ u.accepted breakingDecls, t.WellNamed := by
      rw [haccepted]
      decide
    have hheader : exampleProfile.namespaceDecls (u.accepted breakingDecls) = [.appl "Module" [.str "\"a.m\""]] := by
      rw [haccepted]
      decide +kernel
    have hne : exampleProfile.namespaceDecls (u.accepted breakingDecls) ≠ [] := by simp [hheader]
    obtain ⟨header, hone, hread, -⟩ := read_generated h hnamed hne
    rw [hheader] at hone
    obtain rfl := (List.cons.inj hone).1
    refine ⟨u, rfl, hnamed, hne, ?_⟩
    rw [hread, haccepted]
    exact congrArg Except.ok (by decide +kernel)

end SourceUnit

end BaseLang
