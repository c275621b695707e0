import BaseLang.Proofs.Encoding
import BaseLang.Proofs.QualifiedName

/-!
# Which files can be named

A file can be declared under a qualified name if the separator occurs neither in its directory parts nor in its stem. No
name at all is right for any other file, unless the separator is a slash.

* `Path.Ordinary` : a relative path of which no component is a dot or leads up. `Ordinary.exists_stem` : it has a stem;
* `SourceUnit.parts`, `SourceUnit.fullName` : the directory parts and the stem of a file, and the name that they make;
* `right_fullName`, `Right.notMem_parts` : the name is right if its parts are free of the separator, and where any name
  is right they are;
* `nameable_iff` : the files that can be named, and what comes of declaring their names.
-/

namespace BaseLang

theorem Text.mem_intercalate {sep : List Char} {parts : List (List Char)} {part : List Char} {c : Char}
    (hp : part ∈ parts) (hc : c ∈ part) : c ∈ sep.intercalate parts := by
  obtain ⟨i, hi⟩ := List.mem_iff_getElem?.1 hp
  have hmem : part ∈ parts.intersperse sep :=
    List.mem_iff_getElem?.2 ⟨2 * i, by rw [List.getElem?_intersperse_two_mul, hi]⟩
  exact List.mem_flatten.2 ⟨part, hmem, hc⟩

/-! ## Ordinary paths -/

namespace Path

variable {p : Path}

/-- A relative path of which no component is a dot or leads up. -/
structure Ordinary (p : Path) : Prop where
  relative : p.isAbsolute = false
  dot_notMem : "." ∉ p.components
  up_notMem : ".." ∉ p.components

theorem components_of_lastPart_eq_nil (ha : p.isAbsolute = false) (h : p.lastPart = []) : p.components = [] := by
  have hb := p.before_append_lastPart
  have halike := p.alike_before.components
  rw [h, List.append_nil] at hb halike
  rcases p.leads_before with he | ⟨cs, he⟩
  · rw [he] at halike
    exact halike.symm
  · -- Only one slash is left of a path without a last component.
    cases hcs : cs.reverse with
    | nil =>
      rw [List.reverse_eq_nil_iff.1 hcs] at he
      rw [he] at halike
      have hroot : p.isAbsolute = true := by
        rw [← isAbsolute_congr halike]
        rfl
      rw [ha] at hroot
      cases hroot
    | cons c ds =>
      rw [he] at hb
      have hr := congrArg List.reverse hb
      rw [List.reverse_reverse, List.reverse_append, List.reverse_singleton, hcs] at hr
      exact absurd hr.symm (dropEnd_ne_slash _ c ds)

/-- A path has its directory parts and its last component for components. -/
theorem components_eq_directories (h : p.lastPart ≠ []) :
    p.components = p.directories ++ [String.ofList p.lastPart] := by
  obtain ⟨d, hd⟩ := exists_parent h
  rw [directories, hd]
  exact components_of_parent hd

theorem Ordinary.exists_stem (h : p.Ordinary) (hne : p.components ≠ []) : ∃ m, p.stem? = some m := by
  have hlast : p.lastPart ≠ [] := mt (components_of_lastPart_eq_nil h.relative) hne
  have hmem : String.ofList p.lastPart ∈ p.components := by
    rw [components_eq_directories hlast]
    simp
  have hf : p.fileName? = some p.lastPart := by
    refine fileName?_eq_some_iff.2 ⟨rfl, hlast, fun e => h.dot_notMem ?_, fun e => h.up_notMem ?_⟩
    · rwa [e] at hmem
    · rwa [e] at hmem
  exact ⟨_, by rw [stem?, hf, Option.map_some]⟩

end Path

/-- A term declares a qualified name: it is a namespace declaration with a string literal in the recorded place. -/
def Profile.Declares (p : Profile) (t : Term) (q : String) : Prop :=
  ∃ index arg, p.role t = .namespaceDecl index ∧ t.child index = .ok arg ∧ arg.decodeString = .ok q

namespace SourceUnit

variable {u : SourceUnit} {profile : Profile} {source : Path} {sep : Char} {q : String} {t arg : Term} {index : Nat}
  {decl : NamespaceDecl}

/-! ## The name of a file -/

def parts (u : SourceUnit) : List String := u.source.directories ++ [u.moduleName]

def fullName (u : SourceUnit) (sep : Char) : String := (String.singleton sep).intercalate u.parts

theorem slash_notMem_parts (hu : ofPath profile source = .ok u) (ha : source.isAbsolute = false) :
    ∀ s ∈ u.parts, '/' ∉ s.toList := by
  obtain ⟨hsource, hstem, _⟩ := place_of_ofPath hu
  intro s hs
  rw [parts, hsource, List.mem_append, List.mem_singleton] at hs
  rcases hs with hs | rfl
  · exact Path.notMem_of_mem_directories ha hs
  · exact Path.notMem_stem hstem

theorem right_fullName (hu : ofPath profile source = .ok u) (h : ∀ s ∈ u.parts, sep ∉ s.toList) :
    u.Right sep (u.fullName sep) := by
  obtain ⟨hsource, _, hspace⟩ := place_of_ofPath hu
  rw [parts, hsource] at h
  have hm : sep ∉ u.moduleName.toList := h _ (by simp)
  rw [Right, fullName, parts, hsource]
  refine ⟨hm, ?_⟩
  by_cases hd : source.directories = []
  · refine Or.inr ⟨by rw [hspace, namespaceOf_eq_empty_iff.2 hd], ?_⟩
    rw [hd, List.nil_append, String.intercalate_singleton]
  · refine Or.inl ⟨[sep].intercalate (source.directories.map String.toList), ?_, ?_⟩
    · rw [String.intercalate_append_of_ne_nil hd (by simp), String.intercalate_singleton]
      simp [String.toList_intercalate]
    · have hfree : ∀ part ∈ source.directories.map String.toList, sep ∉ part := by
        intro part hpart
        obtain ⟨s, hs, rfl⟩ := List.mem_map.1 hpart
        exact h s (List.mem_append_left _ hs)
      rw [Text.map_intercalate hfree, hspace, namespaceOf_eq, ← String.toList_inj, String.toList_intercalate,
        String.toList_ofList]
      rfl

/-- Where any name is right, the separator is in no part: it is replaced in the name, and would be left in the part. -/
theorem Right.notMem_parts (hu : ofPath profile source = .ok u) (hslash : sep ≠ '/') (h : u.Right sep q) :
    ∀ s ∈ u.parts, sep ∉ s.toList := by
  obtain ⟨hsource, _, hspace⟩ := place_of_ofPath hu
  obtain ⟨hm, hname⟩ := h
  have hfree : sep ∉ u.namespaceName.toList := by
    rcases hname with ⟨ns, _, hns⟩ | ⟨hnone, _⟩
    · rw [← hns, String.toList_ofList]
      intro hmem
      obtain ⟨c, _, hc⟩ := List.mem_map.1 hmem
      split at hc
      · exact hslash hc.symm
      · rename_i hne
        exact hne hc
    · simp [hnone]
  intro s hs
  rw [parts, hsource, List.mem_append, List.mem_singleton] at hs
  rcases hs with hs | rfl
  · intro hmem
    refine hfree ?_
    rw [hspace, namespaceOf_eq, String.toList_intercalate]
    exact Text.mem_intercalate (List.mem_map_of_mem hs) hmem
  · exact hm

/-! ## Declaring it -/

theorem nameCheck_of_child (harg : t.child index = .ok arg) (hq : arg.decodeString = .ok q) :
    u.nameCheck t index = u.checkName q := by
  rw [nameCheck, harg]
  change u.checkName (qualifiedName arg) = u.checkName q
  rw [qualifiedName, hq]

/-- A declaration of a right name is taken by a unit without a header, and becomes its header. -/
theorem add_of_right (hh : u.header = none) (hsep : u.profile.namespaceKind.separator? = some sep)
    (hr : u.profile.role t = .namespaceDecl index) (harg : t.child index = .ok arg) (hq : arg.decodeString = .ok q)
    (h : u.Right sep q) : (add t).run u = (.ok (.namespaceDecl index), { u with header := some t.text }) := by
  have hcheck : u.nameCheck t index = .ok () := by
    rw [nameCheck_of_child harg hq]
    exact (checkName_eq_ok_iff hsep).2 h
  have hadded : (addAs t (.namespaceDecl index)).run u = (.ok (), { u with header := some t.text }) := by
    rw [addAs, addHeader_first hh, hcheck]
  rw [add_run, hr, Action.bind_of_ok hadded]
  rfl

theorem role_of_namespaceDecl (hd : profile.namespaceDecl = some decl) (ts : List Term) :
    profile.role (.appl decl.cons ts) = .namespaceDecl decl.index := by
  have hindex : profile.namespaceIndex? (.appl decl.cons ts) = some decl.index := by
    simp [Profile.namespaceIndex?, hd, Term.isAppl, Term.cons?]
  rw [Profile.role, hindex]

theorem decodeString_quoted (s : String) : (Term.str ("\"" ++ s ++ "\"")).decodeString = .ok s := by
  rw [Term.decodeString]
  simp only [Term.unwrapped, Text.unquote_quotes]

/-- **The files that can be named.** Take a new unit for an ordinary path, in a language with namespace declarations and a
separator. If the separator is not a slash, some declaration with a string literal in the recorded place is taken exactly
if the separator is in none of the directory parts and not in the stem. If so, and for a slash in any case, the parts
joined by the separator are a name that is taken, in quotes and in every other spelling, and the declaration becomes the
header. -/
theorem nameable_iff (hd : profile.namespaceDecl = some decl) (hsep : profile.namespaceKind.separator? = some sep)
    (hs : source.Ordinary) (hne : source.components ≠ []) : ∃ u, ofPath profile source = .ok u
      ∧ source.stem? = some u.moduleName
      ∧ (sep ≠ '/' → ((∃ t q, profile.Declares t q ∧ u.accepts t = true) ↔ ∀ s ∈ u.parts, sep ∉ s.toList))
      ∧ ((sep = '/' ∨ ∀ s ∈ u.parts, sep ∉ s.toList) →
          (Term.str ("\"" ++ u.fullName sep ++ "\"")).decodeString = .ok (u.fullName sep)
          ∧ ∀ ts arg, ts[decl.index]? = some arg → arg.decodeString = .ok (u.fullName sep) →
            (add (.appl decl.cons ts)).run u
              = (.ok (.namespaceDecl decl.index), { u with header := some (Term.appl decl.cons ts).text })) := by
  obtain ⟨m, hm⟩ := hs.exists_stem hne
  obtain ⟨u, hu⟩ : ∃ u, ofPath profile source = .ok u := ⟨_, by rw [ofPath, hm]⟩
  obtain ⟨_, hstem, _⟩ := place_of_ofPath hu
  obtain ⟨rfl, hh, _, _⟩ := ofPath_eq_ok hu
  have htaken (hfree : ∀ s ∈ u.parts, sep ∉ s.toList) (ts : List Term) (arg : Term) (harg : ts[decl.index]? = some arg)
      (hq : arg.decodeString = .ok (u.fullName sep)) : (add (.appl decl.cons ts)).run u
        = (.ok (.namespaceDecl decl.index), { u with header := some (Term.appl decl.cons ts).text }) := by
    have hchild : (Term.appl decl.cons ts).child decl.index = .ok arg := by simp only [Term.child, harg]
    exact add_of_right hh hsep (role_of_namespaceDecl hd ts) hchild hq (right_fullName hu hfree)
  refine ⟨u, hu, hstem, fun hslash => ⟨?_, fun hfree => ?_⟩, fun h => ⟨decodeString_quoted _, htaken ?_⟩⟩
  · rintro ⟨t, q, ⟨index, arg, hr, harg, hq⟩, haccepts⟩
    rw [accepts_eq_nameCheck hh hr, nameCheck_of_child harg hq] at haccepts
    have hright : u.checkName q = .ok () := by
      cases hc : u.checkName q with
      | error e =>
        rw [hc] at haccepts
        cases haccepts
      | ok v => rfl
    exact ((checkName_eq_ok_iff hsep).1 hright).notMem_parts hu hslash
  · -- The name is put behind as many other arguments as its place asks for.
    let ts : List Term := List.replicate decl.index (.str "") ++ [.str ("\"" ++ u.fullName sep ++ "\"")]
    have harg : ts[decl.index]? = some (.str ("\"" ++ u.fullName sep ++ "\"")) := by simp [ts]
    have hrun := htaken hfree ts _ harg (decodeString_quoted _)
    have hchild : (Term.appl decl.cons ts).child decl.index = .ok (.str ("\"" ++ u.fullName sep ++ "\"")) := by
      simp only [Term.child, harg]
    refine ⟨.appl decl.cons ts, u.fullName sep, ⟨_, _, role_of_namespaceDecl hd ts, hchild, decodeString_quoted _⟩, ?_⟩
    rw [accepts, hrun]
    rfl
  · rcases h with rfl | hfree
    · exact slash_notMem_parts hu hs.relative
    · exact hfree

/-! ### An example -/

theorem parts_of_ofPath {m : String} (hu : ofPath profile source = .ok u) (hm : source.stem? = some m) :
    u.parts = source.directories ++ [m] := by
  obtain ⟨hsource, hstem, _⟩ := place_of_ofPath hu
  rw [parts, hsource, Option.some.inj (hm.symm.trans hstem)]

/-- With dots between the parts of a name, the directory `a/b` can be named and the directory `a.b` cannot. -/
theorem nameable_iff_dotted : (∃ u, ofPath exampleProfile ⟨"a/b/m.xb"⟩ = .ok u
      ∧ (add (.appl "Module" [.str "\"a.b.m\""])).run u
        = (.ok (.namespaceDecl 0), { u with header := some "Module(\"\\\"a.b.m\\\"\")" }))
    ∧ ∃ u, ofPath exampleProfile ⟨"a.b/m.xb"⟩ = .ok u ∧ ∀ t q, exampleProfile.Declares t q → ¬ u.accepts t = true := by
  have hd : exampleProfile.namespaceDecl = some ⟨"Module", 0⟩ := rfl
  have hsep : exampleProfile.namespaceKind.separator? = some '.' := rfl
  constructor
  · have hs : (⟨"a/b/m.xb"⟩ : Path).Ordinary := ⟨by decide +kernel, by decide +kernel, by decide +kernel⟩
    obtain ⟨u, hu, _, _, htaken⟩ := nameable_iff hd hsep hs (by decide +kernel)
    have hparts : u.parts = ["a", "b", "m"] := by
      rw [parts_of_ofPath hu (by decide +kernel : _ = some "m")]
      decide +kernel
    have hname : u.fullName '.' = "a.b.m" := by
      rw [fullName, hparts]
      decide +kernel
    obtain ⟨_, hrun⟩ := htaken (Or.inr (by rw [hparts]; decide +kernel))
    refine ⟨u, hu, (hrun [.str "\"a.b.m\""] _ rfl (by rw [hname]; decide +kernel)).trans ?_⟩
    have htext : (Term.appl "Module" [.str "\"a.b.m\""]).text = "Module(\"\\\"a.b.m\\\"\")" := by decide +kernel
    exact congrArg (fun s => (_, { u with header := some s })) htext
  · have hs : (⟨"a.b/m.xb"⟩ : Path).Ordinary := ⟨by decide +kernel, by decide +kernel, by decide +kernel⟩
    obtain ⟨u, hu, _, hnone, _⟩ := nameable_iff hd hsep hs (by decide +kernel)
    have hparts : u.parts = ["a.b", "m"] := by
      rw [parts_of_ofPath hu (by decide +kernel : _ = some "m")]
      decide +kernel
    refine ⟨u, hu, fun t q hq ha => ?_⟩
    have hfree := (hnone (by decide)).1 ⟨t, q, hq, ha⟩
    rw [hparts] at hfree
    exact absurd (hfree "a.b" (by simp)) (by decide +kernel)

end SourceUnit

end BaseLang
