import BaseLang.Proofs.Collection
import BaseLang.Proofs.Extension

/-!
# The right qualified name

A namespace declaration is compared with the place of its file after the separators in its name have been replaced by
slashes, and a slash in the name is not told apart from one that has been put in.

* `Path.directories` : the directory parts of a path, none of them empty or with a slash;
* `Text.spelled` : a name with each slash in it read as a separator;
* `SourceUnit.Right` : the names that pass the check of a unit. `checkName_eq_ok_iff` : no other name does;
* `Right.spelled` : they differ only in slashes for separators, and where there is no directory in one separator in
  front;
* `accepts_iff_right` : the namespace declarations that a new unit takes.
-/

namespace BaseLang

/-! ## Separators -/

/-- A name in which each slash is read as a separator. -/
def Text.spelled (sep : Char) (name : String) : String :=
  String.ofList (name.toList.map fun c => if c = '/' then sep else c)

/-! ## Directories -/

namespace Path

variable {p : Path} {s : String}

/-- The directory parts of a path. -/
def directories (p : Path) : List String :=
  match p.parent? with
  | some d => d.components
  | none => []

theorem ne_empty_of_mem_components (h : s ∈ p.components) : s ≠ "" := by
  rw [components_eq, List.mem_append] at h
  rcases h with h | h
  · rw [start] at h
    split at h
    · simp [List.mem_singleton.1 h]
    · split at h
      · simp [List.mem_singleton.1 h]
      · cases h
  · have hkept := (List.mem_filter.1 h).2
    simp only [Bool.and_eq_true, decide_eq_true_eq] at hkept
    exact hkept.1

/-- The components of a path without a root are names or a dot. -/
theorem notMem_of_mem_components (ha : p.isAbsolute = false) (h : s ∈ p.components) : '/' ∉ s.toList := by
  rw [components_eq, List.mem_append] at h
  rcases h with h | h
  · rw [start, if_neg (by simp [ha])] at h
    split at h
    · rw [List.mem_singleton.1 h]
      decide
    · cases h
  · obtain ⟨part, hpart, rfl⟩ := List.mem_map.1 (List.mem_filter.1 h).1
    rw [String.toList_ofList]
    exact Text.notMem_of_mem_fields hpart

theorem ne_empty_of_mem_directories (h : s ∈ p.directories) : s ≠ "" := by
  rw [directories] at h
  split at h
  · exact ne_empty_of_mem_components h
  · cases h

theorem notMem_of_mem_directories (ha : p.isAbsolute = false) (h : s ∈ p.directories) : '/' ∉ s.toList := by
  rw [directories] at h
  split at h
  · rename_i d hd
    exact notMem_of_mem_components (by rw [isAbsolute_of_parent hd, ha]) h
  · cases h

end Path

namespace SourceUnit

variable {u u' : SourceUnit} {profile : Profile} {source : Path} {sep : Char} {q : String} {t arg : Term} {index : Nat}

theorem namespaceOf_eq (source : Path) : namespaceOf source = "/".intercalate source.directories := by
  rw [namespaceOf, Path.directories]
  cases source.parent? with
  | none => rfl
  | some d => rfl

theorem namespaceOf_eq_empty_iff : namespaceOf source = "" ↔ source.directories = [] := by
  rw [namespaceOf_eq]
  constructor
  · intro h
    cases hd : source.directories with
    | nil => rfl
    | cons s rest =>
      have hs : s ≠ "" := Path.ne_empty_of_mem_directories (hd ▸ List.mem_cons_self ..)
      rw [hd] at h
      cases rest with
      | nil => exact absurd (by simpa using h) hs
      | cons s' rest =>
        rw [String.intercalate_cons_cons] at h
        have := congrArg String.toList h
        simp at this
  · intro h
    rw [h]
    rfl

/-! ## Right names -/

/-- A qualified name that is right for a unit. Behind the last separator in it stands the module name, and before it the
namespace, once each separator there is replaced by a slash. Without a namespace the module name alone is right too. -/
def Right (u : SourceUnit) (sep : Char) (q : String) : Prop :=
  sep ∉ u.moduleName.toList
    ∧ ((∃ ns, q.toList = ns ++ sep :: u.moduleName.toList
        ∧ String.ofList (ns.map fun c => if c = sep then '/' else c) = u.namespaceName)
      ∨ u.namespaceName = "" ∧ q = u.moduleName)

theorem checkName_of_split {declared name : String}
    (h : splitQualified u.profile.namespaceKind q = (some declared, name)) :
    u.checkName q = .ok () ↔ declared = u.namespaceName ∧ name = u.moduleName := by
  rw [checkName, h]
  by_cases hd : declared = u.namespaceName
  · by_cases hn : name = u.moduleName
    · simp [Option.filter, hd, hn]
    · simp [Option.filter, hd, hn]
  · simp [Option.filter, hd]

/-- The namespace that is declared in front of the last separator. -/
theorem splitQualified_of_splitLast {kind : NamespaceKind} {ns name : List Char} (hsep : kind.separator? = some sep)
    (h : Text.splitLast sep q.toList = some (ns, name)) : splitQualified kind q
      = (some (String.ofList (ns.map fun c => if c = sep then '/' else c)), String.ofList name) := by
  have hjoined : "/".intercalate ((Text.fields sep ns).map String.ofList)
      = String.ofList (ns.map fun c => if c = sep then '/' else c) := by
    have hid : String.toList ∘ String.ofList = id := funext fun _ => String.toList_ofList
    rw [← String.toList_inj, String.toList_intercalate, List.map_map, hid, List.map_id, String.toList_ofList,
      ← Text.intercalate_fields, String.toList_ofList]
  rw [splitQualified, hsep]
  simp only [h, hjoined]

theorem checkName_eq_ok_iff (hsep : u.profile.namespaceKind.separator? = some sep) :
    u.checkName q = .ok () ↔ u.Right sep q := by
  cases hs : Text.splitLast sep q.toList with
  | none =>
    have hq := Text.splitLast_eq_none_iff.1 hs
    have hsplit : splitQualified u.profile.namespaceKind q = (some "", q) := by
      rw [splitQualified, hsep]
      simp only [hs]
    rw [checkName_of_split hsplit, Right]
    constructor
    · rintro ⟨hns, rfl⟩
      exact ⟨hq, Or.inr ⟨hns.symm, rfl⟩⟩
    · rintro ⟨_, ⟨ns, he, _⟩ | ⟨hns, he⟩⟩
      · exact absurd (he ▸ by simp) hq
      · exact ⟨hns.symm, he⟩
  | some parts =>
    obtain ⟨ns, name⟩ := parts
    obtain ⟨hq, hname⟩ := Text.splitLast_eq_some_iff.1 hs
    rw [checkName_of_split (splitQualified_of_splitLast hsep hs), Right]
    constructor
    · rintro ⟨hns, hm⟩
      have hm' : u.moduleName.toList = name := by rw [← hm, String.toList_ofList]
      rw [hm']
      exact ⟨hname, Or.inl ⟨ns, hq, hns⟩⟩
    · rintro ⟨hm, ⟨ns', he, hns⟩ | ⟨_, rfl⟩⟩
      · -- The last separator of a name is in one place.
        have hlast := Text.splitLast_eq_some_iff.2 ⟨he, hm⟩
        rw [hs] at hlast
        cases hlast
        exact ⟨hns, String.ofList_toList⟩
      · exact absurd (hq ▸ by simp) hm

theorem place_of_ofPath (h : ofPath profile source = .ok u) :
    u.source = source ∧ source.stem? = some u.moduleName ∧ u.namespaceName = namespaceOf source := by
  rw [ofPath] at h
  split at h
  · cases h
  · rename_i m hm
    cases h
    exact ⟨rfl, hm, rfl⟩

/-- The right names of a file differ only in slashes for separators, and without directory parts in one separator in
front. -/
theorem Right.spelled (hu : ofPath profile source = .ok u) (ha : source.isAbsolute = false) (h : u.Right sep q) :
    Text.spelled sep q = (String.singleton sep).intercalate (source.directories ++ [u.moduleName])
      ∨ source.directories = [] ∧ q = String.singleton sep ++ u.moduleName := by
  obtain ⟨_, hstem, hspace⟩ := place_of_ofPath hu
  have hm : '/' ∉ u.moduleName.toList := Path.notMem_stem hstem
  obtain ⟨_, ⟨ns, hq, hns⟩ | ⟨hnone, rfl⟩⟩ := h
  · rw [hspace, namespaceOf_eq] at hns
    by_cases hd : source.directories = []
    · refine Or.inr ⟨hd, ?_⟩
      have hnil : ns = [] := by simpa [hd] using congrArg String.toList hns
      rw [← String.toList_inj, hq, hnil]
      simp
    · refine Or.inl ?_
      have hparts : ∀ part ∈ source.directories.map String.toList, '/' ∉ part := by
        intro part hpart
        obtain ⟨s, hs, rfl⟩ := List.mem_map.1 hpart
        exact Path.notMem_of_mem_directories ha hs
      -- Replacing the slashes in a namespace undoes that its separators have been replaced.
      have hback : ns.map (fun c => if c = '/' then sep else c)
          = [sep].intercalate (source.directories.map String.toList) := by
        have hslashed : ns.map (fun c => if c = sep then '/' else c)
            = ['/'].intercalate (source.directories.map String.toList) := by
          have he := congrArg String.toList hns
          rwa [String.toList_ofList, String.toList_intercalate] at he
        rw [← Text.map_intercalate hparts sep, ← hslashed, List.map_map]
        refine List.map_congr_left fun c _ => ?_
        by_cases hc : c = sep
        · simp [hc]
        · simp [hc]
      rw [String.intercalate_append_of_ne_nil hd (by simp), String.intercalate_singleton, Text.spelled, hq,
        List.map_append, List.map_cons, Text.map_of_notMem hm, hback, ← String.toList_inj]
      simp [String.toList_intercalate]
  · refine Or.inl ?_
    rw [namespaceOf_eq_empty_iff.1 (hspace ▸ hnone), Text.spelled, Text.map_of_notMem hm]
    simp

/-! ## Namespace declarations -/

def accepts (u : SourceUnit) (t : Term) : Bool := ((add t).run u).1.isOk

/-- A unit without a header takes a namespace declaration if it can find the name in it and the name is right. -/
theorem accepts_eq_nameCheck (hh : u.header = none) (hr : u.profile.role t = .namespaceDecl index) :
    u.accepts t = (u.nameCheck t index).isOk := by
  have hrun : (addHeader t index).run u = _ := addHeader_first hh
  rw [accepts, add_run, hr]
  change ((addHeader t index >>= fun _ => pure (Role.namespaceDecl index)).run u).1.isOk = _
  cases hc : u.nameCheck t index with
  | error e =>
    rw [hc] at hrun
    rw [Action.bind_of_error hrun]
    rfl
  | ok v =>
    rw [hc] at hrun
    rw [Action.bind_of_ok hrun]
    rfl

/-- **The qualified name of a source file.** A new unit for a relative path takes a namespace declaration with a string
literal in the recorded place exactly if the name in it is right for the path. With each slash read as a separator, the
right name is that of the directory parts and the stem joined by the separator. Only where there are no directory parts,
one separator in front of the stem is taken as well. -/
theorem accepts_iff_right (hu : ofPath profile source = .ok u) (ha : source.isAbsolute = false)
    (hsep : profile.namespaceKind.separator? = some sep) (hr : profile.role t = .namespaceDecl index)
    (harg : t.child index = .ok arg) (hq : arg.decodeString = .ok q) :
    (u.accepts t = true ↔ u.Right sep q)
      ∧ (u.accepts t = true →
          Text.spelled sep q = (String.singleton sep).intercalate (source.directories ++ [u.moduleName])
            ∨ source.directories = [] ∧ q = String.singleton sep ++ u.moduleName) := by
  obtain ⟨rfl, hh, _, _⟩ := ofPath_eq_ok hu
  have hcheck : u.nameCheck t index = u.checkName q := by
    rw [nameCheck, harg]
    change u.checkName (qualifiedName arg) = u.checkName q
    rw [qualifiedName, hq]
  have hiff : u.accepts t = true ↔ u.Right sep q := by
    rw [accepts_eq_nameCheck hh hr, hcheck, ← checkName_eq_ok_iff hsep]
    cases u.checkName q with
    | error e => simp [Except.isOk, Except.toBool]
    | ok v => simp [Except.isOk, Except.toBool]
  exact ⟨hiff, fun h => (hiff.1 h).spelled hu ha⟩

/-! ### An example -/

/-- A slash in a name is taken for a separator. -/
theorem accepts_iff_right_slashed : ∃ u, ofPath exampleProfile ⟨"a/b/m.xb"⟩ = .ok u
    ∧ u.accepts (.appl "Module" [.str "a/b.m"]) = true
    ∧ Text.spelled '.' "a/b.m" = ".".intercalate ["a", "b", "m"] := by
  have haccepts : (ofPath exampleProfile ⟨"a/b/m.xb"⟩).toOption.map
      (fun u => (u.accepts (.appl "Module" [.str "a/b.m"]), u.moduleName)) = some (true, "m") := by decide +kernel
  cases h : ofPath exampleProfile ⟨"a/b/m.xb"⟩ with
  | error e =>
    rw [h] at haccepts
    cases haccepts
  | ok u =>
    rw [h] at haccepts
    obtain ⟨ht, hm⟩ := Prod.mk.inj (Option.some.inj haccepts)
    have hrole : exampleProfile.role (.appl "Module" [.str "a/b.m"]) = .namespaceDecl 0 := by decide +kernel
    have hright := accepts_iff_right h (by decide +kernel) rfl hrole rfl rfl
    rcases hright.2 ht with hs | ⟨hd, _⟩
    · rw [hm] at hs
      exact ⟨u, rfl, ht, hs⟩
    · exact absurd hd (by decide +kernel)

/-- More than one name is taken for some path. -/
theorem not_only_one_name : ¬ ∀ (profile : Profile) (source : Path) (sep : Char) (u : SourceUnit) (t t' arg arg' : Term)
    (index index' : Nat) (q q' : String), ofPath profile source = .ok u → source.isAbsolute = false →
    profile.namespaceKind.separator? = some sep → profile.role t = .namespaceDecl index → t.child index = .ok arg →
    arg.decodeString = .ok q → profile.role t' = .namespaceDecl index' → t'.child index' = .ok arg' →
    arg'.decodeString = .ok q' → u.accepts t = true → u.accepts t' = true →
    q = q' ∧ q = (String.singleton sep).intercalate (source.directories ++ [u.moduleName]) := by
  intro h
  have haccepts : (ofPath exampleProfile ⟨"a/b/m.xb"⟩).toOption.map (fun u =>
      (u.accepts (.appl "Module" [.str "a.b.m"]), u.accepts (.appl "Module" [.str "a/b.m"]))) = some (true, true) := by
    decide +kernel
  cases hu : ofPath exampleProfile ⟨"a/b/m.xb"⟩ with
  | error e =>
    rw [hu] at haccepts
    cases haccepts
  | ok u =>
    rw [hu] at haccepts
    obtain ⟨ht, ht'⟩ := Prod.mk.inj (Option.some.inj haccepts)
    have hsame := h exampleProfile ⟨"a/b/m.xb"⟩ '.' u _ _ (.str "a.b.m") (.str "a/b.m") 0 0 "a.b.m" "a/b.m" hu
      (by decide +kernel) rfl (by decide +kernel) rfl rfl (by decide +kernel) rfl rfl ht ht'
    exact absurd hsame.1 (by decide)

end SourceUnit

end BaseLang
