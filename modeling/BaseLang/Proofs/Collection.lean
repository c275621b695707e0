import BaseLang.SourceUnit

/-!
# What a source unit has collected

* `Profile.role_eq_other_iff` : a declaration plays no part if its constructor is in no table of the profile;
* `SourceUnit.declares` : a namespace declaration with the right name, of which the first one is taken;
* `SourceUnit.Added` : what can come of one more declaration. `added_of_run` : nothing else can;
* `SourceUnit.accepted` : the declarations of a list that are taken;
* `SourceUnit.Collected` : what one unit holds more than another one. `collected_addAll` : it is what has been taken;
* `collected_of_ofPath` : a unit has collected the texts of the declarations that it has accepted, each in its part.
-/

namespace BaseLang

open BaseLang.Action

/-! ## Roles -/

namespace Role

def isNamespaceDecl : Role → Bool
  | .namespaceDecl _ => true
  | _ => false

def isImportDecl : Role → Bool
  | .importDecl _ => true
  | _ => false

end Role

namespace Profile

variable {p : Profile} {t : Term}

def namespaceDecls (p : Profile) (ts : List Term) : List Term := ts.filter fun t => (p.role t).isNamespaceDecl

def importDecls (p : Profile) (ts : List Term) : List Term := ts.filter fun t => (p.role t).isImportDecl

def bodyDecls (p : Profile) (ts : List Term) : List Term := ts.filter fun t => p.role t = .body

theorem namespaceDecls_cons (p : Profile) (t : Term) (ts : List Term) : p.namespaceDecls (t :: ts) =
    if (p.role t).isNamespaceDecl then t :: p.namespaceDecls ts else p.namespaceDecls ts :=
  List.filter_cons

theorem importDecls_cons (p : Profile) (t : Term) (ts : List Term) : p.importDecls (t :: ts) =
    if (p.role t).isImportDecl then t :: p.importDecls ts else p.importDecls ts :=
  List.filter_cons

theorem bodyDecls_cons (p : Profile) (t : Term) (ts : List Term) : p.bodyDecls (t :: ts) =
    if p.role t = .body then t :: p.bodyDecls ts else p.bodyDecls ts := by
  simp [bodyDecls, List.filter_cons]

theorem namespaceDecls_append (p : Profile) (ts us : List Term) :
    p.namespaceDecls (ts ++ us) = p.namespaceDecls ts ++ p.namespaceDecls us := List.filter_append ts us

theorem importDecls_append (p : Profile) (ts us : List Term) :
    p.importDecls (ts ++ us) = p.importDecls ts ++ p.importDecls us := List.filter_append ts us

theorem bodyDecls_append (p : Profile) (ts us : List Term) :
    p.bodyDecls (ts ++ us) = p.bodyDecls ts ++ p.bodyDecls us := List.filter_append ts us

/-- The three parts have nothing in common and leave nothing out. -/
theorem length_parts {ts : List Term} (h : ∀ t ∈ ts, p.role t ≠ .other) :
    ts.length = (p.namespaceDecls ts).length + (p.importDecls ts).length + (p.bodyDecls ts).length := by
  induction ts with
  | nil => rfl
  | cons t ts ih =>
    obtain ⟨ht, hts⟩ := List.forall_mem_cons.1 h
    rw [namespaceDecls_cons, importDecls_cons, bodyDecls_cons, List.length_cons, ih hts]
    cases hr : p.role t with
    | namespaceDecl =>
      simp only [Role.isNamespaceDecl, Role.isImportDecl, if_true, Bool.false_eq_true, if_false, reduceCtorEq,
        List.length_cons]
      omega
    | importDecl =>
      simp only [Role.isNamespaceDecl, Role.isImportDecl, if_true, Bool.false_eq_true, if_false, reduceCtorEq,
        List.length_cons]
      omega
    | body =>
      simp only [Role.isNamespaceDecl, Role.isImportDecl, if_true, Bool.false_eq_true, if_false, List.length_cons]
      omega
    | other => exact absurd hr ht

/-- The constructors in the tables of a profile. -/
def Lists (p : Profile) (cons : String) : Prop :=
  (∃ d, p.namespaceDecl = some d ∧ d.cons = cons) ∨ cons ∈ p.imports.keys ∨ cons ∈ p.body.keys

theorem namespaceIndex?_eq_none_iff :
    p.namespaceIndex? t = none ↔ ∀ d, p.namespaceDecl = some d → t.cons? ≠ some d.cons := by
  rw [namespaceIndex?]
  split
  · rename_i d h
    simp [h, Term.isAppl]
  · rename_i h
    simp [h]

theorem importIndex?_eq_none_iff : p.importIndex? t = none ↔ ∀ cons, t.cons? = some cons → cons ∉ p.imports.keys := by
  rw [importIndex?, Option.bind_eq_none_iff]
  refine forall₂_congr fun cons _ => ?_
  rw [← Table.contains_iff, Table.contains, Option.not_isSome_iff_eq_none]

theorem isBody_eq_false_iff : p.isBody t = false ↔ ∀ cons, t.cons? = some cons → cons ∉ p.body.keys := by
  rw [isBody]
  cases t.cons? with
  | none => simp
  | some cons => simp [← Table.contains_iff]

theorem role_eq_other_iff : p.role t = .other ↔ ∀ cons, t.cons? = some cons → ¬ p.Lists cons := by
  have hrole : p.role t = .other ↔ p.namespaceIndex? t = none ∧ p.importIndex? t = none ∧ p.isBody t = false := by
    rw [role]
    split
    · simp [*]
    · split
      · simp [*]
      · cases h : p.isBody t <;> simp [*]
  rw [hrole, namespaceIndex?_eq_none_iff, importIndex?_eq_none_iff, isBody_eq_false_iff]
  constructor
  · rintro ⟨hn, hi, hb⟩ cons hc (⟨d, hd, rfl⟩ | hm | hm)
    · exact hn d hd hc
    · exact hi cons hc hm
    · exact hb cons hc hm
  · intro h
    exact ⟨fun d hd hc => h d.cons hc (.inl ⟨d, hd, rfl⟩), fun cons hc hm => h cons hc (.inr (.inl hm)),
      fun cons hc hm => h cons hc (.inr (.inr hm))⟩

end Profile

/-! ## One more declaration -/

/-- An error that refuses a declaration because it plays no part. -/
def SourceError.IsUnexpected (e : SourceError) : Prop := ∃ decl language, e = .unexpected decl language

namespace SourceUnit

variable {u u' v w : SourceUnit} {t : Term} {ts taken taken' : List Term} {index : Nat} {role : Role} {e : SourceError}
  {outcome : Except SourceError Role}

/-- Whether the namespace declaration with its name at `index` has the right one. -/
def nameCheck (u : SourceUnit) (t : Term) (index : Nat) : Except SourceError Unit :=
  (t.child index).mapError .namespaceShape >>= fun arg => u.checkName (qualifiedName arg)

/-- Whether a declaration is a namespace declaration with the name of the unit. -/
def declares (u : SourceUnit) (t : Term) : Bool :=
  match u.profile.role t with
  | .namespaceDecl index => (u.nameCheck t index).isOk
  | _ => false

/-- What can come of one more declaration: it is refused and changes nothing, or its text is put into the part that
it plays. -/
inductive Added (u : SourceUnit) (t : Term) : Except SourceError Role → SourceUnit → Prop where
  | header {index : Nat} (role : u.profile.role t = .namespaceDecl index) (first : u.header = none)
    (right : u.declares t = true) : Added u t (.ok (.namespaceDecl index)) { u with header := some t.text }
  | importDecl {index : Nat} (role : u.profile.role t = .importDecl index) :
    Added u t (.ok (.importDecl index)) { u with imports := u.imports ++ [t.text] }
  | body (role : u.profile.role t = .body) : Added u t (.ok .body) { u with body := u.body ++ [t.text] }
  | duplicate {index : Nat} (role : u.profile.role t = .namespaceDecl index) (second : u.header ≠ none) :
    Added u t (.error (.duplicateHeader t)) u
  | misnamed {index : Nat} {e : SourceError} (role : u.profile.role t = .namespaceDecl index) (first : u.header = none)
    (wrong : u.declares t = false) (known : ¬ e.IsUnexpected) : Added u t (.error e) u
  | unexpected (role : u.profile.role t = .other) : Added u t (.error (.unexpected t u.profile.language)) u

theorem declares_of_role (h : u.profile.role t = .namespaceDecl index) : u.declares t = (u.nameCheck t index).isOk := by
  rw [declares, h]

theorem not_isUnexpected_of_checkName {qualified : String} (h : u.checkName qualified = .error e) :
    ¬ e.IsUnexpected := by
  rintro ⟨decl, language, rfl⟩
  rw [checkName] at h
  split at h
  split at h
  · cases h
  · split at h <;> cases h

theorem not_isUnexpected_of_nameCheck (h : u.nameCheck t index = .error e) : ¬ e.IsUnexpected := by
  rw [nameCheck] at h
  cases hc : t.child index with
  | error shape =>
    rw [hc] at h
    cases h
    rintro ⟨decl, language, he⟩
    cases he
  | ok arg =>
    rw [hc] at h
    exact not_isUnexpected_of_checkName h

/-- A second namespace declaration is refused, whatever it declares. -/
theorem addHeader_second (h : u.header ≠ none) :
    (addHeader t index).run u = (.error (.duplicateHeader t), u) := by
  rw [addHeader, query_bind, if_pos (Option.isSome_iff_ne_none.2 h)]

/-- A first namespace declaration is taken if its name can be found and is the right one. -/
theorem addHeader_first (h : u.header = none) : (addHeader t index).run u =
    match u.nameCheck t index with
    | .ok () => (.ok (), { u with header := some t.text })
    | .error e => (.error e, u) := by
  rw [addHeader, query_bind, if_neg (by simp [h]), nameCheck]
  cases hc : (t.child index).mapError SourceError.namespaceShape with
  | error e => exact bind_of_error rfl _
  | ok arg =>
    change (query (fun u => u.checkName (qualifiedName arg)) >>= _).run u = match u.checkName (qualifiedName arg) with
      | .ok () => _
      | .error e => _
    rw [query_bind]
    cases u.checkName (qualifiedName arg) <;> rfl

theorem add_run (t : Term) (u : SourceUnit) :
    (add t).run u = (addAs t (u.profile.role t) >>= fun _ => pure (u.profile.role t)).run u := by
  rw [add, query_bind]

/-- Nothing else can come of one more declaration. -/
theorem added_of_run (h : (add t).run u = (outcome, u')) : Added u t outcome u' := by
  rw [add_run] at h
  cases hr : u.profile.role t with
  | namespaceDecl index =>
    rw [hr] at h
    change (addHeader t index >>= fun _ => pure (Role.namespaceDecl index)).run u = _ at h
    by_cases hh : u.header = none
    · have hd := declares_of_role hr
      cases hc : u.nameCheck t index with
      | error e =>
        rw [hc] at hd
        rw [bind_of_error (by rw [addHeader_first hh, hc])] at h
        cases h
        exact .misnamed hr hh hd (not_isUnexpected_of_nameCheck hc)
      | ok =>
        rw [hc] at hd
        rw [bind_of_ok (by rw [addHeader_first hh, hc])] at h
        cases h
        exact .header hr hh hd
    · rw [bind_of_error (addHeader_second hh)] at h
      cases h
      exact .duplicate hr hh
  | importDecl index =>
    rw [hr] at h
    cases h
    exact .importDecl hr
  | body =>
    rw [hr] at h
    cases h
    exact .body hr
  | other =>
    rw [hr] at h
    cases h
    exact .unexpected hr

namespace Added

theorem eq_of_error (h : Added u t (.error e) u') : u' = u := by
  cases h <;> rfl

/-- Imports and declarations of the body are never refused. -/
theorem role_of_error (h : Added u t (.error e) u') :
    (u.profile.role t).isImportDecl = false ∧ u.profile.role t ≠ .body := by
  cases h with
  | duplicate role => simp [role, Role.isImportDecl]
  | misnamed role => simp [role, Role.isImportDecl]
  | unexpected role => simp [role, Role.isImportDecl]

theorem isUnexpected_iff (h : Added u t outcome u') :
    (∃ e, outcome = .error e ∧ e.IsUnexpected) ↔ u.profile.role t = .other := by
  cases h with
  | header role => simp [role]
  | importDecl role => simp [role]
  | body role => simp [role]
  | duplicate role => simp [role, SourceError.IsUnexpected]
  | misnamed role _ _ known => simpa [role] using known
  | unexpected role => simp [role, SourceError.IsUnexpected]

theorem profile_eq (h : Added u t outcome u') : u'.profile = u.profile := by
  cases h <;> rfl

theorem declares_eq (h : Added u t outcome u') : u'.declares = u.declares := by
  cases h <;> rfl

end Added

/-- A namespace declaration behind the first one that is taken is a duplicate. -/
theorem add_duplicate (hr : (u.profile.role t).isNamespaceDecl = true) (hh : u.header ≠ none) :
    (add t).run u = (.error (.duplicateHeader t), u) := by
  cases hrun : (add t).run u with
  | mk outcome u' =>
    cases added_of_run hrun with
    | header _ first => exact absurd first hh
    | importDecl role => simp [role, Role.isNamespaceDecl] at hr
    | body role => simp [role, Role.isNamespaceDecl] at hr
    | duplicate => rfl
    | misnamed _ first => exact absurd first hh
    | unexpected role => simp [role, Role.isNamespaceDecl] at hr

/-! ## Any number of declarations -/

/-- The declarations of a list that are taken when they are added one after another. -/
def accepted (u : SourceUnit) : List Term → List Term
  | [] => []
  | t :: ts =>
    match (add t).run u with
    | (.ok _, u') => t :: u'.accepted ts
    | (.error _, u') => u'.accepted ts

/-- The unit `v` holds the texts of some more declarations than `u`, each in the part that it plays. -/
structure Collected (u : SourceUnit) (taken : List Term) (v : SourceUnit) : Prop where
  profile : v.profile = u.profile
  header : v.header.toList = u.header.toList ++ (u.profile.namespaceDecls taken).map Term.text
  imports : v.imports = u.imports ++ (u.profile.importDecls taken).map Term.text
  body : v.body = u.body ++ (u.profile.bodyDecls taken).map Term.text
  part : ∀ t ∈ taken, u.profile.role t ≠ .other

theorem Collected.refl (u : SourceUnit) : Collected u [] u := by
  constructor <;> simp [Profile.namespaceDecls, Profile.importDecls, Profile.bodyDecls]

theorem Collected.trans (h : Collected u taken v) (h' : Collected v taken' w) : Collected u (taken ++ taken') w := by
  obtain ⟨hp, hh, hi, hb, hr⟩ := h
  obtain ⟨hp', hh', hi', hb', hr'⟩ := h'
  rw [hp] at hp' hh' hi' hb' hr'
  refine ⟨hp', ?_, ?_, ?_, List.forall_mem_append.2 ⟨hr, hr'⟩⟩
  · rw [hh', hh, Profile.namespaceDecls_append, List.map_append, List.append_assoc]
  · rw [hi', hi, Profile.importDecls_append, List.map_append, List.append_assoc]
  · rw [hb', hb, Profile.bodyDecls_append, List.map_append, List.append_assoc]

theorem Added.collected (h : Added u t (.ok role) u') : Collected u [t] u' := by
  cases h with
  | header role first =>
    constructor <;> simp [Profile.namespaceDecls, Profile.importDecls, Profile.bodyDecls, role, first,
      Role.isNamespaceDecl, Role.isImportDecl]
  | importDecl role =>
    constructor <;> simp [Profile.namespaceDecls, Profile.importDecls, Profile.bodyDecls, role,
      Role.isNamespaceDecl, Role.isImportDecl]
  | body role =>
    constructor <;> simp [Profile.namespaceDecls, Profile.importDecls, Profile.bodyDecls, role,
      Role.isNamespaceDecl, Role.isImportDecl]

/-- What is collected are the declarations that are taken. -/
theorem collected_addAll (u : SourceUnit) (ts : List Term) : Collected u (u.accepted ts) (u.addAll ts) := by
  induction ts generalizing u with
  | nil => exact .refl u
  | cons t ts ih =>
    have hall : u.addAll (t :: ts) = ((add t).run u).2.addAll ts := rfl
    rw [hall, accepted]
    cases hrun : (add t).run u with
    | mk outcome u' =>
      cases outcome with
      | ok role => exact (added_of_run hrun).collected.trans (ih u')
      | error e =>
        obtain rfl := (added_of_run hrun).eq_of_error
        exact ih u'

/-- All imports and all declarations of the body are taken. -/
theorem parts_accepted (u : SourceUnit) (ts : List Term) :
    u.profile.importDecls (u.accepted ts) = u.profile.importDecls ts
      ∧ u.profile.bodyDecls (u.accepted ts) = u.profile.bodyDecls ts := by
  induction ts generalizing u with
  | nil => exact ⟨rfl, rfl⟩
  | cons t ts ih =>
    rw [accepted, Profile.importDecls_cons, Profile.bodyDecls_cons]
    cases hrun : (add t).run u with
    | mk outcome u' =>
      have hadded := added_of_run hrun
      obtain ⟨hi, hb⟩ := ih u'
      rw [hadded.profile_eq] at hi hb
      cases outcome with
      | ok role =>
        change _ = _ ∧ _ = _
        rw [Profile.importDecls_cons, Profile.bodyDecls_cons, hi, hb]
        exact ⟨rfl, rfl⟩
      | error e =>
        obtain ⟨hni, hnb⟩ := hadded.role_of_error
        rw [if_neg (by simp [hni]), if_neg hnb]
        exact ⟨hi, hb⟩

/-- Of the namespace declarations only the first one with the right name is taken. -/
theorem namespaceDecls_accepted (u : SourceUnit) (ts : List Term) :
    u.profile.namespaceDecls (u.accepted ts)
      = if u.header = none then ((u.profile.namespaceDecls ts).find? u.declares).toList else [] := by
  induction ts generalizing u with
  | nil => simp [accepted, Profile.namespaceDecls]
  | cons t ts ih =>
    rw [accepted]
    cases hrun : (add t).run u with
    | mk outcome u' =>
      have hadded := added_of_run hrun
      have hrest := ih u'
      rw [hadded.profile_eq, hadded.declares_eq] at hrest
      cases hadded with
      | header role first right =>
        simp [Profile.namespaceDecls_cons, role, Role.isNamespaceDecl, hrest, first, right]
      | importDecl role => simp [Profile.namespaceDecls_cons, role, Role.isNamespaceDecl, hrest]
      | body role => simp [Profile.namespaceDecls_cons, role, Role.isNamespaceDecl, hrest]
      | duplicate role second => simp [hrest, second]
      | misnamed role first wrong =>
        simp [Profile.namespaceDecls_cons, role, Role.isNamespaceDecl, hrest, first, wrong]
      | unexpected role => simp [Profile.namespaceDecls_cons, role, Role.isNamespaceDecl, hrest]

theorem generated_eq_empty_iff : u.generated = "" ↔ u.header = none := by
  rw [generated]
  cases u.header with
  | none => simp
  | some header => simp

theorem ofPath_eq_ok {profile : Profile} {source : Path} (h : ofPath profile source = .ok u) :
    u.profile = profile ∧ u.header = none ∧ u.imports = [] ∧ u.body = [] := by
  rw [ofPath] at h
  split at h
  · cases h
  · cases h
    exact ⟨rfl, rfl, rfl, rfl⟩

/-- **A unit has collected what it has accepted.** Whatever declarations a new unit is given: its header, its imports
and its body are the texts of those it has accepted, each in one part and in order, and of the imports and of the body
none is left out. One more declaration is refused, and then nothing changes, or its text is put at the end of one part.
It is unexpected exactly if its constructor is in no table of the profile, and a duplicate if it is a namespace
declaration behind one that was accepted. Source text is generated from the first accepted namespace declaration on,
and depends only on the namespace declarations, the imports and the declarations of the body, each in their order. -/
theorem collected_of_ofPath {profile : Profile} {source : Path} (h : ofPath profile source = .ok u) (ts : List Term) :
    ((u.addAll ts).header.toList = (profile.namespaceDecls (u.accepted ts)).map Term.text
      ∧ (u.addAll ts).imports = (profile.importDecls (u.accepted ts)).map Term.text
      ∧ (u.addAll ts).body = (profile.bodyDecls (u.accepted ts)).map Term.text
      ∧ (u.accepted ts).length = (u.addAll ts).header.toList.length + (u.addAll ts).imports.length
          + (u.addAll ts).body.length)
    ∧ (profile.importDecls (u.accepted ts) = profile.importDecls ts
      ∧ profile.bodyDecls (u.accepted ts) = profile.bodyDecls ts)
    ∧ (∀ t outcome v, (add t).run (u.addAll ts) = (outcome, v) → Added (u.addAll ts) t outcome v
      ∧ ((∃ e, outcome = .error e) → v = u.addAll ts)
      ∧ ((∃ e, outcome = .error e ∧ e.IsUnexpected) ↔ ∀ cons, t.cons? = some cons → ¬ profile.Lists cons)
      ∧ ((profile.role t).isNamespaceDecl = true → profile.namespaceDecls (u.accepted ts) ≠ [] →
          outcome = .error (.duplicateHeader t)))
    ∧ ((u.addAll ts).generated = "" ↔ profile.namespaceDecls (u.accepted ts) = [])
    ∧ ∀ ts', profile.namespaceDecls ts' = profile.namespaceDecls ts → profile.importDecls ts' = profile.importDecls ts →
      profile.bodyDecls ts' = profile.bodyDecls ts → (u.addAll ts').generated = (u.addAll ts).generated := by
  obtain ⟨rfl, hnone, hnoImports, hnoBody⟩ := ofPath_eq_ok h
  have hparts (ts : List Term) : (u.addAll ts).header.toList = (u.profile.namespaceDecls (u.accepted ts)).map Term.text
      ∧ (u.addAll ts).imports = (u.profile.importDecls (u.accepted ts)).map Term.text
      ∧ (u.addAll ts).body = (u.profile.bodyDecls (u.accepted ts)).map Term.text := by
    obtain ⟨_, hh, hi, hb, _⟩ := collected_addAll u ts
    rw [hnone] at hh
    rw [hnoImports] at hi
    rw [hnoBody] at hb
    exact ⟨hh, hi, hb⟩
  obtain ⟨hprofile, _, _, _, hpart⟩ := collected_addAll u ts
  obtain ⟨hh, hi, hb⟩ := hparts ts
  have hheader : (u.addAll ts).header = none ↔ u.profile.namespaceDecls (u.accepted ts) = [] := by
    rw [← Option.toList_eq_nil_iff, hh, List.map_eq_nil_iff]
  refine ⟨⟨hh, hi, hb, ?_⟩, parts_accepted u ts, fun t outcome v hrun => ?_, ?_, fun ts' hns his hbs => ?_⟩
  · rw [hh, hi, hb, List.length_map, List.length_map, List.length_map]
    exact Profile.length_parts hpart
  · have hadded := added_of_run hrun
    refine ⟨hadded, ?_, ?_, fun hr hne => ?_⟩
    · rintro ⟨e, rfl⟩
      exact hadded.eq_of_error
    · rw [hadded.isUnexpected_iff, hprofile, Profile.role_eq_other_iff]
    · rw [add_duplicate (by rw [hprofile, hr]) (mt hheader.1 hne)] at hrun
      exact (Prod.mk.inj hrun).1.symm
  · rw [generated_eq_empty_iff, hheader]
  · obtain ⟨hh', hi', hb'⟩ := hparts ts'
    have hlist : (u.addAll ts').header.toList = (u.addAll ts).header.toList := by
      rw [hh', hh, namespaceDecls_accepted, namespaceDecls_accepted, hns]
    have hsame : (u.addAll ts').header = (u.addAll ts).header := by
      simpa only [Option.head?_toList] using congrArg List.head? hlist
    rw [generated, generated, hsame, hi', hi, hb', hb, (parts_accepted u ts).1, (parts_accepted u ts).2,
      (parts_accepted u ts').1, (parts_accepted u ts').2, his, hbs]

/-! ### An example -/

/-- A profile in which one constructor is in two tables. -/
def exampleProfile : Profile where
  language := "x"
  extensionSuffix := "xb"
  baseSuffix := "b"
  toplevel := none
  namespaceDecl := some ⟨"Module", 0⟩
  namespaceKind := .nested '.'
  namespaceSuffixes := .empty
  imports := .ofList [("Import", 0), ("Module", 0)]
  body := .ofNames ["Def"]
  artifacts := ⟨⟨"bin"⟩, "x"⟩

/-- An import, something that plays no part, and namespace declarations with a wrong name and with the right one. -/
def exampleDecls : List Term :=
  [.appl "Import" [.str "n"], .str "Def", .appl "Module" [.str "m"], .appl "Module" [.str "a.m"]]

/-- The right namespace declaration is taken, and then every other one is a duplicate. -/
theorem collected_of_ofPath_example : ∃ u, ofPath exampleProfile ⟨"a/m.xb"⟩ = .ok u
    ∧ (u.addAll exampleDecls).header.toList = ["Module(\"a.m\")"]
    ∧ ∀ outcome v, (add (.appl "Module" [])).run (u.addAll exampleDecls) = (outcome, v) →
      outcome = .error (.duplicateHeader (.appl "Module" [])) := by
  have htaken : (ofPath exampleProfile ⟨"a/m.xb"⟩).toOption.map (fun u => u.accepted exampleDecls)
      = some [.appl "Import" [.str "n"], .appl "Module" [.str "a.m"]] := by decide +kernel
  cases h : ofPath exampleProfile ⟨"a/m.xb"⟩ with
  | error e =>
    rw [h] at htaken
    cases htaken
  | ok u =>
    rw [h] at htaken
    have haccepted : u.accepted exampleDecls = [.appl "Import" [.str "n"], .appl "Module" [.str "a.m"]] :=
      Option.some.inj htaken
    obtain ⟨⟨hheader, _⟩, _, hnext, _⟩ := collected_of_ofPath h exampleDecls
    rw [haccepted] at hheader hnext
    refine ⟨u, rfl, ?_, fun outcome v hrun => ?_⟩
    · rw [hheader]
      decide +kernel
    · exact (hnext _ outcome v hrun).2.2.2 (by decide +kernel) (by decide +kernel)

end SourceUnit

end BaseLang
