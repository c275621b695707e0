import BaseLang.Proofs.Chain
import BaseLang.Proofs.Extraction

/-!
# The encoding of a whole description

How generated code spells what it declares about a language, and that reading it gives the same declarations.

* `Term.encodeString`, `Term.encodeIndex`, `Term.encodePair`, `Term.encodeKind` : single values;
* `Term.EncodesList` : a list, as a chain that ends in a terminal of no or one element;
* `Term.Unrecognized` : a declaration that defines no field;
* `Declarations.Spells` : the term that a definition builds for its field;
* `Declarations.Encodes` : definitions in any order, with other declarations in between;
* `decode_spelled` : decoding a spelled field sets that field, and no other one (`Declarations.copyFrom`);
* `read_encoded` : what is read off a module is what its definitions encode, also behind printing and reading it;
* `not_always_read_back` : for the latter, the names in all other declarations must be identifiers.
-/

namespace BaseLang

/-! ## Values -/

namespace Term

/-- A string literal, with its quotes written out. -/
def encodeString (s : String) : Term := layered (.appl "Str" [.str ("\"" ++ s ++ "\"")])

def encodeIndex (n : Nat) : Term := layered (.appl "Int" [.str (String.ofList (Nat.toDigits 10 n))])

def encodePair (e : String × Nat) : Term := layered (.appl "Tuple" [.list [encodeString e.1, encodeIndex e.2]])

def encodeKind : NamespaceKind → Term
  | .flat => layered (.appl "Op" [.str "SXNamespaceFlat", .list []])
  | .nested c => layered (.appl "Op" [.str "SXNamespaceNested", .list [encodeString (String.singleton c)]])
  | .prefixed c => layered (.appl "Op" [.str "SXNamespacePrefixed", .list [encodeString (String.singleton c)]])

/-- A chain of some elements. It ends in a terminal that has the last element or none. -/
inductive EncodesList : List Term → Term → Prop where
  | nil : EncodesList [] (layered (.appl "List" [.list []]))
  | last (t : Term) : EncodesList [t] (layered (.appl "List" [.list [t]]))
  | cons {ts : List Term} {tail : Term} (t : Term) (rest : EncodesList ts tail) :
    EncodesList (t :: ts) (layered (.appl "ListTail" [.list [t], tail]))

theorem destruct₁_appl (cons : String) (t : Term) : (appl cons [t]).destruct₁ cons = .ok t := by
  rw [destruct₁, destruct, argsOf, if_pos rfl]
  rfl

theorem destruct₂_appl (cons : String) (t u : Term) : (appl cons [t, u]).destruct₂ cons = .ok (t, u) := by
  rw [destruct₂, destruct, argsOf, if_pos rfl]
  rfl

theorem unwrapped_layered (t : Term) : (layered t).unwrapped = t := rfl

theorem decodeString_encode (s : String) : (encodeString s).decodeString = .ok s := by
  simp only [decodeString, encodeString, unwrapped_layered, destruct₁_appl, asStr, Except.map, Text.unquote_quotes]

theorem literalInt_toDigits {n : Nat} (h : (n : Int) ≤ Int64.maxValue.toInt) :
    literalInt (.str (String.ofList (Nat.toDigits 10 n))) = .ok (Int64.ofInt n) := by
  have hd : ∀ c ∈ Nat.toDigits 10 n, c.isDigit = true := Text.isDigit_of_mem_toDigits
  have hquote : '"' ∉ Nat.toDigits 10 n := fun hm => absurd (hd _ hm) (by decide)
  rw [literalInt]
  · simp only [asStr, String.toList_ofList]
    rw [Text.unquoteChars_of_notMem hquote, Text.trim_eq_self fun c hc => Text.isBlank_of_isDigit (hd c hc),
      Text.readInt64?_toDigits h]
  · simp

theorem decodeIndex_encode {n : Nat} (h : (n : Int) ≤ Int64.maxValue.toInt) :
    (encodeIndex n).decodeIndex = .ok n := by
  have hmax : Int64.maxValue.toInt = 9223372036854775807 := by decide
  have hvalue : (Int64.ofInt n).toInt = n := Int64.toInt_ofInt_of_le (by omega) (by omega)
  simp only [decodeIndex, encodeIndex, unwrapped_layered, destruct₁_appl, literalInt_toDigits h, asIndex, hvalue,
    Int.natCast_nonneg, if_true, Int.toNat_natCast]

theorem decodePair_encode {e : String × Nat} (h : (e.2 : Int) ≤ Int64.maxValue.toInt) :
    (encodePair e).decodePair = .ok e := by
  have hparts : (encodePair e).pairParts = .ok (encodeString e.1, encodeIndex e.2) := rfl
  simp only [decodePair, hparts, ok_bind, decodeString_encode, decodeIndex_encode h]
  rfl

theorem EncodesList.spellsList {ts : List Term} {t : Term} (h : EncodesList ts t) : t.SpellsList ts := by
  induction h with
  | nil => exact .terminal (.inr rfl) (Nat.zero_le 1)
  | last t => exact .terminal (.inr rfl) (Nat.le_refl 1)
  | cons t _ ih => exact .cons (.inr rfl) ih

theorem decodeList_encoded {α : Type} {encode : α → Term} {decode : Term → Except ShapeError α} {vs : List α}
    {t : Term} (ht : EncodesList (vs.map encode) t) (h : ∀ v ∈ vs, decode (encode v) = .ok v) :
    t.decodeList decode = .ok vs :=
  ht.spellsList.decodeList_eq_ok_iff.2 (forall₂_encoded h)

/-! ### Names -/

theorem wellNamed_appl₁ {cons : String} {t : Term} (hc : Lexer.isIdent cons.toList) (h : t.WellNamed) :
    (appl cons [t]).WellNamed :=
  wellNamed_appl.2 ⟨hc, List.forall_mem_singleton.2 h⟩

theorem wellNamed_appl₂ {cons : String} {t u : Term} (hc : Lexer.isIdent cons.toList) (ht : t.WellNamed)
    (hu : u.WellNamed) : (appl cons [t, u]).WellNamed :=
  wellNamed_appl.2 ⟨hc, List.forall_mem_cons.2 ⟨ht, List.forall_mem_singleton.2 hu⟩⟩

theorem wellNamed_list₁ {t : Term} (h : t.WellNamed) : (list [t]).WellNamed :=
  wellNamed_list.2 (List.forall_mem_singleton.2 h)

theorem wellNamed_layered {t : Term} (h : t.WellNamed) : t.layered.WellNamed := wellNamed_appl₁ (by decide) h

theorem wellNamed_encodeString (s : String) : (encodeString s).WellNamed :=
  wellNamed_layered (wellNamed_appl₁ (by decide) (wellNamed_str _))

theorem wellNamed_encodeIndex (n : Nat) : (encodeIndex n).WellNamed :=
  wellNamed_layered (wellNamed_appl₁ (by decide) (wellNamed_str _))

theorem wellNamed_encodePair (e : String × Nat) : (encodePair e).WellNamed := by
  have hparts : (Term.list [encodeString e.1, encodeIndex e.2]).WellNamed := wellNamed_list.2
    (List.forall_mem_cons.2 ⟨wellNamed_encodeString e.1, List.forall_mem_singleton.2 (wellNamed_encodeIndex e.2)⟩)
  exact wellNamed_layered (wellNamed_appl₁ (by decide) hparts)

theorem wellNamed_encodeKind (kind : NamespaceKind) : (encodeKind kind).WellNamed := by
  have hop : ∀ {name : String} {args : Term}, args.WellNamed → (layered (.appl "Op" [.str name, args])).WellNamed :=
    fun hargs => wellNamed_layered (wellNamed_appl₂ (by decide) (wellNamed_str _) hargs)
  cases kind with
  | flat => exact hop (wellNamed_list.2 (by simp))
  | nested c => exact hop (wellNamed_list₁ (wellNamed_encodeString _))
  | prefixed c => exact hop (wellNamed_list₁ (wellNamed_encodeString _))

theorem wellNamed_encodesList {ts : List Term} {t : Term} (h : EncodesList ts t) (hts : ∀ t ∈ ts, t.WellNamed) :
    t.WellNamed := by
  induction h with
  | nil => exact wellNamed_layered (wellNamed_appl₁ (by decide) (wellNamed_list.2 hts))
  | last t => exact wellNamed_layered (wellNamed_appl₁ (by decide) (wellNamed_list.2 hts))
  | cons t _ ih =>
    obtain ⟨ht, hts⟩ := List.forall_mem_cons.1 hts
    exact wellNamed_layered (wellNamed_appl₂ (by decide) (wellNamed_list₁ ht) (ih hts))

/-- A declaration that defines no field. -/
def Unrecognized (t : Term) : Prop :=
  ∀ (x : Definition) (rhs : Term), t ≠ .appl "Strategies" [.list [.appl "SDefNoArgs" [.str x.name, rhs]]]

end Term

open Term

/-! ## Fields -/

theorem built_build (t : Term) : built (.appl "Build" [t]) = .ok t := rfl

def Definition.declaration (x : Definition) (t : Term) : Term :=
  .appl "Strategies" [.list [.appl "SDefNoArgs" [.str x.name, .appl "Build" [t]]]]

namespace Declarations

variable {d decls : Declarations} {x y : Definition} {t u : Term} {ts : List Term}

/-- The term that a definition builds for its field. There is none for an optional field that is not set. -/
inductive Spells (d : Declarations) : Definition → Term → Prop where
  | toplevel {s : String} (h : d.toplevel = some s) : Spells d .toplevel (encodeString s)
  | extensionSuffix {s : String} (h : d.extensionSuffix = some s) : Spells d .extensionSuffix (encodeString s)
  | baseSuffix {s : String} (h : d.baseSuffix = some s) : Spells d .baseSuffix (encodeString s)
  | body {t : Term} (h : EncodesList (d.body.keys.map encodeString) t) : Spells d .body t
  | namespaceDecl {n : NamespaceDecl} (h : d.namespaceDecl = some n) :
    Spells d .namespaceDecl (encodePair (n.cons, n.index))
  | imports {t : Term} (h : EncodesList (d.imports.entries.map encodePair) t) : Spells d .imports t
  | namespaceKind {kind : NamespaceKind} (h : d.namespaceKind = some kind) :
    Spells d .namespaceKind (encodeKind kind)
  | namespaceSuffixes {t : Term} (h : EncodesList (d.namespaceSuffixes.entries.map encodePair) t) :
    Spells d .namespaceSuffixes t

/-- File suffixes are not empty and have no dot in front, and argument positions fit 64 bits. -/
structure Proper (d : Declarations) : Prop where
  extensionSuffix : ∀ s ∈ d.extensionSuffix, s ≠ "" ∧ s.toList.head? ≠ some '.'
  baseSuffix : ∀ s ∈ d.baseSuffix, s ≠ "" ∧ s.toList.head? ≠ some '.'
  namespaceDecl : ∀ n ∈ d.namespaceDecl, (n.index : Int) ≤ Int64.maxValue.toInt
  imports : ∀ e ∈ d.imports.entries, (e.2 : Int) ≤ Int64.maxValue.toInt
  namespaceSuffixes : ∀ e ∈ d.namespaceSuffixes.entries, (e.2 : Int) ≤ Int64.maxValue.toInt

/-- Two records agree in the field of a definition. -/
def SameAt (d d' : Declarations) : Definition → Prop
  | .toplevel => d.toplevel = d'.toplevel
  | .extensionSuffix => d.extensionSuffix = d'.extensionSuffix
  | .baseSuffix => d.baseSuffix = d'.baseSuffix
  | .body => d.body = d'.body
  | .namespaceDecl => d.namespaceDecl = d'.namespaceDecl
  | .imports => d.imports = d'.imports
  | .namespaceKind => d.namespaceKind = d'.namespaceKind
  | .namespaceSuffixes => d.namespaceSuffixes = d'.namespaceSuffixes

/-- The declarations with the field of one definition as in `d`. -/
def copyFrom (decls d : Declarations) (x : Definition) : Declarations where
  extensionSuffix := if x = .extensionSuffix then d.extensionSuffix else decls.extensionSuffix
  baseSuffix := if x = .baseSuffix then d.baseSuffix else decls.baseSuffix
  toplevel := if x = .toplevel then d.toplevel else decls.toplevel
  namespaceDecl := if x = .namespaceDecl then d.namespaceDecl else decls.namespaceDecl
  namespaceKind := if x = .namespaceKind then d.namespaceKind else decls.namespaceKind
  namespaceSuffixes := if x = .namespaceSuffixes then d.namespaceSuffixes else decls.namespaceSuffixes
  imports := if x = .imports then d.imports else decls.imports
  body := if x = .body then d.body else decls.body

theorem eq_of_sameAt (h : ∀ x, SameAt decls d x) : decls = d := by
  cases decls
  cases d
  rw [mk.injEq]
  exact ⟨h .extensionSuffix, h .baseSuffix, h .toplevel, h .namespaceDecl, h .namespaceKind, h .namespaceSuffixes,
    h .imports, h .body⟩

theorem sameAt_copyFrom_self (decls d : Declarations) (x : Definition) : SameAt (decls.copyFrom d x) d x := by
  cases x <;> rfl

theorem SameAt.copyFrom (h : SameAt decls d y) (x : Definition) : SameAt (decls.copyFrom d x) d y := by
  cases y <;> exact ite_eq_left_iff.2 fun _ => h

theorem fileSuffix_encode {s : String} (h : s ≠ "" ∧ s.toList.head? ≠ some '.') :
    fileSuffix (.appl "Build" [encodeString s]) = .ok s := by
  have hs : (decide (s = "") || decide (s.toList.head? = some '.')) = false := by simp [h.1, h.2]
  rw [fileSuffix, built_build, ok_bind, decodeString_encode, ok_bind, hs]
  rfl

theorem separatorOf_encode (c : Char) : separatorOf (.list [encodeString (String.singleton c)]) = .ok c := by
  have helem : (Term.list [encodeString (String.singleton c)]).elem₁ = .ok (encodeString (String.singleton c)) := rfl
  rw [separatorOf, helem, ok_bind, decodeString_encode, ok_bind, String.toList_singleton]
  rfl

theorem kindOf_encode (kind : NamespaceKind) : kindOf (.appl "Build" [encodeKind kind]) = .ok kind := by
  have hflat : Text.unquote "SXNamespaceFlat" = "SXNamespaceFlat" := Text.unquote_of_notMem (by decide)
  have hnested : Text.unquote "SXNamespaceNested" = "SXNamespaceNested" := Text.unquote_of_notMem (by decide)
  have hprefixed : Text.unquote "SXNamespacePrefixed" = "SXNamespacePrefixed" := Text.unquote_of_notMem (by decide)
  simp only [kindOf, built_build, ok_bind]
  cases kind with
  | flat =>
    simp only [encodeKind, unwrapped_layered, destruct₂_appl, ok_bind, asStr, hflat]
    rfl
  | nested c =>
    simp only [encodeKind, unwrapped_layered, destruct₂_appl, ok_bind, asStr, hnested, separatorOf_encode]
    rfl
  | prefixed c =>
    simp only [encodeKind, unwrapped_layered, destruct₂_appl, ok_bind, asStr, hprefixed, separatorOf_encode]
    rfl

theorem decodeTable_encoded {table : Table String Nat} (ht : EncodesList (table.entries.map encodePair) t)
    (h : ∀ e ∈ table.entries, (e.2 : Int) ≤ Int64.maxValue.toInt) : t.decodeTable = .ok table := by
  rw [decodeTable, decodeList_encoded ht fun e he => decodePair_encode (h e he)]
  exact congrArg Except.ok table.ofList_entries

/-- Decoding what a definition builds for its field sets that field, and no other one. -/
theorem decode_spelled (hd : d.Proper) (h : d.Spells x t) (decls : Declarations) :
    x.decode (.appl "Build" [t]) decls = .ok (decls.copyFrom d x) := by
  cases h with
  | toplevel h =>
    rw [Definition.decode, built_build, ok_bind, decodeString_encode, copyFrom, h]
    rfl
  | extensionSuffix h =>
    rw [Definition.decode, fileSuffix_encode (hd.extensionSuffix _ h), copyFrom, h]
    rfl
  | baseSuffix h =>
    rw [Definition.decode, fileSuffix_encode (hd.baseSuffix _ h), copyFrom, h]
    rfl
  | body h =>
    rw [Definition.decode, built_build, ok_bind, decodeStrings, decodeList_encoded h fun s _ => decodeString_encode s,
      ok_bind, NameSet.ofNames_keys]
    rfl
  | @namespaceDecl n h =>
    have hpair : (encodePair (n.cons, n.index)).decodePair = .ok (n.cons, n.index) :=
      decodePair_encode (hd.namespaceDecl n h)
    rw [Definition.decode, built_build, ok_bind, hpair, copyFrom, h]
    rfl
  | imports h =>
    rw [Definition.decode, built_build, ok_bind, decodeTable_encoded h hd.imports]
    rfl
  | namespaceKind h =>
    rw [Definition.decode, kindOf_encode, copyFrom, h]
    rfl
  | namespaceSuffixes h =>
    rw [Definition.decode, built_build, ok_bind, decodeTable_encoded h hd.namespaceSuffixes]
    rfl

/-! ## Modules -/

/-- The declarations of a module that encodes a record. Whatever defines a field spells it, in any order and with
other declarations in between; and no field is left out, except for those that are not set. -/
structure Encodes (d : Declarations) (ts : List Term) : Prop where
  spelled : ∀ u ∈ ts, u.Unrecognized ∨ ∃ x t, d.Spells x t ∧ u = x.declaration t
  covered : ∀ x, ¬ SameAt empty d x → ∃ t, d.Spells x t ∧ x.declaration t ∈ ts

theorem singleDefinition?_eq_some {name : String} {rhs : Term} (h : singleDefinition? u = some (name, rhs)) :
    u = .appl "Strategies" [.list [.appl "SDefNoArgs" [.str name, rhs]]] := by
  rw [singleDefinition?.eq_def] at h
  split at h
  · rename_i group definition name' rhs'
    split at h
    · rename_i hc
      cases h
      simp only [Bool.and_eq_true, decide_eq_true_eq] at hc
      rw [hc.1, hc.2]
    · cases h
  · cases h

theorem add_unrecognized (h : u.Unrecognized) (decls : Declarations) : decls.add u = .ok decls := by
  rw [add]
  cases hs : singleDefinition? u with
  | none => rfl
  | some definition =>
    obtain ⟨name, rhs⟩ := definition
    have hname : Definition.ofName? name = none := by
      cases hx : Definition.ofName? name with
      | none => rfl
      | some x =>
        have hn : x.name = name := by simpa using List.find?_some hx
        exact absurd (hn ▸ singleDefinition?_eq_some hs) (h x rhs)
    simp only [hname]

theorem add_declaration (hd : d.Proper) (h : d.Spells x t) (decls : Declarations) :
    decls.add (x.declaration t) = .ok (decls.copyFrom d x) := by
  have hs : singleDefinition? (x.declaration t) = some (x.name, .appl "Build" [t]) := rfl
  rw [add, hs]
  simp only [Definition.ofName?_name, decode_spelled hd h]
  rfl

theorem declaration_inj {t' : Term} (h : x.declaration t = y.declaration t') : x = y := by
  have hn : x.name = y.name := by
    rw [Definition.declaration, Definition.declaration] at h
    simp only [Term.appl.injEq, Term.list.injEq, List.cons.injEq, Term.str.injEq] at h
    exact h.2.1.1.2.1
  exact Option.some.inj (by rw [← Definition.ofName?_name x, hn, Definition.ofName?_name])

/-- Declaration by declaration, a field that is right stays right, and one that is defined becomes right. -/
theorem foldlM_spelled (hd : d.Proper)
    (h : ∀ u ∈ ts, u.Unrecognized ∨ ∃ x t, d.Spells x t ∧ u = x.declaration t) (decls : Declarations) :
    ∃ decls', ts.foldlM add decls = .ok decls'
      ∧ ∀ x, SameAt decls d x ∨ (∃ t, x.declaration t ∈ ts) → SameAt decls' d x := by
  induction ts generalizing decls with
  | nil => exact ⟨decls, rfl, fun x hx => hx.resolve_right (by simp)⟩
  | cons u ts ih =>
    obtain ⟨hu, hts⟩ := List.forall_mem_cons.1 h
    rw [List.foldlM_cons]
    rcases hu with hu | ⟨y, s, hs, rfl⟩
    · obtain ⟨decls', hfold, hright⟩ := ih hts decls
      rw [add_unrecognized hu]
      refine ⟨decls', hfold, fun x hx => hright x (hx.imp_right ?_)⟩
      rintro ⟨t, ht⟩
      exact ⟨t, (List.mem_cons.1 ht).resolve_left (hu x _ ·.symm)⟩
    · obtain ⟨decls', hfold, hright⟩ := ih hts (decls.copyFrom d y)
      rw [add_declaration hd hs]
      refine ⟨decls', hfold, fun x hx => hright x ?_⟩
      rcases hx with hx | ⟨t, ht⟩
      · exact .inl (hx.copyFrom y)
      · rcases List.mem_cons.1 ht with ht | ht
        · obtain rfl := declaration_inj ht
          exact .inl (sameAt_copyFrom_self decls d x)
        · exact .inr ⟨t, ht⟩

theorem foldlM_encoded (hd : d.Proper) (h : d.Encodes ts) : ts.foldlM add empty = .ok d := by
  obtain ⟨decls, hfold, hright⟩ := foldlM_spelled hd h.spelled empty
  have heq : decls = d := eq_of_sameAt fun x => hright x (by
    by_cases hx : SameAt empty d x
    · exact .inl hx
    · obtain ⟨t, _, ht⟩ := h.covered x hx
      exact .inr ⟨t, ht⟩)
  rw [hfold, heq]

/-! ### Names -/

theorem wellNamed_spelled (h : d.Spells x t) : t.WellNamed := by
  cases h with
  | toplevel => exact wellNamed_encodeString _
  | extensionSuffix => exact wellNamed_encodeString _
  | baseSuffix => exact wellNamed_encodeString _
  | body h => exact wellNamed_encodesList h (List.forall_mem_map.2 fun s _ => wellNamed_encodeString s)
  | namespaceDecl => exact wellNamed_encodePair _
  | imports h => exact wellNamed_encodesList h (List.forall_mem_map.2 fun e _ => wellNamed_encodePair e)
  | namespaceKind => exact wellNamed_encodeKind _
  | namespaceSuffixes h => exact wellNamed_encodesList h (List.forall_mem_map.2 fun e _ => wellNamed_encodePair e)

theorem wellNamed_declaration (x : Definition) (h : t.WellNamed) : (x.declaration t).WellNamed := by
  have hbuild : (Term.appl "Build" [t]).WellNamed := wellNamed_appl₁ (by decide) h
  have hdef : (Term.appl "SDefNoArgs" [.str x.name, .appl "Build" [t]]).WellNamed :=
    wellNamed_appl₂ (by decide) (wellNamed_str _) hbuild
  exact wellNamed_appl₁ (by decide) (wellNamed_list₁ hdef)

theorem wellNamed_encoded {header : Term} (h : d.Encodes ts) (hheader : header.WellNamed)
    (hts : ∀ t ∈ ts, t.Unrecognized → t.WellNamed) : (Term.appl "Module" [header, .list ts]).WellNamed := by
  refine wellNamed_appl₂ (by decide) hheader (wellNamed_list.2 fun u hu => ?_)
  rcases h.spelled u hu with hn | ⟨x, t, hs, rfl⟩
  · exact hts u hu hn
  · exact wellNamed_declaration x (wellNamed_spelled hs)

/-- **What is read off a module is what its definitions encode.** It is the same behind printing the module at any
width and reading it, if the constructors in its header and in its other declarations are identifiers. -/
theorem read_encoded {header : Term} (hd : d.Proper) (h : d.Encodes ts) :
    Declarations.read (.appl "Module" [header, .list ts]) = .ok d
    ∧ (header.WellNamed → (∀ t ∈ ts, t.Unrecognized → t.WellNamed) → ∀ width, ∃ module,
        Term.read ((Term.appl "Module" [header, .list ts]).pretty width) = .ok module
        ∧ Declarations.read module = .ok d) := by
  have hread : Declarations.read (.appl "Module" [header, .list ts]) = .ok d := by
    rw [read_module, foldlM_encoded hd h]
  refine ⟨hread, fun hheader hts width => ⟨_, ?_, hread⟩⟩
  have hback := read_pretty_append (wellNamed_encoded h hheader hts) width isSpace_nil
  rwa [String.ofList_nil, String.append_empty] at hback

/-- A language with quotes in its names, and without imports. -/
def quoted : Declarations where
  extensionSuffix := some "\""
  baseSuffix := some "b."
  toplevel := none
  namespaceDecl := some ⟨"Module\"", 9223372036854775807⟩
  namespaceKind := some (.nested '"')
  namespaceSuffixes := ⟨[("\n", 0), ("", 7)], by decide⟩
  imports := .empty
  body := ⟨[("\"B\"", ()), ("A", ())], by decide⟩

/-- An encoding of it, with an import declaration and a helper in between. -/
def quotedModule : List Term :=
  [Definition.namespaceKind.declaration (encodeKind (.nested '"')),
   .appl "Imports" [.list []],
   Definition.namespaceSuffixes.declaration (layered (.appl "ListTail" [.list [encodePair ("\n", 0)],
     layered (.appl "ListTail" [.list [encodePair ("", 7)], layered (.appl "List" [.list []])])])),
   Definition.baseSuffix.declaration (encodeString "b."),
   .appl "Strategies" [.list [.appl "SDefNoArgs" [.str "helper", .appl "Build" [encodeString "b."]]]],
   Definition.body.declaration (layered (.appl "ListTail" [.list [encodeString "\"B\""],
     layered (.appl "List" [.list [encodeString "A"]])])),
   Definition.extensionSuffix.declaration (encodeString "\""),
   Definition.namespaceDecl.declaration (encodePair ("Module\"", 9223372036854775807))]

theorem proper_quoted : quoted.Proper where
  extensionSuffix := by simp [quoted]
  baseSuffix := by simp [quoted]
  namespaceDecl := by
    rintro n ⟨⟩
    decide
  imports := by simp [quoted, Table.empty]
  namespaceSuffixes := by decide

theorem unrecognized_helper (rhs : Term) :
    (Term.appl "Strategies" [.list [.appl "SDefNoArgs" [.str "helper", rhs]]]).Unrecognized := by
  intro x rhs' h
  have hname : "helper" ≠ x.name := by cases x <;> decide
  simp [hname] at h

theorem unrecognized_appl {cons : String} {args : List Term} (h : cons ≠ "Strategies") :
    (Term.appl cons args).Unrecognized :=
  fun _ _ heq => h (Term.appl.inj heq).1

theorem encodes_quoted : quoted.Encodes quotedModule where
  spelled := by
    simp only [quotedModule, List.forall_mem_cons]
    exact ⟨.inr ⟨_, _, .namespaceKind rfl, rfl⟩, .inl (unrecognized_appl (by decide)),
      .inr ⟨_, _, .namespaceSuffixes (.cons _ (.cons _ .nil)), rfl⟩, .inr ⟨_, _, .baseSuffix rfl, rfl⟩,
      .inl (unrecognized_helper _), .inr ⟨_, _, .body (.cons _ (.last _)), rfl⟩,
      .inr ⟨_, _, .extensionSuffix rfl, rfl⟩, .inr ⟨_, _, .namespaceDecl rfl, rfl⟩, by simp⟩
  covered := by
    intro x hx
    cases x with
    | toplevel => exact absurd rfl hx
    | imports => exact absurd rfl hx
    | extensionSuffix => exact ⟨_, .extensionSuffix rfl, by simp [quotedModule]⟩
    | baseSuffix => exact ⟨_, .baseSuffix rfl, by simp [quotedModule]⟩
    | namespaceDecl => exact ⟨_, .namespaceDecl rfl, by simp [quotedModule]⟩
    | namespaceKind => exact ⟨_, .namespaceKind rfl, by simp [quotedModule]⟩
    | body => exact ⟨_, .body (.cons _ (.last _)), by simp [quotedModule]⟩
    | namespaceSuffixes => exact ⟨_, .namespaceSuffixes (.cons _ (.cons _ .nil)), by simp [quotedModule]⟩

theorem read_encoded_quoted : quoted.Proper ∧ quoted.Encodes quotedModule
    ∧ Declarations.read (.appl "Module" [.str "x", .list quotedModule]) = .ok quoted
    ∧ ∀ width, ∃ module, Term.read ((Term.appl "Module" [.str "x", .list quotedModule]).pretty width) = .ok module
        ∧ Declarations.read module = .ok quoted := by
  obtain ⟨hread, hback⟩ := @read_encoded quoted quotedModule (.str "x") proper_quoted encodes_quoted
  have hnamed : ∀ t ∈ quotedModule, t.WellNamed := by decide
  exact ⟨proper_quoted, encodes_quoted, hread, hback (wellNamed_str "x") fun t ht _ => hnamed t ht⟩

/-- A module is not always read back as the declarations that it encodes: the printer writes a name as it is, also one
that is no identifier. -/
theorem not_always_read_back :
    ¬ ∀ (d : Declarations) (header : Term) (ts : List Term), d.Proper → d.Encodes ts →
      Declarations.read (.appl "Module" [header, .list ts]) = .ok d
      ∧ ∀ width, ∃ module, Term.read ((Term.appl "Module" [header, .list ts]).pretty width) = .ok module
        ∧ Declarations.read module = .ok d := by
  intro h
  have hproper : empty.Proper := ⟨by simp [empty], by simp [empty], by simp [empty], by simp [empty, Table.empty],
    by simp [empty, Table.empty]⟩
  have hencodes : empty.Encodes [.appl "a b" []] :=
    ⟨List.forall_mem_singleton.2 (.inl (unrecognized_appl (by decide))), fun x hx => absurd (by cases x <;> rfl) hx⟩
  obtain ⟨module, hread, _⟩ := (h empty (.str "h") [.appl "a b" []] hproper hencodes).2 80
  have hfails : (Term.read ((Term.appl "Module" [.str "h", .list [.appl "a b" []]]).pretty 80)).isOk = false := by
    decide +kernel
  rw [hread] at hfails
  cases hfails

end Declarations

end BaseLang
