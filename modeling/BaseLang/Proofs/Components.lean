import Mathlib.Data.List.Basic
import Mathlib.Data.List.TakeWhile
import BaseLang.Proofs.Files

/-!
# Components of paths

Two paths that differ only in empty names, and in dots that are not at the start, have the same components.

* `Path.names`, `Path.Alike` : what the components of a path are made of. `alike_reversed` : nothing of it is lost
  at the end of a path;
* `Path.before` : a path up to its last component. `components_of_parent` : the parent has all components but the last;
* `components_join`, `components_file` : the components of one path below another one.
-/

namespace BaseLang

namespace Path

variable {p q d : Path} {cs ds b name : List Char} {n : String}

/-! ## Names -/

/-- The components of a path, without the root and a `.` at the start. -/
def names (p : Path) : List String := p.segments.filter fun s => s ≠ "" && s ≠ "."

/-- What the components of a path begin with, if this is not a name. -/
def start (p : Path) : List String :=
  if p.isAbsolute then ["/"] else if p.segments.head? = some "." then ["."] else []

theorem components_eq (p : Path) : p.components = p.start ++ p.names := by
  rw [components, start, names]
  split
  · rfl
  · split <;> rfl

@[simp] theorem ofChars_chars (p : Path) : ofChars p.chars = p := by
  rw [ofChars, chars, String.ofList_toList]

@[simp] theorem chars_ofChars (cs : List Char) : (ofChars cs).chars = cs := by
  rw [ofChars, chars, String.toList_ofList]

theorem segments_append (cs ds : List Char) :
    (ofChars (cs ++ '/' :: ds)).segments = (ofChars cs).segments ++ (ofChars ds).segments := by
  rw [segments, segments, segments, chars_ofChars, chars_ofChars, chars_ofChars, Text.fields_append_sep,
    List.map_append]

theorem segments_of_notMem (h : '/' ∉ name) : (ofChars name).segments = [String.ofList name] := by
  rw [segments, chars_ofChars, Text.fields_eq_singleton h, List.map_singleton]

theorem segments_ne_nil (p : Path) : p.segments ≠ [] := by
  rw [segments]
  exact mt List.map_eq_nil_iff.1 (Text.fields_ne_nil '/' p.chars)

theorem names_append (cs ds : List Char) :
    (ofChars (cs ++ '/' :: ds)).names = (ofChars cs).names ++ (ofChars ds).names := by
  rw [names, segments_append, List.filter_append]
  rfl

theorem names_of_notMem (h : '/' ∉ name) (hne : name ≠ []) (hdot : name ≠ ['.']) :
    (ofChars name).names = [String.ofList name] := by
  have hempty : String.ofList name ≠ "" := by
    intro e
    exact hne (by simpa using congrArg String.toList e)
  have hone : String.ofList name ≠ "." := by
    intro e
    exact hdot (by simpa using congrArg String.toList e)
  rw [names, segments_of_notMem h, List.filter_cons_of_pos (by simp [hempty, hone]), List.filter_nil]

/-- What a path that goes on behind a slash begins with is decided before it. -/
theorem start_append (cs ds ds' : List Char) : (ofChars (cs ++ '/' :: ds)).start = (ofChars (cs ++ '/' :: ds')).start := by
  have habs : (ofChars (cs ++ '/' :: ds)).isAbsolute = (ofChars (cs ++ '/' :: ds')).isAbsolute := by
    rw [isAbsolute, isAbsolute, chars_ofChars, chars_ofChars]
    cases cs <;> rfl
  have hhead : (ofChars (cs ++ '/' :: ds)).segments.head? = (ofChars (cs ++ '/' :: ds')).segments.head? := by
    rw [segments_append, segments_append, List.head?_append_of_ne_nil _ (segments_ne_nil _),
      List.head?_append_of_ne_nil _ (segments_ne_nil _)]
  rw [start, start, habs, hhead]

/-! ## Slashes and dots at the end -/

/-- Two paths with the same components. -/
structure Alike (p q : Path) : Prop where
  start : p.start = q.start
  names : p.names = q.names

theorem Alike.refl (p : Path) : Alike p p := ⟨rfl, rfl⟩

theorem Alike.trans {r : Path} (h : Alike p q) (h' : Alike q r) : Alike p r :=
  ⟨h.start.trans h'.start, h.names.trans h'.names⟩

theorem Alike.components (h : Alike p q) : p.components = q.components := by
  rw [components_eq, components_eq, h.start, h.names]

theorem alike_slash (h : cs ≠ []) : Alike (ofChars cs) (ofChars (cs ++ ['/'])) where
  start := by
    have habs : (ofChars (cs ++ ['/'])).isAbsolute = (ofChars cs).isAbsolute := by
      rw [isAbsolute, isAbsolute, chars_ofChars, chars_ofChars, List.head?_append_of_ne_nil _ h]
    have hhead : (ofChars (cs ++ ['/'])).segments.head? = (ofChars cs).segments.head? := by
      rw [segments_append, List.head?_append_of_ne_nil _ (segments_ne_nil _)]
    rw [Path.start, Path.start, habs, hhead]
  names := by
    rw [names_append]
    exact (List.append_nil _).symm

theorem alike_dot (cs : List Char) : Alike (ofChars (cs ++ ['/'])) (ofChars (cs ++ ['/', '.'])) where
  start := start_append cs [] ['.']
  names := by
    rw [names_append, names_append]
    rfl

theorem alike_dropEnd (cs : List Char) : Alike (ofChars (dropEnd cs).reverse) (ofChars cs.reverse) := by
  induction cs using dropEnd.induct with
  | case1 c cs ih =>
    rw [dropEnd, List.reverse_cons (a := '/')]
    exact ih.trans (alike_slash (by simp))
  | case2 cs ih =>
    have hdot := alike_dot cs.reverse
    rw [dropEnd]
    simp only [List.reverse_cons, List.append_assoc, List.cons_append, List.nil_append] at ih ⊢
    exact ih.trans hdot
  | case3 cs h h' =>
    rw [dropEnd]
    · exact .refl _
    · exact h
    · exact h'

theorem alike_reversed (p : Path) : Alike (ofChars p.reversed.reverse) p := by
  have h := alike_dropEnd p.chars.reverse
  rwa [List.reverse_reverse, ofChars_chars] at h

/-! ## The last component -/

/-- What can stand before the last component of a path: nothing, or something that ends in a slash. -/
def Leads (b : List Char) : Prop := b = [] ∨ ∃ cs, b = cs ++ ['/']

/-- What stands before the last component of a path, with the slash behind it. -/
def before (p : Path) : List Char := (p.reversed.dropWhile (· ≠ '/')).reverse

theorem leads_before (p : Path) : Leads p.before := by
  rw [before]
  cases hd : p.reversed.dropWhile (· ≠ '/') with
  | nil => exact Or.inl rfl
  | cons c cs =>
    have hc := List.head?_dropWhile_not (· ≠ '/') p.reversed
    rw [hd] at hc
    obtain rfl : c = '/' := by simpa using hc
    exact Or.inr ⟨cs.reverse, List.reverse_cons⟩

theorem before_append_lastPart (p : Path) : p.before ++ p.lastPart = p.reversed.reverse := by
  rw [before, lastPart, ← List.reverse_append, List.takeWhile_append_dropWhile]

theorem notMem_lastPart (p : Path) : '/' ∉ p.lastPart := by
  rw [lastPart, List.mem_reverse]
  exact Text.notMem_takeWhile '/' p.reversed

theorem dropEnd_ne_slash (cs : List Char) (c : Char) (ds : List Char) : dropEnd cs ≠ '/' :: c :: ds := by
  induction cs using dropEnd.induct with
  | case1 c cs ih => rwa [dropEnd]
  | case2 cs ih => rwa [dropEnd]
  | case3 cs h h' =>
    rw [dropEnd]
    · exact fun e => h c ds e
    · exact h
    · exact h'

theorem dropEnd_ne_dot (cs ds : List Char) : dropEnd cs ≠ '.' :: '/' :: ds := by
  induction cs using dropEnd.induct with
  | case1 c cs ih => rwa [dropEnd]
  | case2 cs ih => rwa [dropEnd]
  | case3 cs h h' =>
    rw [dropEnd]
    · exact fun e => h' ds e
    · exact h
    · exact h'

/-- A name behind what can stand before it is the last component. -/
theorem components_append (hb : Leads b) (hn : '/' ∉ name) (hne : name ≠ []) (hdot : name = ['.'] → b = []) :
    (ofChars (b ++ name)).components = (ofChars b).components ++ [String.ofList name] := by
  by_cases hd : name = ['.']
  · rw [hdot hd, hd]
    rfl
  have hnames := names_of_notMem hn hne hd
  rcases hb with rfl | ⟨cs, rfl⟩
  · have habs : (ofChars name).isAbsolute = false := by
      rw [ofChars, isAbsolute_of_notMem (by rwa [String.toList_ofList])]
    have hhead : (ofChars name).segments.head? ≠ some "." := by
      rw [segments_of_notMem hn]
      intro e
      exact hd (by simpa using congrArg String.toList (Option.some.inj e))
    rw [List.nil_append, components_eq, hnames, start, if_neg (by simp [habs]), if_neg hhead]
    rfl
  · rw [List.append_assoc, List.singleton_append, components_eq, components_eq, names_append, names_append, hnames,
      start_append cs name []]
    have hnil : (ofChars []).names = [] := rfl
    rw [hnil, List.append_nil, List.append_assoc]

theorem parent?_eq_some (h : p.parent? = some d) :
    Alike d (ofChars p.before) ∧ p.reversed ≠ [] ∧ p.reversed ≠ ['/'] := by
  rw [parent?] at h
  split at h
  · cases h
  · cases h
  · rename_i hnil hroot
    cases h
    refine ⟨?_, hnil, hroot⟩
    have hd := alike_dropEnd (p.reversed.dropWhile (· ≠ '/'))
    exact hd

theorem lastPart_ne_nil (h : p.parent? = some d) : p.lastPart ≠ [] := by
  obtain ⟨_, hnil, hroot⟩ := parent?_eq_some h
  intro hl
  have hr : p.reversed = p.before.reverse := by
    have he := p.before_append_lastPart
    rw [hl, List.append_nil] at he
    rw [he, List.reverse_reverse]
  rcases p.leads_before with hb | ⟨cs, hb⟩
  · rw [hb] at hr
    exact hnil hr
  · rw [hb, List.reverse_append, List.reverse_singleton, List.singleton_append] at hr
    cases hcs : cs.reverse with
    | nil =>
      rw [hcs] at hr
      exact hroot hr
    | cons c ds =>
      rw [hcs] at hr
      exact dropEnd_ne_slash _ c ds hr

/-- A dot is a last component only if it is the only one. -/
theorem before_eq_nil (h : p.lastPart = ['.']) : p.before = [] := by
  rcases p.leads_before with hb | ⟨cs, hb⟩
  · exact hb
  · have he := p.before_append_lastPart
    rw [h, hb] at he
    have hr : p.reversed = '.' :: '/' :: cs.reverse := by
      rw [← List.reverse_reverse p.reversed, ← he]
      simp
    exact absurd hr (dropEnd_ne_dot _ _)

theorem alike_before (p : Path) : Alike (ofChars (p.before ++ p.lastPart)) p := by
  rw [before_append_lastPart]
  exact p.alike_reversed

/-- The parent of a path has all of its components but the last one. -/
theorem components_of_parent (h : p.parent? = some d) :
    p.components = d.components ++ [String.ofList p.lastPart] := by
  obtain ⟨hd, _⟩ := parent?_eq_some h
  rw [← p.alike_before.components, hd.components]
  exact components_append p.leads_before p.notMem_lastPart (lastPart_ne_nil h) before_eq_nil

theorem names_eq (p : Path) : p.names = p.components.filter fun s => s ≠ "/" && s ≠ "." := by
  have hstart : p.start.filter (fun s => s ≠ "/" && s ≠ ".") = [] := by
    rw [start]
    split
    · rfl
    · split <;> rfl
  have hnames : ∀ s ∈ p.names, (s ≠ "/" && s ≠ ".") = true := by
    intro s hs
    obtain ⟨hm, hs⟩ := List.mem_filter.1 hs
    obtain ⟨part, hpart, rfl⟩ := List.mem_map.1 hm
    have hslash : String.ofList part ≠ "/" := by
      intro e
      refine Text.notMem_of_mem_fields hpart ?_
      simp [show part = ['/'] by simpa using congrArg String.toList e]
    simp only [Bool.and_eq_true, decide_eq_true_eq] at hs ⊢
    exact ⟨hslash, hs.2⟩
  rw [components_eq, List.filter_append, hstart, List.nil_append, List.filter_eq_self.2 hnames]

theorem isAbsolute_iff (p : Path) : p.isAbsolute = true ↔ p.components.head? = some "/" := by
  rw [components_eq, start]
  constructor
  · intro h
    rw [if_pos h]
    rfl
  · intro h
    by_contra habs
    rw [if_neg habs] at h
    have hmem : "/" ∈ p.names := by
      split at h
      · simp at h
      · exact List.mem_of_head? h
    rw [names_eq] at hmem
    simpa using (List.mem_filter.1 hmem).2

theorem isAbsolute_congr (h : p.components = q.components) : p.isAbsolute = q.isAbsolute := by
  rw [Bool.eq_iff_iff, isAbsolute_iff, isAbsolute_iff, h]

theorem isAbsolute_of_components (hn : n ≠ "/") (h : p.components = d.components ++ [n]) :
    d.isAbsolute = p.isAbsolute := by
  rw [Bool.eq_iff_iff, isAbsolute_iff, isAbsolute_iff, h]
  cases d.components with
  | nil => simp [hn]
  | cons => simp

theorem isAbsolute_of_parent (h : p.parent? = some d) : d.isAbsolute = p.isAbsolute := by
  refine isAbsolute_of_components (fun e => p.notMem_lastPart ?_) (components_of_parent h)
  simp [show p.lastPart = ['/'] by simpa using congrArg String.toList e]

theorem names_of_parent (h : p.parent? = some d) : d.names <+: p.names := by
  rw [names_eq, names_eq, components_of_parent h, List.filter_append]
  exact List.prefix_append ..

/-! ## Paths below other paths -/

/-- A path below another one goes on behind a slash. -/
theorem join_eq (hp : p.text ≠ "") (hq : q.isAbsolute = false) :
    ∃ cs, Alike (ofChars (cs ++ ['/'])) p ∧ p.join q = ofChars (cs ++ '/' :: q.chars) := by
  by_cases hl : p.chars.getLast? = some '/'
  · obtain ⟨cs, hcs⟩ := List.getLast?_eq_some_iff.1 hl
    have htext : p.text ++ q.text = String.ofList (cs ++ '/' :: q.chars) := by
      rw [List.append_cons, ← hcs, String.ofList_append, chars, chars, String.ofList_toList, String.ofList_toList]
    refine ⟨cs, ?_, ?_⟩
    · rw [← hcs, ofChars_chars]
      exact .refl p
    · rw [join, if_neg (by simp [hq]), if_pos (by simp [hl]), htext, ofChars]
  · have hne : p.chars ≠ [] := by
      intro e
      exact hp (by simpa [chars] using e)
    have htext : p.text ++ "/" ++ q.text = String.ofList (p.chars ++ '/' :: q.chars) := by
      rw [List.append_cons, String.ofList_append, String.ofList_append, chars, chars, String.ofList_toList,
        String.ofList_toList]
    refine ⟨p.chars, ?_, ?_⟩
    · have hs := alike_slash hne
      rw [ofChars_chars] at hs
      exact ⟨hs.start.symm, hs.names.symm⟩
    · rw [join, if_neg (by simp [hq]), if_neg (by simp [hl, hp]), htext, ofChars]

theorem join_empty (hp : p.text = "") (hq : q.isAbsolute = false) : p.join q = q := by
  rw [join, if_neg (by simp [hq]), if_pos (by simp [hp]), hp, String.empty_append]

theorem components_join (p : Path) (hq : q.isAbsolute = false) :
    (p.join q).components = if p.text = "" then q.components else p.components ++ q.names := by
  split
  · rename_i hp
    rw [join_empty hp hq]
  · rename_i hp
    obtain ⟨cs, hcs, hj⟩ := join_eq hp hq
    rw [hj, ← hcs.components, components_eq, components_eq, names_append, names_append, ofChars_chars,
      start_append cs q.chars []]
    have hnil : (ofChars []).names = [] := rfl
    rw [hnil, List.append_nil, List.append_assoc]

/-- Where a path belongs below another one depends on its components. -/
theorem components_join_congr {q' : Path} (p : Path) (hq : q.isAbsolute = false) (h : q'.components = q.components) :
    (p.join q').components = (p.join q).components := by
  have hq' : q'.isAbsolute = false := by rw [isAbsolute_congr h, hq]
  rw [components_join p hq', components_join p hq, names_eq q', names_eq q, h]

/-- A name that is a component: not empty, not a dot, and without a slash. -/
structure IsName (n : String) : Prop where
  notMem : '/' ∉ n.toList
  ne_empty : n ≠ ""
  ne_dot : n ≠ "."

theorem IsName.isAbsolute (h : IsName n) : (⟨n⟩ : Path).isAbsolute = false := isAbsolute_of_notMem h.notMem

theorem IsName.toList (h : IsName n) : n.toList ≠ [] ∧ n.toList ≠ ['.'] := by
  constructor
  · intro e
    exact h.ne_empty (by simpa using e)
  · intro e
    exact h.ne_dot (String.toList_inj.1 e)

theorem IsName.ne_root (h : IsName n) : n ≠ "/" := by
  rintro rfl
  exact h.notMem (by decide)

theorem IsName.components (h : IsName n) : (⟨n⟩ : Path).components = [n] := by
  have hc := components_append (b := []) (Or.inl rfl) h.notMem h.toList.1 fun e => absurd e h.toList.2
  rw [List.nil_append, String.ofList_toList] at hc
  have hofChars : ofChars n.toList = ⟨n⟩ := by rw [ofChars, String.ofList_toList]
  rwa [hofChars] at hc

theorem IsName.names (h : IsName n) : (⟨n⟩ : Path).names = [n] := by
  have hofChars : ofChars n.toList = ⟨n⟩ := by rw [ofChars, String.ofList_toList]
  have hn := names_of_notMem h.notMem h.toList.1 h.toList.2
  rwa [hofChars, String.ofList_toList] at hn

theorem components_file (d : Path) (h : IsName n) : (d.file n).components = d.components ++ [n] := by
  rw [file, components_join d h.isAbsolute, h.components, h.names]
  split
  · rename_i hd
    rw [show d = ⟨""⟩ from congrArg Path.mk hd]
    rfl
  · rfl

theorem isAbsolute_file_of_isName (d : Path) (h : IsName n) : (d.file n).isAbsolute = d.isAbsolute :=
  (isAbsolute_of_components h.ne_root (components_file d h)).symm

theorem names_file (d : Path) (h : IsName n) : (d.file n).names = d.names ++ [n] := by
  rw [names_eq, names_eq, components_file d h, List.filter_append]
  simp [h.ne_root, h.ne_dot]

/-- Files in one directory are told apart by their names, wherever the directory is. -/
theorem join_file_inj {n' : String} (p : Path) (hd : d.isAbsolute = false) (h : IsName n) (h' : IsName n') :
    (p.join (d.file n')).components = (p.join (d.file n)).components ↔ n' = n := by
  have hlast {n : String} (h : IsName n) : (p.join (d.file n)).components.getLast? = some n := by
    rw [components_join p (by rw [isAbsolute_file_of_isName d h, hd]), components_file d h, names_file d h]
    split <;> simp
  constructor
  · intro e
    have he := congrArg List.getLast? e
    rw [hlast h, hlast h'] at he
    exact Option.some.inj he
  · rintro rfl
    rfl

end Path

end BaseLang
