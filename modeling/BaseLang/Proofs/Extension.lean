import BaseLang.Proofs.Components

/-!
# File extensions

* `Path.splitName_cases`, `Path.stem?_eq_some` : the stem of a file name;
* `Path.parent?_file`, `Path.stem?_file` : the directory and the stem of a file that is given by both;
* `Path.withExtension?_eq`, `Path.withExtension?_ofChars` : another extension is put behind the stem;
* `Path.EndsIn`, `Path.IsFile` : a path that is written with a name at its end, in a certain directory;
* `Path.heldBack` : the part of an extension that counts as one of the stem. `withExtension?_marked` : it is there twice
  when one extension is put in the place of another one that begins with it.
-/

namespace BaseLang

/-! ## File extensions -/

namespace Path

variable {p q d : Path} {cs b r name stem old ext : List Char} {m e n : String}

theorem dropEnd_eq_self (hslash : ∀ c ds, cs ≠ '/' :: c :: ds) (hdot : ∀ ds, cs ≠ '.' :: '/' :: ds) :
    dropEnd cs = cs := by
  rw [dropEnd]
  · exact fun c ds e => hslash c ds e
  · exact fun ds e => hdot ds e

theorem dropEnd_name (hn : '/' ∉ name) (hne : name ≠ []) (hdot : name ≠ ['.']) (r : List Char) :
    dropEnd (name.reverse ++ r) = name.reverse ++ r := by
  obtain ⟨c, w, hw⟩ := List.exists_cons_of_ne_nil (mt List.reverse_eq_nil_iff.1 hne)
  have hmem : '/' ∉ c :: w := by rwa [← hw, List.mem_reverse]
  rw [hw]
  refine dropEnd_eq_self (fun c' ds e => ?_) fun ds e => ?_
  · exact hmem (by simp [(List.cons.inj e).1])
  · obtain ⟨hc, he⟩ := List.cons.inj e
    cases w with
    | nil => exact hdot (by rw [← List.reverse_reverse name, hw, hc]; rfl)
    | cons c' w => exact hmem (by simp [(List.cons.inj he).1])

/-- A name and what stands before it, told apart from behind. -/
theorem lastPart_of_reversed (hb : Leads b) (hn : '/' ∉ name) (h : p.reversed = name.reverse ++ b.reverse) :
    p.lastPart = name ∧ p.before = b := by
  have hslash : b.reverse = [] ∨ b.reverse.head? = some '/' := by
    rcases hb with rfl | ⟨ds, rfl⟩
    · exact Or.inl rfl
    · exact Or.inr (by simp)
  obtain ⟨ht, hd⟩ := Text.span_of_notMem (mt List.mem_reverse.1 hn) hslash
  rw [lastPart, before, h, ht, hd, List.reverse_reverse, List.reverse_reverse]
  exact ⟨rfl, rfl⟩

theorem reversed_eq (p : Path) : p.reversed = p.lastPart.reverse ++ p.before.reverse := by
  rw [← List.reverse_append, before_append_lastPart, List.reverse_reverse]

theorem fileName?_eq_some_iff :
    p.fileName? = some name ↔ name = p.lastPart ∧ name ≠ [] ∧ name ≠ ['.'] ∧ name ≠ ['.', '.'] := by
  rw [fileName?]
  split
  · rename_i h
    simp +contextual [h]
  · rename_i h
    simp +contextual [h]
  · rename_i h
    simp +contextual [h]
  · rename_i hnil hdot hup
    constructor
    · intro h
      cases h
      exact ⟨rfl, hnil, hdot, hup⟩
    · rintro ⟨rfl, _⟩
      rfl

/-! ### Stems -/

theorem dotted_ne_dot (hs : stem ≠ []) (ext : List Char) : stem ++ '.' :: ext ≠ ['.'] := by
  intro e
  have hpos := List.length_pos_of_ne_nil hs
  have hlen := congrArg List.length e
  simp only [List.length_append, List.length_cons, List.length_nil] at hlen
  omega

theorem splitName_dotted (hs : stem ≠ []) (he : '.' ∉ ext) : splitName (stem ++ '.' :: ext) = (stem, some ext) := by
  have hsplit : Text.splitLast '.' (stem ++ '.' :: ext) = some (stem, ext) := Text.splitLast_eq_some_iff.2 ⟨rfl, he⟩
  rw [splitName, hsplit]
  split
  · rename_i h
    cases h
    exact absurd rfl hs
  · rename_i h
    cases h
  · rename_i h
    cases h
    rfl

theorem splitName_cases (name : List Char) : splitName name = (name, none)
    ∨ ∃ stem ext, stem ≠ [] ∧ '.' ∉ ext ∧ name = stem ++ '.' :: ext ∧ splitName name = (stem, some ext) := by
  rw [splitName]
  split
  · exact Or.inl rfl
  · exact Or.inl rfl
  · rename_i stem ext hne hs
    obtain ⟨hname, hext⟩ := Text.splitLast_eq_some_iff.1 hs
    exact Or.inr ⟨stem, ext, hne, hext, hname, rfl⟩

theorem splitName_ne_nil (h : name ≠ []) : (splitName name).1 ≠ [] := by
  rcases splitName_cases name with hs | ⟨stem, ext, hne, _, _, hs⟩
  · rw [hs]
    exact h
  · rw [hs]
    exact hne

theorem stem?_eq_some (h : p.stem? = some m) :
    p.fileName? = some p.lastPart ∧ m.toList = (splitName p.lastPart).1 ∧ m ≠ "" := by
  rw [stem?, Option.map_eq_some_iff] at h
  obtain ⟨name, hf, rfl⟩ := h
  obtain ⟨rfl, hne, _⟩ := fileName?_eq_some_iff.1 hf
  refine ⟨hf, String.toList_ofList, fun e => splitName_ne_nil hne ?_⟩
  simpa using congrArg String.toList e

theorem notMem_stem (h : p.stem? = some m) : '/' ∉ m.toList := by
  have hslash := p.notMem_lastPart
  rw [(stem?_eq_some h).2.1]
  rcases splitName_cases p.lastPart with hs | ⟨stem, ext, _, _, hlast, hs⟩
  · rwa [hs]
  · rw [hlast, List.mem_append, not_or] at hslash
    rw [hs]
    exact hslash.1

/-! ### Other extensions -/

/-- Characters that are taken off at the end of a path belong to its extension, or to what stands behind it. -/
theorem dropEnd_drop (hs : '/' ∉ stem) (hne : stem ≠ []) (ho : '/' ∉ old)
    (h : dropEnd cs = (stem ++ '.' :: old).reverse ++ r) {k : Nat} (hk : k ≤ old.length) :
    ∃ j, dropEnd (cs.drop k) = (stem ++ '.' :: old.take j).reverse ++ r := by
  induction cs using dropEnd.induct generalizing k with
  | case1 c cs ih =>
    rw [dropEnd] at h
    cases k with
    | zero =>
      obtain ⟨j, hj⟩ := ih h (Nat.zero_le _)
      exact ⟨j, by rw [List.drop_zero, dropEnd]; exact hj⟩
    | succ k =>
      rw [List.drop_succ_cons]
      exact ih h (by omega)
  | case2 cs ih =>
    rw [dropEnd] at h
    cases k with
    | zero =>
      obtain ⟨j, hj⟩ := ih h (Nat.zero_le _)
      exact ⟨j, by rw [List.drop_zero, dropEnd]; exact hj⟩
    | succ k =>
      rw [List.drop_succ_cons]
      exact ih h (by omega)
  | case3 cs hslash hdot =>
    rw [dropEnd_eq_self hslash hdot] at h
    refine ⟨old.length - k, ?_⟩
    have hdrop : cs.drop k = (stem ++ '.' :: old.take (old.length - k)).reverse ++ r := by
      have hlen : k ≤ old.reverse.length := by rwa [List.length_reverse]
      rw [h, List.reverse_append, List.reverse_cons, List.append_assoc, List.append_assoc,
        List.drop_append_of_le_length hlen, List.drop_reverse]
      simp
    have hsplit : '/' ∉ stem ++ '.' :: old.take (old.length - k) := by
      have htake : '/' ∉ old.take (old.length - k) := fun hm => ho (List.mem_of_mem_take hm)
      simp [hs, htake]
    rw [hdrop]
    exact dropEnd_name hsplit (by simp) (dotted_ne_dot hne _) r

theorem setExtension_eq (hf : p.fileName? = some name) (e : List Char) :
    p.setExtension e = ofChars (p.before ++ (splitName name).1 ++ if e = [] then [] else '.' :: e) := by
  rw [setExtension, hf]
  rfl

/-- Another extension is put behind the stem, unless the stem is a dot. -/
theorem withExtension?_eq (hm : p.stem? = some m) (hdot : m ≠ ".") (he : '/' ∉ e.toList) (hne : e ≠ "") :
    p.withExtension? e = some (ofChars (p.before ++ (m ++ "." ++ e).toList)) := by
  obtain ⟨hf, hstem, hm⟩ := stem?_eq_some hm
  have hnil : e.toList ≠ [] := by simpa using hne
  have hchars : p.before ++ (m ++ "." ++ e).toList = p.before ++ m.toList ++ '.' :: e.toList := by simp
  rw [withExtension?, if_neg he, hchars, hstem]
  rcases splitName_cases p.lastPart with hs | ⟨stem, old, hstem', hold, hlast, hs⟩
  · have hx : p.extension? = none := by rw [extension?, hf, Option.bind_some, hs]
    simp only [hx]
    rw [setExtension_eq hf, if_neg hnil]
  · have hx : p.extension? = some old := by rw [extension?, hf, Option.bind_some, hs]
    have hslash := p.notMem_lastPart
    rw [hlast] at hslash
    simp only [List.mem_append, List.mem_cons, not_or] at hslash
    have hrev : dropEnd p.chars.reverse = (stem ++ '.' :: old).reverse ++ p.before.reverse := by
      rw [← hlast]
      exact p.reversed_eq
    have hk : p.chars.length - (p.chars.length - old.length) ≤ old.length := by omega
    obtain ⟨j, hj⟩ := dropEnd_drop hslash.1 hstem' hslash.2.2 hrev hk
    have hshort : (ofChars (p.chars.take (p.chars.length - old.length))).reversed
        = (stem ++ '.' :: old.take j).reverse ++ p.before.reverse := by
      rw [reversed, chars_ofChars, List.reverse_take]
      exact hj
    have htake {c : Char} (hc : c ∉ old) : c ∉ old.take j := fun hm => hc (List.mem_of_mem_take hm)
    obtain ⟨hl, hb⟩ := lastPart_of_reversed p.leads_before (by simp [hslash.1, htake hslash.2.2]) hshort
    have hshortName : (ofChars (p.chars.take (p.chars.length - old.length))).fileName?
        = some (stem ++ '.' :: old.take j) := by
      refine fileName?_eq_some_iff.2 ⟨hl.symm, by simp, dotted_ne_dot hstem' _, fun h => ?_⟩
      -- Two dots are left of a name with the stem `.` when its extension is gone, and they are no file name.
      have hone : stem = ['.'] := by
        obtain ⟨c, rest, rfl⟩ := List.exists_cons_of_ne_nil hstem'
        cases rest with
        | nil => simpa using (List.cons.inj h).1
        | cons => simp at h
      refine hdot (String.toList_inj.1 ?_)
      rw [hstem, hs, hone]
      rfl
    simp only [hx]
    rw [setExtension_eq hshortName, if_neg hnil, hb, splitName_dotted hstem' (htake hold), hs]

theorem isName_dotted (hm : m ≠ "") (hslash : '/' ∉ m.toList) (he : '/' ∉ e.toList) : IsName (m ++ "." ++ e) where
  notMem := by simp [hslash, he]
  ne_empty h := by simpa using congrArg String.toList h
  ne_dot h := by
    have hnil : m.toList ≠ [] := by simpa using hm
    refine dotted_ne_dot hnil e.toList ?_
    simpa using congrArg String.toList h

theorem dotted_ne_up (hm : m ≠ "") (he : e ≠ "") : m ++ "." ++ e ≠ ".." := by
  intro h
  have hpos : 0 < m.toList.length := List.length_pos_of_ne_nil (by simpa using hm)
  have hpos' : 0 < e.toList.length := List.length_pos_of_ne_nil (by simpa using he)
  have hlen := congrArg (fun s => s.toList.length) h
  simp only [String.toList_append, List.length_append] at hlen
  have hone : ".".toList.length = 1 := rfl
  have htwo : "..".toList.length = 2 := rfl
  omega

theorem lastPart_ofChars (hb : Leads b) (hn : IsName n) :
    (ofChars (b ++ n.toList)).lastPart = n.toList ∧ (ofChars (b ++ n.toList)).before = b := by
  refine lastPart_of_reversed hb hn.notMem ?_
  rw [reversed, chars_ofChars, List.reverse_append]
  exact dropEnd_name hn.notMem hn.toList.1 hn.toList.2 b.reverse

theorem stem?_ofChars (hb : Leads b) (hn : IsName n) (hup : n ≠ "..") :
    (ofChars (b ++ n.toList)).stem? = some (String.ofList (splitName n.toList).1) := by
  obtain ⟨hl, _⟩ := lastPart_ofChars hb hn
  have hf : (ofChars (b ++ n.toList)).fileName? = some n.toList := by
    refine fileName?_eq_some_iff.2 ⟨hl.symm, hn.toList.1, hn.toList.2, fun h => hup ?_⟩
    exact String.toList_inj.1 h
  rw [stem?, hf, Option.map_some]

/-- The name of a file with a stem and a suffix. An empty suffix has no dot. -/
def suffixed (m e : String) : String := if e = "" then m else m ++ "." ++ e

theorem toList_suffixed (m e : String) :
    (suffixed m e).toList = m.toList ++ if e.toList = [] then [] else '.' :: e.toList := by
  rw [suffixed]
  by_cases h : e = ""
  · simp [h]
  · have hnil : e.toList ≠ [] := by simpa using h
    rw [if_neg h, if_neg hnil]
    simp

theorem suffixed_inj {m' : String} : suffixed m e = suffixed m' e ↔ m = m' := by
  rw [← String.toList_inj, toList_suffixed, toList_suffixed, List.append_left_inj, String.toList_inj]

/-- What is left of a name when the suffix behind its last dot is taken off. -/
theorem take_shortened (b stem old : List Char) :
    (b ++ (stem ++ '.' :: old)).take ((b ++ (stem ++ '.' :: old)).length - old.length) = b ++ (stem ++ ['.']) := by
  have hsplit : b ++ (stem ++ '.' :: old) = (b ++ (stem ++ ['.'])) ++ old := by simp
  rw [hsplit, List.length_append, Nat.add_sub_cancel, List.take_left]

/-- A name without its suffix is still a file name, unless the stem is a dot. -/
theorem setExtension_shortened (hb : Leads b) (hs : stem ≠ []) (hn : '/' ∉ stem) (ext : List Char) :
    (ofChars (b ++ (stem ++ ['.']))).setExtension ext
      = ofChars (b ++ if stem = ['.'] then ['.', '.'] else stem ++ if ext = [] then [] else '.' :: ext) := by
  have hname : IsName (String.ofList (stem ++ ['.'])) := by
    refine ⟨by simp [hn], fun h => ?_, fun h => dotted_ne_dot hs [] ?_⟩
    · simpa using congrArg String.toList h
    · simpa using congrArg String.toList h
  obtain ⟨hlast, hbefore⟩ := lastPart_ofChars hb hname
  rw [String.toList_ofList] at hlast hbefore
  by_cases hdot : stem = ['.']
  · have hnone : (ofChars (b ++ (stem ++ ['.']))).fileName? = none := by
      rw [fileName?, hlast, hdot]
      rfl
    rw [if_pos hdot, setExtension, hnone, hdot]
    rfl
  · have hfile : (ofChars (b ++ (stem ++ ['.']))).fileName? = some (stem ++ ['.']) := by
      refine fileName?_eq_some_iff.2 ⟨hlast.symm, by simp, dotted_ne_dot hs [], fun h => hdot ?_⟩
      simpa using congrArg List.dropLast h
    rw [if_neg hdot, setExtension_eq hfile, hbefore, splitName_dotted hs (by simp), List.append_assoc]

/-- Another suffix is put behind the stem of a file name. Where the stem is a dot, two dots are left of the name once its
suffix is gone, and these are no file name. -/
theorem withExtension?_ofChars (hb : Leads b) (hn : IsName n) (hm : (ofChars (b ++ n.toList)).stem? = some m)
    (he : '/' ∉ e.toList) :
    (ofChars (b ++ n.toList)).withExtension? e
      = some (ofChars (b ++ (if m = "." then ".." else suffixed m e).toList)) := by
  obtain ⟨hlast, hbefore⟩ := lastPart_ofChars hb hn
  obtain ⟨hf, hstem, _⟩ := stem?_eq_some hm
  rw [hlast] at hf hstem
  have hone : m = "." ↔ m.toList = ['.'] := by rw [← String.toList_inj]; rfl
  have htarget : (if m = "." then ".." else suffixed m e).toList
      = if m.toList = ['.'] then ['.', '.'] else m.toList ++ if e.toList = [] then [] else '.' :: e.toList := by
    simp only [hone, apply_ite String.toList, toList_suffixed]
    rfl
  rw [withExtension?, if_neg he, htarget]
  rcases splitName_cases n.toList with hs | ⟨stem, old, hne, hold, hname, hs⟩
  · have hx : (ofChars (b ++ n.toList)).extension? = none := by rw [extension?, hf, Option.bind_some, hs]
    have hmn : m.toList = n.toList := by rw [hstem, hs]
    simp only [hx, hmn]
    rw [if_neg hn.toList.2, setExtension_eq hf, hbefore, hs, List.append_assoc]
  · have hx : (ofChars (b ++ n.toList)).extension? = some old := by rw [extension?, hf, Option.bind_some, hs]
    have hmstem : m.toList = stem := by rw [hstem, hs]
    have hslash := hn.notMem
    rw [hname, List.mem_append, not_or] at hslash
    rw [hx]
    simp only [chars_ofChars, hmstem, hname, take_shortened]
    rw [setExtension_shortened hb hne hslash.1]

/-- A file and its directory are told apart exactly if the path of the directory ends in a name. -/
theorem parent?_file {c : Char} (hd : d.chars.getLast? = some c) (hc : c ≠ '/') (hdot : c ≠ '.') (hn : IsName n) :
    (d.file n).parent? = some d := by
  have hreversed : (d.file n).reversed = n.toList.reverse ++ '/' :: d.chars.reverse := by
    rw [reversed, chars_file hd hc hn.notMem, List.reverse_append, List.reverse_cons, List.append_assoc,
      List.singleton_append]
    exact dropEnd_name hn.notMem hn.toList.1 hn.toList.2 _
  have hlong : 2 ≤ (d.file n).reversed.length := by
    have hpos := List.length_pos_of_ne_nil hn.toList.1
    rw [hreversed, List.length_append, List.length_reverse, List.length_cons]
    omega
  have hbehind : (d.file n).reversed.dropWhile (· ≠ '/') = '/' :: d.chars.reverse := by
    rw [hreversed]
    exact (Text.span_of_notMem (mt List.mem_reverse.1 hn.notMem) (.inr rfl)).2
  have hkept : dropEnd ('/' :: d.chars.reverse) = d.chars.reverse := by
    obtain ⟨cs, hcs⟩ := List.getLast?_eq_some_iff.1 hd
    rw [hcs, List.reverse_append, List.reverse_singleton, List.singleton_append, dropEnd]
    exact dropEnd_eq_self (fun c' ds e => hc (List.cons.inj e).1) fun ds e => hdot (List.cons.inj e).1
  rw [parent?]
  split
  · rename_i hnil
    simp [hnil] at hlong
  · rename_i hroot
    simp [hroot] at hlong
  · rw [hbehind, hkept, List.reverse_reverse, ofChars_chars]

theorem stem?_file {c : Char} (hd : d.chars.getLast? = some c) (hc : c ≠ '/') (hm : m ≠ "") (hslash : '/' ∉ m.toList)
    (he : e ≠ "") (heslash : '/' ∉ e.toList) (hedot : '.' ∉ e.toList) : (d.file (m ++ "." ++ e)).stem? = some m := by
  have hn := isName_dotted hm hslash heslash
  have hfile : d.file (m ++ "." ++ e) = ofChars ((d.chars ++ ['/']) ++ (m ++ "." ++ e).toList) := by
    rw [← ofChars_chars (d.file _), chars_file hd hc hn.notMem, List.append_assoc, List.singleton_append]
  have hchars : (m ++ "." ++ e).toList = m.toList ++ '.' :: e.toList := by simp
  rw [hfile, stem?_ofChars (.inr ⟨d.chars, rfl⟩) hn (dotted_ne_up hm he), hchars,
    splitName_dotted (by simpa using hm) hedot, String.ofList_toList]

theorem exists_parent (h : p.lastPart ≠ []) : ∃ d, p.parent? = some d := by
  rw [parent?]
  split
  · rename_i hr
    exact absurd (by rw [lastPart, hr]; rfl) h
  · rename_i hr
    exact absurd (by rw [lastPart, hr]; rfl) h
  · exact ⟨_, rfl⟩

/-! ## Files in directories -/

/-- A path that is written with a name at its end. -/
def EndsIn (p : Path) (n : String) : Prop := ∃ b, Leads b ∧ p = ofChars (b ++ n.toList)

theorem EndsIn.join (h : q.EndsIn n) (hq : q.isAbsolute = false) (p : Path) : (p.join q).EndsIn n := by
  by_cases hp : p.text = ""
  · rwa [join_empty hp hq]
  · obtain ⟨b, hb, rfl⟩ := h
    obtain ⟨cs, _, hj⟩ := join_eq hp hq
    refine ⟨cs ++ '/' :: b, ?_, ?_⟩
    · rcases hb with rfl | ⟨ds, rfl⟩
      · exact Or.inr ⟨cs, rfl⟩
      · exact Or.inr ⟨cs ++ '/' :: ds, by simp⟩
    · rw [hj, chars_ofChars, List.append_assoc, List.cons_append]

theorem EndsIn.segments (h : p.EndsIn n) (hn : '/' ∉ n.toList) : ∃ front, p.segments = front ++ [n] := by
  obtain ⟨b, hb, rfl⟩ := h
  have hlast := segments_of_notMem hn
  rw [String.ofList_toList] at hlast
  rcases hb with rfl | ⟨cs, rfl⟩
  · exact ⟨[], by rw [List.nil_append, hlast]; rfl⟩
  · refine ⟨(ofChars cs).segments, ?_⟩
    rw [List.append_assoc, List.singleton_append, segments_append, hlast]

/-- A path that is written as the one of a file in a directory. -/
structure IsFile (p d : Path) (n : String) : Prop where
  name : IsName n
  ne_up : n ≠ ".."
  endsIn : p.EndsIn n
  components : p.components = (d.file n).components

theorem isFile_before (h : p.parent? = some d) (hn : IsName n) (hup : n ≠ "..") :
    (ofChars (p.before ++ n.toList)).IsFile d n where
  name := hn
  ne_up := hup
  endsIn := ⟨p.before, p.leads_before, rfl⟩
  components := by
    rw [components_append p.leads_before hn.notMem hn.toList.1 (fun e => absurd e hn.toList.2), components_file d hn,
      (parent?_eq_some h).1.components, String.ofList_toList]

theorem IsFile.isAbsolute (h : p.IsFile d n) : p.isAbsolute = d.isAbsolute := by
  rw [isAbsolute_congr h.components, isAbsolute_file_of_isName d h.name]

/-! ## Two extensions in turn -/

/-- What the stem of a file name takes along of a suffix: all before its last dot. -/
def heldBack (suffix : String) : String :=
  match Text.splitLast '.' suffix.toList with
  | none => ""
  | some (front, _) => "." ++ String.ofList front

theorem heldBack_of_notMem {suffix : String} (h : '.' ∉ suffix.toList) : heldBack suffix = "" := by
  rw [heldBack, Text.splitLast_eq_none_iff.2 h]

theorem heldBack_dotted {suffix : String} {front last : List Char} (h : suffix.toList = front ++ '.' :: last)
    (hl : '.' ∉ last) : heldBack suffix = "." ++ String.ofList front := by
  rw [heldBack, Text.splitLast_eq_some_iff.2 ⟨h, hl⟩]

theorem dotted_cases (suffix : String) :
    '.' ∉ suffix.toList ∨ ∃ front last, suffix.toList = front ++ '.' :: last ∧ '.' ∉ last := by
  cases hs : Text.splitLast '.' suffix.toList with
  | none => exact Or.inl (Text.splitLast_eq_none_iff.1 hs)
  | some parts => exact Or.inr ⟨parts.1, parts.2, Text.splitLast_eq_some_iff.1 hs⟩

theorem heldBack_eq_empty_iff {suffix : String} : heldBack suffix = "" ↔ '.' ∉ suffix.toList := by
  rcases dotted_cases suffix with h | ⟨front, last, h, hl⟩
  · simp [heldBack_of_notMem h, h]
  · simp [heldBack_dotted h hl, h]

/-- The dot in front of the suffix is not the last one if there is one in the suffix. -/
theorem splitName_marked {suffix : String} (hm : m ≠ "") :
    String.ofList (splitName (m ++ "." ++ (suffix ++ "-src")).toList).1 = m ++ heldBack suffix := by
  have hnil : m.toList ≠ [] := by simpa using hm
  rcases dotted_cases suffix with h | ⟨front, last, h, hl⟩
  · have hchars : (m ++ "." ++ (suffix ++ "-src")).toList = m.toList ++ '.' :: (suffix ++ "-src").toList := by simp
    rw [hchars, splitName_dotted hnil (by simp [h]), heldBack_of_notMem h]
    simp
  · have hchars : (m ++ "." ++ (suffix ++ "-src")).toList
        = (m.toList ++ '.' :: front) ++ '.' :: (last ++ "-src".toList) := by
      simp [h]
    rw [hchars, splitName_dotted (by simp) (by simp [hl]), heldBack_dotted h hl, ← String.toList_inj]
    simp

/-- The source and the output of a compilation have different names. -/
theorem marked_ne_held (m suffix : String) : m ++ "." ++ (suffix ++ "-src") ≠ m ++ heldBack suffix ++ "." ++ suffix := by
  intro e
  rcases dotted_cases suffix with h | ⟨front, last, h, hl⟩
  · rw [heldBack_of_notMem h] at e
    simpa using congrArg (fun s => s.toList.length) e
  · rw [heldBack_dotted h hl] at e
    -- Behind the part of the suffix that both begin with, one goes on without a dot and the other one has a dot.
    have hrest : last ++ "-src".toList = front ++ '.' :: last := by simpa [h] using congrArg String.toList e
    have hmem : '.' ∈ last ++ "-src".toList := by
      rw [hrest]
      simp
    simp [hl] at hmem

theorem notMem_heldBack {suffix : String} (hs : '/' ∉ suffix.toList) : '/' ∉ (heldBack suffix).toList := by
  rcases dotted_cases suffix with h | ⟨front, last, h, hl⟩
  · simp [heldBack_of_notMem h]
  · rw [h] at hs
    simp only [List.mem_append, not_or] at hs
    simp [heldBack_dotted h hl, hs.1]

/-- One extension put in the place of another one that begins with it. What stands before the last dot of the extension is
there twice. -/
theorem withExtension?_marked {suffix : String} (hm : p.stem? = some m) (hdot : m ≠ ".") (hs : '/' ∉ suffix.toList)
    (hne : suffix ≠ "") : ∃ d q q', p.parent? = some d
      ∧ p.withExtension? (suffix ++ "-src") = some q ∧ q.IsFile d (m ++ "." ++ (suffix ++ "-src"))
      ∧ q.withExtension? suffix = some q' ∧ q'.IsFile d (m ++ heldBack suffix ++ "." ++ suffix) := by
  obtain ⟨hf, _, hm'⟩ := stem?_eq_some hm
  obtain ⟨d, hd⟩ := exists_parent (fileName?_eq_some_iff.1 hf).2.1
  have hslash := notMem_stem hm
  have hmarked : '/' ∉ (suffix ++ "-src").toList := by simp [hs]
  have hsrc : suffix ++ "-src" ≠ "" := by simp
  have hname := isName_dotted hm' hslash hmarked
  have hstem := stem?_ofChars p.leads_before hname (dotted_ne_up hm' hsrc)
  rw [splitName_marked hm'] at hstem
  have hheld : m ++ heldBack suffix ≠ "." := by
    rcases dotted_cases suffix with h | ⟨front, last, h, hl⟩
    · rwa [heldBack_of_notMem h, String.append_empty]
    · have hnil : m.toList ≠ [] := by simpa using hm'
      intro e
      rw [heldBack_dotted h hl] at e
      exact dotted_ne_dot hnil front (by simpa using congrArg String.toList e)
  have hheld' : m ++ heldBack suffix ≠ "" := by simp [hm']
  have hname' := isName_dotted hheld' (by simp [hslash, notMem_heldBack hs]) hs
  refine ⟨d, _, _, hd, withExtension?_eq hm hdot hmarked hsrc, isFile_before hd hname (dotted_ne_up hm' hsrc), ?_,
    isFile_before hd hname' (dotted_ne_up hheld' hne)⟩
  rw [withExtension?_eq hstem hheld hs hne, (lastPart_ofChars p.leads_before hname).2]

end Path

end BaseLang
