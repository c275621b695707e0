import Mathlib.Data.List.Infix
import Mathlib.Logic.Function.Basic
import BaseLang.Program.Generator

/-!
# Paths in the arguments of a generator

The paths are put into an argument one after another, so what has been put in is looked at again. This is the same as
putting them in at once unless a path, together with what can stand around it, makes up a placeholder.

* `Text.cut_induction` : a text is cut into words and other characters from left to right;
* `Text.replaceAll_append`, `Text.replaceAll_eq_self_iff` : texts that a replacement leaves alone;
* `Placeholder`, `Placeholder.fill` : a text with all its placeholders filled at once;
* `Text.Completes` : a text makes up a word with a beginning of the word before it and an end of the word behind it;
* `Placeholder.replaceAll_fill` : one more placeholder is filled by a replacement;
* `GeneratorCommand.expand_simultaneous_iff` : the paths for which arguments are filled at once.
-/

namespace BaseLang

/-! ## Replacing -/

namespace Text

variable {W : List Char → Prop} {word new s t cs : List Char} {c : Char}

/-- A text is cut from left to right: where it begins with one of some words, this is taken off, and one character
otherwise. -/
theorem cut_induction {motive : List Char → Prop} (hW : ∀ w, W w → w ≠ []) (nil : motive [])
    (word : ∀ w cs, W w → motive cs → motive (w ++ cs))
    (char : ∀ c cs, (∀ w, W w → ¬ w <+: c :: cs) → motive cs → motive (c :: cs)) (cs : List Char) : motive cs := by
  induction hn : cs.length using Nat.strong_induction_on generalizing cs with
  | h n ih =>
    subst hn
    by_cases hword : ∃ w, W w ∧ w <+: cs
    · obtain ⟨w, hw, rest, rfl⟩ := hword
      have hpos := List.length_pos_of_ne_nil (hW w hw)
      exact word w rest hw (ih rest.length (by rw [List.length_append]; omega) rest rfl)
    · cases cs with
      | nil => exact nil
      | cons c cs =>
        refine char c cs (fun w hw hstart => hword ⟨w, hw, hstart⟩) (ih cs.length ?_ cs rfl)
        exact Nat.lt_succ_self cs.length

theorem word_induction {motive : List Char → Prop} (hw : word ≠ []) (nil : motive [])
    (occurrence : ∀ cs, motive cs → motive (word ++ cs))
    (char : ∀ c cs, ¬ word <+: c :: cs → motive cs → motive (c :: cs)) (cs : List Char) : motive cs := by
  refine cut_induction (W := (· = word)) ?_ nil ?_ (fun c cs hno => char c cs (hno word rfl)) cs
  · rintro _ rfl
    exact hw
  · rintro _ cs rfl
    exact occurrence cs

@[simp] theorem replaceAll_nil (word new : List Char) : replaceAll word new [] = [] := by
  cases word <;> rfl

/-- A word at the start of two texts in a row is in the first one, or goes on behind it. -/
theorem prefix_append_cases (h : word <+: s ++ t) : word <+: s ∨ ∃ v, word = s ++ v ∧ v <+: t := by
  obtain ⟨x, hx⟩ := h
  rcases List.append_eq_append_iff.1 hx with ⟨a, rfl, _⟩ | ⟨v, rfl, ht⟩
  · exact .inl (List.prefix_append ..)
  · exact .inr ⟨v, rfl, x, ht.symm⟩

theorem replaceAfter_append (c : Char) (word new s t : List Char) :
    replaceAfter c word new s.length (s ++ t) = replaceAfter c word new 0 t := by
  induction s with
  | nil => rfl
  | cons d s ih => exact ih

theorem replaceAll_word (hw : word ≠ []) (new cs : List Char) :
    replaceAll word new (word ++ cs) = new ++ replaceAll word new cs := by
  obtain ⟨c, word, rfl⟩ := List.exists_cons_of_ne_nil hw
  have hstart : (c :: word).isPrefixOf (c :: (word ++ cs)) = true :=
    List.isPrefixOf_iff_prefix.2 (List.prefix_append (c :: word) cs)
  rw [List.cons_append, replaceAll, replaceAfter, if_pos hstart, replaceAfter_append]
  rfl

theorem replaceAll_char (h : ¬ word <+: c :: cs) (new : List Char) :
    replaceAll word new (c :: cs) = c :: replaceAll word new cs := by
  cases word with
  | nil => exact absurd List.nil_prefix h
  | cons d word =>
    rw [replaceAll, replaceAfter, if_neg (mt List.isPrefixOf_iff_prefix.1 h)]
    rfl

/-- A text in which the word does not begin stays as it is. -/
theorem replaceAll_append (new : List Char) (h : ∀ y, y <:+ s → y ≠ [] → ¬ word <+: y ++ t) :
    replaceAll word new (s ++ t) = s ++ replaceAll word new t := by
  induction s with
  | nil => rfl
  | cons c s ih =>
    have hfirst := h (c :: s) List.suffix_rfl (List.cons_ne_nil c s)
    rw [List.cons_append] at hfirst ⊢
    rw [replaceAll_char hfirst, ih fun y hy => h y (hy.trans (List.suffix_cons c s)), List.cons_append]

theorem replaceAll_self (hw : word ≠ []) (cs : List Char) : replaceAll word word cs = cs := by
  induction cs using word_induction hw with
  | nil => exact replaceAll_nil ..
  | occurrence cs ih => rw [replaceAll_word hw, ih]
  | char c cs hno ih => rw [replaceAll_char hno, ih]

/-- Longer words make a text longer, and shorter words make it shorter. -/
theorem length_replaceAll (hw : word ≠ []) (new cs : List Char) :
    (word.length ≤ new.length → cs.length ≤ (replaceAll word new cs).length)
      ∧ (new.length ≤ word.length → (replaceAll word new cs).length ≤ cs.length) := by
  induction cs using word_induction hw with
  | nil => simp
  | occurrence cs ih =>
    rw [replaceAll_word hw, List.length_append, List.length_append]
    omega
  | char c cs hno ih =>
    rw [replaceAll_char hno, List.length_cons, List.length_cons]
    omega

/-- A text is different behind a replacement if the word is in it. -/
theorem replaceAll_ne (hw : word ≠ []) (hne : new ≠ word) (h : word <:+: cs) : replaceAll word new cs ≠ cs := by
  induction cs using word_induction hw with
  | nil => exact absurd (List.infix_nil.1 h) hw
  | occurrence cs _ =>
    intro hsame
    rw [replaceAll_word hw] at hsame
    -- The lengths of the first word and of the rest change in the same direction.
    have hlength := congrArg List.length hsame
    obtain ⟨hlonger, hshorter⟩ := length_replaceAll hw new cs
    rw [List.length_append, List.length_append] at hlength
    have heq : new.length = word.length := by omega
    exact hne (List.append_inj_left hsame heq)
  | char c cs hno ih =>
    rw [replaceAll_char hno]
    intro hsame
    exact ih ((List.infix_cons_iff.1 h).resolve_left hno) (List.cons.inj hsame).2

/-- A text makes up a word, with a beginning of the word before it and an end of the word behind it. -/
def Completes (word new : List Char) : Prop :=
  ∃ b e, (b <+: word ∧ b ≠ word) ∧ (e <:+ word ∧ e ≠ word) ∧ word <:+: b ++ new ++ e

instance (word new : List Char) : Decidable (Completes word new) :=
  decidable_of_iff (∃ b ∈ word.inits, ∃ e ∈ word.tails, b ≠ word ∧ e ≠ word ∧ word <:+: b ++ new ++ e) <| by
    simp only [Completes, List.mem_inits, List.mem_tails]
    constructor
    · rintro ⟨b, hb, e, he, hbne, hene, h⟩
      exact ⟨b, e, ⟨hb, hbne⟩, ⟨he, hene⟩, h⟩
    · rintro ⟨b, e, ⟨hb, hbne⟩, ⟨he, hene⟩, h⟩
      exact ⟨b, hb, e, he, hbne, hene, h⟩

theorem completes_of_infix (hw : word ≠ []) (h : word <:+: new) : Completes word new := by
  refine ⟨[], [], ⟨List.nil_prefix, hw.symm⟩, ⟨List.nil_suffix, hw.symm⟩, ?_⟩
  rwa [List.nil_append, List.append_nil]

/-- A text that goes on behind a beginning of the word, up to an end of it. -/
theorem completes_of_beginning {b v e : List Char} (hw : word = b ++ v) (hb : b ≠ []) (hv : v ≠ []) (he : e <:+ v)
    (h : v <+: new ++ e) : Completes word new := by
  refine ⟨b, e, ⟨hw ▸ List.prefix_append .., fun heq => hv ?_⟩,
    ⟨hw ▸ he.trans (List.suffix_append ..), fun heq => ?_⟩, ?_⟩
  · simpa [hw] using heq
  · have hlength := he.length_le
    have hpos := List.length_pos_of_ne_nil hb
    rw [heq, hw, List.length_append] at hlength
    omega
  · rw [hw, List.append_assoc]
    exact ((List.prefix_append_right_inj b).2 h).isInfix

/-- A text of which an end begins the word. -/
theorem completes_of_end {y v : List Char} (hw : word = y ++ v) (hy : y ≠ []) (h : y <:+ new) : Completes word new := by
  refine ⟨[], v, ⟨List.nil_prefix, fun heq => hy ?_⟩, ⟨hw ▸ List.suffix_append .., fun heq => hy ?_⟩, ?_⟩
  · rw [hw] at heq
    exact (List.append_eq_nil_iff.1 heq.symm).1
  · simpa [hw] using heq
  · rw [hw, List.nil_append]
    obtain ⟨x, rfl⟩ := h
    rw [List.append_assoc]
    exact (List.suffix_append ..).isInfix

-- The text makes up the word between `{` and `}`, without a beginning or an end of the word in it.
example : Completes "\x7bout\x7d".toList "out".toList := by decide

end Text

open Text

/-! ## Placeholders -/

/-- The paths that can stand in an argument. -/
inductive Placeholder where
  | definition
  | out
  | cache
  deriving DecidableEq

namespace Placeholder

variable {f : Placeholder → List Char} {p q r : Placeholder} {b e s t u v cs new : List Char} {c : Char}

def word : Placeholder → List Char
  | definition => "\x7bdefinition\x7d".toList
  | out => "\x7bout\x7d".toList
  | cache => "\x7bcache\x7d".toList

/-- The placeholder that a text begins with. -/
def at? (cs : List Char) : Option Placeholder := [definition, out, cache].find? fun p => p.word.isPrefixOf cs

/-- A text with its placeholders filled, behind the first `skip` characters, which belong to a placeholder before
them. -/
def fillAfter (f : Placeholder → List Char) : (skip : Nat) → List Char → List Char
  | _, [] => []
  | skip + 1, _ :: cs => fillAfter f skip cs
  | 0, c :: cs =>
    match at? (c :: cs) with
    | some p => f p ++ fillAfter f (p.word.length - 1) cs
    | none => c :: fillAfter f 0 cs

/-- A text with all its placeholders filled at once, from left to right and without looking at what is put in. -/
def fill (f : Placeholder → List Char) (cs : List Char) : List Char := fillAfter f 0 cs

/-! ### How placeholders are written -/

theorem word_ne_nil (p : Placeholder) : p.word ≠ [] := by
  cases p <;> decide

theorem head?_word (p : Placeholder) : p.word.head? = some '\x7b' := by
  cases p <;> decide

theorem closing_mem_word (p : Placeholder) : '\x7d' ∈ p.word := by
  cases p <;> decide

theorem opening_notMem (he : e <:+ p.word) (hne : e ≠ p.word) : '\x7b' ∉ e := by
  have hall : ∀ p : Placeholder, ∀ e ∈ p.word.tails, e ≠ p.word → '\x7b' ∉ e := by
    intro p
    cases p <;> decide
  exact hall p e ((List.mem_tails ..).2 he) hne

theorem closing_notMem (hb : b <+: p.word) (hne : b ≠ p.word) : '\x7d' ∉ b := by
  have hall : ∀ p : Placeholder, ∀ b ∈ p.word.inits, b ≠ p.word → '\x7d' ∉ b := by
    intro p
    cases p <;> decide
  exact hall p b ((List.mem_inits ..).2 hb) hne

theorem eq_of_word (h : p.word <+: r.word ++ t) : p = r := by
  have htwo : ∀ p : Placeholder, 2 ≤ p.word.length := by
    intro p
    cases p <;> decide
  have hdifferent : ∀ p r : Placeholder, p.word.take 2 = r.word.take 2 → p = r := by
    intro p r
    cases p <;> cases r <;> decide
  obtain ⟨x, hx⟩ := h
  have htake := congrArg (List.take 2) hx
  rw [List.take_append_of_le_length (htwo p), List.take_append_of_le_length (htwo r)] at htake
  exact hdifferent p r htake

theorem opening_mem (h : v <+: r.word ++ t) (hv : v ≠ []) : '\x7b' ∈ v := by
  obtain ⟨x, hx⟩ := h
  have hhead := congrArg List.head? hx
  rw [List.head?_append_of_ne_nil v hv, List.head?_append_of_ne_nil _ r.word_ne_nil, head?_word] at hhead
  exact List.mem_of_head? hhead

theorem not_completes_word (h : r ≠ p) : ¬ Completes p.word r.word := by
  have hall : ∀ p r : Placeholder, r ≠ p → ¬ Completes p.word r.word := by
    intro p r
    cases p <;> cases r <;> decide +kernel
  exact hall p r h

/-! ### Filling them -/

theorem cut_induction {motive : List Char → Prop} (nil : motive [])
    (place : ∀ (p : Placeholder) cs, motive cs → motive (p.word ++ cs))
    (char : ∀ c cs, (∀ p : Placeholder, ¬ p.word <+: c :: cs) → motive cs → motive (c :: cs)) (cs : List Char) :
    motive cs := by
  refine Text.cut_induction (W := fun w => ∃ p : Placeholder, w = p.word) ?_ nil ?_ ?_ cs
  · rintro _ ⟨p, rfl⟩
    exact p.word_ne_nil
  · rintro _ cs ⟨p, rfl⟩
    exact place p cs
  · exact fun c cs hno => char c cs fun p => hno _ ⟨p, rfl⟩

theorem at?_word (p : Placeholder) (cs : List Char) : at? (p.word ++ cs) = some p := by
  cases h : at? (p.word ++ cs) with
  | none =>
    have hno := List.find?_eq_none.1 h p (by cases p <;> decide)
    exact absurd (List.isPrefixOf_iff_prefix.2 (List.prefix_append p.word cs)) hno
  | some r =>
    rw [at?] at h
    have hr := List.find?_some h
    rw [eq_of_word (List.isPrefixOf_iff_prefix.1 hr)]

theorem at?_eq_none (h : ∀ p : Placeholder, ¬ p.word <+: cs) : at? cs = none :=
  List.find?_eq_none.2 fun p _ hp => h p (List.isPrefixOf_iff_prefix.1 hp)

theorem fillAfter_append (f : Placeholder → List Char) (s t : List Char) :
    fillAfter f s.length (s ++ t) = fillAfter f 0 t := by
  induction s with
  | nil => rfl
  | cons d s ih => exact ih

@[simp] theorem fill_nil (f : Placeholder → List Char) : fill f [] = [] := rfl

theorem fill_word (f : Placeholder → List Char) (p : Placeholder) (cs : List Char) :
    fill f (p.word ++ cs) = f p ++ fill f cs := by
  have hp := at?_word p cs
  obtain ⟨c, w, hw⟩ := List.exists_cons_of_ne_nil p.word_ne_nil
  rw [hw, List.cons_append] at hp ⊢
  rw [fill, fillAfter, hp]
  simp only [hw, List.length_cons, Nat.add_sub_cancel, fillAfter_append, fill]

theorem fill_char (f : Placeholder → List Char) (h : ∀ p : Placeholder, ¬ p.word <+: c :: cs) :
    fill f (c :: cs) = c :: fill f cs := by
  rw [fill, fillAfter, at?_eq_none h]
  rfl

/-- A text in which no placeholder begins stays as it is. -/
theorem fill_append (f : Placeholder → List Char) (h : ∀ y, y <:+ s → y ≠ [] → ∀ p : Placeholder, ¬ p.word <+: y ++ t) :
    fill f (s ++ t) = s ++ fill f t := by
  induction s with
  | nil => rfl
  | cons c s ih =>
    have hfirst := h (c :: s) List.suffix_rfl (List.cons_ne_nil c s)
    rw [List.cons_append] at hfirst ⊢
    rw [fill_char f hfirst, ih fun y hy => h y (hy.trans (List.suffix_cons c s)), List.cons_append]

theorem fill_self (cs : List Char) : fill word cs = cs := by
  induction cs using cut_induction with
  | nil => rfl
  | place p cs ih => rw [fill_word, ih]
  | char c cs hno ih => rw [fill_char word hno, ih]

/-- An end of an open placeholder is in a filled text only where it is in the text itself. -/
theorem starts_of_starts_fill (hp : f p = p.word) (h : ∀ r, r ≠ p → ¬ Completes p.word (f r)) (hv : v <:+ p.word)
    (hne : v ≠ p.word) (hstart : v <+: fill f cs) : v <+: cs := by
  induction cs using cut_induction generalizing v with
  | nil => exact hstart
  | place r cs ih =>
    by_cases hnil : v = []
    · rw [hnil]
      exact List.nil_prefix
    · rw [fill_word] at hstart
      by_cases hr : r = p
      · rw [hr, hp] at hstart
        exact absurd (opening_mem hstart hnil) (opening_notMem hv hne)
      · obtain ⟨u, hu⟩ := hv
        have hbegun : u ≠ [] := by
          rintro rfl
          exact hne hu
        refine absurd ?_ (h r hr)
        rcases prefix_append_cases hstart with hinside | ⟨e, he, _⟩
        · refine completes_of_beginning hu.symm hbegun hnil (List.nil_suffix ..) ?_
          rwa [List.append_nil]
        · exact completes_of_beginning hu.symm hbegun hnil (he ▸ List.suffix_append ..) (he ▸ List.prefix_rfl)
  | char c cs hno ih =>
    rw [fill_char f hno] at hstart
    cases v with
    | nil => exact List.nil_prefix
    | cons d v =>
      obtain ⟨rfl, hrest⟩ := List.cons_prefix_cons.1 hstart
      have hv' := (List.suffix_cons d v).trans hv
      refine List.cons_prefix_cons.2 ⟨rfl, ih hv' (fun heq => ?_) hrest⟩
      have hlength := hv.length_le
      rw [← heq, List.length_cons] at hlength
      omega

/-- **One more placeholder is filled by a replacement**, if no text that has been put in makes it up. -/
theorem replaceAll_fill (hp : f p = p.word) (h : ∀ r, r ≠ p → ¬ Completes p.word (f r)) (new cs : List Char) :
    replaceAll p.word new (fill f cs) = fill (Function.update f p new) cs := by
  induction cs using cut_induction with
  | nil => exact replaceAll_nil ..
  | place r cs ih =>
    rw [fill_word, fill_word, ← ih]
    by_cases hr : r = p
    · rw [hr, hp, Function.update_self, replaceAll_word p.word_ne_nil]
    · rw [Function.update_of_ne hr]
      refine replaceAll_append new fun y hy hne hstart => h r hr ?_
      rcases prefix_append_cases hstart with hinside | ⟨v, hv, _⟩
      · exact completes_of_infix p.word_ne_nil (hinside.isInfix.trans hy.isInfix)
      · -- The occurrence goes on behind the text that has been put in.
        exact completes_of_end hv hne hy
  | char c cs hno ih =>
    rw [fill_char f hno, fill_char _ hno, ← ih]
    refine replaceAll_char (fun hstart => ?_) new
    obtain ⟨d, w, hw⟩ := List.exists_cons_of_ne_nil p.word_ne_nil
    rw [hw] at hstart
    obtain ⟨rfl, hrest⟩ := List.cons_prefix_cons.1 hstart
    refine hno p (hw ▸ List.cons_prefix_cons.2 ⟨rfl, ?_⟩)
    refine starts_of_starts_fill hp h (hw ▸ List.suffix_cons d w) (fun heq => ?_) hrest
    simpa [hw] using congrArg List.length heq

/-- A replacement fills one placeholder. -/
theorem replaceAll_eq_fill (p : Placeholder) (new cs : List Char) :
    replaceAll p.word new cs = fill (Function.update word p new) cs := by
  have hfilled := replaceAll_fill (f := word) (p := p) rfl (fun r hr => not_completes_word hr) new cs
  rwa [fill_self] at hfilled

/-- Nothing but the placeholder is filled between a beginning and an end of a placeholder. -/
theorem fill_around (f : Placeholder → List Char) (hb : b <+: q.word) (hbne : b ≠ q.word) (he : e <:+ q.word)
    (hene : e ≠ q.word) (r : Placeholder) : fill f (b ++ (r.word ++ e)) = b ++ (f r ++ e) := by
  have hend : fill f e = e := by
    have hkept := fill_append (s := e) (t := []) f fun y hy _ p hstart => opening_notMem he hene ?_
    · simpa using hkept
    · rw [List.append_nil] at hstart
      exact hy.mem (hstart.mem (List.mem_of_head? p.head?_word))
  rw [fill_append f fun y hy hne p hstart => ?_, fill_word, hend]
  have hopen : '\x7d' ∉ y := fun hmem => closing_notMem hb hbne (hy.mem hmem)
  rcases prefix_append_cases hstart with hinside | ⟨v, hv, hrest⟩
  · exact hopen (hinside.mem p.closing_mem_word)
  · -- The rest of the placeholder would have to begin with an opening brace.
    have hvne : v ≠ [] := by
      rintro rfl
      rw [List.append_nil] at hv
      exact hopen (hv ▸ p.closing_mem_word)
    refine opening_notMem (hv ▸ List.suffix_append ..) (fun heq => hne ?_) (opening_mem hrest hvne)
    simpa using hv.symm.trans heq.symm

theorem replaceAll_around (p : Placeholder) (new : List Char) (hb : b <+: q.word) (hbne : b ≠ q.word) (he : e <:+ q.word)
    (hene : e ≠ q.word) (r : Placeholder) :
    replaceAll p.word new (b ++ (r.word ++ e)) = b ++ (Function.update word p new r ++ e) := by
  rw [replaceAll_eq_fill, fill_around _ hb hbne he hene]

end Placeholder

/-! ## Arguments -/

namespace GeneratorCommand

open Placeholder

variable {definition out : Path}

def paths (definition out cache : Path) : Placeholder → List Char
  | .definition => definition.chars
  | .out => out.chars
  | .cache => cache.chars

theorem expandArgument_eq (definition out cache : Path) (arg : String) : expandArgument definition out cache arg
    = String.ofList (replaceAll Placeholder.cache.word cache.chars (replaceAll Placeholder.out.word out.chars
        (replaceAll Placeholder.definition.word definition.chars arg.toList))) := rfl

/-- Arguments are filled at once if no path makes up a placeholder that is filled behind its own. -/
theorem expandArgument_eq_fill (hout : out.chars = Placeholder.out.word ∨ ¬ Completes Placeholder.out.word definition.chars)
    (hcache : ¬ Completes Placeholder.cache.word definition.chars) (hcache' : ¬ Completes Placeholder.cache.word out.chars)
    (cache : Path) (arg : String) :
    expandArgument definition out cache arg = String.ofList (fill (paths definition out cache) arg.toList) := by
  have hsecond : replaceAll Placeholder.out.word out.chars
        (fill (Function.update word .definition definition.chars) arg.toList)
      = fill (Function.update (Function.update word .definition definition.chars) .out out.chars) arg.toList := by
    rcases hout with hself | hnot
    · rw [hself, replaceAll_self Placeholder.out.word_ne_nil, Function.update_comm (by decide), Function.update_eq_self]
    · refine replaceAll_fill (p := .out) (f := Function.update word .definition definition.chars) rfl (fun r hr => ?_)
        out.chars arg.toList
      cases r with
      | definition => exact hnot
      | out => exact absurd rfl hr
      | cache => exact not_completes_word hr
  have hthird := replaceAll_fill (p := .cache)
    (f := Function.update (Function.update word .definition definition.chars) .out out.chars) rfl (fun r hr => by
      cases r with
      | definition => exact hcache
      | out => exact hcache'
      | cache => exact absurd rfl hr) cache.chars arg.toList
  have hpaths : Function.update (Function.update (Function.update word .definition definition.chars) .out out.chars)
      .cache cache.chars = paths definition out cache := by
    funext r
    cases r <;> rfl
  rw [expandArgument_eq, replaceAll_eq_fill .definition, hsecond, hthird, hpaths]

/-- Where the replacements behind the first one leave a text alone whatever the cache directory is, no placeholder is in it
that they fill. -/
theorem not_infix_of_kept {s : List Char} (h : ∀ cache : Path, replaceAll Placeholder.cache.word cache.chars
    (replaceAll Placeholder.out.word out.chars s) = s) :
    (out.chars = Placeholder.out.word ∨ ¬ Placeholder.out.word <:+: s) ∧ ¬ Placeholder.cache.word <:+: s := by
  -- A cache directory with the name of its own placeholder shows what the second replacement does alone.
  have hsecond : replaceAll Placeholder.out.word out.chars s = s := by
    have hkept := h ⟨"\x7bcache\x7d"⟩
    rwa [show (⟨"\x7bcache\x7d"⟩ : Path).chars = Placeholder.cache.word from rfl,
      replaceAll_self Placeholder.cache.word_ne_nil] at hkept
  have hthird := h ⟨""⟩
  rw [hsecond] at hthird
  refine ⟨?_, fun hinfix => replaceAll_ne Placeholder.cache.word_ne_nil (by decide) hinfix hthird⟩
  by_contra hnot
  rw [not_or, not_not] at hnot
  exact replaceAll_ne Placeholder.out.word_ne_nil hnot.1 hnot.2 hsecond

section simultaneous

variable (h : ∀ (cache : Path) (arg : String),
  expandArgument definition out cache arg = String.ofList (fill (paths definition out cache) arg.toList))

include h

/-- Arguments that show whether the path of the definition makes up a placeholder: one with a beginning and an end of the
placeholder around the path. -/
theorem not_completes_definition :
    (out.chars = Placeholder.out.word ∨ ¬ Completes Placeholder.out.word definition.chars)
      ∧ ¬ Completes Placeholder.cache.word definition.chars := by
  have hkept {q : Placeholder} (hc : Completes q.word definition.chars) : ∃ s, q.word <:+: s ∧ ∀ cache : Path,
      replaceAll Placeholder.cache.word cache.chars (replaceAll Placeholder.out.word out.chars s) = s := by
    obtain ⟨b, e, ⟨hb, hbne⟩, ⟨he, hene⟩, hinfix⟩ := hc
    refine ⟨_, hinfix, fun cache => ?_⟩
    have harg := h cache (String.ofList (b ++ (Placeholder.definition.word ++ e)))
    rw [expandArgument_eq, String.ofList_inj, String.toList_ofList, replaceAll_around .definition _ hb hbne he hene,
      fill_around _ hb hbne he hene, Function.update_self] at harg
    rw [List.append_assoc]
    exact harg
  constructor
  · by_contra hnot
    rw [not_or, not_not] at hnot
    obtain ⟨s, hinfix, hs⟩ := hkept hnot.2
    exact (not_infix_of_kept hs).1.elim hnot.1 fun hno => hno hinfix
  · intro hc
    obtain ⟨s, hinfix, hs⟩ := hkept hc
    exact (not_infix_of_kept hs).2 hinfix

/-- The same for the artifact directory, with an empty path for the cache directory. -/
theorem not_completes_out : ¬ Completes Placeholder.cache.word out.chars := by
  rintro ⟨b, e, ⟨hb, hbne⟩, ⟨he, hene⟩, hinfix⟩
  have harg := h ⟨""⟩ (String.ofList (b ++ (Placeholder.out.word ++ e)))
  rw [expandArgument_eq, String.ofList_inj, String.toList_ofList, replaceAll_around .definition _ hb hbne he hene,
    Function.update_of_ne (by decide), replaceAll_around .out _ hb hbne he hene, fill_around _ hb hbne he hene,
    Function.update_self] at harg
  rw [List.append_assoc] at hinfix
  have hempty : (⟨""⟩ : Path).chars ≠ Placeholder.cache.word := by decide
  exact replaceAll_ne Placeholder.cache.word_ne_nil hempty hinfix harg

end simultaneous

/-- **The paths for which arguments are filled at once.** Whatever the arguments and the cache directory are, replacing one
placeholder after another fills all of them at once exactly if the path of the definition does not make up the placeholder
of the artifact directory (unless this is filled with itself), and neither of the two paths makes up the one of the cache
directory. -/
theorem expand_simultaneous_iff (definition out : Path) :
    (∀ (c : GeneratorCommand) (cache : Path), c.expand definition out cache
        = c.args.map fun arg => String.ofList (fill (paths definition out cache) arg.toList))
      ↔ (out.chars = Placeholder.out.word ∨ ¬ Completes Placeholder.out.word definition.chars)
        ∧ ¬ Completes Placeholder.cache.word definition.chars ∧ ¬ Completes Placeholder.cache.word out.chars := by
  constructor
  · intro h
    have hone (cache : Path) (arg : String) :
        expandArgument definition out cache arg = String.ofList (fill (paths definition out cache) arg.toList) :=
      List.singleton_inj.1 (h ⟨"", [arg]⟩ cache)
    obtain ⟨hout, hcache⟩ := not_completes_definition hone
    exact ⟨hout, hcache, not_completes_out hone⟩
  · rintro ⟨hout, hcache, hcache'⟩ c cache
    exact List.map_congr_left fun arg _ => expandArgument_eq_fill hout hcache hcache' cache arg

/-- Arguments are not always filled at once: the placeholder of the artifact directory in the path of a definition is
filled too. -/
theorem not_always_simultaneous : ¬ ∀ (c : GeneratorCommand) (definition out cache : Path),
    c.expand definition out cache
      = c.args.map fun arg => String.ofList (fill (paths definition out cache) arg.toList) := by
  intro h
  have hone := h ⟨"sh", ["\x7bdefinition\x7d"]⟩ ⟨"\x7bout\x7d.x"⟩ ⟨"bin"⟩ ⟨"tmp"⟩
  exact absurd hone (by decide +kernel)

end GeneratorCommand

end BaseLang
