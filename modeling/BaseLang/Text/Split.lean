/-!
# Splitting and replacing

* `fields` : the parts of a text between the occurrences of a separator character. `intercalate_fields`,
  `map_intercalate` : the text that parts make with another separator;
* `splitLast` : the parts before and behind the last occurrence. `splitLast_eq_some_iff` : no other ones;
* `lines` : the lines of a text, without their line ends;
* `replaceAll` : every occurrence of a word replaced, from left to right.
-/

namespace BaseLang.Text

/-- The parts between the occurrences of `sep`, one more than there are occurrences. -/
def fields (sep : Char) : List Char → List (List Char)
  | [] => [[]]
  | c :: cs =>
    if c = sep then [] :: fields sep cs
    else match fields sep cs with
      | [] => [[c]]
      | part :: parts => (c :: part) :: parts

/-- The parts before and behind the last occurrence of `sep`, if there is one. -/
def splitLast (sep : Char) (cs : List Char) : Option (List Char × List Char) :=
  match cs.reverse.dropWhile (· ≠ sep) with
  | [] => none
  | _ :: before => some (before.reverse, (cs.reverse.takeWhile (· ≠ sep)).reverse)

def dropReturn (line : List Char) : List Char :=
  match line.reverse with
  | '\r' :: rest => rest.reverse
  | _ => line

/-- The lines of a text: what a line feed ends, or the rest behind the last one if it is not empty. -/
def lines (cs : List Char) : List (List Char) :=
  let parts := fields '\n' cs
  let last := parts.getLast?.getD []
  parts.dropLast.map dropReturn ++ (if last = [] then [] else [last])

/-- Replaces the occurrences of the word `w :: ws` behind the first `skip` characters, which belong to
an occurrence before them. -/
def replaceAfter (w : Char) (ws new : List Char) : (skip : Nat) → List Char → List Char
  | _, [] => []
  | skip + 1, _ :: cs => replaceAfter w ws new skip cs
  | 0, c :: cs =>
    if (w :: ws).isPrefixOf (c :: cs) then new ++ replaceAfter w ws new ws.length cs
    else c :: replaceAfter w ws new 0 cs

/-- Replaces every occurrence of a word, from left to right and without looking at what was put in. -/
def replaceAll (word new cs : List Char) : List Char :=
  match word with
  | [] => cs
  | w :: ws => replaceAfter w ws new 0 cs

variable {sep : Char} {cs ds part : List Char} {parts : List (List Char)}

/-! ## The parts of a text -/

theorem fields_ne_nil (sep : Char) (cs : List Char) : fields sep cs ≠ [] := by
  cases cs with
  | nil => simp [fields]
  | cons c cs =>
    unfold fields
    split
    · simp
    · split <;> simp

theorem fields_eq_singleton (h : sep ∉ cs) : fields sep cs = [cs] := by
  induction cs with
  | nil => rfl
  | cons c cs ih =>
    have hc : c ≠ sep := fun e => h (by simp [e])
    rw [fields, if_neg hc, ih fun hm => h (by simp [hm])]

theorem fields_append_sep (sep : Char) (cs ds : List Char) :
    fields sep (cs ++ sep :: ds) = fields sep cs ++ fields sep ds := by
  induction cs with
  | nil => simp [fields]
  | cons c cs ih =>
    rw [List.cons_append, fields, fields]
    split
    · rw [ih, List.cons_append]
    · rw [ih]
      obtain ⟨part, parts, h⟩ := List.exists_cons_of_ne_nil (fields_ne_nil sep cs)
      rw [h]
      rfl

theorem notMem_of_mem_fields (h : part ∈ fields sep cs) : sep ∉ part := by
  induction cs generalizing part with
  | nil =>
    rw [fields, List.mem_singleton] at h
    simp [h]
  | cons c cs ih =>
    rw [fields] at h
    by_cases hc : c = sep
    · rw [if_pos hc] at h
      rcases List.mem_cons.1 h with rfl | h
      · simp
      · exact ih h
    · obtain ⟨first, rest, hf⟩ := List.exists_cons_of_ne_nil (fields_ne_nil sep cs)
      simp only [if_neg hc, hf] at h
      rw [hf] at ih
      rcases List.mem_cons.1 h with rfl | h
      · have hfirst : sep ∉ first := ih (List.mem_cons_self ..)
        simp [hfirst, Ne.symm hc]
      · exact ih (List.mem_cons_of_mem first h)

theorem intercalate_fields (sep other : Char) (cs : List Char) :
    [other].intercalate (fields sep cs) = cs.map fun c => if c = sep then other else c := by
  induction cs with
  | nil => rfl
  | cons c cs ih =>
    obtain ⟨first, rest, hf⟩ := List.exists_cons_of_ne_nil (fields_ne_nil sep cs)
    rw [hf] at ih
    rw [fields, List.map_cons, ← ih, hf]
    by_cases hc : c = sep
    · simp [hc, List.intercalate]
    · cases rest with
      | nil => simp [hc, List.intercalate]
      | cons => simp [hc, List.intercalate]

theorem map_of_notMem {part : List Char} (h : sep ∉ part) (other : Char) :
    part.map (fun c => if c = sep then other else c) = part := by
  refine (List.map_congr_left fun c hc => ?_).trans (List.map_id part)
  have hne : c ≠ sep := fun e => h (e ▸ hc)
  simp [hne]

/-- Parts without a separator, joined by one that is then replaced. -/
theorem map_intercalate (h : ∀ part ∈ parts, sep ∉ part) (other : Char) :
    ([sep].intercalate parts).map (fun c => if c = sep then other else c) = [other].intercalate parts := by
  induction parts with
  | nil => rfl
  | cons part parts ih =>
    obtain ⟨hpart, hparts⟩ := List.forall_mem_cons.1 h
    cases parts with
    | nil => rw [List.intercalate_singleton, List.intercalate_singleton, map_of_notMem hpart]
    | cons part' parts =>
      rw [List.intercalate_cons_cons, List.intercalate_cons_cons, List.map_append, List.map_append,
        map_of_notMem hpart, ih hparts]
      simp

/-! ## The last separator -/

theorem notMem_takeWhile (sep : Char) (cs : List Char) : sep ∉ cs.takeWhile (· ≠ sep) := by
  intro hm
  simpa using List.all_eq_true.1 List.all_takeWhile sep hm

/-- A part without the separator is taken off in front of nothing or a separator. -/
theorem span_of_notMem (h : sep ∉ part) (hds : ds = [] ∨ ds.head? = some sep) :
    (part ++ ds).takeWhile (· ≠ sep) = part ∧ (part ++ ds).dropWhile (· ≠ sep) = ds := by
  have hpart : ∀ c ∈ part, decide (c ≠ sep) = true := by
    intro c hc
    have hne : c ≠ sep := fun e => h (e ▸ hc)
    simp [hne]
  rw [List.takeWhile_append_of_pos hpart, List.dropWhile_append_of_pos hpart]
  cases ds with
  | nil => simp
  | cons c ds =>
    obtain rfl : c = sep := by simpa using hds
    simp

theorem splitLast_eq_some_iff : splitLast sep cs = some (ds, part) ↔ cs = ds ++ sep :: part ∧ sep ∉ part := by
  have hcs : cs = (cs.reverse.dropWhile (· ≠ sep)).reverse ++ (cs.reverse.takeWhile (· ≠ sep)).reverse := by
    rw [← List.reverse_append, List.takeWhile_append_dropWhile, List.reverse_reverse]
  have hall : sep ∉ (cs.reverse.takeWhile (· ≠ sep)).reverse := by
    rw [List.mem_reverse]
    exact notMem_takeWhile sep cs.reverse
  constructor
  · intro h
    rw [splitLast] at h
    split at h
    · cases h
    · rename_i c rest hd
      have hc : c = sep := by
        have := List.head?_dropWhile_not (p := (· ≠ sep)) (l := cs.reverse)
        rw [hd] at this
        simpa using this
      cases h
      refine ⟨?_, hall⟩
      rw [hd, hc, List.reverse_cons, List.append_assoc] at hcs
      exact hcs
  · rintro ⟨rfl, hpart⟩
    have hr : (ds ++ sep :: part).reverse = part.reverse ++ sep :: ds.reverse := by simp
    have hsep : sep :: ds.reverse = [] ∨ (sep :: ds.reverse).head? = some sep := Or.inr rfl
    obtain ⟨ht, hd⟩ := span_of_notMem (mt List.mem_reverse.1 hpart) hsep
    rw [splitLast, hr, hd, ht]
    simp

theorem splitLast_eq_none_iff : splitLast sep cs = none ↔ sep ∉ cs := by
  constructor
  · intro h hm
    rw [splitLast] at h
    split at h
    · rename_i hd
      have hspan := List.takeWhile_append_dropWhile (p := (· ≠ sep)) (l := cs.reverse)
      rw [hd, List.append_nil] at hspan
      have hall := notMem_takeWhile sep cs.reverse
      rw [hspan] at hall
      exact hall (List.mem_reverse.2 hm)
    · cases h
  · intro h
    cases hs : splitLast sep cs with
    | none => rfl
    | some parts =>
      obtain ⟨rfl, _⟩ := splitLast_eq_some_iff.1 hs
      simp at h

end BaseLang.Text
