import BaseLang.Proofs.Brackets

/-!
# Documents

Texts with places where a line may be broken, and the layout of a term as that of such a text.

* `Document` : texts, lines, indentation and groups;
* `Document.Rest` : what follows a document, which decides with it whether a group stays on one line. `Rest.Takes` : the
  columns of it that must stay on that line;
* `Document.before` : a document in front of what follows it. `Document.layout` : a whole document;
* `Term.document` : the document of a term, with one group for each pair of brackets;
* `before_flat`, `text_before_bracketed` : the document of a term in a group that stays on one line, and brackets in a
  group that need not;
* `layout_document` : a term is laid out like its document.
-/

namespace BaseLang

/-- A text with places where a line may be broken. The lines of a group are broken all together or not at all, and those
in a nested document are indented. -/
inductive Document where
  | empty
  | text (cs : List Char)
  | line
  | append (d e : Document)
  | nest (columns : Nat) (d : Document)
  | group (d : Document)

namespace Document

/-- Whether the lines of a group are broken. -/
inductive Mode where
  | flat
  | broken

/-- What follows a document: whether it fits from a column on, up to its first broken line, and its text from there. -/
structure Rest where
  fits : Nat → Bool
  text : Nat → List Char

namespace Rest

/-- Nothing follows. -/
def done : Rest := ⟨fun _ => true, fun _ => []⟩

/-- A line break, and then a text. -/
def broken (cs : List Char) : Rest := ⟨fun _ => true, fun _ => cs⟩

/-- Some characters and what follows them. They must fit, and so must the rest of their line. -/
def behind (limit : Nat) (cs : List Char) (width : Nat) (r : Rest) : Rest where
  fits column := column + width ≤ limit && r.fits (column + width)
  text column := cs ++ r.text (column + width)

/-- The first of two texts if it fits, and else the second one. Only the second one starts a new line. -/
def orElse (flat broken : Rest) : Rest where
  fits := broken.fits
  text column := if flat.fits column then flat.text column else broken.text column

theorem text_broken (cs : List Char) (column : Nat) : (broken cs).text column = cs := rfl

theorem text_behind (limit : Nat) (cs : List Char) (width : Nat) (r : Rest) (column : Nat) :
    (r.behind limit cs width).text column = cs ++ r.text (column + width) := rfl

theorem text_orElse {flat : Rest} {column : Nat} {p : Prop} [Decidable p] (h : flat.fits column = decide p)
    (broken : Rest) : (flat.orElse broken).text column = if p then flat.text column else broken.text column := by
  simp [orElse, h]

/-- What must stay on the line takes `trail` columns. -/
def Takes (limit trail : Nat) (r : Rest) : Prop := ∀ column ≤ limit, r.fits column = decide (column + trail ≤ limit)

theorem takes_done (limit : Nat) : Takes limit 0 done := fun _ h => (decide_eq_true h).symm

theorem takes_broken (cs : List Char) {limit : Nat} : Takes limit 0 (broken cs) := fun _ h => (decide_eq_true h).symm

theorem Takes.fits_behind {limit trail : Nat} {r : Rest} (h : Takes limit trail r) (cs : List Char)
    (width column : Nat) : (r.behind limit cs width).fits column = decide (column + width + trail ≤ limit) := by
  show (decide (column + width ≤ limit) && r.fits (column + width)) = _
  by_cases hfits : column + width ≤ limit
  · rw [h _ hfits, decide_eq_true hfits, Bool.true_and]
  · rw [decide_eq_false hfits, Bool.false_and, eq_comm, decide_eq_false_iff_not]
    omega

theorem Takes.behind {limit trail : Nat} {r : Rest} (h : Takes limit trail r) (cs : List Char) (width : Nat) :
    Takes limit (width + trail) (r.behind limit cs width) := fun column _ => by
  rw [h.fits_behind, Nat.add_assoc]

theorem behind_behind (limit : Nat) (cs ds : List Char) (m n : Nat) (r : Rest) :
    (r.behind limit ds n).behind limit cs m = r.behind limit (cs ++ ds) (m + n) := by
  unfold behind
  congr 1
  · funext column
    rw [← Nat.add_assoc, ← Bool.and_assoc]
    congr 1
    rw [← Bool.decide_and, decide_eq_decide]
    omega
  · funext column
    rw [← Nat.add_assoc, List.append_assoc]

end Rest

/-- A document in front of what follows it. A group whose own lines may be broken stays on one line if it fits there
together with what follows it up to the next broken line. -/
def before (limit : Nat) : Document → (indent : Nat) → Mode → Rest → Rest
  | empty, _, _, r => r
  | text cs, _, _, r => r.behind limit cs (Text.displayWidth cs)
  | line, _, .flat, r => r
  | line, indent, .broken, r => .broken (Term.newline indent ++ r.text indent)
  | append d e, indent, mode, r => d.before limit indent mode (e.before limit indent mode r)
  | nest columns d, indent, mode, r => d.before limit (indent + columns) mode r
  | group d, indent, .flat, r => d.before limit indent .flat r
  | group d, indent, .broken, r => (d.before limit indent .flat r).orElse (d.before limit indent .broken r)

def layout (limit : Nat) (d : Document) : String := String.ofList ((d.before limit 0 .broken .done).text 0)

/-- Items between brackets, which stay on the line of the brackets or get lines of their own. -/
def bracketed (opening : Char) (items : Document) (close : Char) : Document :=
  .group (.append (.text [opening]) (.append (.nest 2 (.append .line items)) (.append .line (.text [close]))))

end Document

namespace Term

open Document

mutual

def document : Term → Document
  | .appl cons [] => .text cons.toList
  | .appl cons (t :: ts) =>
    .append (.text cons.toList) (bracketed '(' (.append t.document (documentAfter ts)) ')')
  | .list [] => .text ['[', ']']
  | .list (t :: ts) => bracketed '[' (.append t.document (documentAfter ts)) ']'
  | .str text => .text (Text.quoted text.toList)
  | .int value => .text (Text.decimal value.toInt)

/-- The document of the items that follow a first one, each behind a comma and a line. -/
def documentAfter : List Term → Document
  | [] => .empty
  | t :: ts => .append (.append (.text [',']) .line) (.append t.document (documentAfter ts))

end

variable {t : Term} {ts : List Term} {limit indent trail : Nat} {r : Rest}

/-! ## On one line -/

theorem behind_documentAfter
    (h : ∀ t ∈ ts, ∀ r, t.document.before limit indent .flat r = r.behind limit t.chars t.width)
    (cs : List Char) (n : Nat) (r : Rest) :
    ((documentAfter ts).before limit indent .flat r).behind limit cs n
      = r.behind limit (cs ++ charsAfter ts) (n + widthAfter ts) := by
  induction ts generalizing cs n with
  | nil => simp [documentAfter, before, charsAfter, widthAfter]
  | cons t ts ih =>
    obtain ⟨ht, hts⟩ := List.forall_mem_cons.1 h
    have hcomma : Text.displayWidth [','] = 1 := rfl
    simp only [documentAfter, before, ht, ih hts, Rest.behind_behind, hcomma, charsAfter, widthAfter]
    congr 1
    omega

theorem before_bracketed_flat (h : ∀ u ∈ t :: ts, ∀ indent r, u.document.before limit indent .flat r
    = r.behind limit u.chars u.width) (o c : Char) (ho : Text.displayWidth [o] = 1) (hc : Text.displayWidth [c] = 1)
    (indent : Nat) (r : Rest) : (bracketed o (.append t.document (documentAfter ts)) c).before limit indent .flat r
      = r.behind limit (o :: (t.chars ++ (charsAfter ts ++ [c]))) (t.width + widthAfter ts + 2) := by
  obtain ⟨ht, hts⟩ := List.forall_mem_cons.1 h
  simp only [bracketed, before, ht, behind_documentAfter fun u hu => hts u hu _, Rest.behind_behind, ho, hc]
  congr 1
  · simp
  · omega

theorem Leaf.before_eq (h : t.Leaf) (indent : Nat) (mode : Mode) (r : Rest) :
    t.document.before limit indent mode r = r.behind limit t.chars t.width := by
  cases h with
  | empty =>
    simp only [document, before, chars, width]
    rfl
  | _ => simp only [document, before, chars, width]

/-- On one line a term is its compact text. -/
theorem before_flat (limit : Nat) (t : Term) (indent : Nat) (r : Rest) :
    t.document.before limit indent .flat r = r.behind limit t.chars t.width := by
  induction t using induct_bracketed generalizing indent r with
  | leaf t ht => exact ht.before_eq indent .flat r
  | bracketed t opening items close ht ih =>
    obtain ⟨u, us, rfl⟩ := List.exists_cons_of_ne_nil ht.ne_nil
    cases ht with
    | appl cons =>
      simp only [document, before, before_bracketed_flat ih '(' ')' rfl rfl, Rest.behind_behind, chars, width]
      congr 1
      omega
    | list => simp only [document, before_bracketed_flat ih '[' ']' rfl rfl, chars, width]

/-! ## Broken lines -/

/-- The document of `t` in a group that is broken, at the start of a line: it is laid out so that it fits together with
the columns that must stay on its line. -/
def Breaks (limit : Nat) (t : Term) : Prop :=
  ∀ indent trail r, Rest.Takes limit trail r →
    ∃ column, (t.document.before limit indent .broken r).text indent = layoutAt limit indent trail t ++ r.text column

theorem text_before_items (h : ∀ u ∈ t :: ts, u.Breaks limit) (indent : Nat) (cs : List Char) :
    ((Document.append t.document (documentAfter ts)).before limit (indent + 2) .broken (.broken cs)).text (indent + 2)
      = (',' :: newline (indent + 2)).intercalate (itemTexts limit indent (t :: ts)) ++ cs := by
  induction ts generalizing t with
  | nil =>
    obtain ⟨column, htext⟩ := h t List.mem_cons_self (indent + 2) 0 (.broken cs) (Rest.takes_broken cs)
    simp only [documentAfter, before]
    rw [htext]
    simp [itemTexts, trailOf, Rest.text_broken]
  | cons u us ih =>
    obtain ⟨ht, hts⟩ := List.forall_mem_cons.1 h
    have hcomma : Text.displayWidth [','] = 1 := rfl
    have hrest := ih hts
    simp only [before, documentAfter, hcomma] at hrest ⊢
    obtain ⟨column, htext⟩ := ht (indent + 2) 1 _ ((Rest.takes_broken _).behind [','] 1)
    rw [htext, Rest.text_behind, Rest.text_broken, hrest]
    simp [itemTexts, trailOf, List.intercalate_cons_cons]

/-- Brackets stay on the line of what opens them, or each item gets a line. -/
theorem text_before_bracketed (h : ∀ u ∈ t :: ts, u.Breaks limit) (hr : Rest.Takes limit trail r) (o c : Char)
    (ho : Text.displayWidth [o] = 1) (hc : Text.displayWidth [c] = 1) (indent column : Nat) :
    ∃ last, ((bracketed o (.append t.document (documentAfter ts)) c).before limit indent .broken r).text column
      = (if column + (t.width + widthAfter ts + 2) + trail ≤ limit then o :: (t.chars ++ (charsAfter ts ++ [c]))
        else o :: (newline (indent + 2) ++ ((',' :: newline (indent + 2)).intercalate (itemTexts limit indent (t :: ts))
          ++ (newline indent ++ [c])))) ++ r.text last := by
  have hflat := before_bracketed_flat (fun u (_ : u ∈ t :: ts) => before_flat limit u) o c ho hc indent r
  have hitems := text_before_items h indent
  simp only [bracketed, before] at hflat hitems ⊢
  rw [hflat, Rest.text_orElse (hr.fits_behind ..)]
  split
  · exact ⟨_, rfl⟩
  · exact ⟨indent + 1, by simp [Rest.text_behind, Rest.text_broken, hitems, hc]⟩

theorem Bracketed.breaks {opening : List Char} {items : List Term} {close : Char}
    (h : t.Bracketed opening items close) (hn : t.WellNamed) (hitems : ∀ u ∈ items, u.Breaks limit) :
    t.Breaks limit := by
  intro indent trail r hr
  rw [h.layoutAt_eq hn]
  obtain ⟨u, us, rfl⟩ := List.exists_cons_of_ne_nil h.ne_nil
  cases h with
  | appl cons =>
    obtain ⟨last, htext⟩ := text_before_bracketed hitems hr '(' ')' rfl rfl indent
      (indent + Text.displayWidth cons.toList)
    refine ⟨last, ?_⟩
    have hwidth : indent + (Term.appl cons (u :: us)).width + trail
        = indent + Text.displayWidth cons.toList + (u.width + widthAfter us + 2) + trail := by
      rw [width]
      omega
    rw [document, before, before, Rest.text_behind, htext, hwidth, ← List.append_assoc, chars]
    congr 1
    split <;> simp
  | list =>
    obtain ⟨last, htext⟩ := text_before_bracketed hitems hr '[' ']' rfl rfl indent indent
    refine ⟨last, ?_⟩
    rw [document, htext, width, chars]
    rfl

/-- Every well-named term breaks where it does not fit. -/
theorem breaks (h : t.WellNamed) (limit : Nat) : t.Breaks limit := by
  induction t using induct_bracketed with
  | leaf t ht =>
    intro indent trail r _
    rw [ht.before_eq, ht.layoutAt_eq, Rest.text_behind]
    exact ⟨_, rfl⟩
  | bracketed t opening items close ht ih => exact ht.breaks h fun u hu => ih u hu (ht.wellNamed h u hu)

/-- A well-named term is laid out like its document. -/
theorem layout_document (h : t.WellNamed) (limit : Nat) : t.document.layout limit = t.pretty limit := by
  obtain ⟨last, htext⟩ := breaks h limit 0 0 .done (Rest.takes_done limit)
  rw [layout, htext, pretty]
  congr 1
  exact List.append_nil _

end Term

end BaseLang
