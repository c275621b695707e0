import BaseLang.Proofs.Grammar
import BaseLang.Term.Layout

/-!
# Printed terms are read back

* `Term.WellNamed` : every constructor of a term is an identifier;
* `wellNamed_of_read` : the reader finds no other terms;
* `Laid` : a text of some terms with commas between them, and white space wherever a line may be broken;
* `laid_chars`, `laid_layoutAt` : what is printed compactly, or broken to any width, is such a text;
* `read_of_laid` : each such text is read back;
* `read_text_iff_wellNamed`, `read_pretty_iff_wellNamed` : a compact text, or a text of any width, is read back
  exactly if its term is well-named.
-/

namespace BaseLang

namespace Term

/-- Every constructor name in a term is an identifier. -/
def WellNamed (t : Term) : Prop := ∀ u ∈ t.nodes, ∀ cons, u.cons? = some cons → Lexer.isIdent cons.toList

instance (t : Term) : Decidable t.WellNamed :=
  decidable_of_iff (∀ u ∈ t.nodes, (u.cons?.all fun cons => Lexer.isIdent cons.toList) = true)
    (by simp only [WellNamed, Option.all_eq_true])

theorem mem_nodesOf {u : Term} {ts : List Term} : u ∈ nodesOf ts ↔ ∃ t ∈ ts, u ∈ t.nodes := by
  induction ts with
  | nil => simp [nodesOf]
  | cons t ts ih => simp [nodesOf, ih]

theorem wellNamed_appl {cons : String} {args : List Term} :
    (appl cons args).WellNamed ↔ Lexer.isIdent cons.toList ∧ ∀ t ∈ args, t.WellNamed := by
  constructor
  · intro h
    refine ⟨h (appl cons args) (by simp [nodes]) cons rfl, fun t ht u hu => h u ?_⟩
    exact List.mem_cons_of_mem _ (mem_nodesOf.2 ⟨t, ht, hu⟩)
  · rintro ⟨hc, h⟩ u hu
    rcases List.mem_cons.1 hu with rfl | hu
    · rintro _ ⟨⟩
      exact hc
    · obtain ⟨t, ht, hu⟩ := mem_nodesOf.1 hu
      exact h t ht u hu

theorem wellNamed_list {elems : List Term} : (list elems).WellNamed ↔ ∀ t ∈ elems, t.WellNamed := by
  constructor
  · intro h t ht u hu
    exact h u (List.mem_cons_of_mem _ (mem_nodesOf.2 ⟨t, ht, hu⟩))
  · intro h u hu
    rcases List.mem_cons.1 hu with rfl | hu
    · rintro _ ⟨⟩
    · obtain ⟨t, ht, hu⟩ := mem_nodesOf.1 hu
      exact h t ht u hu

theorem wellNamed_str (text : String) : (str text).WellNamed := by
  intro u hu
  rw [List.mem_singleton.1 hu]
  rintro _ ⟨⟩

theorem wellNamed_int (value : Int64) : (int value).WellNamed := by
  intro u hu
  rw [List.mem_singleton.1 hu]
  rintro _ ⟨⟩

end Term

open Term

/-! ## The names of what is read -/

theorem Derives.wellNamed {n : Nonterminal} {ls : List Lexeme} {ts : List Term} (h : Derives n ls ts)
    (hl : ∀ l ∈ ls, l.kind = .ident → Lexer.isIdent l.text) : ∀ t ∈ ts, t.WellNamed := by
  induction h with
  | term _ _ ih => exact ih fun l hm => hl l (by simp [hm])
  | name hk => simpa [wellNamed_appl] using hl _ (by simp) hk
  | appl hk _ _ _ ih =>
    simpa [wellNamed_appl] using ⟨hl _ (by simp) hk, ih fun l hm => hl l (by simp [hm])⟩
  | list _ _ _ ih => simpa [wellNamed_list] using ih fun l hm => hl l (by simp [hm])
  | str => simpa using wellNamed_str _
  | int => simpa using wellNamed_int _
  | noRemark | remark | noItem => simp
  | items _ ih => exact ih hl
  | last _ ih => exact ih hl
  | more _ _ _ ih ihs =>
    have ht := ih fun l hm => hl l (by simp [hm])
    have hts := ihs fun l hm => hl l (by simp [hm])
    exact List.forall_mem_cons.2 ⟨ht _ (by simp), hts⟩

theorem wellNamed_of_read {source : String} {t : Term} (h : Term.read source = .ok t) : t.WellNamed :=
  (derives_of_read h).wellNamed (fun _ hl hk => Lexer.isIdent_of_mem_lexAfter hl hk) t (by simp)

/-! ## Texts with layout -/

/-- A text of some terms with commas between them, where white space may stand behind an opening bracket or
a comma and before a closing bracket. -/
inductive Laid : List Term → List Char → Prop where
  | name (cons : String) : Laid [.appl cons []] cons.toList
  | appl {gap body gap' : List Char} {args : List Term} (cons : String)
      (hg : ∀ c ∈ gap, Lexer.isSpace c = true) (items : Laid args body)
      (hg' : ∀ c ∈ gap', Lexer.isSpace c = true) :
      Laid [.appl cons args] (cons.toList ++ '(' :: (gap ++ (body ++ (gap' ++ [')']))))
  | empty : Laid [.list []] ['[', ']']
  | list {gap body gap' : List Char} {elems : List Term} (hg : ∀ c ∈ gap, Lexer.isSpace c = true)
      (items : Laid elems body) (hg' : ∀ c ∈ gap', Lexer.isSpace c = true) :
      Laid [.list elems] ('[' :: (gap ++ (body ++ (gap' ++ [']']))))
  | str (text : String) : Laid [.str text] (Text.quoted text.toList)
  | int (value : Int64) : Laid [.int value] (Text.decimal value.toInt)
  | more {gap cs ds : List Char} {t : Term} {ts : List Term} (first : Laid [t] cs)
      (hg : ∀ c ∈ gap, Lexer.isSpace c = true) (others : Laid ts ds) :
      Laid (t :: ts) (cs ++ ',' :: (gap ++ ds))

/-! ### What is printed -/

theorem isSpace_nil : ∀ c ∈ ([] : List Char), Lexer.isSpace c = true := by simp

theorem isSpace_newline (indent : Nat) : ∀ c ∈ newline indent, Lexer.isSpace c = true := by
  intro c hc
  rcases List.mem_cons.1 hc with rfl | hc
  · rfl
  · rw [List.eq_of_mem_replicate hc]
    rfl

theorem laid_charsAfter {ts : List Term} (h : ∀ t ∈ ts, Laid [t] t.chars) {t : Term} {cs : List Char}
    (ht : Laid [t] cs) : Laid (t :: ts) (cs ++ charsAfter ts) := by
  induction ts generalizing t cs with
  | nil => simpa [charsAfter] using ht
  | cons u us ih =>
    have hu := ih (fun t ht => h t (List.mem_cons_of_mem u ht)) (h u (by simp))
    simpa [charsAfter] using ht.more isSpace_nil hu

theorem laid_chars (t : Term) : Laid [t] t.chars := by
  induction t using Term.induct with
  | appl cons args ih =>
    cases args with
    | nil => exact .name cons
    | cons t ts =>
      have hi := laid_charsAfter (fun u hu => ih u (List.mem_cons_of_mem t hu)) (ih t (by simp))
      simpa [chars] using hi.appl cons isSpace_nil isSpace_nil
  | list elems ih =>
    cases elems with
    | nil => exact .empty
    | cons t ts =>
      have hi := laid_charsAfter (fun u hu => ih u (List.mem_cons_of_mem t hu)) (ih t (by simp))
      simpa [chars] using hi.list isSpace_nil isSpace_nil
  | str text => exact .str text
  | int value => exact .int value

theorem laid_layoutAfter {limit : Nat} {ts : List Term}
    (h : ∀ t ∈ ts, ∀ indent trail, Laid [t] (layoutAt limit indent trail t)) {t : Term} {cs : List Char}
    (ht : Laid [t] cs) (indent : Nat) : Laid (t :: ts) (cs ++ layoutAfter limit indent ts) := by
  induction ts generalizing t cs with
  | nil => simpa [layoutAfter] using ht
  | cons u us ih =>
    have hu := ih (fun t ht => h t (List.mem_cons_of_mem u ht)) (h u (by simp) (indent + 2) (trailOf us))
    have := ht.more (isSpace_newline (itemIndent indent u us)) hu
    simpa [layoutAfter] using this

/-- A broken text has its line breaks where white space may stand. -/
theorem laid_layoutAt (limit : Nat) (t : Term) (indent trail : Nat) :
    Laid [t] (layoutAt limit indent trail t) := by
  induction t using Term.induct generalizing indent trail with
  | appl cons args ih =>
    cases args with
    | nil => exact .name cons
    | cons t ts =>
      rw [layoutAt]
      split
      · exact laid_chars _
      · have hi := laid_layoutAfter (fun u hu => ih u (List.mem_cons_of_mem t hu))
          (ih t (by simp) (indent + 2) (trailOf ts)) indent
        have := hi.appl cons (isSpace_newline (itemIndent indent t ts)) (isSpace_newline indent)
        simpa using this
  | list elems ih =>
    cases elems with
    | nil => exact .empty
    | cons t ts =>
      rw [layoutAt]
      split
      · exact laid_chars _
      · have hi := laid_layoutAfter (fun u hu => ih u (List.mem_cons_of_mem t hu))
          (ih t (by simp) (indent + 2) (trailOf ts)) indent
        have := hi.list (isSpace_newline (itemIndent indent t ts)) (isSpace_newline indent)
        simpa using this
  | str text => exact .str text
  | int value => exact .int value

/-! ### What is read -/

theorem Derives.term_of_terms {ls : List Lexeme} {t : Term} (h : Derives .terms ls [t]) :
    Derives .term ls [t] := by
  cases h with
  | last term => exact term
  | more _ _ terms => cases terms

theorem closed_of_isSpace {gap : List Char} (h : ∀ c ∈ gap, Lexer.isSpace c = true) {rest : List Char}
    (hr : Lexer.Closed rest) : Lexer.Closed (gap ++ rest) := by
  cases gap with
  | nil => exact hr
  | cons c gap =>
    refine Lexer.closed_cons ?_ _
    have hc := h c (by simp)
    simp only [Lexer.isSpace, Bool.or_eq_true, beq_iff_eq] at hc
    rcases hc with (((rfl | rfl) | rfl) | rfl) | rfl <;> rfl

theorem inRange_decimal (value : Int64) (m : Mark) :
    Lexeme.InRange ⟨.int, Text.decimal value.toInt, m⟩ := by
  intro _ n hn
  rw [Text.readDecimal?_decimal] at hn
  cases hn
  exact ⟨value.minValue_le_toInt, value.toInt_le⟩

theorem lexAfter_brackets {gap body gap' : List Char} (hg : ∀ c ∈ gap, Lexer.isSpace c = true)
    (hg' : ∀ c ∈ gap', Lexer.isSpace c = true) (o c : Punct) {rest : List Char} {P : List Lexeme → Prop}
    (hb : ∀ m, ∃ ls m', Lexer.lexAfter m 0 (body ++ (gap' ++ c.char :: rest))
      = ls ++ Lexer.lexAfter m' 0 (gap' ++ c.char :: rest) ∧ P ls) (m : Mark) :
    ∃ lo ls lc m', Lexer.lexAfter m 0 (o.char :: (gap ++ (body ++ (gap' ++ c.char :: rest))))
      = lo :: (ls ++ lc :: Lexer.lexAfter m' 0 rest)
      ∧ lo.kind = .punct o ∧ lc.kind = .punct c ∧ P ls := by
  rw [Lexer.lexAfter_punct, Lexer.lexAfter_spaces hg]
  obtain ⟨ls, m', h, hP⟩ := hb _
  rw [h, Lexer.lexAfter_spaces hg', Lexer.lexAfter_punct]
  exact ⟨_, ls, _, _, rfl, rfl, rfl, hP⟩

theorem inRange_cons {l : Lexeme} {ls : List Lexeme} (h : l.kind ≠ .int) (hls : ∀ l ∈ ls, l.InRange) :
    ∀ x ∈ l :: ls, x.InRange := List.forall_mem_cons.2 ⟨fun h' => absurd h' h, hls⟩

theorem inRange_brackets {lo lc : Lexeme} {o c : Punct} {ls : List Lexeme} (ho : lo.kind = .punct o)
    (hc : lc.kind = .punct c) (hls : ∀ l ∈ ls, l.InRange) : ∀ x ∈ lo :: (ls ++ [lc]), x.InRange := by
  refine inRange_cons (by simp [ho]) (List.forall_mem_append.2 ⟨hls, ?_⟩)
  exact inRange_cons (by simp [hc]) (by simp)

/-- The lexemes of a text with layout are derived, whatever text follows. -/
theorem derives_of_laid {ts : List Term} {cs : List Char} (h : Laid ts cs) (hn : ∀ t ∈ ts, t.WellNamed)
    {rest : List Char} (hr : Lexer.Closed rest) (m : Mark) :
    ∃ ls m', Lexer.lexAfter m 0 (cs ++ rest) = ls ++ Lexer.lexAfter m' 0 rest
      ∧ (∀ l ∈ ls, l.InRange) ∧ Derives .terms ls ts := by
  induction h generalizing rest m with
  | name cons =>
    have hc := (wellNamed_appl.1 (hn _ (List.mem_singleton_self _))).1
    have hd : Derives .base [⟨.ident, cons.toList, m⟩] [.appl (String.ofList cons.toList) []] := .name rfl
    rw [String.ofList_toList] at hd
    exact ⟨_, _, Lexer.lexAfter_name hc hr m, inRange_cons (by simp) (by simp), .last (.of_base hd)⟩
  | @appl gap body gap' args cons hg items hg' ih =>
    obtain ⟨hc, hargs⟩ := wellNamed_appl.1 (hn _ (List.mem_singleton_self _))
    have hbody := ih hargs (closed_of_isSpace hg' (Lexer.closed_cons (c := ')') rfl rest))
    obtain ⟨lo, ls, lc, m', hl, ho, hcl, hi, hd⟩ := lexAfter_brackets hg hg' .parenOpen .parenClose hbody
      (m.after cons.toList)
    have hd' : Derives .base (⟨.ident, cons.toList, m⟩ :: lo :: (ls ++ [lc]))
      [.appl (String.ofList cons.toList) args] := .appl rfl ho (.items hd) hcl
    rw [String.ofList_toList] at hd'
    refine ⟨_, m', ?_, inRange_cons (by simp) (inRange_brackets ho hcl hi), .last (.of_base hd')⟩
    have hname := Lexer.lexAfter_name hc (Lexer.closed_cons (c := '(') rfl
      (gap ++ (body ++ (gap' ++ ')' :: rest)))) m
    simp only [Punct.char] at hl
    simp only [List.append_assoc, List.cons_append, List.nil_append, hname, hl]
  | empty =>
    have h₁ := Lexer.lexAfter_punct .bracketOpen (']' :: rest) m
    have h₂ := Lexer.lexAfter_punct .bracketClose rest (m.after ['['])
    simp only [Punct.char] at h₁ h₂
    rw [List.cons_append, List.singleton_append, h₁, h₂]
    have hd := Derives.list (o := ⟨.punct .bracketOpen, ['['], m⟩)
      (c := ⟨.punct .bracketClose, [']'], m.after ['[']⟩) rfl .noItem rfl
    exact ⟨_ :: ([] ++ [_]), _, rfl, inRange_brackets rfl rfl (by simp), .last (.of_base hd)⟩
  | @list gap body gap' elems hg items hg' ih =>
    have helems := wellNamed_list.1 (hn _ (List.mem_singleton_self _))
    have hbody := ih helems (closed_of_isSpace hg' (Lexer.closed_cons (c := ']') rfl rest))
    obtain ⟨lo, ls, lc, m', hl, ho, hcl, hi, hd⟩ :=
      lexAfter_brackets hg hg' .bracketOpen .bracketClose hbody m
    refine ⟨_, m', ?_, inRange_brackets ho hcl hi, .last (.of_base (.list ho (.items hd) hcl))⟩
    simp only [Punct.char] at hl
    simp only [List.append_assoc, List.cons_append, List.nil_append, hl]
  | str text =>
    have hd : Derives .base [⟨.str, Text.quoted text.toList, m⟩]
      [.str (String.ofList (Text.unescape (Text.quoted text.toList)))] := .str rfl
    rw [Text.unescape_quoted, String.ofList_toList] at hd
    exact ⟨_, _, Lexer.lexAfter_quoted _ rest m, inRange_cons (by simp) (by simp), .last (.of_base hd)⟩
  | int value =>
    have hd : Derives .base [⟨.int, Text.decimal value.toInt, m⟩] [.int (Int64.ofInt value.toInt)] :=
      .int rfl (Text.readDecimal?_decimal _)
    rw [Int64.ofInt_toInt] at hd
    refine ⟨_, _, Lexer.lexAfter_decimal hr _ m, ?_, .last (.of_base hd)⟩
    exact List.forall_mem_cons.2 ⟨inRange_decimal value m, by simp⟩
  | @more gap cs ds t ts first hg others ih ihs =>
    have hcomma : Lexer.Closed (',' :: (gap ++ (ds ++ rest))) := Lexer.closed_cons rfl _
    obtain ⟨ls, m₁, hl, hi, hd⟩ := ih (fun u hu => hn u (by simp [List.mem_singleton.1 hu])) hcomma m
    have hc := Lexer.lexAfter_punct .comma (gap ++ (ds ++ rest)) m₁
    obtain ⟨ms, m₂, hm, hi', hd'⟩ := ihs (fun u hu => hn u (List.mem_cons_of_mem t hu)) hr
      ((m₁.after [',']).after gap)
    simp only [Punct.char] at hc
    refine ⟨ls ++ ⟨.punct .comma, [','], m₁⟩ :: ms, m₂, ?_, ?_, .more hd.term_of_terms rfl hd'⟩
    · simp only [List.append_assoc, List.cons_append, hl, hc, Lexer.lexAfter_spaces hg, hm]
    · exact List.forall_mem_append.2 ⟨hi, inRange_cons (by simp) hi'⟩

/-- Every text of a well-named term is read back, whatever its layout and with white space behind it. -/
theorem read_of_laid {t : Term} {cs gap : List Char} (h : Laid [t] cs) (hn : t.WellNamed)
    (hg : ∀ c ∈ gap, Lexer.isSpace c = true) : Term.read (String.ofList (cs ++ gap)) = .ok t := by
  have hgap : Lexer.Closed gap := by simpa using closed_of_isSpace hg Lexer.closed_nil
  obtain ⟨ls, m, hl, hi, hd⟩ := derives_of_laid h (by simpa using hn) hgap Mark.start
  have hrest : Lexer.lexAfter m 0 gap = [] := by
    simpa [Lexer.lexAfter] using Lexer.lexAfter_spaces hg m []
  have hlex : lex (String.ofList (cs ++ gap)) = ls := by
    rw [lex, String.toList_ofList, hl, hrest, List.append_nil]
  refine read_of_derives ?_ ?_
  · rw [hlex]
    exact hi
  · rw [hlex]
    exact hd.term_of_terms

/-! ## Compact texts -/

theorem read_text {t : Term} (h : t.WellNamed) : Term.read t.text = .ok t := by
  have hread := read_of_laid (laid_chars t) h isSpace_nil
  rwa [List.append_nil] at hread

/-- **The reader inverts the compact printer** on exactly those terms whose constructors are all identifiers. -/
theorem read_text_iff_wellNamed (t : Term) : Term.read t.text = .ok t ↔ t.WellNamed := by
  constructor
  · exact wellNamed_of_read
  · exact read_text

/-! ## Texts of some width -/

theorem read_pretty_append {t : Term} (h : t.WellNamed) (limit : Nat) {gap : List Char}
    (hg : ∀ c ∈ gap, Lexer.isSpace c = true) : Term.read (t.pretty limit ++ String.ofList gap) = .ok t := by
  have hl := read_of_laid (laid_layoutAt limit t 0 0) h hg
  rwa [String.ofList_append] at hl

/-- **The reader inverts the printer at every width** on exactly those terms whose constructors are all
identifiers. White space may stand behind the text, and two texts of different widths are read as the same term. -/
theorem read_pretty_iff_wellNamed (t : Term) : t.WellNamed ↔ ∀ (limit limit' : Nat) (gap : List Char),
    (∀ c ∈ gap, Lexer.isSpace c = true) →
      Term.read (t.pretty limit ++ String.ofList gap) = .ok t
        ∧ Term.read (t.pretty limit') = Term.read (t.pretty limit ++ String.ofList gap) := by
  constructor
  · intro h limit limit' gap hg
    have hread := read_pretty_append h limit hg
    have hbare := read_pretty_append h limit' isSpace_nil
    rw [String.ofList_nil, String.append_empty] at hbare
    exact ⟨hread, hbare.trans hread.symm⟩
  · intro h
    obtain ⟨hread, _⟩ := h 0 0 [] isSpace_nil
    exact wellNamed_of_read hread

end BaseLang
