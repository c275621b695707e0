import BaseLang.Proofs.Lexing
import Mathlib.Computability.Language
import Mathlib.Data.List.TakeWhile

/-!
# Token classes

The classes of tokens as languages of texts, and the longest match against them.

* `Kind.pattern` : the texts of a token class; `Lexer.spaces` and `Lexer.comment` : the texts that are skipped;
* `Inside` : what may stand between the quotes of a literal; `Stuck` : where no closing quote can be reached;
* `LongestMatch` : a token that no other token at its place exceeds; `Stray` : a piece of text where nothing starts;
* `munched` : what the lexer finds at a character, case by case;
* `kind_of_mem_pattern` : a token that starts at a character is found there, or a longer one of its class;
* `found_munch`, `skip_munch` : what is found, or skipped, is what the classes say (`Found`, `Skip`);
* `Found.munch` : nothing else is found at this place.
-/

namespace BaseLang

open Computability

namespace Lexer

/-! ## Patterns -/

/-- The texts of one character that satisfies a test. -/
def one (p : Char → Bool) : Language Char := {w | ∃ c, p c = true ∧ w = [c]}

/-- Whether a character stands for itself between the quotes of a literal. -/
def isPlain (c : Char) : Bool := c != '"' && c != '\\'

/-- The texts between the quotes of a literal: `[^"\\]*(\\.[^"\\]*)*`, where the dot is any character but a line
feed. -/
def inside : Language Char := (one isPlain)∗ * (one (· == '\\') * (one (· != '\n') * (one isPlain)∗))∗

/-- White space, `[ \t\n\r\f]+`. -/
def spaces : Language Char := one isSpace * (one isSpace)∗

/-- A comment, `%%[^\n]*`. -/
def comment : Language Char := one (· == '%') * (one (· == '%') * (one (· != '\n'))∗)

end Lexer

open Lexer

/-- The texts of a token class: `[A-Za-z_][A-Za-z0-9_'-]*`, `-?[0-9]+`, `"[^"\\]*(\\.[^"\\]*)*"` and single
marks. There is no text of the class `invalid`. -/
def Kind.pattern : Kind → Language Char
  | .ident => one isIdentStart * (one isIdentRest)∗
  | .int => (1 + one (· == '-')) * (one Char.isDigit * (one Char.isDigit)∗)
  | .str => one (· == '"') * (inside * one (· == '"'))
  | .punct p => {[p.char]}
  | .invalid => 0

namespace Lexer

variable {p : Char → Bool} {c : Char} {cs rest body gap text : List Char} {kind : Kind} {L : Language Char}

theorem cons_mem_one_mul : c :: cs ∈ one p * L ↔ p c = true ∧ cs ∈ L := by
  rw [Language.mem_mul]
  constructor
  · rintro ⟨_, ⟨d, hd, rfl⟩, bs, hbs, h⟩
    rw [List.singleton_append, List.cons.injEq] at h
    obtain ⟨rfl, rfl⟩ := h
    exact ⟨hd, hbs⟩
  · rintro ⟨hc, hcs⟩
    exact ⟨[c], ⟨c, hc, rfl⟩, cs, hcs, rfl⟩

theorem nil_notMem_one_mul : [] ∉ one p * L := by
  rw [Language.mem_mul]
  rintro ⟨_, ⟨d, hd, rfl⟩, bs, hbs, h⟩
  cases h

theorem mem_one_kstar : cs ∈ (one p)∗ ↔ ∀ c ∈ cs, p c = true := by
  rw [Language.mem_kstar]
  constructor
  · rintro ⟨ls, rfl, hls⟩ c hc
    obtain ⟨l, hl, hcl⟩ := List.mem_flatten.1 hc
    obtain ⟨d, hd, rfl⟩ := hls l hl
    rw [List.mem_singleton.1 hcl]
    exact hd
  · intro h
    refine ⟨cs.map ([·]), ?_, ?_⟩
    · rw [← List.flatMap_def, List.flatMap_singleton']
    · rintro l hl
      obtain ⟨c, hc, rfl⟩ := List.mem_map.1 hl
      exact ⟨c, h c hc, rfl⟩

theorem append_mem_kstar (h : cs ∈ L) (hr : rest ∈ L∗) : cs ++ rest ∈ L∗ :=
  Set.mem_of_mem_of_subset (Language.append_mem_mul h hr) (mul_kstar_le_kstar (a := L))

theorem cons_mem_ident : c :: cs ∈ Kind.pattern .ident ↔ isIdentStart c = true ∧ ∀ x ∈ cs, isIdentRest x = true := by
  rw [Kind.pattern, cons_mem_one_mul, mem_one_kstar]

theorem cons_mem_spaces : c :: cs ∈ spaces ↔ isSpace c = true ∧ ∀ x ∈ cs, isSpace x = true := by
  rw [spaces, cons_mem_one_mul, mem_one_kstar]

theorem mem_comment : cs ∈ comment ↔ ∃ body, cs = '%' :: '%' :: body ∧ '\n' ∉ body := by
  rw [comment]
  constructor
  · intro h
    match cs, h with
    | [], h => exact absurd h nil_notMem_one_mul
    | [c], h => exact absurd (cons_mem_one_mul.1 h).2 nil_notMem_one_mul
    | c :: d :: body, h =>
      obtain ⟨hc, h⟩ := cons_mem_one_mul.1 h
      obtain ⟨hd, h⟩ := cons_mem_one_mul.1 h
      refine ⟨body, by rw [beq_iff_eq.1 hc, beq_iff_eq.1 hd], fun hn => ?_⟩
      simpa using mem_one_kstar.1 h '\n' hn
  · rintro ⟨body, rfl, h⟩
    refine cons_mem_one_mul.2 ⟨rfl, cons_mem_one_mul.2 ⟨rfl, mem_one_kstar.2 fun x hx => ?_⟩⟩
    simpa using ne_of_mem_of_not_mem hx h

theorem digits_iff : cs ∈ one Char.isDigit * (one Char.isDigit)∗ ↔ cs ≠ [] ∧ ∀ x ∈ cs, x.isDigit = true := by
  cases cs with
  | nil => simp [nil_notMem_one_mul]
  | cons c cs => simp [cons_mem_one_mul, mem_one_kstar]

theorem mem_int : cs ∈ Kind.pattern .int ↔ ∃ digits, (cs = digits ∨ cs = '-' :: digits) ∧ digits ≠ []
    ∧ ∀ x ∈ digits, x.isDigit = true := by
  simp only [← digits_iff]
  rw [Kind.pattern, Language.mem_mul]
  constructor
  · rintro ⟨sign, hsign, digits, hd, rfl⟩
    rcases hsign with rfl | ⟨c, hc, rfl⟩
    · exact ⟨digits, .inl rfl, hd⟩
    · exact ⟨digits, .inr (by rw [beq_iff_eq.1 hc]; rfl), hd⟩
  · rintro ⟨digits, rfl | rfl, hd⟩
    · exact ⟨[], .inl rfl, cs, hd, rfl⟩
    · exact ⟨['-'], .inr ⟨'-', rfl, rfl⟩, digits, hd, rfl⟩

/-! ### Texts between quotes -/

/-- What may stand between the quotes of a literal: plain characters, and escapes of any character but a line feed. -/
inductive Inside : List Char → Prop where
  | nil : Inside []
  | plain {c : Char} {cs : List Char} (hc : isPlain c = true) (h : Inside cs) : Inside (c :: cs)
  | escape {c : Char} {cs : List Char} (hc : c ≠ '\n') (h : Inside cs) : Inside ('\\' :: c :: cs)

theorem Inside.plains (h : ∀ c ∈ cs, isPlain c = true) (hr : Inside rest) : Inside (cs ++ rest) := by
  induction cs with
  | nil => exact hr
  | cons c cs ih =>
    obtain ⟨hc, hcs⟩ := List.forall_mem_cons.1 h
    exact .plain hc (ih hcs)

theorem mem_inside : cs ∈ inside ↔ Inside cs := by
  rw [inside, Language.mem_mul]
  constructor
  · rintro ⟨as, has, bs, hbs, rfl⟩
    refine .plains (mem_one_kstar.1 has) ?_
    obtain ⟨ls, rfl, hls⟩ := Language.mem_kstar.1 hbs
    clear hbs has
    induction ls with
    | nil => exact .nil
    | cons l ls ih =>
      obtain ⟨hl, htail⟩ := List.forall_mem_cons.1 hls
      rw [List.flatten_cons]
      match l, hl with
      | [], hl => exact absurd hl nil_notMem_one_mul
      | [_], hl => exact absurd (cons_mem_one_mul.1 hl).2 nil_notMem_one_mul
      | c :: d :: ds, hl =>
        obtain ⟨hc, hl⟩ := cons_mem_one_mul.1 hl
        obtain ⟨hd, hl⟩ := cons_mem_one_mul.1 hl
        rw [beq_iff_eq.1 hc]
        exact .escape (by simpa using hd) (.plains (mem_one_kstar.1 hl) (ih htail))
  · intro h
    induction h with
    | nil => exact ⟨[], Language.nil_mem_kstar _, [], Language.nil_mem_kstar _, rfl⟩
    | @plain c cs hc h ih =>
      obtain ⟨as, has, bs, hbs, rfl⟩ := ih
      exact ⟨c :: as, mem_one_kstar.2 (List.forall_mem_cons.2 ⟨hc, mem_one_kstar.1 has⟩), bs, hbs, rfl⟩
    | @escape c cs hc h ih =>
      -- the plain characters behind the escape go with it
      obtain ⟨as, has, bs, hbs, rfl⟩ := ih
      refine ⟨[], Language.nil_mem_kstar _, ('\\' :: c :: as) ++ bs, ?_, rfl⟩
      have hescape : '\\' :: c :: as ∈ one (· == '\\') * (one (· != '\n') * (one isPlain)∗) :=
        cons_mem_one_mul.2 ⟨rfl, cons_mem_one_mul.2 ⟨by simpa using hc, has⟩⟩
      exact append_mem_kstar hescape hbs

theorem mem_str : cs ∈ Kind.pattern .str ↔ ∃ body, cs = '"' :: (body ++ ['"']) ∧ Inside body := by
  rw [Kind.pattern]
  constructor
  · intro h
    match cs, h with
    | [], h => exact absurd h nil_notMem_one_mul
    | c :: cs, h =>
      obtain ⟨hc, h⟩ := cons_mem_one_mul.1 h
      obtain ⟨body, hbody, _, ⟨d, hd, rfl⟩, rfl⟩ := Language.mem_mul.1 h
      rw [beq_iff_eq.1 hc, beq_iff_eq.1 hd]
      exact ⟨body, rfl, mem_inside.1 hbody⟩
  · rintro ⟨body, rfl, hbody⟩
    exact cons_mem_one_mul.2 ⟨rfl, Language.append_mem_mul (mem_inside.2 hbody) ⟨'"', rfl, rfl⟩⟩

/-- No closing quote is reached from here: the text ends, or there is a backslash before a line feed or the end. -/
inductive Stuck : List Char → Prop where
  | nil : Stuck []
  | backslash : Stuck ['\\']
  | newline (cs : List Char) : Stuck ('\\' :: '\n' :: cs)

theorem Stuck.strBody (h : Stuck rest) : strBody rest = (0, false) := by
  cases h <;> rfl

theorem strBody_plain (h : isPlain c = true) (cs : List Char) :
    strBody (c :: cs) = ((strBody cs).1 + 1, (strBody cs).2) := by
  simp only [isPlain, Bool.and_eq_true, bne_iff_ne, ne_eq] at h
  rw [strBody.eq_def]
  split
  · rename_i heq
    cases heq
  · rename_i heq
    cases heq
    exact absurd rfl h.2
  · rename_i heq
    cases heq
    exact absurd rfl h.2
  · rename_i heq
    cases heq
    exact if_neg h.1

theorem Inside.strBody (h : Inside body) (rest : List Char) :
    strBody (body ++ rest) = ((strBody rest).1 + body.length, (strBody rest).2) := by
  induction h with
  | nil => rfl
  | plain hc _ ih =>
    rw [List.cons_append, strBody_plain hc, ih]
    rfl
  | escape hc _ ih =>
    rw [List.cons_append, List.cons_append, Lexer.strBody, if_neg hc, ih]
    rfl

theorem Inside.strBody_quote (h : Inside body) (rest : List Char) :
    Lexer.strBody (body ++ '"' :: rest) = (body.length + 1, true) := by
  have hq : Lexer.strBody ('"' :: rest) = (1, true) := by simp [Lexer.strBody]
  rw [h.strBody, hq, Nat.add_comm]

theorem Inside.strBody_stuck (h : Inside body) (hr : Stuck rest) :
    Lexer.strBody (body ++ rest) = (body.length, false) := by
  rw [h.strBody, hr.strBody, Nat.zero_add]

/-- A text goes on inside quotes up to the closing one, or it is stuck. -/
theorem exists_inside (cs : List Char) :
    ∃ body rest, cs = body ++ rest ∧ Inside body ∧ (rest.head? = some '"' ∨ Stuck rest) := by
  induction cs using strBody.induct with
  | case1 => exact ⟨[], [], rfl, .nil, .inr .nil⟩
  | case2 => exact ⟨[], ['\\'], rfl, .nil, .inr .backslash⟩
  | case3 cs => exact ⟨[], _, rfl, .nil, .inr (.newline cs)⟩
  | case4 c cs hc ih =>
    obtain ⟨body, rest, rfl, hbody, hrest⟩ := ih
    exact ⟨'\\' :: c :: body, rest, rfl, .escape hc hbody, hrest⟩
  | case5 cs => exact ⟨[], _, rfl, .nil, .inl rfl⟩
  | case6 c cs h₁ h₂ hc ih =>
    have hplain : isPlain c = true := by
      have hb : c ≠ '\\' := by
        rintro rfl
        cases cs with
        | nil => exact h₁ rfl rfl
        | cons d ds => exact h₂ d ds rfl rfl
      simp [isPlain, hb, hc]
    obtain ⟨body, rest, rfl, hbody, hrest⟩ := ih
    exact ⟨c :: body, rest, rfl, .plain hplain hbody, hrest⟩

/-! ## What the lexer finds at a character -/

theorem take_takeWhile (p : Char → Bool) (cs : List Char) : cs.take (cs.takeWhile p).length = cs.takeWhile p :=
  (List.prefix_iff_eq_take.1 (List.takeWhile_prefix p)).symm

theorem length_le_takeWhile (hb : ∀ x ∈ body, p x = true) (h : body <+: cs) :
    body.length ≤ (cs.takeWhile p).length := by
  obtain ⟨rest, rfl⟩ := h
  rw [List.takeWhile_append_of_pos hb, List.length_append]
  exact Nat.le_add_right _ _

theorem eq_char_of_ofChar? {q : Punct} (h : Punct.ofChar? c = some q) : c = q.char := by
  unfold Punct.ofChar? at h
  split at h <;> cases h <;> rfl

theorem head?_drop_takeWhile (p : Char → Bool) (cs : List Char) :
    ∀ x ∈ (cs.drop (cs.takeWhile p).length).head?, p x = false := by
  intro x hx
  have hdrop : cs.drop (cs.takeWhile p).length = cs.dropWhile p := by
    nth_rewrite 2 [← List.takeWhile_append_dropWhile (p := p) (l := cs)]
    exact List.drop_left
  have hnot := List.head?_dropWhile_not p cs
  rw [← hdrop, hx] at hnot
  exact hnot

/-- What is found at a character, with what follows it. -/
inductive Munched : Char → List Char → Munch → Prop where
  | spaces {c : Char} {cs : List Char} (h : isSpace c = true) : Munched c cs ⟨none, (cs.takeWhile isSpace).length⟩
  | comment (cs : List Char) : Munched '%' ('%' :: cs) ⟨none, (cs.takeWhile (· ≠ '\n')).length + 1⟩
  | ident {c : Char} {cs : List Char} (h : isIdentStart c = true) :
    Munched c cs ⟨some .ident, (cs.takeWhile isIdentRest).length⟩
  | digits {c : Char} {cs : List Char} (h : c.isDigit = true) :
    Munched c cs ⟨some .int, (cs.takeWhile Char.isDigit).length⟩
  | minus {cs : List Char} (h : cs.takeWhile Char.isDigit ≠ []) :
    Munched '-' cs ⟨some .int, (cs.takeWhile Char.isDigit).length⟩
  | str {body : List Char} (h : Inside body) (rest : List Char) :
    Munched '"' (body ++ '"' :: rest) ⟨some .str, body.length + 1⟩
  | punct (q : Punct) (cs : List Char) : Munched q.char cs ⟨some (.punct q), 0⟩
  | unclosed {body rest : List Char} (h : Inside body) (hr : Stuck rest) :
    Munched '"' (body ++ rest) ⟨some .invalid, body.length⟩
  | stray {c : Char} {cs : List Char} (h : c ≠ '"') : Munched c cs ⟨some .invalid, 0⟩

theorem munched_quote (cs : List Char) : Munched '"' cs (munch '"' cs) := by
  rw [munch_quote]
  obtain ⟨body, rest, rfl, hbody, hquote | hstuck⟩ := exists_inside cs
  · obtain ⟨rest, rfl⟩ := List.head?_eq_some_iff.1 hquote
    rw [hbody.strBody_quote]
    exact .str hbody rest
  · rw [hbody.strBody_stuck hstuck]
    exact .unclosed hbody hstuck

theorem munched (c : Char) (cs : List Char) : Munched c cs (munch c cs) := by
  by_cases hquote : c = '"'
  · rw [hquote]
    exact munched_quote cs
  unfold munch
  split
  · exact .spaces ‹_›
  split
  · exact .ident ‹_›
  split
  · exact .digits ‹_›
  split
  · rename_i hminus
    subst hminus
    dsimp only
    split
    · exact .stray hquote
    · rename_i hdigits
      exact .minus fun h => hdigits (by rw [h]; rfl)
  split
  · rename_i hpercent
    subst hpercent
    split
    · exact .comment _
    · exact .stray hquote
  split
  · rename_i q hq
    rw [eq_char_of_ofChar? hq]
    exact .punct q cs
  · exact .stray hquote

theorem munch_le (c : Char) (cs : List Char) : (munch c cs).more ≤ cs.length := by
  have htake : ∀ (p : Char → Bool) (cs : List Char), (cs.takeWhile p).length ≤ cs.length := fun p cs =>
    (List.takeWhile_sublist p).length_le
  generalize hm : munch c cs = m
  have h := munched c cs
  rw [hm] at h
  cases h with
  | spaces | ident | digits | minus => exact htake _ _
  | comment cs => exact Nat.succ_le_succ (htake _ _)
  | str => simp
  | unclosed => simp
  | punct | stray => exact Nat.zero_le _

/-! ### Nothing longer, and nothing else -/

/-- A token that a text starts with is found there, or a longer one of its class. -/
theorem kind_of_mem_pattern {text : List Char} (h : text ∈ kind.pattern) (hp : text <+: c :: cs) :
    (munch c cs).kind = some kind ∧ text.length ≤ (munch c cs).more + 1 := by
  cases kind with
  | ident =>
    cases text with
    | nil => exact absurd h nil_notMem_one_mul
    | cons d body =>
      obtain ⟨rfl, hbody⟩ := List.cons_prefix_cons.1 hp
      obtain ⟨hd, hrest⟩ := cons_mem_ident.1 h
      rw [munch_of_isIdentStart hd]
      exact ⟨rfl, Nat.succ_le_succ (length_le_takeWhile hrest hbody)⟩
  | int =>
    obtain ⟨digits, rfl | rfl, hne, hdigits⟩ := mem_int.1 h
    · cases text with
      | nil => exact absurd rfl hne
      | cons d body =>
        obtain ⟨rfl, hbody⟩ := List.cons_prefix_cons.1 hp
        obtain ⟨hd, hrest⟩ := List.forall_mem_cons.1 hdigits
        rw [munch_of_isDigit hd]
        exact ⟨rfl, Nat.succ_le_succ (length_le_takeWhile hrest hbody)⟩
    · obtain ⟨rfl, hbody⟩ := List.cons_prefix_cons.1 hp
      have hle := length_le_takeWhile hdigits hbody
      have hsome : cs.takeWhile Char.isDigit ≠ [] := by
        intro hnil
        rw [hnil] at hle
        exact hne (List.eq_nil_of_length_eq_zero (Nat.le_zero.1 hle))
      rw [munch_of_minus hsome]
      exact ⟨rfl, Nat.succ_le_succ hle⟩
  | str =>
    obtain ⟨body, rfl, hbody⟩ := mem_str.1 h
    obtain ⟨rfl, rest, hrest⟩ := List.cons_prefix_cons.1 hp
    rw [List.append_assoc, List.singleton_append] at hrest
    rw [← hrest, munch_quote, hbody.strBody_quote]
    exact ⟨rfl, by simp⟩
  | punct q =>
    obtain rfl : text = [q.char] := h
    obtain ⟨rfl, -⟩ := List.cons_prefix_cons.1 hp
    rw [munch_punct]
    exact ⟨rfl, Nat.le_refl 1⟩
  | invalid => exact absurd h (Language.notMem_zero _)

/-- No token is found where a text starts with something to skip. -/
theorem kind_of_mem_skip {text : List Char} (h : text ∈ spaces + comment) (hp : text <+: c :: cs) :
    (munch c cs).kind = none := by
  rcases h with h | h
  · cases text with
    | nil => exact absurd h nil_notMem_one_mul
    | cons d body =>
      obtain ⟨rfl, -⟩ := List.cons_prefix_cons.1 hp
      simp [munch, (cons_mem_spaces.1 h).1]
  · obtain ⟨body, rfl, -⟩ := mem_comment.1 h
    obtain ⟨rfl, hbody⟩ := List.cons_prefix_cons.1 hp
    cases cs with
    | nil => simp at hbody
    | cons d cs =>
      rw [← (List.cons_prefix_cons.1 hbody).1]
      rfl

theorem mem_pattern_munch (h : (munch c cs).kind = some kind) (hk : kind ≠ .invalid) :
    c :: cs.take (munch c cs).more ∈ kind.pattern := by
  generalize hm : munch c cs = m at h
  have hmunched := munched c cs
  rw [hm] at hmunched
  cases hmunched with
  | spaces | comment => cases h
  | ident hc =>
    cases h
    rw [take_takeWhile]
    exact cons_mem_ident.2 ⟨hc, fun x hx => List.mem_takeWhile_imp hx⟩
  | digits hc =>
    cases h
    rw [take_takeWhile]
    exact mem_int.2 ⟨_, .inl rfl, by simp, List.forall_mem_cons.2 ⟨hc, fun x hx => List.mem_takeWhile_imp hx⟩⟩
  | minus hne =>
    cases h
    rw [take_takeWhile]
    exact mem_int.2 ⟨_, .inr rfl, hne, fun x hx => List.mem_takeWhile_imp hx⟩
  | @str body hbody rest =>
    cases h
    refine mem_str.2 ⟨body, ?_, hbody⟩
    simp [List.take_append]
  | punct q =>
    cases h
    rfl
  | unclosed | stray =>
    cases h
    exact absurd rfl hk

/-- A token at its place in front of a text: it belongs to its class, and any other token at this place is of the
same class and not longer. -/
structure LongestMatch (kind : Kind) (text rest : List Char) : Prop where
  mem : text ∈ kind.pattern
  longest : ∀ kind' text', text' ∈ Kind.pattern kind' → text' <+: text ++ rest → kind' = kind ∧ text' <+: text

/-- A piece of text where neither a token nor anything to skip starts. It is one character, or it runs from a quote
that is not closed over all that may stand between quotes. -/
structure Stray (text rest : List Char) : Prop where
  no_token : ∀ kind text', text' ∈ Kind.pattern kind → ¬ text' <+: text ++ rest
  no_skip : ∀ text' ∈ spaces + comment, ¬ text' <+: text ++ rest
  extent : (∃ c, c ≠ '"' ∧ text = [c]) ∨ ∃ body, text = '"' :: body ∧ Inside body ∧ Stuck rest

theorem longestMatch_munch (h : (munch c cs).kind = some kind) (hk : kind ≠ .invalid) :
    LongestMatch kind (c :: cs.take (munch c cs).more) (cs.drop (munch c cs).more) where
  mem := mem_pattern_munch h hk
  longest kind' text' htext hp := by
    rw [List.cons_append, List.take_append_drop] at hp
    obtain ⟨hkind, hle⟩ := kind_of_mem_pattern htext hp
    refine ⟨by simpa using hkind.symm.trans h, ?_⟩
    have htake : c :: cs.take (munch c cs).more <+: c :: cs :=
      List.cons_prefix_cons.2 ⟨rfl, List.take_prefix _ _⟩
    refine List.prefix_of_prefix_length_le hp htake ?_
    rw [List.length_cons, List.length_take, Nat.min_eq_left (munch_le c cs)]
    exact hle

theorem stray_munch (h : (munch c cs).kind = some .invalid) :
    Stray (c :: cs.take (munch c cs).more) (cs.drop (munch c cs).more) where
  no_token kind text' htext hp := by
    rw [List.cons_append, List.take_append_drop] at hp
    have hkind := (kind_of_mem_pattern htext hp).1
    rw [h, Option.some.injEq] at hkind
    subst hkind
    exact Language.notMem_zero _ htext
  no_skip text' htext hp := by
    rw [List.cons_append, List.take_append_drop] at hp
    rw [kind_of_mem_skip htext hp] at h
    cases h
  extent := by
    generalize hm : munch c cs = m at h
    have hmunched := munched c cs
    rw [hm] at hmunched
    cases hmunched with
    | spaces | comment | ident | digits | minus | str | punct => cases h
    | @unclosed body rest hbody hrest => exact .inr ⟨body, by simp, hbody, by simpa using hrest⟩
    | stray hc => exact .inl ⟨c, hc, rfl⟩

/-- A piece of text to skip: white space, or a comment that runs up to a line feed or the end. -/
def Skip (text rest : List Char) : Prop :=
  text ∈ spaces ∨ text ∈ comment ∧ ∀ x ∈ rest.head?, x = '\n'

theorem skip_munch (h : (munch c cs).kind = none) :
    Skip (c :: cs.take (munch c cs).more) (cs.drop (munch c cs).more) := by
  generalize hm : munch c cs = m at h
  have hmunched := munched c cs
  rw [hm] at hmunched
  cases hmunched with
  | ident | digits | minus | str | punct | unclosed | stray => cases h
  | spaces hc =>
    rw [take_takeWhile]
    exact .inl (cons_mem_spaces.2 ⟨hc, fun x hx => List.mem_takeWhile_imp hx⟩)
  | comment cs =>
    refine .inr ⟨mem_comment.2 ⟨cs.takeWhile (· ≠ '\n'), ?_, fun hn => ?_⟩, ?_⟩
    · rw [List.take_succ_cons, take_takeWhile]
    · simpa using List.mem_takeWhile_imp hn
    · intro x hx
      simpa using head?_drop_takeWhile _ cs x hx

/-- What the lexer may make of a piece of text that it does not skip. -/
def Found (kind : Kind) (text rest : List Char) : Prop :=
  LongestMatch kind text rest ∨ kind = .invalid ∧ Stray text rest

theorem found_munch (h : (munch c cs).kind = some kind) :
    Found kind (c :: cs.take (munch c cs).more) (cs.drop (munch c cs).more) := by
  by_cases hk : kind = .invalid
  · subst hk
    exact .inr ⟨rfl, stray_munch h⟩
  · exact .inl (longestMatch_munch h hk)

theorem LongestMatch.ne_invalid (h : LongestMatch kind text rest) : kind ≠ .invalid := by
  rintro rfl
  exact Language.notMem_zero _ h.mem

theorem LongestMatch.munch (h : LongestMatch kind (c :: body) rest) :
    Lexer.munch c (body ++ rest) = ⟨some kind, body.length⟩ := by
  obtain ⟨hkind, hle⟩ := kind_of_mem_pattern h.mem (List.prefix_append (c :: body) rest)
  have hprefix : c :: (body ++ rest).take (Lexer.munch c (body ++ rest)).more <+: c :: body ++ rest :=
    List.cons_prefix_cons.2 ⟨rfl, List.take_prefix _ _⟩
  obtain ⟨-, htext⟩ := h.longest kind _ (mem_pattern_munch hkind h.ne_invalid) hprefix
  have hge := htext.length_le
  simp only [List.length_cons, List.length_take, Nat.min_eq_left (munch_le c _)] at hle hge
  have hmore : (Lexer.munch c (body ++ rest)).more = body.length :=
    Nat.le_antisymm (Nat.le_of_succ_le_succ hge) (Nat.le_of_succ_le_succ hle)
  exact Munch.mk.injEq _ _ _ _ ▸ ⟨hkind, hmore⟩

theorem Stray.length_eq {body' rest' : List Char} (h : Stray (c :: body) rest) (h' : Stray (c :: body') rest')
    (heq : body ++ rest = body' ++ rest') : body.length = body'.length := by
  rcases h.extent with ⟨d, hd, htext⟩ | ⟨_, htext, hbody, hrest⟩ <;>
    rcases h'.extent with ⟨d', hd', htext'⟩ | ⟨_, htext', hbody', hrest'⟩ <;>
    cases htext <;> cases htext'
  · rfl
  · exact absurd rfl hd
  · exact absurd rfl hd'
  · -- both run up to where the lexer gets stuck
    have hlength := hbody.strBody_stuck hrest
    rw [heq, hbody'.strBody_stuck hrest'] at hlength
    exact (Prod.mk.inj hlength).1.symm

theorem Stray.munch (h : Stray (c :: body) rest) :
    Lexer.munch c (body ++ rest) = ⟨some .invalid, body.length⟩ := by
  have hprefix : c :: (body ++ rest).take (Lexer.munch c (body ++ rest)).more <+: c :: body ++ rest :=
    List.cons_prefix_cons.2 ⟨rfl, List.take_prefix _ _⟩
  have hkind : (Lexer.munch c (body ++ rest)).kind = some .invalid := by
    cases hk : (Lexer.munch c (body ++ rest)).kind with
    | none =>
      rcases skip_munch hk with hspaces | ⟨hcomment, -⟩
      · exact absurd hprefix (h.no_skip _ (.inl hspaces))
      · exact absurd hprefix (h.no_skip _ (.inr hcomment))
    | some kind =>
      by_cases hinvalid : kind = .invalid
      · rw [hinvalid]
      · exact absurd hprefix (h.no_token kind _ (mem_pattern_munch hk hinvalid))
  have hlength := h.length_eq (stray_munch hkind) (List.take_append_drop _ _).symm
  rw [List.length_take, Nat.min_eq_left (munch_le c _)] at hlength
  exact Munch.mk.injEq _ _ _ _ ▸ ⟨hkind, hlength.symm⟩

theorem Found.ne_nil (h : Found kind text rest) : text ≠ [] := by
  rintro rfl
  rcases h with h | ⟨-, h⟩
  · have hmem := h.mem
    cases kind with
    | ident | str => exact nil_notMem_one_mul hmem
    | int =>
      obtain ⟨_, rfl | h, hne, -⟩ := mem_int.1 hmem
      · exact hne rfl
      · cases h
    | punct => cases hmem
    | invalid => exact Language.notMem_zero _ hmem
  · rcases h.extent with ⟨_, _, h⟩ | ⟨_, h, _⟩ <;> cases h

/-- At each place there is only one thing to be found. -/
theorem Found.munch (h : Found kind (c :: body) rest) : Lexer.munch c (body ++ rest) = ⟨some kind, body.length⟩ := by
  rcases h with h | ⟨rfl, h⟩
  · exact h.munch
  · exact h.munch

end Lexer

end BaseLang
