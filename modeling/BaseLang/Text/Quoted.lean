/-!
# Quoted text

The written form of a string literal: surrounded by double quotes, with backslash escapes inside.

* `quoted` / `escape` : the written form of a text;
* `unescape` : the text of a written form, for any literal of the token class, also one that escapes
  characters which need no escape;
* `unescape_quoted` : reading a written form gives the text back;
* `unquote` : removes one surrounding quote at each end, where there is one.
-/

namespace BaseLang.Text

/-- How a character is written inside a quoted text. -/
def escapeChar : Char → List Char
  | '"' => ['\\', '"']
  | '\\' => ['\\', '\\']
  | '\n' => ['\\', 'n']
  | '\t' => ['\\', 't']
  | '\r' => ['\\', 'r']
  | c => [c]

/-- The written form of a text, with its quotes. -/
def quoted (cs : List Char) : List Char :=
  '"' :: (cs.flatMap escapeChar ++ ['"'])

def escape (text : String) : String :=
  String.ofList (quoted text.toList)

/-- The character that a backslash followed by `c` stands for. -/
def unescapeChar : Char → Char
  | 'n' => '\n'
  | 't' => '\t'
  | 'r' => '\r'
  | c => c

/-- The text between the quotes of a literal; a backslash at the very end stands for itself. -/
def unescapeBody : List Char → List Char
  | [] => []
  | ['\\'] => ['\\']
  | '\\' :: c :: cs => unescapeChar c :: unescapeBody cs
  | c :: cs => c :: unescapeBody cs

/-- The text of a written literal, given with its quotes. -/
def unescape (literal : List Char) : List Char :=
  unescapeBody literal.tail.dropLast

/-- Removes a double quote at the front, if there is one. -/
def dropQuote : List Char → List Char
  | '"' :: cs => cs
  | cs => cs

/-- Removes one double quote at the front and then one at the end, each only if it is there. -/
def unquoteChars (cs : List Char) : List Char :=
  (dropQuote (dropQuote cs).reverse).reverse

def unquote (text : String) : String :=
  String.ofList (unquoteChars text.toList)

theorem unescapeBody_cons {c : Char} (h : c ≠ '\\') (cs : List Char) :
    unescapeBody (c :: cs) = c :: unescapeBody cs := by
  rw [unescapeBody]
  · intro h'; exact absurd h' h
  · intro c' _ h'; exact absurd h' h

theorem unescapeBody_escapeChar (c : Char) (cs : List Char) :
    unescapeBody (escapeChar c ++ cs) = c :: unescapeBody cs := by
  unfold escapeChar
  split
  · rfl
  · rfl
  · rfl
  · rfl
  · rfl
  · rename_i h _ _ _
    exact unescapeBody_cons h cs

theorem unescapeBody_flatMap (cs : List Char) : unescapeBody (cs.flatMap escapeChar) = cs := by
  induction cs with
  | nil => rfl
  | cons c cs ih => rw [List.flatMap_cons, unescapeBody_escapeChar, ih]

theorem unescape_quoted (cs : List Char) : unescape (quoted cs) = cs := by
  simp [unescape, quoted, unescapeBody_flatMap]

theorem newline_notMem_quoted (cs : List Char) : '\n' ∉ quoted cs := by
  have hescape (c : Char) : '\n' ∉ escapeChar c := by
    unfold escapeChar
    split <;> simp_all [eq_comm]
  simp [quoted, hescape]

/-! ## Quotes -/

theorem dropQuote_of_notMem {cs : List Char} (h : '"' ∉ cs) : dropQuote cs = cs := by
  rw [dropQuote.eq_def]
  split
  · simp at h
  · rfl

theorem unquoteChars_of_notMem {cs : List Char} (h : '"' ∉ cs) : unquoteChars cs = cs := by
  rw [unquoteChars, dropQuote_of_notMem h, dropQuote_of_notMem (by simpa using h), List.reverse_reverse]

theorem unquote_of_notMem {s : String} (h : '"' ∉ s.toList) : unquote s = s := by
  rw [unquote, unquoteChars_of_notMem h, String.ofList_toList]

theorem unquote_quotes (s : String) : unquote ("\"" ++ s ++ "\"") = s := by
  have h : ("\"" ++ s ++ "\"").toList = '"' :: (s.toList ++ ['"']) := by simp
  rw [unquote, h, unquoteChars, dropQuote, List.reverse_append, List.reverse_singleton, List.singleton_append,
    dropQuote, List.reverse_reverse, String.ofList_toList]

end BaseLang.Text
