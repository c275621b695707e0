import BaseLang.Text.Utf8

/-!
# Tokens

A text cut into lexemes, always taking the longest one.

* `Mark` : a place in a text, as byte offset, line and column;
* `Kind` : the token classes, and `invalid` for what belongs to none;
* `Lexeme` : a piece of the text with its class and the place where it starts;
* `munch` : the class and the length of what starts at a character;
* `lex` : the lexemes of a text, without the blanks and comments between them.
-/

namespace BaseLang

structure Mark where
  offset : Nat
  line : Nat
  column : Nat
  deriving DecidableEq

namespace Mark

/-- The start of a text. Lines and columns count from one, bytes from zero. -/
def start : Mark := ⟨0, 1, 1⟩

def next (m : Mark) (c : Char) : Mark :=
  if c = '\n' then ⟨m.offset + c.utf8Size, m.line + 1, 1⟩
  else ⟨m.offset + c.utf8Size, m.line, m.column + 1⟩

def after (m : Mark) (cs : List Char) : Mark := cs.foldl next m

end Mark

inductive Punct where
  | parenOpen
  | parenClose
  | bracketOpen
  | bracketClose
  | braceOpen
  | braceClose
  | comma
  deriving DecidableEq

namespace Punct

def char : Punct → Char
  | parenOpen => '('
  | parenClose => ')'
  | bracketOpen => '['
  | bracketClose => ']'
  | braceOpen => '{'
  | braceClose => '}'
  | comma => ','

def ofChar? : Char → Option Punct
  | '(' => some parenOpen
  | ')' => some parenClose
  | '[' => some bracketOpen
  | ']' => some bracketClose
  | '{' => some braceOpen
  | '}' => some braceClose
  | ',' => some comma
  | _ => none

end Punct

/-- The classes of lexemes. A piece of text that starts no token is `invalid`. -/
inductive Kind where
  | ident
  | int
  | str
  | punct (mark : Punct)
  | invalid
  deriving DecidableEq

/-- A piece of text with its class. -/
structure Lexeme where
  kind : Kind
  text : List Char
  start : Mark
  deriving DecidableEq

namespace Lexeme

def stop (l : Lexeme) : Nat := l.start.offset + Text.byteLength l.text

end Lexeme

namespace Lexer

/-! ## Character classes -/

/-- The characters skipped between tokens. -/
def isSpace (c : Char) : Bool :=
  c == ' ' || c == '\t' || c == '\n' || c == '\r' || c == '\x0c'

def isIdentStart (c : Char) : Bool := c.isAlpha || c == '_'

def isIdentRest (c : Char) : Bool := c.isAlphanum || c == '_' || c == '\'' || c == '-'

/-- How many characters of a string literal follow its opening quote, and whether the last of them
closes it. Without a closing quote these are the characters and escapes up to the end, or up to a
backslash before a line feed or the end. -/
def strBody : List Char → Nat × Bool
  | [] => (0, false)
  | ['\\'] => (0, false)
  | '\\' :: c :: cs => if c = '\n' then (0, false) else ((strBody cs).1 + 2, (strBody cs).2)
  | c :: cs => if c = '"' then (1, true) else ((strBody cs).1 + 1, (strBody cs).2)

/-! ## Longest match -/

/-- What starts at a character: a token or error class, or none for text to skip, and how many of the
characters behind it belong to it. -/
structure Munch where
  kind : Option Kind
  more : Nat

/-- The longest piece of text that starts with the character `c` before `cs`. -/
def munch (c : Char) (cs : List Char) : Munch :=
  if isSpace c then ⟨none, (cs.takeWhile isSpace).length⟩
  else if isIdentStart c then ⟨some .ident, (cs.takeWhile isIdentRest).length⟩
  else if c.isDigit then ⟨some .int, (cs.takeWhile Char.isDigit).length⟩
  else if c = '-' then
    let digits := (cs.takeWhile Char.isDigit).length
    if digits = 0 then ⟨some .invalid, 0⟩ else ⟨some .int, digits⟩
  else if c = '%' then
    match cs with
    | '%' :: rest => ⟨none, (rest.takeWhile (· ≠ '\n')).length + 1⟩
    | _ => ⟨some .invalid, 0⟩
  else if c = '"' then
    let body := strBody cs
    ⟨some (if body.2 then .str else .invalid), body.1⟩
  else match Punct.ofChar? c with
    | some p => ⟨some (.punct p), 0⟩
    | none => ⟨some .invalid, 0⟩

/-- The lexemes of a text whose first `skip` characters belong to the piece before them. -/
def lexAfter (mark : Mark) : (skip : Nat) → List Char → List Lexeme
  | _, [] => []
  | skip + 1, c :: cs => lexAfter (mark.next c) skip cs
  | 0, c :: cs =>
    let m := munch c cs
    let rest := lexAfter (mark.next c) m.more cs
    match m.kind with
    | some kind => ⟨kind, c :: cs.take m.more, mark⟩ :: rest
    | none => rest

end Lexer

def lex (source : String) : List Lexeme := Lexer.lexAfter Mark.start 0 source.toList

end BaseLang
