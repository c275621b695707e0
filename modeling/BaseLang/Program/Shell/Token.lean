import BaseLang.Action
import BaseLang.Program.Shell.Script

/-!
# Tokens of scripts

* `Token` : operators, keywords, redirections and words, with their names in errors;
* `ScriptError` : why a text is not a script, with its wording;
* `Reader` : the rest of a script, and what has been read ahead of it;
* `Reading` : actions of a reader.
-/

namespace BaseLang.Shell

inductive RedirectionKind where
  | file (opening : Opening)
  | copy
  | here (stripTabs : Bool)
  deriving DecidableEq

/-- A token. A word knows whether a part of it is quoted. -/
inductive Token where
  | finish
  | newline
  | operator (text : String)
  | keyword (text : String)
  | redirection (descriptor : Nat) (kind : RedirectionKind)
  | word (w : Word) (quoted : Bool)

def keywords : List String :=
  ["!", "case", "do", "done", "elif", "else", "esac", "fi", "for", "if", "in", "then", "until", "while",
   "\x7b", "\x7d"]

namespace Token

def name : Token → String
  | finish => "end of file"
  | newline => "newline"
  | operator text | keyword text => "\"" ++ text ++ "\""
  | redirection .. => "redirection"
  | word .. => "word"

def isOperator (t : Token) (text : String) : Bool :=
  match t with
  | operator s => s = text
  | _ => false

def isKeyword (t : Token) (text : String) : Bool :=
  match t with
  | keyword s => s = text
  | _ => false

def endsList : Token → Bool
  | finish => true
  | operator s => [")", ";;"].contains s
  | keyword s => ["do", "done", "elif", "else", "esac", "fi", "then", "\x7d"].contains s
  | _ => false

def asKeyword : Token → Token
  | word w false =>
    match w.unquoted? with
    | some s => if keywords.contains s then keyword s else word w false
    | none => word w false
  | t => t

end Token

inductive ScriptError where
  | unexpected (token : Token) (expected : Option String)
  | openQuote
  | openBrace
  | openArithmetic
  | openSubstitution
  | badLoopVariable
  | badFunctionName
  | badDescriptor

def ScriptError.message (e : ScriptError) : String :=
  "Syntax error: " ++ match e with
  | unexpected t none => s!"{t.name} unexpected"
  | unexpected t (some name) => s!"{t.name} unexpected (expecting {name})"
  | openQuote => "Unterminated quoted string"
  | openBrace => "Missing '\x7d'"
  | openArithmetic => "Missing '))'"
  | openSubstitution => "EOF in backquote substitution"
  | badLoopVariable => "Bad for loop variable"
  | badFunctionName => "Bad function name"
  | badDescriptor => "Bad fd number"

/-- A document that follows the line of its redirection, and where it ends. -/
structure Document where
  number : Nat
  mark : String
  stripTabs : Bool
  expanded : Bool

/-- The rest of a script from some line on; a token that has been taken back; whether the next token may
be a keyword, and whether it may be on a later line; and the documents, which are numbered. -/
structure Reader where
  rest : List Char
  line : Nat
  back : Option Token
  allowKeyword : Bool
  allowLines : Bool
  awaited : List Document
  documents : List (Nat × Word)
  nextDocument : Nat

def Reader.start (text : List Char) (line nextDocument : Nat) : Reader :=
  ⟨text, line, none, false, false, [], [], nextDocument⟩

abbrev Reading := Action Reader ScriptError

namespace Reading

def reader : Reading Reader := .query .ok

/-- Goes on to the character behind the next one. -/
def skip : Reading Unit := .modify fun r =>
  match r.rest with
  | '\n' :: rest => { r with rest, line := r.line + 1 }
  | _ :: rest => { r with rest }
  | [] => r

/-- Goes on to the character behind the next one, which does not end a line. -/
def drop : Reading Unit := .modify fun r => { r with rest := r.rest.tail }

def skipOver : Nat → Reading Unit
  | 0 => pure ()
  | n + 1 => do
    skip
    skipOver n

/-- A text without the line ends behind backslashes that it starts with, and their number. -/
def joinLines : List Char → List Char × Nat
  | '\\' :: '\n' :: cs => let (rest, n) := joinLines cs; (rest, n + 1)
  | cs => (cs, 0)

/-- The next character. A backslash in front of a line end joins the lines. -/
def peek : Reading (Option Char) := fun r =>
  let (rest, n) := joinLines r.rest
  (.ok rest.head?, { r with rest, line := r.line + n })

/-- Goes on behind a character, if it is the next one. -/
def accept (c : Char) : Reading Bool := do
  if (← peek) = some c then
    skip
    return true
  else return false

/-- The characters up to the first one of another kind. -/
def takeWhile (p : Char → Bool) : (fuel : Nat) → Reading (List Char)
  | 0 => pure []
  | fuel + 1 => do
    match ← peek with
    | some c =>
      if p c then
        skip
        return c :: (← takeWhile p fuel)
      else return []
    | none => return []

def expect (allowKeyword allowLines : Bool) : Reading Unit :=
  .modify fun r => { r with allowKeyword, allowLines }

def takeBack (t : Token) : Reading Unit := .modify fun r => { r with back := some t }

/-- Refuses a token where another one is expected. -/
def unexpected {α : Type} (t : Token) (expected : Option String) : Reading α :=
  throw (.unexpected t expected)

/-- Refuses any other token than an operator or keyword. -/
def demand (t : Token) (text : String) : Reading Unit :=
  if t.isOperator text || t.isKeyword text then pure ()
  else unexpected t (some ("\"" ++ text ++ "\""))

end Reading

end BaseLang.Shell
