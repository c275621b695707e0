import BaseLang.Term
import BaseLang.Term.Token

/-!
# Reading terms

A machine that takes the lexemes of a text one by one and keeps the open applications, lists and
remarks (`t{r_1, ..., r_n}`, which are read and dropped) on a stack.

* `ReadError` : why a text is no term, with the place of the first lexeme that cannot continue it;
* `Reader.State`, `Reader.step`, `Reader.finish` : the machine;
* `Term.read` : the term that a text spells.
-/

namespace BaseLang

/-- What may come next where a text goes wrong. -/
inductive Expected where
  | term
  | commaOr (close : Punct)
  deriving DecidableEq

namespace Expected

def text : Expected → String
  | term => "a term"
  | commaOr close => String.ofList ("`,` or `".toList ++ [close.char, '`'])

end Expected

/-- Why a text is not one term. -/
inductive ReadError where
  | invalidToken (start : Mark)
  | unrecognizedToken (token : List Char) (expected : Expected) (start : Mark)
  | unrecognizedEof (expected : Expected)
  | extraToken (token : List Char) (start : Mark)
  | intOutOfRange (literal : List Char) (start : Mark)
  deriving DecidableEq

namespace ReadError

def message : ReadError → String
  | invalidToken m => s!"Invalid token at {m.line}:{m.column}"
  | unrecognizedToken token expected m =>
    s!"Unrecognized token `{String.ofList token}` at {m.line}:{m.column}; expected {expected.text}"
  | unrecognizedEof expected => s!"Unrecognized EOF; expected {expected.text}"
  | extraToken token m => s!"Extra token `{String.ofList token}` at {m.line}:{m.column}"
  | intOutOfRange literal m =>
    s!"Integer literal `{String.ofList literal}` out of range at {m.line}:{m.column}"

end ReadError

namespace Reader

/-- What an opening bracket has begun: the arguments of a constructor, a list, or the remarks on a
complete term. -/
inductive Opening where
  | appl (cons : String)
  | list
  | remarks (subject : Term)

namespace Opening

/-- The bracket that closes it. -/
def close : Opening → Punct
  | appl _ => .parenClose
  | list => .bracketClose
  | remarks _ => .braceClose

def finish : Opening → List Term → Term
  | appl cons, items => .appl cons items
  | list, items => .list items
  | remarks subject, _ => subject

end Opening

/-- An open bracket with the items read so far, the latest first. -/
structure Frame where
  opening : Opening
  items : List Term

/-- The machine's state: the open brackets, the innermost first, and what has just been read. -/
inductive State where
  /-- A term has to start here. -/
  | item (stack : List Frame)
  /-- A bracket has just been opened: it is closed at once, or its first item starts here. -/
  | opened (opening : Opening) (stack : List Frame)
  /-- An identifier, which an opening parenthesis would turn into an application. -/
  | named (cons : String) (stack : List Frame)
  /-- A complete term. -/
  | complete (term : Term) (stack : List Frame)

def State.start : State := .item []

def startTerm (stack : List Frame) (l : Lexeme) : Except ReadError State :=
  match l.kind with
  | .ident => .ok (.named (String.ofList l.text) stack)
  | .punct .bracketOpen => .ok (.opened .list stack)
  | .str => .ok (.complete (.str (String.ofList (Text.unescape l.text))) stack)
  | .int =>
    match Text.readInt64? l.text with
    | some value => .ok (.complete (.int value) stack)
    | none => .error (.intOutOfRange l.text l.start)
  | .punct _ => .error (.unrecognizedToken l.text .term l.start)
  | .invalid => .error (.invalidToken l.start)

/-- A lexeme behind a complete term: remarks on it, or what the innermost bracket allows. -/
def afterTerm (term : Term) (stack : List Frame) (l : Lexeme) : Except ReadError State :=
  if l.kind = .punct .braceOpen then .ok (.opened (.remarks term) stack)
  else match stack with
    | [] => .error (.extraToken l.text l.start)
    | ⟨opening, items⟩ :: stack =>
      if l.kind = .punct .comma then .ok (.item (⟨opening, term :: items⟩ :: stack))
      else if l.kind = .punct opening.close then
        .ok (.complete (opening.finish (term :: items).reverse) stack)
      else if l.kind = .invalid then .error (.invalidToken l.start)
      else .error (.unrecognizedToken l.text (.commaOr opening.close) l.start)

def step (state : State) (l : Lexeme) : Except ReadError State :=
  match state with
  | .item stack => startTerm stack l
  | .opened opening stack =>
    if l.kind = .punct opening.close then .ok (.complete (opening.finish []) stack)
    else startTerm (⟨opening, []⟩ :: stack) l
  | .named cons stack =>
    if l.kind = .punct .parenOpen then .ok (.opened (.appl cons) stack)
    else afterTerm (.appl cons []) stack l
  | .complete term stack => afterTerm term stack l

def finishTerm (term : Term) : List Frame → Except ReadError Term
  | [] => .ok term
  | frame :: _ => .error (.unrecognizedEof (.commaOr frame.opening.close))

def finish : State → Except ReadError Term
  | .item _ | .opened _ _ => .error (.unrecognizedEof .term)
  | .named cons stack => finishTerm (.appl cons []) stack
  | .complete term stack => finishTerm term stack

/-- The machine run over lexemes, up to the first one that it refuses. -/
def run (state : State) : List Lexeme → Except ReadError State
  | [] => .ok state
  | l :: ls =>
    match step state l with
    | .ok state => run state ls
    | .error e => .error e

end Reader

/-- The one term that a text spells. -/
def Term.read (source : String) : Except ReadError Term :=
  match Reader.run .start (lex source) with
  | .ok state => Reader.finish state
  | .error e => .error e

end BaseLang
