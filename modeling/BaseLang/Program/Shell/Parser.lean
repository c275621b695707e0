import BaseLang.Program.Shell.Token

/-!
# Reading scripts

* `Reading.pieces` : the pieces of a word, up to where its kind of quotation ends;
* `Reading.token` : the next token;
* `Reading.commands`, `Reading.command` : lists of commands, and single ones;
* `Reader.next` : the commands of the next line.

The fuel of a reader is larger than the number of steps that a text of its length can take.
-/

namespace BaseLang.Shell

/-- Where the pieces of a word stand: outside quotes, in braces, between double quotes, in braces between
double quotes, in an expression with so many open parentheses, or in a document. -/
inductive Surroundings where
  | bare
  | braced
  | quoted
  | bracedQuoted
  | expression (depth : Nat)
  | document

namespace Surroundings

def isQuoted : Surroundings → Bool
  | bare | braced => false
  | _ => true

def ends : Surroundings → Char → Bool
  | bare, c => " \t\n;&|<>()".toList.contains c
  | braced, c | bracedQuoted, c => c = '\x7d'
  | quoted, c => c = '"'
  | _, _ => false

/-- Whether a backslash takes away the meaning of a character. -/
def escapes : Surroundings → Char → Bool
  | bare, _ | braced, _ => true
  | document, c => "\\\x60$".toList.contains c
  | bracedQuoted, c => "\\\x60$\"\x7d".toList.contains c
  | _, c => "\\\x60$\"".toList.contains c

def inBraces (s : Surroundings) (isTrim : Bool) : Surroundings :=
  if isTrim || !s.isQuoted then braced else bracedQuoted

/-- The error of a text that ends before the word does, if the word cannot end there. -/
def openError? : Surroundings → Option ScriptError
  | bare | document => none
  | braced => some .openBrace
  | quoted | bracedQuoted => some .openQuote
  | expression _ => some .openArithmetic

end Surroundings

def Word.cons (c : Char) (quoted : Bool) : Word → Word
  | .text s q :: ps =>
    if q = quoted then .text (String.ofList (c :: s.toList)) q :: ps
    else .text (String.singleton c) quoted :: .text s q :: ps
  | ps => .text (String.singleton c) quoted :: ps

def Word.prepend (cs : List Char) (quoted : Bool) (w : Word) : Word :=
  if cs = [] then .text "" quoted :: w
  else match w with
    | .text s q :: ps =>
      if q = quoted && s ≠ "" then .text (String.ofList (cs ++ s.toList)) q :: ps
      else .text (String.ofList cs) quoted :: w
    | _ => .text (String.ofList cs) quoted :: w

def isSpecialParameter (c : Char) : Bool := "!#$*-?@".toList.contains c || c.isDigit

/-- Builtins whose errors end the shell, and whose names are not those of functions. -/
def specialBuiltins : List String :=
  [".", ":", "break", "continue", "eval", "exec", "exit", "export", "local", "readonly", "return", "set", "shift",
   "times", "trap", "unset"]

/-- The parts of a list of commands: a line, the body of a compound command, or anything. -/
inductive ListKind where
  | line
  | body
  | any
  deriving DecidableEq

def Command.after (first : Option Command) (second : Command) : Command :=
  match first with
  | none => second
  | some c => .sequence c second

namespace Reading

/-! ## Documents -/

def documentLines (d : Document) : (fuel : Nat) → List Char → List Char × List Char × Nat
  | 0, cs => ([], cs, 0)
  | _, [] => ([], [], 0)
  | fuel + 1, cs =>
    let cs := if d.stripTabs then cs.dropWhile (· = '\t') else cs
    let line := cs.takeWhile (· ≠ '\n')
    let rest := (cs.dropWhile (· ≠ '\n')).drop 1
    if String.ofList line = d.mark then ([], rest, 1)
    else
      let ended := if cs.length = line.length then line else line ++ ['\n']
      let (body, rest, n) := documentLines d fuel rest
      (ended ++ body, rest, n + 1)

def untilQuote : (fuel : Nat) → Reading (List Char)
  | 0 => throw .openQuote
  | fuel + 1 => do
    match (← reader).rest with
    | [] => throw .openQuote
    | '\'' :: _ =>
      skip
      return []
    | c :: _ =>
      skip
      return c :: (← untilQuote fuel)

def untilBackquote (inQuotes : Bool) : (fuel : Nat) → Reading (List Char)
  | 0 => throw .openSubstitution
  | fuel + 1 => do
    match (← reader).rest with
    | [] => throw .openSubstitution
    | '\x60' :: _ =>
      skip
      return []
    | '\\' :: '\n' :: _ =>
      skipOver 2
      untilBackquote inQuotes fuel
    | '\\' :: c :: _ =>
      skipOver 2
      let rest ← untilBackquote inQuotes fuel
      return if c = '\\' || c = '\x60' || c = '$' || (inQuotes && c = '"') then c :: rest else '\\' :: c :: rest
    | c :: _ =>
      skip
      return c :: (← untilBackquote inQuotes fuel)

/-! ## Redirections -/

/-- The operator of a redirection, whose first character is the next one. -/
def redirection (descriptor : Option Nat) : Reading Token := do
  if ← accept '>' then
    let d := descriptor.getD 1
    if ← accept '>' then return .redirection d (.file .append)
    if ← accept '|' then return .redirection d (.file .write)
    if ← accept '&' then return .redirection d .copy
    return .redirection d (.file .write)
  else
    skip
    let d := descriptor.getD 0
    if ← accept '<' then return .redirection d (.here (← accept '-'))
    if ← accept '&' then return .redirection d .copy
    if ← accept '>' then return .redirection d (.file .readWrite)
    return .redirection d (.file .read)

def skipComment : (fuel : Nat) → Reading Unit
  | 0 => pure ()
  | fuel + 1 => do
    match (← reader).rest with
    | [] | '\n' :: _ => pure ()
    | _ =>
      skip
      skipComment fuel

/-- The adjustment behind the name of a parameter in braces, and whether an empty value counts as none. -/
def adjustment : Reading (Adjustment × Bool) := do
  let kind? (c : Option Char) : Option Adjustment :=
    match c with
    | some '\x7d' => some .plain
    | some '-' => some .default
    | some '=' => some .assign
    | some '?' => some .demand
    | some '+' => some .alternative
    | _ => none
  match ← peek with
  | some ':' =>
    skip
    match kind? (← peek) with
    | some a =>
      skip
      return (a, true)
    | none =>
      drop
      return (.broken, true)
  | some '%' =>
    skip
    return (.trimEnd (← accept '%'), false)
  | some '#' =>
    skip
    return (.trimStart (← accept '#'), false)
  | c =>
    match kind? c with
    | some a =>
      skip
      return (a, false)
    | none =>
      drop
      return (.broken, false)

/-- The name of a parameter that starts with the next character, if this is one. -/
def parameterName? (fuel : Nat) : Reading (Option String) := do
  match ← peek with
  | none => return none
  | some c =>
    if isNameStart c then return some (String.ofList (← takeWhile isNameChar fuel))
    else if c.isDigit then return some (String.ofList (← takeWhile Char.isDigit fuel))
    else if isSpecialParameter c then
      skip
      return some (String.singleton c)
    else return none

/-- The parameter behind an opening brace, and whether its length is asked for. -/
def bracedName? (fuel : Nat) : Reading (Option String × Bool) := do
  if (← peek) = some '#' then
    let before ← reader
    skip
    match ← peek with
    | some c =>
      if isNameChar c then return (← parameterName? fuel, true)
      else
        let inner ← reader
        skip
        if c ≠ '\x7d' && (← peek) = some '\x7d' then
          return (if isSpecialParameter c then some (String.singleton c) else none, true)
        else
          Action.modify fun _ => inner
          return (some "#", false)
    | none =>
      Action.modify fun _ => before
      return (none, false)
  else
    let name? ← parameterName? fuel
    if name? = none && (← peek) ≠ some '\x7d' then drop
    return (name?, false)

/-! ## Words and commands -/

mutual

/-- The pieces of a word, up to where it ends, and whether any of them is quoted. -/
def pieces (s : Surroundings) : (fuel : Nat) → Reading (Word × Bool)
  | 0 => pure ([], false)
  | fuel + 1 => do
    match ← peek with
    | none =>
      match s.openError? with
      | some e => throw e
      | none => return ([], false)
    | some c =>
      if s.ends c then return ([], false)
      let literal (c : Char) (s' : Surroundings) : Reading (Word × Bool) := do
        let (ps, q) ← pieces s' fuel
        return (Word.cons c s.isQuoted ps, q)
      match c, s with
      | ')', .expression 0 =>
        skip
        if (← peek) = some ')' then return ([], false) else literal c s
      | '(', .expression depth =>
        skip
        literal c (.expression (depth + 1))
      | ')', .expression (depth + 1) =>
        skip
        literal c (.expression depth)
      | '\\', _ =>
        skip
        match (← reader).rest with
        | [] => literal '\\' s
        | d :: _ =>
          skip
          let (ps, _) ← pieces s fuel
          return (if s.escapes d then Word.cons d true ps else Word.cons '\\' true (Word.cons d true ps), true)
      | '\'', _ =>
        skip
        if s.isQuoted then literal c s
        else
          let cs ← untilQuote fuel
          let (ps, _) ← pieces s fuel
          return (Word.prepend cs true ps, true)
      | '"', _ =>
        skip
        match s with
        | .bare | .braced | .bracedQuoted =>
          let (inner, _) ← pieces .quoted fuel
          skip
          let (ps, _) ← pieces s fuel
          return (match inner with
            | [] => Word.prepend [] true ps
            | [.text t true] => Word.prepend t.toList true ps
            | _ => inner ++ ps, true)
        | _ => literal c s
      | '\x60', _ =>
        skip
        let text ← untilBackquote s.isQuoted fuel
        let p ← substitution text s.isQuoted fuel
        let (ps, q) ← pieces s fuel
        return (p :: ps, q)
      | '$', _ =>
        skip
        match ← dollar s fuel with
        | some p =>
          let (ps, q) ← pieces s fuel
          return (p :: ps, q)
        | none => literal '$' s
      | _, _ =>
        skip
        literal c s
termination_by structural fuel => fuel

/-- What a dollar sign stands for, or nothing if it stands for itself. -/
def dollar (s : Surroundings) : (fuel : Nat) → Reading (Option Piece)
  | 0 => pure none
  | fuel + 1 => do
    match ← peek with
    | some '(' =>
      skip
      if ← accept '(' then
        let (expression, _) ← pieces (.expression 0) fuel
        skip
        return some (.arithmetic expression s.isQuoted)
      else
        let before ← reader
        expect false false
        let cs ← commands .any none false fuel
        let t ← token fuel
        if !t.isOperator ")" then unexpected t (some "\")\"")
        Action.modify fun r => { r with back := before.back }
        return some (.output cs.toList s.isQuoted)
    | some '\x7b' =>
      skip
      let (name?, isLength) ← bracedName? fuel
      match name?, isLength with
      | some name, true =>
        if ← accept '\x7d' then return some (.parameter name .length false [] s.isQuoted)
        else broken s fuel
      | some name, false =>
        match ← adjustment with
        | (.plain, _) => return some (.parameter name .plain false [] s.isQuoted)
        | (.broken, _) => broken s fuel
        | (a, emptyCounts) =>
          let isTrim := match a with
            | .trimStart _ | .trimEnd _ => true
            | _ => false
          let (w, _) ← pieces (s.inBraces isTrim) fuel
          skip
          return some (.parameter name a emptyCounts w s.isQuoted)
      | none, _ => broken s fuel
    | some c =>
      if isNameStart c then
        return some (.parameter (String.ofList (← takeWhile isNameChar fuel)) .plain false [] s.isQuoted)
      else if isSpecialParameter c then
        skip
        return some (.parameter (String.singleton c) .plain false [] s.isQuoted)
      else return none
    | none => return none
termination_by structural fuel => fuel

/-- What is in braces but no parameter. -/
def broken (s : Surroundings) : (fuel : Nat) → Reading (Option Piece)
  | 0 => pure none
  | fuel + 1 => do
    let _ ← pieces (s.inBraces false) fuel
    skip
    return some (.parameter "" .broken false [] s.isQuoted)
termination_by structural fuel => fuel

/-- The commands whose output a text in backquotes stands for. -/
def substitution (text : List Char) (quoted : Bool) : (fuel : Nat) → Reading Piece
  | 0 => pure (.output [] quoted)
  | fuel + 1 => do
    let before ← reader
    Action.modify fun r => { Reader.start text r.line r.nextDocument with documents := r.documents }
    let cs ← commands .any none false fuel
    Action.modify fun r => { before with documents := r.documents, nextDocument := r.nextDocument }
    return .output cs.toList quoted
termination_by structural fuel => fuel

/-- Reads the documents that the line behind has promised. -/
def readDocuments : (fuel : Nat) → Reading Unit
  | 0 => pure ()
  | fuel + 1 => do
    let r ← reader
    match r.awaited with
    | [] => pure ()
    | d :: awaited =>
      let (body, rest, lines) := documentLines d (r.rest.length + 1) r.rest
      let line := r.line + lines
      if d.expanded then
        Action.modify fun r => { r with rest := body, awaited := [] }
        let (w, _) ← pieces .document fuel
        Action.modify fun r => { r with
          rest, line, awaited, documents := (d.number, w) :: r.documents }
      else
        let w := [Piece.text (String.ofList body) true]
        Action.modify fun r => { r with
          rest, line, awaited, documents := (d.number, w) :: r.documents }
      readDocuments fuel
termination_by structural fuel => fuel

def freshToken : (fuel : Nat) → Reading Token
  | 0 => pure .finish
  | fuel + 1 => do
    match ← peek with
    | none => return .finish
    | some c =>
      if c = ' ' || c = '\t' then
        skip
        freshToken fuel
      else if c = '#' then
        skipComment fuel
        freshToken fuel
      else if c = '\n' then
        skip
        return .newline
      else if c = '&' || c = '|' || c = ';' then
        skip
        return .operator (String.ofList (if ← accept c then [c, c] else [c]))
      else if c = '(' || c = ')' then
        skip
        return .operator (String.singleton c)
      else
        let (w, quoted) ← pieces .bare fuel
        match ← peek with
        | some c =>
          if (c = '<' || c = '>') && !quoted then
            match w with
            | [] => redirection none
            | [.text t false] =>
              match t.toList with
              | [d] => if d.isDigit then redirection (some (d.toNat - '0'.toNat)) else return .word w quoted
              | _ => return .word w quoted
            | _ => return .word w quoted
          else return .word w quoted
        | none => return .word w quoted
termination_by structural fuel => fuel

/-- The next token, behind the ends of lines if these are allowed. -/
def skipLines (allowLines : Bool) : (fuel : Nat) → Reading Token
  | 0 => pure .finish
  | fuel + 1 => do
    let r ← reader
    let t ← match r.back with
      | some t =>
        Action.modify fun r => { r with back := none }
        pure t
      | none => freshToken fuel
    match t, allowLines with
    | .newline, true =>
      readDocuments fuel
      skipLines allowLines fuel
    | _, _ => return t
termination_by structural fuel => fuel

/-- The next token, as what it is expected to be. -/
def token : (fuel : Nat) → Reading Token
  | 0 => pure .finish
  | fuel + 1 => do
    let r ← reader
    let t ← skipLines r.allowLines fuel
    expect false false
    return if r.allowKeyword then t.asKeyword else t
termination_by structural fuel => fuel

/-- A list of commands behind those that have been read. -/
def commands (kind : ListKind) (done : Option Command) (started : Bool) :
    (fuel : Nat) → Reading (Option Command)
  | 0 => pure done
  | fuel + 1 => do
    expect true (kind ≠ .line)
    match ← token fuel with
    | .newline =>
      readDocuments fuel
      return done
    | .finish =>
      readDocuments fuel
      takeBack .finish
      return done
    | t =>
      takeBack t
      if (kind = .any || (kind = .body && started)) && t.endsList then return done
      let c ← andOr fuel
      match ← token fuel with
      | .finish =>
        readDocuments fuel
        takeBack .finish
        return some (.after done c)
      | .newline =>
        takeBack .newline
        commands kind (some (.after done c)) true fuel
      | .operator "&" => commands kind (some (.after done (.background c))) true fuel
      | .operator ";" => commands kind (some (.after done c)) true fuel
      | t =>
        if kind = .line then unexpected t none
        takeBack t
        return some (.after done c)
termination_by structural fuel => fuel

def body : (fuel : Nat) → Reading Command
  | 0 => pure default
  | fuel + 1 => do return (← commands .body none false fuel).getD default
termination_by structural fuel => fuel

/-- Pipelines of which each runs if the one before succeeds, or fails. -/
def andOr : (fuel : Nat) → Reading Command
  | 0 => pure default
  | fuel + 1 => do andOrBehind (← pipeline fuel) fuel
termination_by structural fuel => fuel

def andOrBehind (first : Command) : (fuel : Nat) → Reading Command
  | 0 => pure first
  | fuel + 1 => do
    match ← token fuel with
    | .operator "&&" =>
      expect true true
      andOrBehind (.both first (← pipeline fuel)) fuel
    | .operator "||" =>
      expect true true
      andOrBehind (.either first (← pipeline fuel)) fuel
    | t =>
      takeBack t
      return first
termination_by structural fuel => fuel

def pipeline : (fuel : Nat) → Reading Command
  | 0 => pure default
  | fuel + 1 => do
    let t ← token fuel
    let negated := t.isKeyword "!"
    if negated then expect true false else takeBack t
    let c ← command fuel
    let more ← pipedCommands fuel
    let c := if more = [] then c else .pipeline (c :: more)
    return if negated then .negation c else c
termination_by structural fuel => fuel

def pipedCommands : (fuel : Nat) → Reading (List Command)
  | 0 => pure []
  | fuel + 1 => do
    match ← token fuel with
    | .operator "|" =>
      expect true true
      let c ← command fuel
      return c :: (← pipedCommands fuel)
    | t =>
      takeBack t
      return []
termination_by structural fuel => fuel

/-- One command with the redirections behind it. -/
def command : (fuel : Nat) → Reading Command
  | 0 => pure default
  | fuel + 1 => do
    let line := (← reader).line
    let t ← token fuel
    let close (c : Command) (text : String) : Reading Command := do
      demand (← token fuel) text
      closed line c fuel
    match t with
    | .keyword "if" => close (← choice fuel) "fi"
    | .keyword "while" => close (← loop true fuel) "done"
    | .keyword "until" => close (← loop false fuel) "done"
    | .keyword "for" => close (← each line fuel) "done"
    | .keyword "case" =>
      match ← token fuel with
      | .word w _ =>
        expect true true
        demand (← token fuel) "in"
        let arms ← arms fuel
        closed line (.select line w arms) fuel
      | t => unexpected t (some "word")
    | .keyword "\x7b" => close (← body fuel) "\x7d"
    | .operator "(" =>
      let c ← body fuel
      demand (← token fuel) ")"
      expect true false
      let rs ← redirections fuel
      return .subshell line c rs
    | .word .. | .redirection .. =>
      takeBack t
      simple line [] [] [] fuel
    | t => unexpected t none
termination_by structural fuel => fuel

def closed (line : Nat) (c : Command) : (fuel : Nat) → Reading Command
  | 0 => pure c
  | fuel + 1 => do
    expect true false
    let rs ← redirections fuel
    return if rs.isEmpty then c else .redirected line c rs
termination_by structural fuel => fuel

def redirections : (fuel : Nat) → Reading (List Redirection)
  | 0 => pure []
  | fuel + 1 => do
    match ← token fuel with
    | .redirection d kind =>
      let r ← redirected d kind fuel
      return r :: (← redirections fuel)
    | t =>
      takeBack t
      return []
termination_by structural fuel => fuel

def redirected (descriptor : Nat) (kind : RedirectionKind) : (fuel : Nat) → Reading Redirection
  | 0 => pure (.copy descriptor [])
  | fuel + 1 => do
    match ← token fuel with
    | .word w quoted =>
      match kind with
      | .file opening => return .file descriptor opening w
      | .copy => return .copy descriptor w
      | .here stripTabs =>
        let r ← reader
        let d : Document := ⟨r.nextDocument, (Word.literal? w).getD "", stripTabs, !quoted⟩
        Action.modify fun r => { r with
          nextDocument := r.nextDocument + 1, awaited := r.awaited ++ [d] }
        return .here descriptor d.number
    | t => unexpected t none
termination_by structural fuel => fuel

def choice : (fuel : Nat) → Reading Command
  | 0 => pure default
  | fuel + 1 => do
    let condition ← body fuel
    demand (← token fuel) "then"
    let yes ← body fuel
    match ← token fuel with
    | .keyword "elif" => return .choice condition yes (some (← choice fuel))
    | .keyword "else" => return .choice condition yes (some (← body fuel))
    | t =>
      takeBack t
      return .choice condition yes none
termination_by structural fuel => fuel

def loop (isWhile : Bool) : (fuel : Nat) → Reading Command
  | 0 => pure default
  | fuel + 1 => do
    let condition ← body fuel
    demand (← token fuel) "do"
    return .loop isWhile condition (← body fuel)
termination_by structural fuel => fuel

def each (line : Nat) : (fuel : Nat) → Reading Command
  | 0 => pure default
  | fuel + 1 => do
    let name ← match ← token fuel with
      | .word w false =>
        match w.unquoted? with
        | some name => if isName name then pure name else throw .badLoopVariable
        | none => throw .badLoopVariable
      | _ => throw .badLoopVariable
    expect true true
    let words ← match ← token fuel with
      | .keyword "in" =>
        let (ws, t) ← wordsUpTo fuel
        match t with
        | .newline | .operator ";" => pure ws
        | t => unexpected t none
      | t =>
        if !t.isOperator ";" then takeBack t
        pure [[.parameter "@" .plain false [] true]]
    expect true true
    demand (← token fuel) "do"
    return .each line name words (← body fuel)
termination_by structural fuel => fuel

def wordsUpTo : (fuel : Nat) → Reading (List Word × Token)
  | 0 => pure ([], .finish)
  | fuel + 1 => do
    match ← token fuel with
    | .word w _ =>
      let (ws, t) ← wordsUpTo fuel
      return (w :: ws, t)
    | t => return ([], t)
termination_by structural fuel => fuel

/-- The arms of a selection, with the word that ends it. -/
def arms : (fuel : Nat) → Reading (List (List Word × Option Command))
  | 0 => pure []
  | fuel + 1 => do
    expect true true
    let t ← token fuel
    if t.isKeyword "esac" then return []
    let t ← if t.isOperator "(" then token fuel else pure t
    let patterns ← patterns t fuel
    let c ← commands .any none false fuel
    expect true true
    let t ← token fuel
    if t.isKeyword "esac" then return [(patterns, c)]
    if !t.isOperator ";;" then unexpected t (some "\";;\"")
    return (patterns, c) :: (← arms fuel)
termination_by structural fuel => fuel

/-- Patterns with bars between them, and the parenthesis that ends them. -/
def patterns (first : Token) : (fuel : Nat) → Reading (List Word)
  | 0 => pure []
  | fuel + 1 => do
    let w : Word := match first with
      | .word w _ => w
      | .keyword s => .ofText s
      | _ => []
    let t ← token fuel
    if t.isOperator "|" then return w :: (← patterns (← token fuel) fuel)
    demand t ")"
    return [w]
termination_by structural fuel => fuel

/-- A simple command behind the words and redirections that have been read, or a function. -/
def simple (line : Nat) (assignments : List (String × Word)) (words : List Word) (rs : List Redirection) :
    (fuel : Nat) → Reading Command
  | 0 => pure default
  | fuel + 1 => do
    match ← token fuel with
    | .word w _ =>
      match words, w.assignment? with
      | [], some a => simple line (assignments ++ [a]) words rs fuel
      | _, _ => simple line assignments (words ++ [w]) rs fuel
    | .redirection d kind =>
      let r ← redirected d kind fuel
      simple line assignments words (rs ++ [r]) fuel
    | t =>
      match t.isOperator "(", assignments, words, rs with
      | true, [], [w], [] =>
        demand (← token fuel) ")"
        match w.unquoted? with
        | some name =>
          if !isName name || specialBuiltins.contains name then throw .badFunctionName
          expect true true
          let line := (← reader).line
          return .define line name (← command fuel)
        | none => throw .badFunctionName
      | _, _, _, _ =>
        takeBack t
        return .simple line assignments words rs
termination_by structural fuel => fuel

end

end Reading

namespace Reader

/-- The commands of the next line, if there are any, and whether the text ends with them. -/
def next (r : Reader) : Except ScriptError (Option Command × Bool) × Reader :=
  let r := { r with back := none, allowKeyword := false, allowLines := false }
  match (Reading.commands .line none false (32 * r.rest.length + 64)).run r with
  | (.ok c, r) => (.ok (c, r.back matches some .finish), r)
  | (.error e, r) => (.error e, r)

end Reader

end BaseLang.Shell
