import BaseLang.Program

/-!
# Scripts

What a shell reads, as commands.

* `Piece`, `Word` : words, as the pieces that are replaced when a command runs;
* `Adjustment` : what is done with the value of a parameter;
* `Redirection` : where a command reads from or writes to;
* `Command` : commands.
-/

namespace BaseLang.Shell

/-- When a word stands in for the value of a parameter, or takes part in it. -/
inductive Adjustment where
  | plain
  | length
  | default
  | assign
  | demand
  | alternative
  | trimStart (longest : Bool)
  | trimEnd (longest : Bool)
  | broken
  deriving DecidableEq

inductive Opening where
  | read
  | write
  | append
  | readWrite
  deriving DecidableEq

mutual

/-- A piece of a word. What is quoted is neither split into fields nor taken as a pattern. -/
inductive Piece where
  | text (text : String) (quoted : Bool)
  | parameter (name : String) (adjustment : Adjustment) (emptyCounts : Bool) (word : List Piece)
      (quoted : Bool)
  | output (commands : List Command) (quoted : Bool)
  | arithmetic (expression : List Piece) (quoted : Bool)

inductive Redirection where
  | file (descriptor : Nat) (opening : Opening) (path : List Piece)
  | copy (descriptor : Nat) (source : List Piece)
  | here (descriptor document : Nat)

inductive Command where
  | simple (line : Nat) (assignments : List (String × List Piece)) (words : List (List Piece))
      (redirections : List Redirection)
  | pipeline (commands : List Command)
  | negation (command : Command)
  | both (first second : Command)
  | either (first second : Command)
  | sequence (first second : Command)
  | background (command : Command)
  | subshell (line : Nat) (body : Command) (redirections : List Redirection)
  | redirected (line : Nat) (body : Command) (redirections : List Redirection)
  | choice (condition yes : Command) (no : Option Command)
  | loop (while_ : Bool) (condition body : Command)
  | each (line : Nat) (name : String) (words : List (List Piece)) (body : Command)
  | select (line : Nat) (word : List Piece) (arms : List (List (List Piece) × Option Command))
  | define (line : Nat) (name : String) (body : Command)

end

/-- A word, which becomes any number of fields. -/
abbrev Word := List Piece

instance : Inhabited Piece := ⟨.text "" false⟩

instance : Inhabited Command := ⟨.simple 0 [] [] []⟩

def Word.ofText (text : String) : Word := [.text text false]

def Word.literal? : Word → Option String
  | [] => some ""
  | .text s _ :: ps => (literal? ps).map (s ++ ·)
  | _ :: _ => none

/-- The text of a word in which nothing is quoted or expanded. -/
def Word.unquoted? : Word → Option String
  | [] => some ""
  | .text s false :: ps => (unquoted? ps).map (s ++ ·)
  | _ :: _ => none

def isNameStart (c : Char) : Bool := c.isAlpha || c = '_'

def isNameChar (c : Char) : Bool := c.isAlphanum || c = '_'

def splitName (cs : List Char) : List Char × List Char :=
  match cs with
  | c :: _ => if isNameStart c then (cs.takeWhile isNameChar, cs.dropWhile isNameChar) else ([], cs)
  | [] => ([], [])

def isName (s : String) : Bool := s ≠ "" && (splitName s.toList).2 = []

def Word.assignment? : Word → Option (String × Word)
  | .text s false :: ps =>
    match splitName s.toList with
    | ([], _) => none
    | (name, '=' :: value) =>
      some (String.ofList name, if value = [] then ps else .text (String.ofList value) false :: ps)
    | _ => none
  | _ => none

end BaseLang.Shell
