import BaseLang.Program
import BaseLang.Text.Blank
import BaseLang.Text.Decimal

/-!
# Conditions

* `Condition.Operator` : the words with a meaning;
* `ConditionError` : words that are not a condition;
* `Condition.holds` : whether the words of a condition hold of the files;
* `Tool.test` : the programs that look at a condition.
-/

namespace BaseLang

inductive ConditionError where
  | unexpected (word : String)
  | missingOperand (operator : String)
  | unclosed
  | notNumber (word : String)

def ConditionError.message : ConditionError → String
  | unexpected word => if word = "" then "unexpected operator" else s!"{word}: unexpected operator"
  | missingOperand operator => s!"{operator}: argument expected"
  | unclosed => "closing paren expected"
  | notNumber word => s!"Illegal number: {word}"

namespace Condition

inductive Operator where
  | unary (letter : Char)
  | binary (name : String)
  | not
  | and
  | or
  | opening
  | closing
  deriving DecidableEq

def operator? (word : String) : Option Operator :=
  if word = "!" then some .not
  else if word = "-a" then some .and
  else if word = "-o" then some .or
  else if word = "(" then some .opening
  else if word = ")" then some .closing
  else if ["=", "!=", "<", ">", "-eq", "-ne", "-ge", "-gt", "-le", "-lt", "-nt", "-ot", "-ef"].contains word
  then some (.binary word)
  else match word.toList with
    | ['-', c] => if "rwxefdcbpugkstznhLOGS".toList.contains c then some (.unary c) else none
    | _ => none

def isBinary (word : String) : Bool :=
  match operator? word with
  | some (.binary _) => true
  | _ => false

/-- What the first of some words is: nothing, an operand or an operator. A word that takes an operand is
one itself if nothing follows it, or a binary operator with an operand. -/
inductive Lexeme where
  | nothing
  | operand
  | operator (o : Operator)
  deriving DecidableEq

def lex : List String → Lexeme
  | [] => .nothing
  | word :: rest =>
    let alone := match rest with
      | [] => true
      | [_] => false
      | next :: _ => isBinary next
    match operator? word with
    | some (.unary c) => if alone then .operand else .operator (.unary c)
    | some .opening => if rest = [] then .operand else .operator .opening
    | some o => .operator o
    | none => .operand

def number (word : String) : Except ConditionError Int :=
  let cs := Text.trim word.toList
  match Text.readDecimal? cs with
  | some n =>
    if n < Int64.minValue.toInt || Int64.maxValue.toInt < n then .error (.notNumber word) else .ok n
  | none => .error (.notNumber word)

def nodeIs (fs : FileSystem) (path : String) (p : Node → Bool) : Bool :=
  match fs.stat (.ofOctets path) with
  | .ok node => p node
  | .error _ => false

def unary (fs : FileSystem) (letter : Char) (operand : String) : Except ConditionError Bool :=
  match letter with
  | 'z' => .ok (operand = "")
  | 'n' => .ok (operand ≠ "")
  | 't' => (number operand).map fun _ => false
  | 'f' => .ok (nodeIs fs operand fun node => !node.isDir)
  | 'd' => .ok (nodeIs fs operand Node.isDir)
  | 's' => .ok (nodeIs fs operand fun
    | .dir _ => true
    | .file contents .. => contents.size ≠ 0)
  | 'x' => .ok (nodeIs fs operand fun
    | .dir _ => true
    | .file _ _ executable => executable)
  | 'e' | 'r' | 'w' | 'O' | 'G' => .ok (nodeIs fs operand fun _ => true)
  | _ => .ok false

def time? (fs : FileSystem) (path : String) : Option Time := (fs.stat (.ofOctets path)).toOption.map Node.modified

def binary (fs : FileSystem) (name left right : String) : Except ConditionError Bool :=
  let numeric (p : Int → Int → Bool) : Except ConditionError Bool := do
    return p (← number left) (← number right)
  let newer (a b : String) : Bool :=
    match time? fs a, time? fs b with
    | some s, some t => t < s
    | _, _ => false
  match name with
  | "=" => .ok (left = right)
  | "!=" => .ok (left ≠ right)
  | "<" => .ok (decide (left < right))
  | ">" => .ok (decide (right < left))
  | "-eq" => numeric (· == ·)
  | "-ne" => numeric (· != ·)
  | "-ge" => numeric (· ≥ ·)
  | "-gt" => numeric (· > ·)
  | "-le" => numeric (· ≤ ·)
  | "-lt" => numeric (· < ·)
  | "-nt" => .ok (newer left right)
  | "-ot" => .ok (newer right left)
  | _ =>
    .ok (match (fs.locate (.ofOctets left)).toOption, (fs.locate (.ofOctets right)).toOption with
      | some a, some b => a = b && (fs.node? a).isSome
      | _, _ => false)

/-- Whether words hold, and the words from the last one on that belongs to them. -/
abbrev Verdict := Except ConditionError (Bool × List String)

mutual

def any (fs : FileSystem) : (fuel : Nat) → List String → Verdict
  | 0, words => .ok (false, words)
  | fuel + 1, words =>
    match all fs fuel words with
    | .error e => .error e
    | .ok (holds, last) =>
      if lex last.tail = .operator .or then
        (any fs fuel (last.drop 2)).map fun (rest, last) => (holds || rest, last)
      else .ok (holds, last)

def all (fs : FileSystem) : (fuel : Nat) → List String → Verdict
  | 0, words => .ok (false, words)
  | fuel + 1, words =>
    match negation fs fuel words with
    | .error e => .error e
    | .ok (holds, last) =>
      if lex last.tail = .operator .and then
        (all fs fuel (last.drop 2)).map fun (rest, last) => (holds && rest, last)
      else .ok (holds, last)

def negation (fs : FileSystem) : (fuel : Nat) → List String → Verdict
  | 0, words => .ok (false, words)
  | fuel + 1, words =>
    if lex words = .operator .not then
      (if words.tail = [] then .ok (false, words) else negation fs fuel words.tail).map
        fun (holds, last) => (!holds, last)
    else primary fs fuel words

/-- A test, a condition in parentheses, or a word that must not be empty. -/
def primary (fs : FileSystem) : (fuel : Nat) → List String → Verdict
  | 0, words => .ok (false, words)
  | fuel + 1, words =>
    match lex words with
    | .nothing => .ok (false, words)
    | .operator .opening =>
      if lex words.tail = .operator .closing then .ok (false, words.tail)
      else match any fs fuel words.tail with
        | .error e => .error e
        | .ok (holds, last) =>
          if lex last.tail = .operator .closing then .ok (holds, last.tail) else .error .unclosed
    | .operator (.unary c) =>
      match words.tail with
      | [] => .error (.missingOperand (words.headD ""))
      | operand :: _ => (unary fs c operand).map (·, words.tail)
    | _ =>
      match lex words.tail, words with
      | .operator (.binary name), left :: _ :: right :: rest =>
        (binary fs name left right).map (·, right :: rest)
      | .operator (.binary name), _ => .error (.missingOperand name)
      | _, _ => .ok (words.headD "" ≠ "", words)

end

def whole (fs : FileSystem) (words : List String) : Except ConditionError Bool :=
  match any fs (4 * words.length + 8) words with
  | .error e => .error e
  | .ok (_, last :: _ :: _) => .error (.unexpected last)
  | .ok (holds, _) => .ok holds

/-- Two operands and an operator between them are a test, whatever the operands are. -/
def test3 (fs : FileSystem) (words : List String) : Option (Except ConditionError Bool) :=
  match words with
  | [left, name, right] => if isBinary name then some (binary fs name left right) else none
  | _ => none

/-- Whether the words of a condition hold. Parentheses and a negation around three or four words are
taken off first. -/
def holds (fs : FileSystem) : (fuel : Nat) → List String → Except ConditionError Bool
  | 0, _ => .ok false
  | fuel + 1, words =>
    match words with
    | [] => .ok false
    | first :: rest =>
      match test3 fs words with
      | some verdict => verdict
      | none =>
        if words.length = 3 || words.length = 4 then
          if first = "(" && words.getLast? = some ")" then whole fs rest.dropLast
          else if first = "!" then (holds fs fuel rest).map (!·)
          else whole fs words
        else whole fs words

end Condition

def Condition.unbracketed? (args : List String) : Option (List String) :=
  if args.getLast? = some "]" then some args.dropLast else none

def Condition.status (fs : FileSystem) (words : List String) : Except ConditionError Nat :=
  (holds fs (words.length + 1) words).map fun holds => if holds then 0 else 1

def Tool.test : Tool := fun c fs =>
  match Condition.status fs c.args with
  | .ok status => (.silent status, fs)
  | .error e => (c.fail 2 e.message, fs)

def Tool.bracket : Tool := fun c fs =>
  match Condition.unbracketed? c.args with
  | some args => test { c with args } fs
  | none => (c.fail 2 "missing ']'", fs)

end BaseLang
