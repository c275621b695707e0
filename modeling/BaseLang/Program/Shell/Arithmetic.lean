import BaseLang.Action
import BaseLang.Program.Escape
import BaseLang.Program.Shell.Script

/-!
# Arithmetic of scripts

* `ArithmeticError` : why an expression has no value, with its wording;
* `Arithmetic.number?` : a number in decimal, octal or hexadecimal digits;
* `Arithmetic.evaluate` : the value of an expression, and the variables that it sets.

Numbers have 64 bits. What is not evaluated, behind `&&`, `||` and `?`, is still read.
-/

namespace BaseLang.Shell

inductive ArithmeticError where
  | expected (what : String)
  | divisionByZero
  | notNumber (text : String)

def ArithmeticError.message (expression : String) : ArithmeticError → String
  | expected what => "arithmetic expression: expecting " ++ what ++ ": \"" ++ expression ++ "\""
  | divisionByZero => "arithmetic expression: division by zero: \"" ++ expression ++ "\""
  | notNumber text => s!"Illegal number: {text}"

namespace Arithmetic

inductive Symbol where
  | number (n : Int64)
  | name (s : String)
  | operator (s : String)
  | other

/-- The rest of an expression, and the variables that it has set. -/
structure State where
  symbols : List Symbol
  set : List (String × Int64)

abbrev Evaluation := Action State ArithmeticError

def greatest : Nat := Int64.maxValue.toNatClampNeg

/-- The digits of a number at the start of a text, as a number that is not too large, and what follows
them. -/
def splitNumber (cs : List Char) : Option (Nat × List Char) :=
  let (base, ds) := match cs with
    | '0' :: 'x' :: d :: ds | '0' :: 'X' :: d :: ds =>
      if (EscapeStyle.digit? d).isSome then (16, d :: ds) else (8, cs)
    | '0' :: _ => (8, cs)
    | _ => (10, cs)
  let found := EscapeStyle.digits base ds.length ds
  if found = [] then none else some (min greatest (EscapeStyle.value base found), ds.drop found.length)

def isSpace (c : Char) : Bool := c = ' ' || ('\t' ≤ c && c ≤ '\x0d')

/-- The number that a text spells, where none is zero. -/
def number? (text : String) : Option Int64 :=
  let cs := text.toList.dropWhile isSpace
  let (negative, cs) := match cs with
    | '-' :: cs => (true, cs)
    | '+' :: cs => (false, cs)
    | cs => (false, cs)
  match splitNumber cs with
  | some (n, rest) =>
    if rest.all isSpace then some (Int64.ofInt (if negative then -n else n)) else none
  | none => if text.toList.all isSpace then some 0 else none

/-- The operators, the longest ones first. -/
def operators : List String :=
  ["<<=", ">>=", "<<", ">>", "<=", ">=", "==", "!=", "&&", "||", "+=", "-=", "*=", "/=", "%=", "&=", "^=",
   "|=", "+", "-", "*", "/", "%", "<", ">", "=", "!", "~", "&", "|", "^", "?", ":", "(", ")"]

def symbols : (fuel : Nat) → List Char → List Symbol
  | 0, _ => []
  | _, [] => []
  | fuel + 1, c :: cs =>
    if isSpace c then symbols fuel cs
    else if c.isDigit then
      match splitNumber (c :: cs) with
      | some (n, rest) => .number (Int64.ofNat n) :: symbols fuel rest
      | none => [.other]
    else match splitName (c :: cs) with
      | ([], _) =>
        match operators.find? fun s => s.toList.isPrefixOf (c :: cs) with
        | some s => .operator s :: symbols fuel ((c :: cs).drop s.length)
        | none => [.other]
      | (name, rest) => .name (String.ofList name) :: symbols fuel rest

/-- Goes on behind an operator, if it is the next one. -/
def accept (s : String) : Evaluation Bool := fun st =>
  match st.symbols with
  | .operator t :: rest => if t = s then (.ok true, { st with symbols := rest }) else (.ok false, st)
  | _ => (.ok false, st)

def acceptAny (ss : List String) : Evaluation (Option String) := fun st =>
  match st.symbols with
  | .operator t :: rest =>
    if ss.contains t then (.ok (some t), { st with symbols := rest }) else (.ok none, st)
  | _ => (.ok none, st)

def ofBool (b : Bool) : Int64 := if b then 1 else 0

def apply (op : String) (a b : Int64) : Evaluation Int64 :=
  match op with
  | "+" => pure (a + b)
  | "-" => pure (a - b)
  | "*" => pure (a * b)
  | "/" => if b = 0 then throw .divisionByZero else pure (a / b)
  | "%" => if b = 0 then throw .divisionByZero else pure (a % b)
  | "<<" => pure (a <<< b)
  | ">>" => pure (a >>> b)
  | "<" => pure (ofBool (a < b))
  | ">" => pure (ofBool (b < a))
  | "<=" => pure (ofBool (a ≤ b))
  | ">=" => pure (ofBool (b ≤ a))
  | "==" => pure (ofBool (a = b))
  | "!=" => pure (ofBool (a ≠ b))
  | "&" => pure (a &&& b)
  | "^" => pure (a ^^^ b)
  | _ => pure (a ||| b)

def valueOf (lookup : String → Option String) (name : String) : Evaluation Int64 := do
  let st ← .query .ok
  match List.lookup name st.set with
  | some n => pure n
  | none =>
    let text := (lookup name).getD ""
    match number? text with
    | some n => pure n
    | none => throw (.notNumber text)

/-- The operators between numbers, those that bind least first. -/
def levels : List (List String) :=
  [["|"], ["^"], ["&"], ["==", "!="], ["<", ">", "<=", ">="], ["<<", ">>"], ["+", "-"], ["*", "/", "%"]]

def assigning : List String :=
  ["=", "+=", "-=", "*=", "/=", "%=", "<<=", ">>=", "&=", "^=", "|="]

mutual

def assignment (lookup : String → Option String) (active : Bool) : (fuel : Nat) → Evaluation Int64
  | 0 => pure 0
  | fuel + 1 => do
    let before ← .query .ok
    match before.symbols with
    | .name x :: rest =>
      Action.modify fun st => { st with symbols := rest }
      match ← acceptAny assigning with
      | some op =>
        let n ← assignment lookup active fuel
        if active then
          let n ← if op = "=" then pure n
            else do apply (String.ofList op.toList.dropLast) (← valueOf lookup x) n
          Action.modify fun st => { st with set := (x, n) :: st.set }
          return n
        else return n
      | none =>
        Action.modify fun _ => before
        choice lookup active fuel
    | _ => choice lookup active fuel

/-- One of two expressions, or a disjunction. -/
def choice (lookup : String → Option String) (active : Bool) : (fuel : Nat) → Evaluation Int64
  | 0 => pure 0
  | fuel + 1 => do
    let n ← disjunction lookup active fuel
    if ← accept "?" then
      let yes ← assignment lookup (active && n ≠ 0) fuel
      if !(← accept ":") then throw (.expected "':'")
      let no ← choice lookup (active && n = 0) fuel
      return if n ≠ 0 then yes else no
    else return n

def disjunction (lookup : String → Option String) (active : Bool) : (fuel : Nat) → Evaluation Int64
  | 0 => pure 0
  | fuel + 1 => do
    let a ← conjunction lookup active fuel
    if ← accept "||" then
      let b ← disjunction lookup (active && a = 0) fuel
      return ofBool (a ≠ 0 || b ≠ 0)
    else return a

def conjunction (lookup : String → Option String) (active : Bool) : (fuel : Nat) → Evaluation Int64
  | 0 => pure 0
  | fuel + 1 => do
    let a ← binary lookup active levels fuel
    if ← accept "&&" then
      let b ← conjunction lookup (active && a ≠ 0) fuel
      return ofBool (a ≠ 0 && b ≠ 0)
    else return a

def binary (lookup : String → Option String) (active : Bool) (ls : List (List String)) :
    (fuel : Nat) → Evaluation Int64
  | 0 => pure 0
  | fuel + 1 => do
    match ls with
    | [] => primary lookup active fuel
    | ops :: tighter => behind lookup active ops tighter (← binary lookup active tighter fuel) fuel

def behind (lookup : String → Option String) (active : Bool) (ops : List String)
    (tighter : List (List String)) (a : Int64) : (fuel : Nat) → Evaluation Int64
  | 0 => pure a
  | fuel + 1 => do
    match ← acceptAny ops with
    | some op =>
      let b ← binary lookup active tighter fuel
      behind lookup active ops tighter (← if active then apply op a b else pure b) fuel
    | none => return a

/-- A number, a variable, an expression in parentheses, or one of these behind a sign. -/
def primary (lookup : String → Option String) (active : Bool) : (fuel : Nat) → Evaluation Int64
  | 0 => pure 0
  | fuel + 1 => do
    let st ← .query .ok
    Action.modify fun st => { st with symbols := st.symbols.tail }
    match st.symbols with
    | .number n :: _ => return n
    | .name x :: _ => if active then valueOf lookup x else return 0
    | .operator "(" :: _ =>
      let n ← assignment lookup active fuel
      if !(← accept ")") then throw (.expected "')'")
      return n
    | .operator "+" :: _ => primary lookup active fuel
    | .operator "-" :: _ => return -(← primary lookup active fuel)
    | .operator "!" :: _ => return ofBool ((← primary lookup active fuel) = 0)
    | .operator "~" :: _ => return ~~~(← primary lookup active fuel)
    | _ => throw (.expected "primary")

end

/-- The value of an expression, and the variables that it sets, the last one first. -/
def evaluate (lookup : String → Option String) (expression : String) :
    Except ArithmeticError (Int64 × List (String × Int64)) :=
  let cs := expression.toList
  match (assignment lookup true (16 * cs.length + 64)).run ⟨symbols cs.length cs, []⟩ with
  | (.ok n, ⟨[], set⟩) => .ok (n, set)
  | (.ok _, _) => .error (.expected "EOF")
  | (.error e, _) => .error e

end Arithmetic

end BaseLang.Shell
