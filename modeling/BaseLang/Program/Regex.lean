import BaseLang.Program.Pattern

/-!
# Regular expressions

* `Regex` : what an expression asks of a text;
* `Regex.parse?` : the expression that a text spells, in the basic or the extended form;
* `Regex.find?` : the first and longest part of a text that an expression accepts, with its groups.
-/

namespace BaseLang

inductive Regex where
  | empty
  | one (negated : Bool) (ranges : List (Char × Char))
  | start
  | stop
  | wordEdge (here : Bool)
  | again (group : Nat)
  | group (number : Nat) (r : Regex)
  | both (r s : Regex)
  | either (r s : Regex)
  | repeated (least : Nat) (most : Option Nat) (r : Regex)
  deriving Inhabited

namespace Regex

/-! ## Reading -/

/-- A regular expression, the number of the groups in it and before it, and the rest of the text. -/
abbrev Parsed := Regex × Nat × List Char

def follow : Regex → Regex → Regex
  | empty, s => s
  | r, empty => r
  | r, s => both r s

def char (c : Char) : Regex := one false [(c, c)]

def wordRanges : List (Char × Char) := [('a', 'z'), ('A', 'Z'), ('0', '9'), ('_', '_')]

def spaceRanges : List (Char × Char) := [(' ', ' '), ('\t', '\x0d')]

/-- The expression of a backslash and a character, if it is not an operator. -/
def escaped (c : Char) : Regex :=
  match c with
  | 'w' => one false wordRanges
  | 'W' => one true wordRanges
  | 's' => one false spaceRanges
  | 'S' => one true spaceRanges
  | 'b' | '<' | '>' => wordEdge true
  | 'B' => wordEdge false
  | 'n' => char '\n'
  | 't' => char '\t'
  | '\x60' => start
  | '\'' => stop
  | c => if c.isDigit && c ≠ '0' then again (c.toNat - '0'.toNat) else char c

/-- The bounds between braces, with the rest behind them. -/
def bounds? (extended : Bool) (cs : List Char) : Option (Nat × Option Nat × List Char) :=
  let lo := cs.takeWhile Char.isDigit
  let cs := cs.drop lo.length
  let n := Nat.ofDigitChars 10 lo 0
  let close (cs : List Char) : Option (List Char) :=
    match extended, cs with
    | true, '\x7d' :: rest => some rest
    | false, '\\' :: '\x7d' :: rest => some rest
    | _, _ => none
  match cs with
  | ',' :: cs =>
    let hi := cs.takeWhile Char.isDigit
    (close (cs.drop hi.length)).map fun rest =>
      (n, if hi = [] then none else some (Nat.ofDigitChars 10 hi 0), rest)
  | _ => if lo = [] then none else (close cs).map fun rest => (n, some n, rest)

def repetition? (extended : Bool) (cs : List Char) : Option (Nat × Option Nat × List Char) :=
  match extended, cs with
  | _, '*' :: rest => some (0, none, rest)
  | true, '+' :: rest | false, '\\' :: '+' :: rest => some (1, none, rest)
  | true, '?' :: rest | false, '\\' :: '?' :: rest => some (0, some 1, rest)
  | true, '\x7b' :: rest | false, '\\' :: '\x7b' :: rest => bounds? extended rest
  | _, _ => none

def repeats (extended : Bool) : (fuel : Nat) → Regex → List Char → Regex × List Char
  | 0, r, cs => (r, cs)
  | fuel + 1, r, cs =>
    match repetition? extended cs with
    | some (lo, hi, rest) => repeats extended fuel (repeated lo hi r) rest
    | none => (r, cs)

def endsBranch (extended : Bool) (depth : Nat) (cs : List Char) : Bool :=
  match extended, cs with
  | _, [] => true
  | true, '|' :: _ => true
  | true, ')' :: _ => 0 < depth
  | false, '\\' :: '|' :: _ => true
  | false, '\\' :: ')' :: _ => 0 < depth
  | _, _ => false

mutual

def branches (extended : Bool) : (fuel depth groups : Nat) → List Char → Option Parsed
  | 0, _, _, _ => none
  | fuel + 1, depth, groups, cs =>
    match pieces extended fuel depth groups true cs with
    | none => none
    | some (r, groups, rest) =>
      let behind := match extended, rest with
        | true, '|' :: rest | false, '\\' :: '|' :: rest => some rest
        | _, _ => none
      match behind with
      | some rest =>
        (branches extended fuel depth groups rest).map fun (s, groups, rest) => (either r s, groups, rest)
      | none => some (r, groups, rest)

def pieces (extended : Bool) : (fuel depth groups : Nat) → (first : Bool) → List Char → Option Parsed
  | 0, _, _, _, _ => none
  | fuel + 1, depth, groups, first, cs =>
    if endsBranch extended depth cs then some (empty, groups, cs)
    else match atom extended fuel depth groups first cs with
      | none => none
      | some (r, groups, rest) =>
        let (r, rest) := match r with
          | start => (r, rest)
          | _ => repeats extended rest.length r rest
        (pieces extended fuel depth groups (first && r matches start) rest).map
          fun (s, groups, rest) => (follow r s, groups, rest)

/-- One piece without the repetitions behind it. -/
def atom (extended : Bool) : (fuel depth groups : Nat) → (first : Bool) → List Char → Option Parsed
  | 0, _, _, _, _ => none
  | fuel + 1, depth, groups, first, cs =>
    let inside (rest : List Char) : Option Parsed :=
      match branches extended fuel (depth + 1) (groups + 1) rest with
      | some (r, n, rest) =>
        match extended, rest with
        | true, ')' :: rest | false, '\\' :: ')' :: rest => some (group (groups + 1) r, n, rest)
        | _, _ => none
      | none => none
    match cs with
    | [] => none
    | '[' :: rest =>
      (Pattern.class? (rest.map fun c => (c, c = '\\'))).bind fun
        | (.oneOf negated ranges, rest) => some (one negated ranges, groups, rest.map Prod.fst)
        | _ => none
    | '.' :: rest => some (one true [], groups, rest)
    | '^' :: rest => if extended || first then some (start, groups, rest) else some (char '^', groups, rest)
    | '$' :: rest =>
      if extended || endsBranch extended depth rest then some (stop, groups, rest)
      else some (char '$', groups, rest)
    | '(' :: rest => if extended then inside rest else some (char '(', groups, rest)
    | '\\' :: '(' :: rest => if extended then some (char '(', groups, rest) else inside rest
    | '\\' :: c :: rest => some (escaped c, groups, rest)
    | ['\\'] => none
    | c :: rest => some (char c, groups, rest)

end

def parse? (extended : Bool) (text : String) : Option Regex :=
  let cs := text.toList
  match branches extended (4 * cs.length + 8) 0 0 cs with
  | some (r, _, []) => some r
  | _ => none

def ofText (text : String) : Regex := text.toList.foldr (fun c r => follow (char c) r) empty

/-! ## Finding -/

/-- A place in a text: what stands before it backwards, what follows, and the groups found. -/
structure Place where
  before : List Char
  after : List Char
  groups : List (Nat × List Char)

def isWord (c : Char) : Bool := c.isAlphanum || c = '_'

def Place.isEdge (p : Place) : Bool := (p.before.head?.any isWord) != (p.after.head?.any isWord)

def Place.next? (p : Place) : Option Place :=
  match p.after with
  | [] => none
  | c :: after => some { p with before := c :: p.before, after }

def Place.upTo (p q : Place) : List Char := p.after.take (p.after.length - q.after.length)

def otherCase (c : Char) : Char := if c.isUpper then c.toLower else c.toUpper

def oneAccepts (ignoreCase negated : Bool) (ranges : List (Char × Char)) (c : Char) : Bool :=
  let within (c : Char) := ranges.any fun r => r.1 ≤ c && c ≤ r.2
  (within c || (ignoreCase && within (otherCase c))) != negated

/-- The places behind the parts of a text that an expression accepts from a place on, each of them once,
those of longer repetitions first. -/
def ends (ignoreCase : Bool) : (fuel : Nat) → Regex → Place → List Place
  | 0, _, _ => []
  | fuel + 1, r, p =>
    match r with
    | empty => [p]
    | one negated ranges =>
      match p.after with
      | c :: _ => if oneAccepts ignoreCase negated ranges c then p.next?.toList else []
      | [] => []
    | start => if p.before = [] then [p] else []
    | stop => if p.after = [] then [p] else []
    | wordEdge here => if p.isEdge = here then [p] else []
    | again n =>
      let word := (List.lookup n p.groups).getD []
      if word.isPrefixOf p.after then
        [{ p with before := word.reverse ++ p.before, after := p.after.drop word.length }]
      else []
    | group n r =>
      (ends ignoreCase fuel r p).map fun q => { q with groups := (n, p.upTo q) :: q.groups }
    | both r s => (ends ignoreCase fuel r p).flatMap (ends ignoreCase fuel s)
    | either r s => ends ignoreCase fuel r p ++ ends ignoreCase fuel s p
    | repeated lo hi r =>
      let further : List Place :=
        if hi = some 0 then []
        else
          ((ends ignoreCase fuel r p).filter fun q => q.after.length < p.after.length || 0 < lo).flatMap
            (ends ignoreCase fuel (repeated (lo - 1) (hi.map (· - 1)) r))
      if lo = 0 then further ++ [p] else further

def longest : List Place → Option Place
  | [] => none
  | p :: ps =>
    match longest ps with
    | some q => if q.after.length < p.after.length then some q else some p
    | none => some p

/-- The first and longest part that an expression accepts from a place on: where it starts and ends. -/
def search (ignoreCase : Bool) (r : Regex) : (fuel : Nat) → Place → Option (Place × Place)
  | 0, _ => none
  | fuel + 1, p =>
    match longest (ends ignoreCase (4 * p.after.length + 200) r p) with
    | some q => some (p, q)
    | none => p.next?.bind (search ignoreCase r fuel)

/-- The first and longest part of a text that an expression accepts. -/
def find? (r : Regex) (ignoreCase : Bool) (p : Place) : Option (Place × Place) :=
  search ignoreCase r (p.after.length + 1) p

def Place.ofText (cs : List Char) : Place := ⟨[], cs, []⟩

/-- Whether an expression accepts some part of a text. -/
def accepts (r : Regex) (ignoreCase : Bool) (cs : List Char) : Bool :=
  (find? r ignoreCase (.ofText cs)).isSome

end Regex

end BaseLang
