import BaseLang.Toml.Scalar

/-!
# TOML documents

* `Toml.value` : a value; the length of the text bounds the fuel that it takes;
* `Toml.dottedKey` : a key with dots, as its names;
* `Toml.parse?` : the entries of a whole document, or none if it is not well-formed.
-/

namespace BaseLang.Toml

/-! ## Blanks and comments -/

def skipBlanks (cs : List Char) : List Char := cs.dropWhile fun c => c = ' ' || c = '\t'

/-- A text without the comment that it may start with, unless that holds a control character. -/
def skipComment : List Char → Option (List Char)
  | '#' :: cs =>
    let comment := cs.takeWhile fun c => c ≠ '\n'
    let body := if (cs.drop comment.length) ≠ [] && comment.getLast? = some '\r' then comment.dropLast
      else comment
    if body.any isControl then none else some (cs.drop body.length)
  | cs => some cs

/-- A text behind the end of its first line, where only blanks and a comment may stand before it. -/
def endLine (cs : List Char) : Option (List Char) :=
  match skipComment (skipBlanks cs) with
  | some [] => some []
  | some ('\n' :: cs) => some cs
  | some ('\r' :: '\n' :: cs) => some cs
  | _ => none

/-- A text without the blanks, comments and line ends that it starts with. -/
def skipLines : (fuel : Nat) → List Char → Option (List Char)
  | 0, cs => some cs
  | fuel + 1, cs =>
    match skipBlanks cs with
    | '\n' :: cs => skipLines fuel cs
    | '\r' :: '\n' :: cs => skipLines fuel cs
    | '#' :: cs => (skipComment ('#' :: cs)).bind (skipLines fuel)
    | cs => some cs

/-! ## Keys -/

def isBareKey (c : Char) : Bool := c.isAlphanum || c = '_' || c = '-'

def simpleKey (cs : List Char) : Read String :=
  match cs with
  | '"' :: cs => (basicBody 0 cs).map fun (name, rest) => (String.ofList name, rest)
  | '\'' :: cs => (literalBody cs).map fun (name, rest) => (String.ofList name, rest)
  | _ =>
    let name := cs.takeWhile isBareKey
    if name = [] then none else some (String.ofList name, cs.drop name.length)

/-- The most names that a key has, and the most arrays and inline tables that a value lies in. -/
def maxDepth : Nat := 80

/-- The names of a key, at most `count` of them, with the blanks behind it. -/
def names : (count : Nat) → List Char → Read (List String)
  | 0, _ => none
  | count + 1, cs =>
    match simpleKey (skipBlanks cs) with
    | none => none
    | some (name, rest) =>
      match skipBlanks rest with
      | '.' :: rest => (names count rest).map fun (others, rest) => (name :: others, rest)
      | rest => some ([name], rest)

def dottedKey (cs : List Char) : Read (List String) := names maxDepth cs

/-- The last of the names of a key, and those before it. -/
def splitKey (key : List String) : List String × String := (key.dropLast, key.getLast?.getD "")

/-! ## Values -/

mutual

/-- A value with at most `depth` arrays and inline tables in one another. -/
def value : (fuel depth : Nat) → List Char → Read Value
  | 0, _, _ => none
  | fuel + 1, depth, cs =>
    match cs, depth with
    | '[' :: _, 0 | '{' :: _, 0 => none
    | '[' :: cs, depth + 1 => (elements fuel depth cs).map fun (elems, rest) => (.array elems, rest)
    | '{' :: cs, depth + 1 =>
      (inlineEntries fuel depth [] cs).map fun (es, rest) => (.table (finishEntries es), rest)
    | '"' :: _, _ | '\'' :: _, _ =>
      (stringLiteral cs).map fun (text, rest) => (.string (String.ofList text), rest)
    | _, _ => bareScalar cs

/-- The elements of an array, behind its opening bracket or a comma. -/
def elements : (fuel depth : Nat) → List Char → Read (List Value)
  | 0, _, _ => none
  | fuel + 1, depth, cs =>
    match skipLines fuel cs with
    | none => none
    | some (']' :: rest) => some ([], rest)
    | some cs =>
      match value fuel depth cs with
      | none => none
      | some (v, rest) =>
        match skipLines fuel rest with
        | some (']' :: rest) => some ([v], rest)
        | some (',' :: rest) => (elements fuel depth rest).map fun (vs, rest) => (v :: vs, rest)
        | _ => none

/-- The entries of an inline table, behind its opening brace or a comma and the entries in `before`, up
to its closing brace. -/
def inlineEntries : (fuel depth : Nat) → (before : Entries) → List Char → Read Entries
  | 0, _, _, _ => none
  | fuel + 1, depth, before, cs =>
    match skipLines fuel cs with
    | none => none
    | some ('}' :: rest) => some (before, rest)
    | some cs =>
      match inlineEntry fuel depth before cs with
      | none => none
      | some (es, rest) =>
        match skipLines fuel rest with
        | some ('}' :: rest) => some (es, rest)
        | some (',' :: rest) => inlineEntries fuel depth es rest
        | _ => none

/-- One entry of an inline table, put behind those in `before`. Line ends and comments may stand around
the equals sign. -/
def inlineEntry : (fuel depth : Nat) → (before : Entries) → List Char → Read Entries
  | 0, _, _, _ => none
  | fuel + 1, depth, before, cs =>
    match dottedKey cs with
    | none => none
    | some (key, rest) =>
      match skipLines fuel rest with
      | some ('=' :: rest) =>
        match (skipLines fuel rest).bind (value fuel depth) with
        | none => none
        | some (v, rest) =>
          (define (splitKey key).1 (splitKey key).2 v before).map fun es => (es, rest)
      | _ => none

end

/-! ## Documents -/

/-- A document read so far: its entries, and the path of the table that keys are put into. -/
structure Progress where
  entries : Entries
  table : List String

/-- A table header with its closing brackets removed by `close`, opened by `make`. -/
def header (p : Progress) (close : List Char)
    (make : List String → String → Entries → Option Entries) (cs : List Char) : Read Progress :=
  match dottedKey cs with
  | none => none
  | some (key, rest) =>
    if close.isPrefixOf rest then
      match make (splitKey key).1 (splitKey key).2 p.entries, endLine (rest.drop close.length) with
      | some es, some rest => some (⟨es, key⟩, rest)
      | _, _ => none
    else none

def keyValue (fuel : Nat) (p : Progress) (cs : List Char) : Read Progress :=
  match dottedKey cs with
  | some (key, '=' :: rest) =>
    match value fuel maxDepth (skipBlanks rest) with
    | none => none
    | some (v, rest) =>
      match inTable p.table (define (splitKey key).1 (splitKey key).2 v) p.entries,
          endLine rest with
      | some es, some rest => some (⟨es, p.table⟩, rest)
      | _, _ => none
  | _ => none

/-- A header or a key with its value. -/
def expression (fuel : Nat) (p : Progress) (cs : List Char) : Read Progress :=
  match cs with
  | '[' :: '[' :: cs => header p [']', ']'] openElement cs
  | '[' :: cs => header p [']'] openTable cs
  | cs => keyValue fuel p cs

def expressions : (fuel : Nat) → Progress → List Char → Option Progress
  | 0, _, _ => none
  | fuel + 1, p, cs =>
    match skipLines fuel cs with
    | none => none
    | some [] => some p
    | some cs => (expression fuel p cs).bind fun (p, rest) => expressions fuel p rest

/-- The entries of a document. Each step takes at least one character, so the length of the text
bounds them all. -/
def parse? (text : String) : Option (List (String × Value)) :=
  let cs := match text.toList with
    | '\ufeff' :: cs => cs
    | cs => cs
  (expressions (cs.length + 2) ⟨[], []⟩ cs).map fun p => finishEntries p.entries

end BaseLang.Toml
