import BaseLang.Text.Decimal
import BaseLang.Toml.Value

/-!
# Scalars of TOML

Readers take a text and return what they have read together with the rest of the text.

* `basicBody`, `literalBody` : strings on one line, in double and in single quotes;
* `multilineBasicBody`, `multilineLiteralBody` : strings over several lines;
* `stringLiteral` : any string that may stand as a value;
* `bareScalar` : a boolean, number or date, given as its whole text.
-/

namespace BaseLang.Toml

/-- What has been read, and the rest of the text. -/
abbrev Read (α : Type) := Option (α × List Char)

/-- Characters that a string or comment may not hold as they are. -/
def isControl (c : Char) : Bool := (c.toNat < 0x20 && c != '\t') || c.toNat == 0x7f

/-! ## Strings -/

def hexDigit? (c : Char) : Option Nat :=
  if c.isDigit then some (c.toNat - '0'.toNat)
  else if 'a' ≤ c && c ≤ 'f' then some (c.toNat - 'a'.toNat + 10)
  else if 'A' ≤ c && c ≤ 'F' then some (c.toNat - 'A'.toNat + 10)
  else none

/-- The character with a code point, unless that is a surrogate or too large. -/
def scalarValue? (n : Nat) : Option Char :=
  if n < 0xd800 || (0xe000 ≤ n && n < 0x110000) then some (Char.ofNat n) else none

/-- The character whose code point the first `count` characters spell. -/
def unicodeEscape (count : Nat) (cs : List Char) : Option Char :=
  if cs.length < count then none
  else ((cs.take count).mapM hexDigit?).bind fun ds =>
    scalarValue? (ds.foldl (fun n d => n * 16 + d) 0)

/-- The character that a backslash before `c` and `cs` stands for, and how many characters behind `c`
it takes. -/
def escaped (c : Char) (cs : List Char) : Option (Char × Nat) :=
  match c with
  | 'b' => some ('\x08', 0)
  | 't' => some ('\t', 0)
  | 'n' => some ('\n', 0)
  | 'f' => some ('\x0c', 0)
  | 'r' => some ('\r', 0)
  | 'e' => some ('\x1b', 0)
  | '"' => some ('"', 0)
  | '\\' => some ('\\', 0)
  | 'x' => (unicodeEscape 2 cs).map (·, 2)
  | 'u' => (unicodeEscape 4 cs).map (·, 4)
  | 'U' => (unicodeEscape 8 cs).map (·, 8)
  | _ => none

def readCons (c : Char) (r : Read (List Char)) : Read (List Char) :=
  r.map fun (text, rest) => (c :: text, rest)

/-- A string in double quotes, behind its opening quote and the `skip` characters of an escape. -/
def basicBody : (skip : Nat) → List Char → Read (List Char)
  | _, [] => none
  | skip + 1, _ :: cs => basicBody skip cs
  | 0, '"' :: cs => some ([], cs)
  | 0, '\\' :: cs =>
    match cs with
    | [] => none
    | c :: rest => (escaped c rest).bind fun (d, n) => readCons d (basicBody (n + 1) cs)
  | 0, c :: cs => if isControl c then none else readCons c (basicBody 0 cs)

/-- A string in single quotes, behind its opening quote. -/
def literalBody : List Char → Read (List Char)
  | [] => none
  | '\'' :: cs => some ([], cs)
  | c :: cs => if isControl c then none else readCons c (literalBody cs)

/-- The quotes at the end of a string over several lines: three of them close it, and one or two more
in front of these belong to it. Gives the quotes that belong to the string and those read. -/
def closing (quote : Char) (cs : List Char) : Option (Nat × Nat) :=
  let run := min 5 (cs.takeWhile (· = quote)).length
  if run < 3 then none else some (run - 3, run)

/-- The number of blanks and characters of line ends that a text starts with. -/
def blankLines : List Char → Nat
  | ' ' :: cs | '\t' :: cs | '\n' :: cs => blankLines cs + 1
  | '\r' :: '\n' :: cs => blankLines cs + 2
  | _ => 0

/-- How many characters a backslash at the end of a line passes over, if only blanks follow it there:
all blanks and line ends up to the next text. -/
def lineContinuation (cs : List Char) : Option Nat :=
  let blanks := (cs.takeWhile fun c => c = ' ' || c = '\t').length
  match cs.drop blanks with
  | '\n' :: _ | '\r' :: '\n' :: _ => some (blankLines cs)
  | _ => none

/-- A string between three double quotes, behind those that open it. -/
def multilineBasicBody : (skip : Nat) → List Char → Read (List Char)
  | _, [] => none
  | skip + 1, _ :: cs => multilineBasicBody skip cs
  | 0, c :: cs =>
    if c = '"' then
      match closing '"' (c :: cs) with
      | some (own, run) => some (List.replicate own '"', cs.drop (run - 1))
      | none => readCons c (multilineBasicBody 0 cs)
    else if c = '\\' then
      match lineContinuation cs with
      | some n => multilineBasicBody n cs
      | none =>
        match cs with
        | [] => none
        | d :: rest => (escaped d rest).bind fun (e, n) => readCons e (multilineBasicBody (n + 1) cs)
    else if c = '\n' then readCons c (multilineBasicBody 0 cs)
    else if c = '\r' then
      if cs.head? = some '\n' then readCons c (multilineBasicBody 0 cs) else none
    else if isControl c then none
    else readCons c (multilineBasicBody 0 cs)

/-- A string between three single quotes, behind those that open it. -/
def multilineLiteralBody : List Char → Read (List Char)
  | [] => none
  | c :: cs =>
    if c = '\'' then
      match closing '\'' (c :: cs) with
      | some (own, run) => some (List.replicate own '\'', cs.drop (run - 1))
      | none => readCons c (multilineLiteralBody cs)
    else if c = '\n' then readCons c (multilineLiteralBody cs)
    else if c = '\r' then
      if cs.head? = some '\n' then readCons c (multilineLiteralBody cs) else none
    else if isControl c then none
    else readCons c (multilineLiteralBody cs)

/-- A text without the line end that it may start with. -/
def dropNewline : List Char → List Char
  | '\n' :: cs => cs
  | '\r' :: '\n' :: cs => cs
  | cs => cs

def stringLiteral : List Char → Read (List Char)
  | '"' :: '"' :: '"' :: cs => multilineBasicBody 0 (dropNewline cs)
  | '\'' :: '\'' :: '\'' :: cs => multilineLiteralBody (dropNewline cs)
  | '"' :: cs => basicBody 0 cs
  | '\'' :: cs => literalBody cs
  | _ => none

/-! ## Numbers -/

/-- Digits with single underscores between them: the digits alone, if there is at least one. -/
def separated (isDigit : Char → Bool) (cs : List Char) : Option (List Char) :=
  let parts := (cs.splitBy fun a b => a != '_' && b != '_').filter (· ≠ ['_'])
  let underscores := cs.countP (· = '_')
  if cs ≠ [] && (cs.all fun c => isDigit c || c = '_') && parts.length = underscores + 1 then
    some parts.flatten
  else none

/-- Decimal digits of a number: no zero in front of other digits. -/
def decimalDigits (cs : List Char) : Option (List Char) :=
  match separated Char.isDigit cs with
  | some ('0' :: _ :: _) | none => none
  | some ds => some ds

def radixValue (base : Nat) (cs : List Char) : Option Nat :=
  let isDigit c := match hexDigit? c with
    | some d => d < base
    | none => false
  (separated isDigit cs).map fun ds => ds.foldl (fun n c => n * base + (hexDigit? c).getD 0) 0

def signed : List Char → Bool × List Char
  | '-' :: cs => (true, cs)
  | '+' :: cs => (false, cs)
  | cs => (false, cs)

/-- An integer of at most 128 bits. -/
def integer? (cs : List Char) : Option Int :=
  let value := match cs with
    | '0' :: 'x' :: ds => (radixValue 16 ds).map Int.ofNat
    | '0' :: 'o' :: ds => (radixValue 8 ds).map Int.ofNat
    | '0' :: 'b' :: ds => (radixValue 2 ds).map Int.ofNat
    | _ =>
      let (negative, ds) := signed cs
      (decimalDigits ds).map fun ds =>
        let n := (Nat.ofDigitChars 10 ds 0 : Int)
        if negative then -n else n
  value.filter fun n => -(Nat.pow 2 127 : Int) ≤ n && n < Nat.pow 2 128

def exponent? (cs : List Char) : Option Int :=
  (separated Char.isDigit (signed cs).2).map fun ds =>
    if (signed cs).1 then -(Nat.ofDigitChars 10 ds 0 : Int) else Nat.ofDigitChars 10 ds 0

/-- A number with a fraction, an exponent or both: its digits, and the power of ten that the last of
them counts. -/
def decimal? (cs : List Char) : Option (List Char × Int) :=
  let mantissa := cs.takeWhile fun c => c != 'e' && c != 'E'
  let exponent := cs.drop mantissa.length
  let whole := mantissa.takeWhile (· != '.')
  let fraction := mantissa.drop whole.length
  match decimalDigits whole,
      (if fraction = [] then some [] else separated Char.isDigit fraction.tail),
      (if exponent = [] then some 0 else exponent? exponent.tail) with
  | some ds, some fs, some e =>
    if fraction = [] && exponent = [] then none else some (ds ++ fs, e - fs.length)
  | _, _, _ => none

/-- The least number that is too large for a binary number of double precision: it lies halfway between
the largest of these and the next power of two. -/
def floatBound : Nat := Nat.pow 2 1024 - Nat.pow 2 970

/-- Whether digits that count a power of ten give a number that is too large. The bound has 309 digits,
so it is only compared with numbers that have as many. -/
def overflows (digits : List Char) (power : Int) : Bool :=
  let ds := digits.dropWhile (· = '0')
  let places := ds.length + power
  let n := Nat.ofDigitChars 10 ds 0
  ds ≠ [] && (309 < places
    || (places = 309 && floatBound * Nat.pow 10 (-power).toNat ≤ n * Nat.pow 10 power.toNat))

/-- A number with a fraction, an exponent or both, or one of the special values. -/
def isFloat (cs : List Char) : Bool :=
  let ds := (signed cs).2
  ds = ['i', 'n', 'f'] || ds = ['n', 'a', 'n'] ||
    match decimal? ds with
    | some (digits, power) => !overflows digits power
    | none => false

/-! ## Dates -/

def digits? (count : Nat) (cs : List Char) : Option Nat :=
  if cs.length = count then Text.readDigits? cs else none

def daysIn (year month : Nat) : Nat :=
  if month = 2 then if (year % 4 = 0 && year % 100 ≠ 0) || year % 400 = 0 then 29 else 28
  else if month = 4 || month = 6 || month = 9 || month = 11 then 30
  else 31

/-- A date such as `1979-05-27`. -/
def isDate (cs : List Char) : Bool :=
  match digits? 4 (cs.take 4), digits? 2 ((cs.drop 5).take 2), digits? 2 (cs.drop 8) with
  | some year, some month, some day =>
    cs[4]? = some '-' && cs[7]? = some '-' && 1 ≤ month && month ≤ 12 && 1 ≤ day
      && day ≤ daysIn year month
  | _, _, _ => false

/-- The seconds of a time, with a fraction or without. -/
def isSeconds (cs : List Char) : Bool :=
  match digits? 2 (cs.take 2), cs.drop 2 with
  | some second, [] => second ≤ 60
  | some second, '.' :: ds => second ≤ 60 && (Text.readDigits? ds).isSome
  | _, _ => false

/-- A time such as `07:32:00.999`, or `07:32` without seconds. -/
def isTime (cs : List Char) : Bool :=
  match digits? 2 (cs.take 2), digits? 2 ((cs.drop 3).take 2) with
  | some hour, some minute =>
    cs[2]? = some ':' && hour ≤ 23 && minute ≤ 59
      && match cs.drop 5 with
        | [] => true
        | ':' :: rest => isSeconds rest
        | _ => false
  | _, _ => false

/-- An offset such as `Z` or `-07:00`. -/
def isOffset : List Char → Bool
  | ['Z'] | ['z'] => true
  | sign :: cs =>
    match digits? 2 (cs.take 2), digits? 2 (cs.drop 3) with
    | some hour, some minute =>
      (sign = '+' || sign = '-') && cs[2]? = some ':' && hour ≤ 23 && minute ≤ 59
    | _, _ => false
  | [] => false

/-- A date, a time, or both with an optional offset. -/
def isDateTime (cs : List Char) : Bool :=
  isDate cs || isTime cs
    || (match cs.drop 10 with
      | mark :: rest =>
        let time := rest.takeWhile fun c => c.isDigit || c = ':' || c = '.'
        let offset := rest.drop time.length
        (mark = 'T' || mark = 't' || mark = ' ') && isDate (cs.take 10) && isTime time
          && (offset = [] || isOffset offset)
      | [] => false)

/-! ## Scalars without quotes -/

def scalar? (cs : List Char) : Option Value :=
  if cs = "true".toList then some (.boolean true)
  else if cs = "false".toList then some (.boolean false)
  else match integer? cs with
    | some n => some (.integer n)
    | none => if isFloat cs then some .float else if isDateTime cs then some .date else none

def isScalarChar (c : Char) : Bool :=
  c.isAlphanum || c = '+' || c = '-' || c = '_' || c = '.' || c = ':'

/-- A scalar without quotes. A date may have one blank before its time. -/
def bareScalar (cs : List Char) : Read Value :=
  let word := cs.takeWhile isScalarChar
  let rest := cs.drop word.length
  match rest with
  | ' ' :: d :: _ =>
    let time := rest.tail.takeWhile isScalarChar
    if isDate word && d.isDigit then
      (scalar? (word ++ ' ' :: time)).map (·, rest.drop (time.length + 1))
    else (scalar? word).map (·, rest)
  | _ => (scalar? word).map (·, rest)

end BaseLang.Toml
