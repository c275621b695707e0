import BaseLang.Program
import BaseLang.Program.Escape
import BaseLang.Text.Decimal

/-!
# Formatted output

* `Directive` : a part of a format that takes an argument, with its flags, width and precision;
* `Format.write` : what a format makes of arguments, with complaints about them;
* `Tool.printf`, `Tool.echo` : the programs that write their arguments.
-/

namespace BaseLang

/-- The wording and the escapes of a program that writes formats. -/
structure FormatStyle where
  escapes : EscapeStyle
  arguments : EscapeStyle
  notNumeric : String → String
  notAllNumeric : String → String
  outOfRange : String → String
  invalid : String → String
  invalidStatus : Nat

namespace FormatStyle

def shell : FormatStyle where
  escapes := .shellFormat
  arguments := .shellText
  notNumeric arg := s!"{arg}: expected numeric value"
  notAllNumeric arg := s!"{arg}: not completely converted"
  outOfRange arg := s!"{arg}: Numerical result out of range"
  invalid directive := s!"{directive}: invalid directive"
  invalidStatus := 2

def program : FormatStyle where
  escapes := .format
  arguments := .text
  notNumeric arg := s!"'{arg}': expected a numeric value"
  notAllNumeric arg := s!"'{arg}': value not completely converted"
  outOfRange arg := s!"'{arg}': Numerical result out of range"
  invalid directive := s!"{directive}: invalid conversion specification"
  invalidStatus := 1

end FormatStyle

/-- A part of a format that takes an argument. -/
structure Directive where
  flags : List Char
  width : Nat
  precision : Option Nat
  conversion : Char

/-- What has been written so far, the complaints, the status, and the arguments that are left. -/
structure Formatted where
  text : List Char
  complaints : List String
  status : Nat
  args : List String
  ended : Bool

namespace Format

/-! ## Numbers -/

/-- An integer in decimal, octal or hexadecimal digits or as a quoted character, and what follows it. -/
def readInteger (cs : List Char) : Option (Int × List Char) :=
  let unsigned (cs : List Char) : Option (Nat × List Char) :=
    let (base, ds) := match cs with
      | '0' :: 'x' :: ds | '0' :: 'X' :: ds => (16, ds)
      | '0' :: _ => (8, cs)
      | _ => (10, cs)
    let found := EscapeStyle.digits base ds.length ds
    if found = [] then none else some (EscapeStyle.value base found, ds.drop found.length)
  match cs with
  | '\'' :: c :: rest | '"' :: c :: rest => some (c.toNat, rest)
  | '-' :: cs => (unsigned cs).map fun (n, rest) => (-(n : Int), rest)
  | '+' :: cs => (unsigned cs).map fun (n, rest) => (n, rest)
  | cs => (unsigned cs).map fun (n, rest) => (n, rest)

/-- A text with blanks or zeros in front of it, or blanks behind it, so that it has at least the width
of the directive. Zeros go behind a sign or the mark of a base. -/
def pad (d : Directive) (numeric : Bool) (body : List Char) : List Char :=
  let missing := d.width - body.length
  if d.flags.contains '-' then body ++ List.replicate missing ' '
  else if numeric && d.flags.contains '0' && (d.precision.isNone || "fF".toList.contains d.conversion) then
    let start := match body with
      | '0' :: 'x' :: _ | '0' :: 'X' :: _ => 2
      | '+' :: _ | '-' :: _ | ' ' :: _ => 1
      | _ => 0
    body.take start ++ List.replicate missing '0' ++ body.drop start
  else List.replicate missing ' ' ++ body

/-- Digits with zeros in front of them up to the precision. -/
def precise (d : Directive) (ds : List Char) : List Char :=
  match d.precision with
  | some p => if p = 0 && ds = ['0'] then [] else List.replicate (p - ds.length) '0' ++ ds
  | none => ds

def unsignedDigits (d : Directive) (n : Nat) : List Char :=
  let alternative := d.flags.contains '#'
  match d.conversion with
  | 'o' =>
    let ds := precise d (Nat.toDigits 8 n)
    if alternative && ds.head? ≠ some '0' then '0' :: ds else ds
  | 'x' => (if alternative && n ≠ 0 then ['0', 'x'] else []) ++ precise d (Nat.toDigits 16 n)
  | 'X' =>
    (if alternative && n ≠ 0 then ['0', 'X'] else []) ++ (precise d (Nat.toDigits 16 n)).map Char.toUpper
  | _ => precise d (Nat.toDigits 10 n)

def signedDigits (d : Directive) (n : Int) : List Char :=
  let ds := precise d (Nat.toDigits 10 n.natAbs)
  if n < 0 then '-' :: ds
  else if d.flags.contains '+' then '+' :: ds
  else if d.flags.contains ' ' then ' ' :: ds
  else ds

/-- An argument as a number, with a complaint if it is not one. -/
def number (style : FormatStyle) (signed : Bool) (arg : String) : Int × List String :=
  let cs := arg.toList.dropWhile fun c => c = ' ' || c = '\t'
  let (lo, hi) : Int × Int :=
    if signed then (Int64.minValue.toInt, Int64.maxValue.toInt) else (1 - UInt64.size, UInt64.size - 1)
  match readInteger cs with
  | none => (0, if cs = [] then [] else [style.notNumeric arg])
  | some (n, rest) =>
    if n < lo then (lo, [style.outOfRange arg])
    else if hi < n then (hi, [style.outOfRange arg])
    else (n, if rest = [] then [] else [style.notAllNumeric arg])

/-- A decimal fraction as digits, the power of ten that the last of them counts, and its sign. -/
def readFraction (cs : List Char) : Option (Bool × Nat × Int) :=
  let (negative, cs) := match cs with
    | '-' :: cs => (true, cs)
    | '+' :: cs => (false, cs)
    | cs => (false, cs)
  let whole := cs.takeWhile Char.isDigit
  let fraction := match cs.drop whole.length with
    | '.' :: rest => rest.takeWhile Char.isDigit
    | _ => []
  if whole ++ fraction = [] then none
  else some (negative, Nat.ofDigitChars 10 (whole ++ fraction) 0, -(fraction.length : Int))

/-- A decimal fraction with a fixed number of places, where a half goes to the even neighbour. -/
def fixed (places : Nat) (digits : Nat) (power : Int) : List Char :=
  let excess := (-power).toNat - places
  let shifted := digits * Nat.pow 10 (places - (-power).toNat)
  let unit := Nat.pow 10 excess
  let (q, r) := (shifted / unit, shifted % unit)
  let n := if unit < 2 * r || (2 * r = unit && q % 2 = 1) then q + 1 else q
  let ds := Nat.toDigits 10 n
  let ds := List.replicate (places + 1 - ds.length) '0' ++ ds
  let whole := ds.take (ds.length - places)
  if places = 0 then whole else whole ++ '.' :: ds.drop (ds.length - places)

/-! ## Directives -/

/-- What a directive makes of an argument, with complaints, and whether it ends the output. -/
def convert (style : FormatStyle) (d : Directive) (arg : Option String) :
    List Char × List String × Bool :=
  let text := arg.getD ""
  match d.conversion with
  | 's' =>
    (pad d false (match d.precision with
      | some p => text.toList.take p
      | none => text.toList), [], false)
  | 'c' => (pad d false [text.toList.headD '\x00'], [], false)
  | 'b' =>
    let (cs, ended) := style.arguments.unescape text
    (pad d false cs, [], ended)
  | 'f' | 'F' =>
    match readFraction text.toList with
    | some (negative, digits, power) =>
      let body := fixed (d.precision.getD 6) digits power
      (pad d true (if negative then '-' :: body else body), [], false)
    | none =>
      (pad d true (fixed (d.precision.getD 6) 0 0),
        if text = "" then [] else [style.notNumeric text], false)
  | 'd' | 'i' =>
    let (n, complaints) := number style true text
    (pad d true (signedDigits d n), complaints, false)
  | _ =>
    let (n, complaints) := number style false text
    (pad d true (unsignedDigits d (UInt64.ofInt n).toNat), complaints, false)

/-- A number in a format, or the next argument if a star stands for it. -/
def starred (cs : List Char) (args : List String) : Option Int × List Char × List String :=
  match cs with
  | '*' :: cs => (some ((number .shell true (args.headD "")).1), cs, args.tail)
  | cs =>
    let ds := cs.takeWhile Char.isDigit
    (if ds = [] then none else some (Nat.ofDigitChars 10 ds 0), cs.drop ds.length, args)

/-- The directive behind a percent sign, with the rest of the format and the arguments. -/
def directive? (cs : List Char) (args : List String) : Option (Directive × List Char × List String) :=
  let flags := cs.takeWhile fun c => "#-+ 0".toList.contains c
  let (width, cs, args) := starred (cs.drop flags.length) args
  let flags := if (width.getD 0) < 0 then '-' :: flags else flags
  let (precision, cs, args) := match cs with
    | '.' :: cs =>
      let (p, cs, args) := starred cs args
      (some (p.getD 0), cs, args)
    | cs => (none, cs, args)
  match cs with
  | [] => none
  | c :: cs =>
    some (⟨flags, (width.getD 0).natAbs, (precision.filter (0 ≤ ·)).map Int.toNat, c⟩, cs, args)

def once (style : FormatStyle) : (fuel : Nat) → List Char → List String → Formatted
  | 0, _, args => ⟨[], [], 0, args, true⟩
  | fuel + 1, cs, args =>
    let more (out : List Char) (complaints : List String) (cs : List Char) (args : List String) :=
      let rest := once style fuel cs args
      { rest with
        text := out ++ rest.text
        complaints := complaints ++ rest.complaints
        status := if complaints ≠ [] && rest.status = 0 then 1 else rest.status }
    match cs with
    | [] => ⟨[], [], 0, args, false⟩
    | '%' :: '%' :: cs => more ['%'] [] cs args
    | '%' :: cs =>
      match directive? cs args with
      | none => ⟨[], ["missing format character"], style.invalidStatus, args, true⟩
      | some (d, rest, args) =>
        if "sbcdiouxXfF".toList.contains d.conversion then
          let (out, complaints, ended) := convert style d args.head?
          if ended then ⟨out, complaints, 0, args.tail, true⟩ else more out complaints rest args.tail
        else
          let seen := '%' :: cs.take (cs.length - rest.length)
          ⟨[], [style.invalid (String.ofList seen)], style.invalidStatus, args, true⟩
    | '\\' :: cs =>
      match style.escapes.escape? cs with
      | some (c, n) => more [c] [] (cs.drop n) args
      | none =>
        if style.escapes.stop && cs.head? = some 'c' then ⟨[], [], 0, args, true⟩
        else more ['\\'] [] cs args
    | c :: cs => more [c] [] cs args

/-- A format written again as long as it takes arguments. -/
def write (style : FormatStyle) : (fuel : Nat) → List Char → List String → Formatted
  | 0, _, args => ⟨[], [], 0, args, true⟩
  | fuel + 1, cs, args =>
    let first := once style (cs.length + 1) cs args
    if first.ended || first.args = [] || first.args.length = args.length then first
    else
      let rest := write style fuel cs first.args
      ⟨first.text ++ rest.text, first.complaints ++ rest.complaints, max first.status rest.status,
        rest.args, rest.ended⟩

end Format

namespace Tool

def text (cs : List Char) : Outcome := .print (String.ofList cs)

def printf (style : FormatStyle) (args : List String) : Formatted :=
  match args with
  | [] => ⟨[], [], 0, [], true⟩
  | format :: args => Format.write style (args.length + 1) format.toList args

/-- The arguments of `echo` as a shell has it: with escapes, and without a line end behind `-n`. -/
def shellEcho (args : List String) : String :=
  let (args, newline) := match args with
    | "-n" :: args => (args, false)
    | args => (args, true)
  let (cs, ended) := EscapeStyle.shellText.unescape (" ".intercalate args)
  String.ofList (cs ++ if newline && !ended then ['\n'] else [])

/-- The options of the `echo` program in front of its arguments: whether a line end is written, and
whether there are escapes. -/
def echoOptions (newline escapes : Bool) : List String → Bool × Bool × List String
  | [] => (newline, escapes, [])
  | arg :: args =>
    let letters := arg.toList.drop 1
    if arg.toList.head? = some '-' && letters ≠ [] && letters.all ("neE".toList.contains ·) then
      let escapes := letters.foldl (fun on c => if c = 'e' then true else if c = 'E' then false else on)
        escapes
      echoOptions (newline && !letters.contains 'n') escapes args
    else (newline, escapes, arg :: args)

def echo : Tool := fun c fs =>
  let (newline, escapes, args) := echoOptions true false c.args
  let all := " ".intercalate args
  let (cs, ended) := if escapes then EscapeStyle.text.unescape all else (all.toList, false)
  (text (cs ++ if newline && !ended then ['\n'] else []), fs)

def printfProgram : Tool := fun c fs =>
  match c.args with
  | [] => (c.fail 1 s!"missing operand\nTry '{c.name} --help' for more information.", fs)
  | "--" :: args | args =>
    let f := printf .program args
    let complaints := f.complaints.map fun m => (Stream.errors, Text.toBytes s!"{c.name}: {m}\n")
    (⟨.code f.status, complaints ++ [(.output, Text.toBytes (String.ofList f.text))], false⟩, fs)

end Tool

end BaseLang
