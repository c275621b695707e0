import BaseLang.Program.Format
import BaseLang.Program.Tool.Filter

/-!
# Programs that work on their arguments

* `Tool.basename`, `dirname`, `realpath`, `pwd`, `seq`, `expr`, `sleep`, `printenv`, `cmp` : the programs.
-/

namespace BaseLang

namespace Tool

/-- The name at the end of a path, or a slash for the root. -/
def baseName (path : String) : String :=
  let name := lastName path
  if name = "" && path ≠ "" then "/" else name

/-- A name without an ending, unless it is nothing else. -/
def dropEnding (name ending : String) : String :=
  if ending ≠ "" && name.endsWith ending && name ≠ ending then
    String.ofList (name.toList.take (name.length - ending.length))
  else name

def basename : Tool :=
  withOptions ⟨"az", "s", [("multiple", 'a'), ("suffix", 's')]⟩ 1 fun c o fs =>
    let ending := (o.value? 's').getD ""
    let written (names : List String) := (Outcome.print (String.join (names.map (· ++ "\n"))), fs)
    match o.operands with
    | [] => (c.misuse 1 "missing operand", fs)
    | [path] => written [dropEnding (baseName path) ending]
    | path :: second :: more =>
      if o.has 'a' || o.has 's' then
        written ((path :: second :: more).map fun path => dropEnding (baseName path) ending)
      else match more with
        | [] => written [dropEnding (baseName path) second]
        | extra :: _ => (c.misuse 1 s!"extra operand {quoteName extra}", fs)

def dirName (path : String) : String :=
  let cs := (path.toList.reverse.dropWhile (· = '/')).dropWhile (· ≠ '/')
  match cs.dropWhile (· = '/') with
  | [] => if cs = [] && !path.startsWith "/" then "." else "/"
  | rest => String.ofList rest.reverse

def dirname : Tool := withOptions ⟨"z", "", []⟩ 1 fun c o fs =>
  if o.operands = [] then (c.misuse 1 "missing operand", fs)
  else (.print (String.join (o.operands.map fun path => dirName path ++ "\n")), fs)

def pathOf (loc : Location) : String := Text.octets ("/" ++ "/".intercalate loc.reverse)

def realpath (missing : OsError → String → Outcome) : Tool := withOptions ⟨"femnqsz", "", []⟩ 1 fun c o fs =>
  if o.operands = [] then (c.misuse 1 "missing operand", fs)
  else forEach o.operands (fun path fs =>
    match fs.locateBare (.ofOctets path) with
    | .ok loc => (.print (pathOf loc ++ "\n"), fs)
    | .error e => (missing e path, fs)) fs

def pwd : Tool := fun _ fs => (.print (pathOf fs.workingDir ++ "\n"), fs)

def printenv : Tool := fun c fs =>
  match c.args with
  | [] => (.print (String.join (c.environment.map fun (name, value) => s!"{name}={value}\n")), fs)
  | names =>
    let found := names.filterMap fun name => List.lookup name c.environment
    ((Outcome.print (String.join (found.map (· ++ "\n")))).withStatus
      (if found.length = names.length then 0 else 1), fs)

def isDuration (text : String) : Bool :=
  let cs := match text.toList.reverse with
    | c :: cs => if "smhd".toList.contains c then cs.reverse else text.toList
    | [] => []
  cs ≠ [] && cs.all (fun c => c.isDigit || c = '.') && cs.any Char.isDigit

def sleep : Tool := fun c fs =>
  match c.args, c.args.find? (!isDuration ·) with
  | [], _ => (c.misuse 1 "missing operand", fs)
  | _, some text => (c.misuse 1 s!"invalid time interval {quoteName text}", fs)
  | _, none => (.silent 0, fs)

/-! ## Numbers -/

/-- A decimal number as a whole number of its last places, and how many places it has. -/
def decimalNumber? (text : String) : Option (Int × Nat) :=
  match Format.readFraction text.toList with
  | some (negative, digits, power) =>
    let cs := text.toList.dropWhile fun c => c = '-' || c = '+'
    if cs.all (fun c => c.isDigit || c = '.') then some (if negative then -digits else digits, (-power).toNat)
    else none
  | none => none

def count (stop step : Int) : (fuel : Nat) → Int → List Int
  | 0, _ => []
  | fuel + 1, n =>
    if (0 ≤ step && stop < n) || (step < 0 && n < stop) then [] else n :: count stop step fuel (n + step)

/-- Numbers with zeros in front of them, so that all have the same width. -/
def padded (numbers : List String) : List String :=
  let width := (numbers.map String.length).foldl max 0
  numbers.map fun s =>
    let zeros := String.ofList (List.replicate (width - s.length) '0')
    if s.startsWith "-" then "-" ++ zeros ++ (s.drop 1).toString else zeros ++ s

/-- The operands of a program that counts: those behind its options. -/
def seqOptions : (fuel : Nat) → (separator : String) → (pad : Bool) → (format : Option String) → List String →
    String × Bool × Option String × List String
  | 0, separator, pad, format, args => (separator, pad, format, args)
  | fuel + 1, separator, pad, format, args =>
    match args with
    | "-w" :: args => seqOptions fuel separator true format args
    | "-s" :: separator :: args => seqOptions fuel separator pad format args
    | "-f" :: format :: args => seqOptions fuel separator pad (some format) args
    | "--" :: args => (separator, pad, format, args)
    | arg :: args =>
      if arg.startsWith "-s" then seqOptions fuel (arg.drop 2).toString pad format args
      else (separator, pad, format, arg :: args)
    | [] => (separator, pad, format, [])

def seq : Tool := fun c fs =>
  let (separator, pad, format, operands) := seqOptions (c.args.length + 1) "\n" false none c.args
  let written (first step last : String) : Outcome × FileSystem :=
    match [first, step, last].find? fun text => (decimalNumber? text).isNone with
    | some text => (c.misuse 1 s!"invalid floating point argument: {quoteName text}", fs)
    | none =>
      match decimalNumber? first, decimalNumber? step, decimalNumber? last with
      | some (a, p), some (s, q), some (z, r) =>
        let places := max p (max q r)
        let scaled (n : Int) (have_ : Nat) : Int := n * Nat.pow 10 (places - have_)
        let shown := max p q
        let text (n : Int) : String :=
          let cs := Format.fixed shown n.natAbs (-places)
          String.ofList (if n < 0 then '-' :: cs else cs)
        if s = 0 then (c.misuse 1 s!"invalid Zero increment value: {quoteName step}", fs)
        else
          let found := count (scaled z r) (scaled s q)
            (((scaled z r - scaled a p).natAbs / (scaled s q).natAbs) + 2) (scaled a p)
          let texts := found.map text
          let texts := if pad then padded texts else texts
          let texts := match format with
            | some f => texts.map fun t => String.ofList (Tool.printf .program [f, t]).text
            | none => texts
          (.print (if texts = [] then "" else separator.intercalate texts ++ "\n"), fs)
      | _, _, _ => (.silent 1, fs)
  match operands with
  | [] => (c.misuse 1 "missing operand", fs)
  | [last] => written "1" "1" last
  | [first, last] => written first "1" last
  | [first, step, last] => written first step last
  | _ :: _ :: _ :: extra :: _ => (c.misuse 1 s!"extra operand {quoteName extra}", fs)

/-! ## Expressions -/

/-- The levels of the operators of an expression, those that bind least first. -/
def expressionLevels : List (List String) :=
  [["|"], ["&"], ["<", "<=", "=", "==", "!=", ">=", ">"], ["+", "-"], ["*", "/", "%"], [":"]]

def isNull (text : String) : Bool := text = "" || Text.readDecimal? text.toList = some 0

def applyOperator (op a b : String) : Except String String :=
  let truth (b : Bool) : String := if b then "1" else "0"
  let numbers := (Text.readDecimal? a.toList, Text.readDecimal? b.toList)
  let numeric (f : Int → Int → Except String Int) : Except String String :=
    match numbers with
    | (some x, some y) => (f x y).map fun n => String.ofList (Text.decimal n)
    | _ => .error "non-integer argument"
  let compared (p : Ordering → Bool) : Except String String :=
    match numbers with
    | (some x, some y) => .ok (truth (p (compare x y)))
    | _ => .ok (truth (p (compare a b)))
  match op with
  | "|" => .ok (if !isNull a then a else if !isNull b then b else "0")
  | "&" => .ok (if !isNull a && !isNull b then a else "0")
  | "<" => compared (· == .lt)
  | "<=" => compared (· != .gt)
  | "=" | "==" => compared (· == .eq)
  | "!=" => compared (· != .eq)
  | ">=" => compared (· != .lt)
  | ">" => compared (· == .gt)
  | "+" => numeric fun x y => .ok (x + y)
  | "-" => numeric fun x y => .ok (x - y)
  | "*" => numeric fun x y => .ok (x * y)
  | "/" => numeric fun x y => if y = 0 then .error "division by zero" else .ok (x.tdiv y)
  | "%" => numeric fun x y => if y = 0 then .error "division by zero" else .ok (x.tmod y)
  | _ =>
    match Regex.parse? false ("^" ++ b) with
    | none => .error "Invalid regular expression"
    | some r =>
      match r.find? false (.ofText a.toList) with
      | none => .ok (if (b.splitOn "\\(").length = 1 then "0" else "")
      | some (start, stop) =>
        match List.lookup 1 stop.groups with
        | some cs => .ok (String.ofList cs)
        | none => .ok (toString (start.upTo stop).length)

mutual

/-- The value of an expression at a level, with the words behind it. `before` is the word before it. -/
def expression : (fuel : Nat) → List (List String) → (before : String) → List String →
    Except String (String × List String)
  | 0, _, _, _ => .error "syntax error"
  | fuel + 1, levels, before, words =>
    match levels with
    | [] =>
      match words with
      | [] => .error ("syntax error: missing argument after " ++ quoteName before)
      | "(" :: rest =>
        match expression fuel expressionLevels "(" rest with
        | .ok (v, ")" :: rest) => .ok (v, rest)
        | .ok (v, _) => .error ("syntax error: expecting ')' after " ++ quoteName v)
        | .error e => .error e
      | word :: rest => .ok (word, rest)
    | ops :: tighter =>
      match expression fuel tighter before words with
      | .error e => .error e
      | .ok (a, rest) => expressionBehind fuel ops tighter a rest

def expressionBehind : (fuel : Nat) → List String → List (List String) → (a : String) → List String →
    Except String (String × List String)
  | 0, _, _, _, _ => .error "syntax error"
  | fuel + 1, ops, tighter, a, words =>
    match words with
    | op :: rest =>
      if ops.contains op then
        match expression fuel tighter op rest with
        | .error e => .error e
        | .ok (b, rest) =>
          match applyOperator op a b with
          | .error e => .error e
          | .ok v => expressionBehind fuel ops tighter v rest
      else .ok (a, words)
    | [] => .ok (a, [])

end

def expr : Tool := fun c fs =>
  let done (v : String) : Outcome × FileSystem :=
    ((Outcome.print (v ++ "\n")).withStatus (if isNull v then 1 else 0), fs)
  match c.args with
  | [] => (c.misuse 2 "missing operand", fs)
  | ["length", text] => done (toString text.length)
  | ["index", text, set] =>
    done (toString (((text.toList.findIdx? set.toList.contains).map (· + 1)).getD 0))
  | ["substr", text, start, size] =>
    match start.toNat?, size.toNat? with
    | some (start + 1), some size => done (String.ofList ((text.toList.drop start).take size))
    | _, _ => done ""
  | ["match", text, pattern] =>
    match applyOperator ":" text pattern with
    | .ok v => done v
    | .error e => (c.fail 2 e, fs)
  | words =>
    match expression (16 * words.length + 16) expressionLevels "" words with
    | .ok (v, []) => done v
    | .ok (_, word :: _) => (c.fail 2 ("syntax error: unexpected argument " ++ quoteName word), fs)
    | .error e => (c.fail 2 e, fs)

/-! ## Comparing -/

/-- Where two texts differ first, and on which line. -/
def difference? : (octet line : Nat) → List Char → List Char → Option (Except Bool (Nat × Nat))
  | _, _, [], [] => none
  | _, _, [], _ => some (.error true)
  | _, _, _, [] => some (.error false)
  | octet, line, a :: as, b :: bs =>
    if a = b then difference? (octet + 1) (if a = '\n' then line + 1 else line) as bs
    else some (.ok (octet, line))

def cmp : Tool := withOptions ⟨"sbl", "n", [("silent", 's'), ("quiet", 's')]⟩ 2 fun c o fs =>
  match o.operands with
  | [] => (c.fail 2 s!"missing operand after {quoteName c.name}"
      ++ c.fail 2 s!"Try '{c.name} --help' for more information.", fs)
  | a :: rest =>
    let b := rest.headD "-"
    match c.read a fs, c.read b fs with
    | .error e, _ => (if o.has 's' then .silent 2 else c.fail 2 s!"{a}: {e.description}", fs)
    | _, .error e => (if o.has 's' then .silent 2 else c.fail 2 s!"{b}: {e.description}", fs)
    | .ok x, .ok y =>
      match difference? 1 1 x.toList y.toList with
      | none => (.silent 0, fs)
      | some found =>
        if o.has 's' then (.silent 1, fs)
        else match found with
          | .ok (octet, line) =>
            ((Outcome.print s!"{a} {b} differ: char {octet}, line {line}\n").withStatus 1, fs)
          | .error first =>
            let short := if first then a else b
            let size := min x.length y.length
            (c.fail 1 (if size = 0 then s!"EOF on {short} which is empty"
              else s!"EOF on {short} after byte {size}"), fs)

end Tool

end BaseLang
