import BaseLang.Program.Regex
import BaseLang.Program.Tool.File

/-!
# Programs that go over lines

* `Tool.filter` : a program that makes something of each of its files;
* `Tool.head`, `tail`, `wc`, `sort`, `uniq`, `tr`, `cut`, `grep`, `rev`, `tac` : the programs.
-/

namespace BaseLang

namespace Tool

/-- A program that makes something of each of its files, where `complain` says why one was not read. -/
def filter (c : Call) (operands : List String) (complain : String → OsError → Outcome)
    (f : String → List Char → Outcome) (fs : FileSystem) : Outcome × FileSystem :=
  let operands := if operands = [] then ["-"] else operands
  let (done, fs) := forEach operands (fun path fs =>
    match c.read path fs with
    | .ok text => (f path text.toList, fs)
    | .error e => (complain path e, fs)) fs
  (done.reading operands, fs)

def withoutEnd (line : List Char) : List Char :=
  match line.reverse with
  | '\n' :: cs => cs.reverse
  | _ => line

def bareLines (cs : List Char) : List (List Char) := (linesOf cs).map withoutEnd

def joined (lines : List (List Char)) : List Char := (lines.map (· ++ ['\n'])).flatten

def notOpened (c : Call) (path : String) (e : OsError) : Outcome :=
  match e with
  | .isDirectory => c.fail 1 s!"error reading {quoteName path}: {e.description}"
  | e => c.fail 1 s!"cannot open {quoteName path} for reading: {e.description}"

def notRead (c : Call) (status : Nat) (path : String) (e : OsError) : Outcome :=
  c.fail status s!"{quoteIfNeeded path}: {e.description}"

/-! ## Parts of files -/

def signedCount? (text : String) : Option (Option Char × Nat) :=
  match text.toList with
  | '-' :: cs => (Text.readDigits? cs).map (some '-', ·)
  | '+' :: cs => (Text.readDigits? cs).map (some '+', ·)
  | cs => (Text.readDigits? cs).map (none, ·)

/-- Arguments in which a count may stand behind a dash. -/
def expandCount (args : List String) : List String :=
  match args with
  | arg :: rest =>
    match arg.toList with
    | '-' :: c :: cs => if c.isDigit then "-n" :: String.ofList (c :: cs) :: rest else args
    | _ => args
  | [] => []

/-- Writes parts of files, by lines or by octets, with titles if there are several. -/
def part (title : String → String) (byLines byOctets : Option Char × Nat → List Char → List Char)
    (c : Call) (o : Options) (fs : FileSystem) : Outcome × FileSystem :=
  let isLines := o.last? "nc" ≠ some 'c'
  let count := (o.value? (if isLines then 'n' else 'c')).getD "10"
  match signedCount? count with
  | none =>
    let what := if isLines then "lines" else "bytes"
    (c.fail 1 s!"invalid number of {what}: {quoteName count}", fs)
  | some n =>
    let cut := if isLines then byLines n else byOctets n
    let titled := o.has 'v' || (1 < o.operands.length && !o.has 'q')
    let operands := if o.operands = [] then ["-"] else o.operands
    let (done, _, fs) := operands.foldl (fun (done, first, fs) path =>
      match c.read path fs with
      | .ok text =>
        let head := if titled then (if first then "" else "\n") ++ title path else ""
        (done ++ .withStatus (.print (head ++ String.ofList (cut text.toList))) done.exit.status, false, fs)
      | .error e => (done ++ notOpened c path e, first, fs)) ((.silent 0, true, fs) : Outcome × Bool × FileSystem)
    (done.reading operands, fs)

def title (path : String) : String :=
  let name := if path = "-" then "standard input" else path
  s!"==> {name} <==\n"

def partOptions : OptionTable :=
  ⟨"qvzfF", "nc", [("lines", 'n'), ("bytes", 'c'), ("quiet", 'q'), ("silent", 'q'), ("verbose", 'v')]⟩

/-- The first part of a list, or all but the last part. -/
def firstPart {α : Type} (n : Option Char × Nat) (xs : List α) : List α :=
  if n.1 = some '-' then xs.take (xs.length - n.2) else xs.take n.2

/-- The last part of a list, or all of it from an element on. -/
def lastPart {α : Type} (n : Option Char × Nat) (xs : List α) : List α :=
  if n.1 = some '+' then xs.drop (n.2 - 1) else xs.drop (xs.length - n.2)

def head : Tool := fun c => withOptions partOptions 1
  (part title (fun n cs => (firstPart n (linesOf cs)).flatten) firstPart) { c with args := expandCount c.args }

def tail : Tool := fun c => withOptions partOptions 1
  (part title (fun n cs => (lastPart n (linesOf cs)).flatten) lastPart) { c with args := expandCount c.args }

/-! ## Counting -/

def isSpace (c : Char) : Bool := c = ' ' || ('\t' ≤ c && c ≤ '\x0d')

def wordCount (cs : List Char) : Nat :=
  (cs.foldl (fun (n, inside) c => if isSpace c then (n, false) else (if inside then n else n + 1, true))
    ((0, false) : Nat × Bool)).1

/-- What is counted in a text: lines, words, characters, octets, and the longest line. -/
def counts (o : Options) (cs : List Char) : List Nat :=
  let all := !"lwmcL".toList.any o.has
  (if all || o.has 'l' then [(cs.filter (· = '\n')).length] else [])
    ++ (if all || o.has 'w' then [wordCount cs] else [])
    ++ (if o.has 'm' then [cs.length] else [])
    ++ (if all || o.has 'c' then [cs.length] else [])
    ++ (if o.has 'L' then [((bareLines cs).map List.length).foldl max 0] else [])

def countLine (width : Nat) (ns : List Nat) (name : String) : String :=
  let column (n : Nat) := String.ofList (List.replicate (width - (toString n).length) ' ') ++ toString n
  " ".intercalate (ns.map column) ++ (if name = "" then "" else " " ++ name) ++ "\n"

/-- Counts the lines, words and octets of files. -/
def wc : Tool :=
  withOptions ⟨"lwmcL", "", [("lines", 'l'), ("words", 'w'), ("chars", 'm'), ("bytes", 'c')]⟩ 1 fun c o fs =>
    let operands := if o.operands = [] then ["-"] else o.operands
    let texts := operands.map fun path => (path, c.read path fs)
    let known := texts.filterMap fun (path, r) =>
      match r with
      | .ok text => some (path, text.toList)
      | .error _ => none
    let single := operands.length = 1 && (counts o []).length = 1
    let isPipe (path : String) : Bool := (path = "-" && !c.fromFile) || fs.isDir (.ofOctets path)
    let size := (known.map fun e => e.2.length).foldl (· + ·) 0
    let width := if single then 1
      else if operands.any isPipe then 7
      else max 1 (Nat.toDigits 10 size).length
    let shown (path : String) : String := if path = "-" && o.operands = [] then "" else path
    let lines := texts.map fun (path, r) =>
      match r with
      | .ok text => Outcome.print (countLine width (counts o text.toList) (shown path))
      | .error .isDirectory =>
        notRead c 1 path .isDirectory ++ .print (countLine width (counts o []) (shown path))
      | .error e => notRead c 1 path e
    let total := if 1 < operands.length then
        let sums := (known.map fun e => counts o e.2).foldl
          (fun sums ns => sums.zipWith (· + ·) ns) ((counts o []).map fun _ => 0)
        Outcome.print (countLine width sums "total")
      else .silent 0
    let failed := texts.any fun (_, r) => r.toOption.isNone
    let done := lines.foldl (· ++ ·) (.silent 0) ++ total
    ((done.withStatus (if failed then 1 else 0)).reading operands, fs)

/-! ## Sorting -/

/-- A field of a line and the octet in it, counted from one, or the end of the field. -/
structure KeyPlace where
  field : Nat
  octet : Nat

structure SortKey where
  start : KeyPlace
  stop : Option KeyPlace
  flags : List Char

def keyPlace? (cs : List Char) : Option (KeyPlace × List Char) :=
  let field := cs.takeWhile Char.isDigit
  let rest := cs.drop field.length
  if field = [] then none
  else
    let (octet, rest) := match rest with
      | '.' :: rest =>
        let ds := rest.takeWhile Char.isDigit
        (Nat.ofDigitChars 10 ds 0, rest.drop ds.length)
      | rest => (0, rest)
    some (⟨Nat.ofDigitChars 10 field 0, octet⟩, rest)

def sortKey? (text : String) : Option SortKey :=
  match (Text.fields ',' text.toList).map keyPlace? with
  | [some (start, flags)] => some ⟨start, none, flags⟩
  | [some (start, flags), some (stop, more)] => some ⟨start, some stop, flags ++ more⟩
  | _ => none

/-- The fields of a line. Without a separator, each has the white space in front of it. -/
def sortFields (separator : Option Char) (line : List Char) : List (List Char) :=
  match separator with
  | some c => Text.fields c line
  | none =>
    let isBlank (c : Char) := c = ' ' || c = '\t'
    let (fields, last, _) := line.foldl (fun (fields, current, inside) c =>
      if isBlank c && inside then (fields ++ [current], [c], false)
      else (fields, current ++ [c], inside || !isBlank c))
      (([], [], false) : List (List Char) × List Char × Bool)
    fields ++ [last]

def keyText (separator : Option Char) (key : SortKey) (line : List Char) : List Char :=
  let fields := sortFields separator line
  let joint := separator.toList
  let from_ := fields.drop (key.start.field - 1)
  match key.stop with
  | none => (List.intercalate joint from_).drop (key.start.octet - 1)
  | some stop =>
    let whole := from_.take (stop.field - key.start.field + 1)
    let whole := if stop.octet = 0 then whole
      else whole.dropLast ++ (whole.getLast?.toList.map (·.take stop.octet))
    (List.intercalate joint whole).drop (key.start.octet - 1)

/-- The number that a text starts with, in thousandths of millionths. -/
def leadingNumber (cs : List Char) : Int :=
  let cs := cs.dropWhile fun c => c = ' ' || c = '\t'
  let (negative, cs) := match cs with
    | '-' :: cs => (true, cs)
    | cs => (false, cs)
  let whole := cs.takeWhile Char.isDigit
  let fraction := match cs.drop whole.length with
    | '.' :: rest => (rest.takeWhile Char.isDigit).take 9
    | _ => []
  let n : Int := Nat.ofDigitChars 10 (whole ++ fraction ++ List.replicate (9 - fraction.length) '0') 0
  if negative then -n else n

def compareBy (flags : List Char) (a b : List Char) : Ordering :=
  let prepared (cs : List Char) :=
    let cs := if flags.contains 'b' then cs.dropWhile fun c => c = ' ' || c = '\t' else cs
    let cs := if flags.contains 'd' then cs.filter fun c => c.isAlphanum || c = ' ' || c = '\t' else cs
    if flags.contains 'f' then cs.map Char.toUpper else cs
  let order := if flags.contains 'n' || flags.contains 'g' then compare (leadingNumber a) (leadingNumber b)
    else compareOfLessAndEq (prepared a) (prepared b)
  if flags.contains 'r' then order.swap else order

/-- How two lines compare by keys, and then as a whole. -/
def compareLines (o : Options) (separator : Option Char) (keys : List SortKey) (a b : List Char) : Ordering :=
  let flags := "bdfgnr".toList.filter o.has
  let byKeys := keys.foldl (fun order key =>
    order.then (compareBy (if key.flags = [] then flags else key.flags)
      (keyText separator key a) (keyText separator key b))) .eq
  let whole := if keys = [] then compareBy flags a b else byKeys
  let last := if o.has 's' || o.has 'u' then .eq
    else if o.has 'r' then (compareOfLessAndEq a b).swap else compareOfLessAndEq a b
  whole.then last

/-- Elements without those that equal the one before them. -/
def distinct {α : Type} (same : α → α → Bool) : List α → List α
  | [] => []
  | [a] => [a]
  | a :: b :: rest =>
    match distinct same (b :: rest) with
    | [] => [a]
    | c :: more => if same a c then a :: more else a :: c :: more

def sort : Tool :=
  withOptions ⟨"bdfgnrsucCmiMhVz", "kto", [("reverse", 'r'), ("numeric-sort", 'n'), ("unique", 'u'),
    ("key", 'k'), ("field-separator", 't'), ("output", 'o'), ("stable", 's'), ("ignore-case", 'f')]⟩ 2
    fun c o fs =>
      let operands := if o.operands = [] then ["-"] else o.operands
      let keys := (o.values 'k').map fun text => (text, sortKey? text)
      match keys.find? (·.2.isNone), operands.filterMap fun path =>
          match c.read path fs with
          | .ok _ => none
          | .error .isDirectory => some s!"read failed: {quoteIfNeeded path}: Is a directory"
          | .error e => some s!"cannot read: {quoteIfNeeded path}: {e.description}" with
      | some (text, _), _ =>
        (c.fail 2 s!"invalid number at field start: invalid count at start of {quoteName text}", fs)
      | none, text :: _ => (c.fail 2 text, fs)
      | none, [] =>
        let lines := operands.flatMap fun path => bareLines ((c.read path fs).toOption.getD "").toList
        let separator := (o.value? 't').bind fun t => t.toList.head?
        let order := compareLines o separator (keys.filterMap Prod.snd)
        let inOrder (a b : List Char) := order a b != .gt
        if o.has 'c' || o.has 'C' then
          let bad := (lines.zip (lines.drop 1)).findIdx? fun (a, b) =>
            !inOrder a b || (o.has 'u' && order a b == .eq)
          match bad with
          | none => ((Outcome.silent 0).reading operands, fs)
          | some i =>
            let line := String.ofList (lines[i + 1]?.getD [])
            let name := operands.headD "-"
            (if o.has 'C' then .silent 1 else c.fail 1 s!"{name}:{i + 2}: disorder: {line}", fs)
        else
          let sorted := lines.mergeSort inOrder
          let sorted := if o.has 'u' then distinct (fun a b => order a b == .eq) sorted else sorted
          let text := String.ofList (joined sorted)
          match o.value? 'o' with
          | some path =>
            match fs.write (.ofOctets path) (Text.toBytes text) with
            | .ok fs => ((Outcome.silent 0).reading operands, fs)
            | .error e => (c.fail 2 s!"open failed: {quoteIfNeeded path}: {e.description}", fs)
          | none => ((Outcome.print text).reading operands, fs)

/-- Lines with the numbers of their adjacent copies. -/
def runs (same : List Char → List Char → Bool) : List (List Char) → List (Nat × List Char)
  | [] => []
  | a :: rest =>
    match runs same rest with
    | (n, b) :: more => if same a b then (n + 1, a) :: more else (1, a) :: (n, b) :: more
    | [] => [(1, a)]

/-- Drops the copies of adjacent lines. -/
def uniq : Tool :=
  withOptions ⟨"cdiuD", "fsw", [("count", 'c'), ("repeated", 'd'), ("unique", 'u'), ("ignore-case", 'i')]⟩ 1
    fun c o fs =>
      match o.operands with
      | _ :: _ :: extra :: _ => (c.misuse 1 s!"extra operand {quoteName extra}", fs)
      | operands =>
        let input := operands.headD "-"
        match c.read input fs with
        | .error .isDirectory => (notOpened c input .isDirectory, fs)
        | .error e => (notRead c 1 input e, fs)
        | .ok text =>
          let key (cs : List Char) := if o.has 'i' then cs.map Char.toUpper else cs
          let found := (runs (fun a b => key a = key b) (bareLines text.toList)).filter fun (n, _) =>
            (!o.has 'd' || 1 < n) && (!o.has 'u' || n = 1)
          let lines := found.map fun (n, line) =>
            if o.has 'c' then
              let ds := Nat.toDigits 10 n
              List.replicate (7 - ds.length) ' ' ++ ds ++ ' ' :: line
            else line
          let text := String.ofList (joined lines)
          match operands[1]? with
          | some path =>
            match fs.write (.ofOctets path) (Text.toBytes text) with
            | .ok fs => ((Outcome.silent 0).reading [input], fs)
            | .error e => (notRead c 1 path e, fs)
          | none => ((Outcome.print text).reading [input], fs)

/-! ## Octets -/

def unescaped : (fuel : Nat) → List Char → List (Char × Bool)
  | 0, _ => []
  | _, [] => []
  | fuel + 1, '\\' :: cs =>
    match EscapeStyle.escape? ⟨false, true, false, false, false⟩ cs, cs with
    | some (c, n), _ => (c, true) :: unescaped fuel (cs.drop n)
    | none, c :: cs => (c, true) :: unescaped fuel cs
    | none, [] => [('\\', true)]
  | fuel + 1, c :: cs => (c, false) :: unescaped fuel cs

def octetsBetween (a b : Char) : List Char :=
  (List.range (b.toNat + 1 - a.toNat)).map fun i => Char.ofNat (a.toNat + i)

def classOctets (name : String) : Option (List Char) :=
  (List.lookup name Pattern.classRanges).map fun ranges =>
    (octetsBetween '\x00' '\xff').filter fun c => ranges.any fun r => r.1 ≤ c && c ≤ r.2

def octetSet : (fuel : Nat) → List (Char × Bool) → List Char
  | 0, _ => []
  | _, [] => []
  | fuel + 1, ('[', false) :: (':', false) :: cs =>
    let name := (cs.map Prod.fst).takeWhile (· ≠ ':')
    match classOctets (String.ofList name), cs.drop name.length with
    | some found, (':', _) :: (']', _) :: rest => found ++ octetSet fuel rest
    | _, _ => '[' :: octetSet fuel ((':', false) :: cs)
  | fuel + 1, (a, _) :: ('-', false) :: (b, _) :: cs => octetsBetween a b ++ octetSet fuel cs
  | fuel + 1, (c, _) :: cs => c :: octetSet fuel cs

def octetsOf (text : String) : List Char :=
  let cs := text.toList
  octetSet (cs.length + 1) (unescaped (cs.length + 1) cs)

/-- Drops adjacent copies of some octets. -/
def squeeze (set : List Char) : List Char → List Char
  | a :: b :: cs => if a = b && set.contains a then squeeze set (b :: cs) else a :: squeeze set (b :: cs)
  | cs => cs

/-- The octet in the place of another one, where the last octet of a set stands for all that follow. -/
def translated (table : List (Char × Char)) (c : Char) : Char :=
  ((table.reverse.find? (·.1 = c)).map Prod.snd).getD c

/-- Replaces or drops octets of the input. -/
def tr : Tool := withOptions ⟨"cCdst", "", [("complement", 'c'), ("delete", 'd'), ("squeeze-repeats", 's')]⟩ 1
  fun c o fs =>
    let complement (set : List Char) := if o.has 'c' || o.has 'C' then
        (octetsBetween '\x00' '\xff').filter (!set.contains ·) else set
    let input := (Text.ofBytes c.input).toList
    let done (cs : List Char) := ((Outcome.print (String.ofList cs)).drain, fs)
    match o.operands with
    | [] => (c.misuse 1 "missing operand", fs)
    | [first] =>
      let set := complement (octetsOf first)
      if o.has 'd' then
        if o.has 's' then
          (c.misuse 1 ("missing operand after " ++ quoteName first
            ++ "\nTwo strings must be given when both deleting and squeezing repeats."), fs)
        else done (input.filter (!set.contains ·))
      else if o.has 's' then done (squeeze set input)
      else (c.misuse 1 (s!"missing operand after {quoteName first}"
        ++ "\nTwo strings must be given when translating."), fs)
    | [first, second] =>
      let set := complement (octetsOf first)
      let new := octetsOf second
      if o.has 'd' then
        if o.has 's' then done (squeeze new (input.filter (!set.contains ·)))
        else (c.misuse 1 (s!"extra operand {quoteName second}"
          ++ "\nOnly one string may be given when deleting without squeezing repeats."), fs)
      else
        match new.getLast? with
        | none => (c.fail 1 "when not truncating set1, string2 must be non-empty", fs)
        | some last =>
          let table := set.zip (new ++ List.replicate (set.length - new.length) last)
          let changed := input.map (translated table)
          done (if o.has 's' then squeeze new changed else changed)
    | _ :: _ :: extra :: _ => (c.misuse 1 s!"extra operand {quoteName extra}", fs)

/-! ## Columns -/

/-- Ranges of numbers from one on, which may be open. -/
def ranges? (text : String) : Option (List (Nat × Option Nat)) :=
  (Text.fields ',' text.toList).mapM fun part =>
    match Text.fields '-' part with
    | [ds] => (Text.readDigits? ds).map fun n => (n, some n)
    | [lo, hi] =>
      match lo, Text.readDigits? lo, hi, Text.readDigits? hi with
      | [], _, _, some n => some (1, some n)
      | _, some m, [], _ => some (m, none)
      | _, some m, _, some n => some (m, some n)
      | _, _, _, _ => none
    | _ => none

/-- Elements at chosen places, counted from one. -/
def chosen {α : Type} (complement : Bool) (ranges : List (Nat × Option Nat)) (xs : List α) : List α :=
  (xs.zipIdx 1).filterMap fun (x, i) =>
    let within := ranges.any fun (lo, hi) => lo ≤ i && hi.all (i ≤ ·)
    if within != complement then some x else none

def cut : Tool :=
  withOptions ⟨"snzC", "bcfdO", [("delimiter", 'd'), ("fields", 'f'), ("characters", 'c'), ("bytes", 'b'),
    ("only-delimited", 's'), ("complement", 'C'), ("output-delimiter", 'O')]⟩ 1 fun c o fs =>
    match o.value? 'f', o.value? 'c' <|> o.value? 'b' with
    | none, none => (c.misuse 1 "you must specify a list of bytes, characters, or fields", fs)
    | fields, octets =>
      let isFields := fields.isSome
      let list := (fields <|> octets).getD ""
      let delimiter := ((o.value? 'd').bind fun t => t.toList.head?).getD '\t'
      match ranges? list with
      | none =>
        (c.misuse 1 ((if isFields then "invalid field value " else "invalid byte/character position ")
          ++ quoteName list), fs)
      | some ranges =>
        if ranges.any (·.1 = 0) then
          (c.misuse 1 (if isFields then "fields are numbered from 1"
            else "byte/character positions are numbered from 1"), fs)
        else
          let joint := ((o.value? 'O').map String.toList).getD [delimiter]
          let cutLine (line : List Char) : Option (List Char) :=
            if !isFields then some (chosen (o.has 'C') ranges line)
            else if !line.contains delimiter then if o.has 's' then none else some line
            else some (List.intercalate joint (chosen (o.has 'C') ranges (Text.fields delimiter line)))
          filter c o.operands (notRead c 1)
            (fun _ cs => .print (String.ofList (joined ((bareLines cs).filterMap cutLine)))) fs

/-- Writes the octets of each line backwards. -/
def rev : Tool := withOptions ⟨"0", "", []⟩ 1 fun c o fs =>
  filter c o.operands (fun path e => c.fail 1 s!"cannot open {path}: {e.description}")
    (fun _ cs => .print (String.ofList ((linesOf cs).map fun line =>
      let bare := withoutEnd line
      bare.reverse ++ line.drop bare.length).flatten)) fs

/-- Writes the lines of files backwards. -/
def tac : Tool := withOptions ⟨"br", "s", []⟩ 1 fun c o fs =>
  filter c o.operands (fun path e => match e with
      | .isDirectory => c.fail 1 s!"{quoteIfNeeded path}: read error: Invalid argument"
      | e => c.fail 1 s!"failed to open {quoteName path} for reading: {e.description}")
    (fun _ cs => .print (String.ofList (linesOf cs).reverse.flatten)) fs

/-! ## Searching -/

/-- All parts of a line that an expression accepts, from left to right, without those that are empty. -/
def matchesIn (r : Regex) (ignoreCase : Bool) : (fuel : Nat) → Regex.Place → List (List Char)
  | 0, _ => []
  | fuel + 1, p =>
    match r.find? ignoreCase p with
    | none => []
    | some (start, stop) =>
      let found := start.upTo stop
      if found = [] then
        match stop.next? with
        | some q => matchesIn r ignoreCase fuel q
        | none => []
      else found :: matchesIn r ignoreCase fuel { stop with groups := [] }

def regexComplaint (extended : Bool) (text : String) : String :=
  let cs := text.toList
  if cs.contains '[' then "Unmatched [, [^, [:, [., or [="
  else if cs.contains '(' then "Unmatched ( or \\("
  else if cs.contains ')' && extended then "Unmatched ) or \\)"
  else if cs.getLast? = some '\\' then "Trailing backslash"
  else "Invalid regular expression"

/-- The expression of one of several lines, as a program that searches takes it. -/
def searched? (o : Options) (pattern : String) : Except String Regex :=
  let extended := o.last? "EFGP" = some 'E' || o.last? "EFGP" = some 'P'
  let one (text : List Char) : Except String Regex :=
    let text := String.ofList text
    if o.last? "EFGP" = some 'F' then .ok (.ofText text)
    else match Regex.parse? extended text with
      | some r => .ok r
      | none => .error (regexComplaint extended text)
  match (Text.fields '\n' pattern.toList).mapM one with
  | .error e => .error e
  | .ok rs =>
    let r := match rs.reverse with
      | [] => Regex.empty
      | last :: others => others.foldl (fun r s => .either s r) last
    let r := if o.has 'w' then .both (.wordEdge true) (.both r (.wordEdge true)) else r
    .ok (if o.has 'x' then .both .start (.both r .stop) else r)

def lineMark (o : Options) (named : Bool) (path : String) (number : Nat) (mark : String) : String :=
  (if named then (if path = "-" then "(standard input)" else path) ++ mark else "")
    ++ (if o.has 'n' then toString number ++ mark else "")

def searchFile (o : Options) (r : Regex) (named : Bool) (path : String) (cs : List Char) : String × Bool :=
  let ignoreCase := o.has 'i' || o.has 'y'
  let lines := (bareLines cs).zipIdx 1
  let found := lines.filter fun (line, _) => r.accepts ignoreCase line != o.has 'v'
  let found := match (o.value? 'm').bind String.toNat? with
    | some n => found.take n
    | none => found
  let text :=
    if o.has 'q' then ""
    else if o.has 'l' then if found = [] then "" else (if path = "-" then "(standard input)" else path) ++ "\n"
    else if o.has 'L' then if found = [] then (if path = "-" then "(standard input)" else path) ++ "\n" else ""
    else if o.has 'c' then
      (if named then (if path = "-" then "(standard input)" else path) ++ ":" else "")
        ++ toString found.length ++ "\n"
    else if o.has 'o' then
      if o.has 'v' then ""
      else String.join (found.flatMap fun (line, i) =>
        (matchesIn r ignoreCase (line.length + 1) (.ofText line)).map fun part =>
          lineMark o named path i ":" ++ String.ofList part ++ "\n")
    else String.join (found.map fun (line, i) => lineMark o named path i ":" ++ String.ofList line ++ "\n")
  (text, found ≠ [])

def deepFiles (fs : FileSystem) : (fuel : Nat) → String → List String
  | 0, path => [path]
  | fuel + 1, path =>
    if fs.isDir (.ofOctets path) then
      (Pattern.names fs path).flatMap fun name => deepFiles fs fuel (below path name)
    else [path]

def grep : Tool := fun c fs =>
  let table : OptionTable := ⟨"EFGPivnclLoqsxwhHrRyabUZz", "emfABC",
    [("extended-regexp", 'E'), ("fixed-strings", 'F'), ("ignore-case", 'i'), ("invert-match", 'v'),
     ("line-number", 'n'), ("count", 'c'), ("quiet", 'q'), ("silent", 'q'), ("only-matching", 'o'),
     ("word-regexp", 'w'), ("line-regexp", 'x'), ("no-messages", 's'), ("recursive", 'r'), ("regexp", 'e'),
     ("no-filename", 'h'), ("with-filename", 'H'), ("max-count", 'm'), ("files-with-matches", 'l')]⟩
  let usage := s!"Usage: {c.name} [OPTION]... PATTERNS [FILE]...\nTry '{c.name} --help' for more information."
  match Options.read table c.args with
  | .error e => (.failed 2 s!"{c.name}: {e.message}\n{usage}", fs)
  | .ok o =>
    let given := o.values 'e'
    let (pattern?, operands) := if given ≠ [] then (some ("\n".intercalate given), o.operands)
      else (o.operands.head?, o.operands.tail)
    match pattern? with
    | none => (.failed 2 usage, fs)
    | some pattern =>
      match searched? o pattern with
      | .error text => (c.fail 2 text, fs)
      | .ok r =>
        let deep := o.has 'r' || o.has 'R'
        let operands := if operands = [] then [if deep then "." else "-"] else operands
        let named := match o.last? "hH" with
          | some 'h' => false
          | some _ => true
          | none => 1 < operands.length || (deep && operands.any fun p => fs.isDir (.ofOctets p))
        let files := if deep then operands.flatMap (deepFiles fs (fs.nodes.entries.length + 1)) else operands
        let (done, found, failed) := files.foldl (fun (done, found, failed) path =>
          match c.read path fs with
          | .ok text =>
            let (text, any) := searchFile o r named path text.toList
            (done ++ .print text, found || any, failed)
          | .error e =>
            (if o.has 's' then done else done ++ notRead c 2 path e, found, true))
          ((.silent 0, false, false) : Outcome × Bool × Bool)
        let status := if failed && !(found && o.has 'q') then 2 else if found then 0 else 1
        ((done.withStatus status).reading files, fs)

end Tool

end BaseLang
