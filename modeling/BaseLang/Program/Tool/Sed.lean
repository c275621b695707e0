import BaseLang.Program.Tool.Filter

/-!
# The stream editor

* `Edit.Address`, `Edit.Action`, `Edit.Step` : the commands of an editor, in a row in which blocks and
  branches are jumps;
* `Edit.parse` : the commands that a text spells;
* `Edit.run` : what commands make of lines;
* `Tool.sed` : the program.
-/

namespace BaseLang

namespace Edit

inductive Address where
  | line (n : Nat)
  | last
  | step (first step : Nat)
  | accepting (r : Option Regex) (ignoreCase : Bool)
  | further (n : Nat)

/-- A part of what is put in the place of a text that has been found. -/
inductive Part where
  | text (cs : List Char)
  | group (n : Nat)

inductive Action where
  | block (behind : Nat)
  | nothing
  | substitute (r : Option Regex) (ignoreCase : Bool) (parts : List Part) (all printing : Bool) (number : Nat)
  | replaceOctets (table : List (Char × Char))
  | delete
  | deleteFirst
  | print
  | printFirst
  | next
  | nextInto
  | quit (printing : Bool) (status : Nat)
  | append (text : List Char)
  | insert (text : List Char)
  | change (text : List Char)
  | number
  | hold (appending : Bool)
  | get (appending : Bool)
  | exchange
  | branch (onChange : Option Bool) (label : String)
  | label (name : String)

structure Step where
  first : Option Address
  second : Option Address
  negated : Bool
  action : Action

/-! ## Reading -/

/-- A text up to an unescaped delimiter, with what follows that. An escaped delimiter stands for itself, and
the delimiter in a class does not count for an expression. -/
def upTo (isRegex : Bool) (delimiter : Char) : (fuel : Nat) → (inClass : Bool) → List Char →
    Option (List Char × List Char)
  | 0, _, _ => none
  | _, _, [] => none
  | fuel + 1, inClass, c :: cs =>
    let more (taken : List Char) (inClass : Bool) (cs : List Char) :=
      (upTo isRegex delimiter fuel inClass cs).map fun (t, rest) => (taken ++ t, rest)
    if c = '\\' && !inClass then
      match cs with
      | [] => none
      | d :: cs =>
        if d = delimiter then more [d] inClass cs
        else more [c, d] inClass cs
    else if c = delimiter && !inClass then some ([], cs)
    else if isRegex && c = '[' && !inClass then
      match cs with
      | '^' :: ']' :: cs => more [c, '^', ']'] true cs
      | ']' :: cs => more [c, ']'] true cs
      | cs => more [c] true cs
    else if isRegex && c = ']' && inClass then more [c] false cs
    else more [c] inClass cs

def parts : (fuel : Nat) → List Char → List Part
  | 0, _ => []
  | _, [] => []
  | fuel + 1, '&' :: cs => .group 0 :: parts fuel cs
  | fuel + 1, '\\' :: c :: cs =>
    if c.isDigit then .group (c.toNat - '0'.toNat) :: parts fuel cs
    else .text [if c = 'n' then '\n' else if c = 't' then '\t' else c] :: parts fuel cs
  | fuel + 1, c :: cs => .text [c] :: parts fuel cs

/-- The expression of an address or a substitution; an empty one stands for the last one that was used. -/
def regex (extended : Bool) (cs : List Char) : Except String (Option Regex) :=
  if cs = [] then .ok none
  else match Regex.parse? extended (String.ofList cs) with
    | some r => .ok (some r)
    | none =>
      .error (Tool.regexComplaint extended (String.ofList cs))

/-- What is left of a script, and why it is wrong. -/
abbrev Parsed (α : Type) := Except (String × List Char) (α × List Char)

def dropBlanks (cs : List Char) : List Char := cs.dropWhile fun c => c = ' ' || c = '\t'

def address (extended : Bool) (cs : List Char) : Parsed (Option Address) :=
  let accepting (delimiter : Char) (cs : List Char) : Parsed (Option Address) :=
    match upTo true delimiter (cs.length + 1) false cs with
    | none => .error ("unterminated address regex", [])
    | some (text, rest) =>
      let (ignoreCase, rest) := match rest with
        | 'I' :: rest => (true, rest)
        | rest => (false, rest)
      match regex extended text with
      | .ok r => .ok (some (.accepting r ignoreCase), rest)
      | .error e => .error (e, rest)
  match cs with
  | '$' :: rest => .ok (some .last, rest)
  | '/' :: rest => accepting '/' rest
  | '\\' :: c :: rest => accepting c rest
  | '+' :: rest =>
    let ds := rest.takeWhile Char.isDigit
    .ok (some (.further (Nat.ofDigitChars 10 ds 0)), rest.drop ds.length)
  | _ =>
    let ds := cs.takeWhile Char.isDigit
    if ds = [] then .ok (none, cs)
    else
      let n := Nat.ofDigitChars 10 ds 0
      match cs.drop ds.length with
      | '~' :: rest =>
        let step := rest.takeWhile Char.isDigit
        .ok (some (.step n (Nat.ofDigitChars 10 step 0)), rest.drop step.length)
      | rest => .ok (some (.line n), rest)

/-- The text of a command that writes lines: what is on the rest of the line, or on the next one behind a
backslash. A backslash in front of a line end continues the text. -/
def lineText : (fuel : Nat) → List Char → List Char × List Char
  | 0, cs => ([], cs)
  | _, [] => ([], [])
  | _, '\n' :: cs => ([], cs)
  | fuel + 1, '\\' :: c :: cs => let (t, rest) := lineText fuel cs; (c :: t, rest)
  | fuel + 1, c :: cs => let (t, rest) := lineText fuel cs; (c :: t, rest)

/-- The text behind the letter of a command that writes lines. -/
def written (cs : List Char) : List Char × List Char :=
  let cs := dropBlanks cs
  let cs := match cs with
    | '\\' :: '\n' :: rest => rest
    | '\\' :: rest => match dropBlanks rest with
      | '\n' :: rest => rest
      | _ => rest
    | cs => cs
  let (text, rest) := lineText (cs.length + 1) cs
  (text ++ ['\n'], rest)

/-- The flags of a substitution: all, printing, ignoring case, and which one. -/
def flags : (fuel : Nat) → (Bool × Bool × Bool × Nat) → List Char → (Bool × Bool × Bool × Nat) × List Char
  | 0, f, cs => (f, cs)
  | fuel + 1, (all, printing, ignoreCase, n), cs =>
    match cs with
    | 'g' :: cs => flags fuel (true, printing, ignoreCase, n) cs
    | 'p' :: cs => flags fuel (all, true, ignoreCase, n) cs
    | 'i' :: cs | 'I' :: cs => flags fuel (all, printing, true, n) cs
    | 'm' :: cs | 'M' :: cs => flags fuel (all, printing, ignoreCase, n) cs
    | c :: _ =>
      let ds := cs.takeWhile Char.isDigit
      if c.isDigit then flags fuel (all, printing, ignoreCase, Nat.ofDigitChars 10 ds 0) (cs.drop ds.length)
      else ((all, printing, ignoreCase, n), cs)
    | [] => ((all, printing, ignoreCase, n), cs)

def action (extended : Bool) (c : Char) (cs : List Char) : Parsed Action :=
  let labelled (f : String → Action) : Parsed Action :=
    let cs := dropBlanks cs
    let name := cs.takeWhile fun c => c ≠ '\n' && c ≠ ';'
    .ok (f (String.ofList (name.reverse.dropWhile (· = ' ')).reverse), cs.drop name.length)
  let status : Nat × List Char :=
    let cs := dropBlanks cs
    let ds := cs.takeWhile Char.isDigit
    (Nat.ofDigitChars 10 ds 0, cs.drop ds.length)
  match c with
  | '\x7b' => .ok (.block 0, cs)
  | '\x7d' => .ok (.nothing, cs)
  | '=' => .ok (.number, cs)
  | 'd' => .ok (.delete, cs)
  | 'D' => .ok (.deleteFirst, cs)
  | 'p' => .ok (.print, cs)
  | 'P' => .ok (.printFirst, cs)
  | 'n' => .ok (.next, cs)
  | 'N' => .ok (.nextInto, cs)
  | 'h' => .ok (.hold false, cs)
  | 'H' => .ok (.hold true, cs)
  | 'g' => .ok (.get false, cs)
  | 'G' => .ok (.get true, cs)
  | 'x' => .ok (.exchange, cs)
  | 'q' => .ok (.quit true status.1, status.2)
  | 'Q' => .ok (.quit false status.1, status.2)
  | 'a' | 'i' | 'c' =>
    if dropBlanks cs = [] then .error ("expected \\ after \x60a', \x60c' or \x60i'", [])
    else
      let (text, rest) := written cs
      .ok (if c = 'a' then .append text else if c = 'i' then .insert text else .change text, '\n' :: rest)
  | ':' => labelled .label
  | 'b' => labelled (.branch none)
  | 't' => labelled (.branch (some true))
  | 'T' => labelled (.branch (some false))
  | 's' | 'y' =>
    let open_ := s!"unterminated \x60{c}' command"
    match cs with
    | [] => .error (open_, [])
    | delimiter :: rest =>
      match upTo (c = 's') delimiter (rest.length + 1) false rest with
      | none => .error (open_, [])
      | some (first, rest) =>
        match upTo false delimiter (rest.length + 1) false rest with
        | none => .error (open_, [])
        | some (second, rest) =>
          if c = 'y' then
            let plain (cs : List Char) := (Tool.unescaped (cs.length + 1) cs).map Prod.fst
            let (a, b) := (plain first, plain second)
            if a.length ≠ b.length then .error ("strings for \x60y' command are different lengths", rest)
            else .ok (.replaceOctets (a.zip b), rest)
          else
            let ((all, printing, ignoreCase, n), rest) := flags (rest.length + 1) (false, false, false, 1) rest
            match regex extended first with
            | .error e => .error (e, rest)
            | .ok r => .ok (.substitute r ignoreCase (parts (second.length + 1) second) all printing n, rest)
  | _ => .error (s!"unknown command: \x60{c}'", cs)

/-- The commands of a script, with the places of the blocks that are open. -/
def steps (extended : Bool) : (fuel : Nat) → (opened : List Nat) → (done : Array Step) → List Char →
    Except (String × List Char) (Array Step)
  | 0, _, done, _ => .ok done
  | fuel + 1, opened, done, cs =>
    match cs.dropWhile fun c => c = ' ' || c = '\t' || c = '\n' || c = ';' with
    | [] => if opened = [] then .ok done else .error ("unmatched \x60\x7b'", cs)
    | '#' :: cs => steps extended fuel opened done (cs.dropWhile (· ≠ '\n'))
    | cs =>
      match address extended cs with
      | .error e => .error e
      | .ok (first, rest) =>
        let second : Parsed (Option Address) := match first, dropBlanks rest with
          | some _, ',' :: rest =>
            match address extended (dropBlanks rest) with
            | .ok (none, rest) => .error ("unexpected \x60,'", rest)
            | r => r
          | _, _ => .ok (none, rest)
        match second with
        | .error e => .error e
        | .ok (second, rest) =>
          let rest := dropBlanks rest
          let bare := rest.dropWhile fun c => c = '!' || c = ' '
          let negated := rest.head? = some '!'
          match bare with
          | [] => .error ("missing command", [])
          | c :: rest =>
            match action extended c rest with
            | .error e => .error e
            | .ok (a, rest) =>
              let done := done.push ⟨first, second, negated, a⟩
              let here := done.size - 1
              match c, opened with
              | '\x7b', _ => steps extended fuel (here :: opened) done rest
              | '\x7d', [] => .error ("unexpected \x60\x7d'", rest)
              | '\x7d', start :: opened =>
                steps extended fuel opened
                  (done.modify start fun s => { s with action := .block (here + 1) }) rest
              | _, _ =>
                match dropBlanks rest with
                | [] | '\n' :: _ | ';' :: _ | '#' :: _ | '\x7d' :: _ => steps extended fuel opened done rest
                | _ :: behind =>
                  .error (if c = 's' then "unknown option to \x60s'" else "extra characters after command",
                    behind)

/-- The commands that a text spells, or why it spells none. -/
def parse (extended : Bool) (text : String) : Except String (Array Step) :=
  let cs := text.toList
  match steps extended (cs.length + 2) [] #[] cs with
  | .ok done => .ok done
  | .error (e, rest) =>
    let place := if e.startsWith "unmatched" then 0 else cs.length - rest.length
    .error s!"-e expression #1, char {place}: {e}"

/-! ## Running -/

/-- What an editor works on: the lines that follow, whether the last one has an end, the line and the one that
is held, what is written behind it, which ranges of commands are open and up to which line, and the last
expression that was used. -/
structure State where
  lines : List (List Char)
  ended : Bool
  number : Nat
  space : List Char
  held : List Char
  behind : List Char
  output : List Char
  opened : List (Nat × Option Nat)
  changed : Bool
  lastRegex : Regex

/-- How a round over a line ends: with the line written or not, with the rest of the line in another round, or
with the end of all. -/
inductive Ending where
  | done (printing : Bool)
  | again
  | quit (printing : Bool) (status : Nat)

namespace State

def isLast (s : State) : Bool := s.lines = []

def put (s : State) (line : List Char) : State :=
  { s with output := s.output ++ line ++ if s.isLast && !s.ended then [] else ['\n'] }

/-- Writes what has to stand behind the line. -/
def flush (s : State) : State :=
  if s.behind = [] then s
  else
    let gap := if s.output.getLast?.all (· = '\n') then [] else ['\n']
    { s with output := s.output ++ gap ++ s.behind, behind := [] }

/-- The expression that is meant. -/
def regex (s : State) (r : Option Regex) : Regex := r.getD s.lastRegex

def matches_ (s : State) : Address → Bool
  | .line n => s.number = n
  | .last => s.isLast
  | .step first step => if step = 0 then s.number = first else first ≤ s.number && (s.number - first) % step = 0
  | .accepting r ignoreCase => (s.regex r).accepts ignoreCase s.space
  | .further _ => false

/-- Whether a command is about the line, and the state with its range open or closed. -/
def selects (s : State) (i : Nat) (step : Step) : Bool × State :=
  match step.first, step.second with
  | none, _ => (true, s)
  | some a, none => (s.matches_ a, s)
  | some a, some b =>
    let close : State := { s with opened := s.opened.filter (·.1 ≠ i) }
    match List.lookup i s.opened with
    | some stop =>
      match b, stop with
      | _, some n => if s.number < n then (true, s) else (s.number = n, close)
      | .last, none => (true, if s.isLast then close else s)
      | b, none => (true, if s.matches_ b then close else s)
    | none =>
      if s.matches_ a then
        let opening (stop : Option Nat) : Bool × State := (true, { s with opened := (i, stop) :: s.opened })
        match b with
        | .line n => if n ≤ s.number then (true, s) else opening (some n)
        | .further n => if n = 0 then (true, s) else opening (some (s.number + n))
        | .last => if s.isLast then (true, s) else opening none
        | _ => opening none
      else (false, s)

def replacement (found : List Char) (groups : List (Nat × List Char)) (parts : List Part) : List Char :=
  (parts.map fun
    | .text cs => cs
    | .group 0 => found
    | .group n => (List.lookup n groups).getD []).flatten

/-- A line with replacements from the one with a number on, and whether there are any. -/
def substituted (r : Regex) (ignoreCase : Bool) (parts : List Part) (all : Bool) (number : Nat) :
    (fuel : Nat) → (count : Nat) → (afterMatch : Bool) → Regex.Place → List Char × Bool
  | 0, _, _, p => (p.after, false)
  | fuel + 1, count, afterMatch, p =>
    match r.find? ignoreCase p with
    | none => (p.after, false)
    | some (start, stop) =>
      let before := p.upTo start
      let found := start.upTo stop
      let step (q : Regex.Place) (count : Nat) (text : List Char) (changed : Bool) : List Char × Bool :=
        match found, q.next?, q.after with
        | [], some next, c :: _ =>
          let (rest, more) := substituted r ignoreCase parts all number fuel count false { next with groups := [] }
          (before ++ text ++ c :: rest, changed || more)
        | [], _, _ => (before ++ text ++ q.after, changed)
        | _, _, _ =>
          let (rest, more) := substituted r ignoreCase parts all number fuel count true { q with groups := [] }
          (before ++ text ++ rest, changed || more)
      if found = [] && before = [] && afterMatch then step stop count [] false
      else
        let count := count + 1
        if count < number then step stop count found false
        else
          let text := replacement found stop.groups parts
          if all then step stop count text true else (before ++ text ++ stop.after, true)

/-- The text up to the first line end, and what follows that. -/
def firstLine (cs : List Char) : List Char × Option (List Char) :=
  let line := cs.takeWhile (· ≠ '\n')
  (line, if line.length < cs.length then some (cs.drop (line.length + 1)) else none)

end State

def rounds (silent : Bool) (program : Array Step) : (fuel : Nat) → (i : Nat) → State → Ending × State
  | 0, _, s => (.quit false 4, s)
  | fuel + 1, i, s =>
    match program[i]? with
    | none => (.done true, s)
    | some step =>
      let (selected, s) := s.selects i step
      let goOn (s : State) : Ending × State := rounds silent program fuel (i + 1) s
      let jump (label : String) (s : State) : Ending × State :=
        if label = "" then (.done true, s)
        else match program.findIdx? fun t => match t.action with
            | .label name => name = label
            | _ => false with
          | some j => rounds silent program fuel j s
          | none => (.done true, s)
      if selected = step.negated then
        match step.action with
        | .block behind => rounds silent program fuel behind s
        | _ => goOn s
      else match step.action with
        | .block _ | .nothing | .label _ => goOn s
        | .substitute r ignoreCase parts all printing n =>
          let r := s.regex r
          let (text, changed) :=
            State.substituted r ignoreCase parts all n (s.space.length + 2) 0 false (.ofText s.space)
          let s := { s with lastRegex := r }
          if changed then
            let s := { s with space := text, changed := true }
            goOn (if printing then s.put s.space else s)
          else goOn s
        | .replaceOctets table => goOn { s with space := s.space.map (Tool.translated table) }
        | .delete => (.done false, s)
        | .deleteFirst =>
          match State.firstLine s.space with
          | (_, none) => (.done false, s)
          | (_, some rest) => (.again, { s with space := rest })
        | .print => goOn (s.put s.space)
        | .printFirst => goOn (s.put (State.firstLine s.space).1)
        | .next =>
          match s.lines with
          | [] => (.quit true 0, s)
          | line :: lines =>
            let s := (if silent then s else s.put s.space).flush
            goOn { s with space := line, lines, number := s.number + 1 }
        | .nextInto =>
          match s.lines with
          | [] => (.quit true 0, s)
          | line :: lines =>
            let s := s.flush
            goOn { s with space := s.space ++ '\n' :: line, lines, number := s.number + 1 }
        | .quit printing status => (.quit printing status, s)
        | .append text => goOn { s with behind := s.behind ++ text }
        | .insert text => goOn { s with output := s.output ++ text }
        | .change text =>
          let last := step.second.isNone || step.negated || !s.opened.any (·.1 = i)
          (.done false, if last then { s with output := s.output ++ text } else s)
        | .number => goOn { s with output := s.output ++ (toString s.number).toList ++ ['\n'] }
        | .hold appending => goOn { s with held := if appending then s.held ++ '\n' :: s.space else s.space }
        | .get appending => goOn { s with space := if appending then s.space ++ '\n' :: s.held else s.held }
        | .exchange => goOn { s with space := s.held, held := s.space }
        | .branch none label => jump label s
        | .branch (some onChange) label =>
          let s' := { s with changed := false }
          if s.changed = onChange then jump label s' else goOn s'

def run (silent : Bool) (program : Array Step) : (fuel : Nat) → (again : Bool) → State → Nat × State
  | 0, _, s => (4, s)
  | fuel + 1, again, s =>
    let start : Option State := if again then some s
      else match s.lines with
        | [] => none
        | line :: lines =>
          some { s with space := line, lines, number := s.number + 1, changed := false }
    match start with
    | none => (0, s)
    | some s =>
      let (ending, s) := rounds silent program 100000 0 s
      let close (printing : Bool) (s : State) := (if printing && !silent then s.put s.space else s).flush
      match ending with
      | .done printing => run silent program fuel false (close printing s)
      | .again => run silent program fuel true s.flush
      | .quit printing status => (status, close printing s)

def edit (silent : Bool) (program : Array Step) (text : List Char) : Nat × List Char :=
  let lines := Tool.bareLines text
  let (status, s) := run silent program (2 * text.length + 2) false
    ⟨lines, text.getLast?.all (· = '\n'), 0, [], [], [], [], [], false, .empty⟩
  (status, s.output)

end Edit

namespace Tool

def sed : Tool :=
  withOptions ⟨"nErszui", "el", [("quiet", 'n'), ("silent", 'n'), ("regexp-extended", 'E'), ("expression", 'e'),
    ("in-place", 'i'), ("separate", 's')]⟩ 1 fun c o fs =>
    let scripts := o.values 'e'
    let (script?, operands) := if scripts ≠ [] then (some ("\n".intercalate scripts), o.operands)
      else (o.operands.head?, o.operands.tail)
    match script? with
    | none => (.failed 1 s!"Usage: {c.name} [OPTION]... \x7bscript-only-if-no-other-script\x7d [input-file]...", fs)
    | some script =>
      match Edit.parse (o.has 'E' || o.has 'r') script with
      | .error e => (c.fail 1 e, fs)
      | .ok program =>
        let silent := o.has 'n' || script.startsWith "#n\n"
        let operands := if operands = [] then ["-"] else operands
        let complaint (path : String) (e : OsError) : Outcome :=
          match e with
          | .isDirectory =>
            if o.has 'i' then c.fail 4 s!"couldn't edit {path}: not a regular file"
            else c.fail 2 s!"read error on {path}: {e.description}"
          | e => c.fail 2 s!"can't read {path}: {e.description}"
        if o.has 'i' then
          forEach operands (fun path fs =>
            match c.read path fs with
            | .error e => (complaint path e, fs)
            | .ok text =>
              let (status, text) := Edit.edit silent program text.toList
              match fs.write (.ofOctets path) (Text.toBytes (String.ofList text)) with
              | .ok fs => (.silent status, fs)
              | .error e => (complaint path e, fs)) fs
        else
          let texts := operands.map fun path => (path, c.read path fs)
          let errors := texts.filterMap fun (path, r) =>
            match r with
            | .ok _ => none
            | .error e => some (complaint path e)
          let text := (texts.filterMap fun (_, r) => r.toOption.map String.toList).foldl (fun done cs =>
            if done.getLast?.all (· = '\n') then done ++ cs else done ++ '\n' :: cs) []
          let (status, text) := Edit.edit silent program text
          let done := errors.foldl (· ++ ·) (.silent 0) ++ .print (String.ofList text)
          let failed := if errors.isEmpty then 0 else 2
          ((done.withStatus (if status = 0 then failed else status)).reading operands, fs)

end Tool

end BaseLang
