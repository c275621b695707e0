import BaseLang.Program.Shell.Process

/-!
# Builtins

Commands that a shell runs itself. Each of them sets the status.

* `Builtin.cd`, `Builtin.read`, `Builtin.set`, … : the builtins;
* `Builtin.ofName?` : the builtin with a name. Those that run other commands than the text of a script, and
  `exec`, are not among them.
-/

namespace BaseLang.Shell.Builtin

open Act

abbrev Run := Runner → List String → Act Unit

def number (arg : String) : Act Nat :=
  match Text.readDigits? arg.toList with
  | some n => pure n
  | none => abort s!"Illegal number: {arg}"

/-! ## Output -/

def echo : Run := fun _ args => do
  print (Tool.shellEcho args)
  setStatus 0

def printf : Run := fun _ args => do
  match args with
  | [] | ["--"] => abort "usage: printf format [arg ...]"
  | "--" :: args | args =>
    let f := Tool.printf .shell args
    f.complaints.forM complain
    print (String.ofList f.text)
    setStatus f.status

def condition (words : List String) : Act Unit := do
  match Condition.status (← session).files words with
  | .ok status => setStatus status
  | .error e =>
    complain e.message
    setStatus 2

def bracket : Run := fun _ args =>
  match Condition.unbracketed? args with
  | some words => condition words
  | none => abort "missing ]"

/-! ## Directories -/

/-- The location that components lead to, where the one above a directory is always that which holds its
name. -/
def resolve (start : Location) (cs : List String) : Location :=
  cs.foldl (fun loc name =>
    if name = "" || name = "." then loc else if name = ".." then loc.tail else name :: loc) start

def cd : Run := fun _ args => do
  let s ← session
  let args := match args with
    | "-L" :: args | "-P" :: args | "--" :: args => args
    | args => args
  let given := args.headD ((s.value? "HOME").getD "")
  let target := if given = "-" then (s.value? "OLDPWD").getD "" else given
  let path := Path.ofOctets target
  let loc := resolve (if path.isAbsolute then [] else s.files.workingDir) path.segments
  match s.files.node? loc with
  | some (.dir _) =>
    let before := s.workingPath
    Action.modify fun s => { s with files := { s.files with workingDir := loc } }
    assign "OLDPWD" before
    assign "PWD" (← session).workingPath
    if given = "-" then print ((← session).workingPath ++ "\n")
    setStatus 0
  | _ => abort s!"can't cd to {given}"

def pwd : Run := fun _ _ => do
  print ((← session).workingPath ++ "\n")
  setStatus 0

/-! ## Variables -/

def quote (text : String) : String :=
  "'" ++ "'\"'\"'".intercalate ((Text.fields '\'' text.toList).map String.ofList) ++ "'"

/-- Variables as commands that set them, in order. -/
def listing (command : String) (vs : List (String × Variable)) : String :=
  let sorted := vs.mergeSort fun a b => decide (a.1 ≤ b.1)
  String.join (sorted.map fun (name, v) =>
    command ++ name ++ (match v.value with
      | some value => "=" ++ quote value
      | none => "") ++ "\n")

/-- A name, and the value behind an equals sign. -/
def splitAssignment (arg : String) : String × Option String :=
  let name := arg.toList.takeWhile (· ≠ '=')
  (String.ofList name,
    if name.length < arg.length then some (String.ofList (arg.toList.drop (name.length + 1))) else none)

/-- Marks variables, and gives them values. -/
def mark (command : String) (isMarked : Variable → Bool) (change : Variable → Variable) : Run := fun _ args => do
  match args with
  | [] | ["-p"] =>
    print (listing (command ++ " ") ((← session).bindings.entries.filter fun e => isMarked e.2))
  | "--" :: args | args =>
    args.forM fun arg => do
      let (name, value?) := splitAssignment arg
      if !isName name then abort s!"{name}: bad variable name"
      match value? with
      | some value => assign name value
      | none => pure ()
      Action.modify fun s =>
        let v := (s.bindings.get? name).getD ⟨none, false, false⟩
        { s with bindings := s.bindings.insert name (change v) }
  setStatus 0

/-- Gives variables to the programs that are run. -/
def export_ : Run := mark "export" (·.exported) fun v => { v with exported := true }

/-- Keeps variables as they are. -/
def readonly : Run := mark "readonly" (·.readOnly) fun v => { v with readOnly := true }

/-- Keeps what variables are outside of a function. -/
def local_ : Run := fun _ args => do
  if (← session).frames = [] then abort "not in a function"
  args.forM fun arg => do
    let (name, value?) := splitAssignment arg
    if !isName name then abort s!"{name}: bad variable name"
    Action.modify fun s => { s with
      frames := match s.frames with
        | [] => []
        | frame :: frames => ((name, s.bindings.get? name) :: frame) :: frames }
    match value? with
    | some value => assign name value
    | none => pure ()
  setStatus 0

def unset : Run := fun _ args => do
  let (functions, args) := match args with
    | "-f" :: args => (true, args)
    | "-v" :: args => (false, args)
    | args => (false, args)
  args.forM fun name => do
    match name.toList with
    | '-' :: c :: _ => abort s!"Illegal option -{c}"
    | _ =>
      if functions then
        Action.modify fun s => { s with functions := s.functions.filterKeys (· ≠ name) }
      else
        if !isName name then abort s!"{name}: bad variable name"
        if ((← session).bindings.get? name).any (·.readOnly) then abort s!"{name}: is read only"
        Action.modify (·.unset name)
  setStatus 0

def optionNames : List (String × Char) :=
  [("errexit", 'e'), ("noglob", 'f'), ("ignoreeof", 'I'), ("interactive", 'i'), ("monitor", 'm'),
   ("noexec", 'n'), ("stdin", 's'), ("xtrace", 'x'), ("verbose", 'v'), ("vi", 'V'), ("emacs", 'E'),
   ("noclobber", 'C'), ("allexport", 'a'), ("notify", 'b'), ("nounset", 'u')]

def setOption (on : Bool) (letter : Char) : Act Unit := .modify fun s =>
  let others := s.options.filter (· ≠ letter)
  { s with options := if on then others ++ [letter] else others }

def refuseOption (on : Bool) (text : String) : Act Unit :=
  abort ("Illegal option " ++ (if on then "-" else "+") ++ text)

def setOptions (on : Bool) (letters : List Char) : Act Unit :=
  letters.forM fun c =>
    if optionNames.any (·.2 = c) then setOption on c else refuseOption on (String.singleton c)

def setNamedOption (on : Bool) (name : String) : Act Unit :=
  match List.lookup name optionNames with
  | some c => setOption on c
  | none => refuseOption on ("o " ++ name)

/-- The options in front of the parameters, and the parameters if there are any. -/
def setFrom : (fuel : Nat) → List String → Act (Option (List String))
  | 0, _ => pure none
  | fuel + 1, args => do
    match args with
    | [] => return none
    | "--" :: args => return some args
    | "-" :: args => return if args = [] then none else some args
    | "-o" :: name :: args =>
      setNamedOption true name
      setFrom fuel args
    | "+o" :: name :: args =>
      setNamedOption false name
      setFrom fuel args
    | arg :: args =>
      match arg.toList with
      | '-' :: letters =>
        setOptions true letters
        setFrom fuel args
      | '+' :: letters =>
        setOptions false letters
        setFrom fuel args
      | _ => return some (arg :: args)

def set : Run := fun _ args => do
  match args with
  | [] => print (listing "" ((← session).bindings.entries.filter fun e => e.2.value.isSome))
  | _ =>
    match ← setFrom (args.length + 1) args with
    | some params => Action.modify fun s => { s with params }
    | none => pure ()
  setStatus 0

def shift : Run := fun _ args => do
  let n ← match args with
    | [] => pure 1
    | arg :: _ => number arg
  if (← session).params.length < n then abort "can't shift that many"
  Action.modify fun s => { s with params := s.params.drop n }
  setStatus 0

/-! ## Reading -/

/-- Characters up to the end of a line, with what a backslash takes the meaning of, how many octets they
take, and whether there is an end. -/
def line (raw : Bool) : (fuel : Nat) → List Char → List Pattern.Marked × Nat × Bool
  | 0, _ => ([], 0, false)
  | _, [] => ([], 0, false)
  | fuel + 1, c :: cs =>
    let more (m : Option Pattern.Marked) (skipped : Nat) (cs : List Char) :=
      let (ms, n, ended) := line raw fuel cs
      (m.toList ++ ms, n + skipped, ended)
    if c = '\n' then ([], 1, true)
    else if c = '\x00' then more none 1 cs
    else if c = '\\' && !raw then
      match cs with
      | '\n' :: cs => more none 2 cs
      | d :: cs => more (some (d, true)) 2 cs
      | [] => ([], 1, false)
    else more (some (c, false)) 1 cs

/-- The values that a line gives to some variables, of which the last one takes what is left. -/
def lineValues (ifs : List Char) (count : Nat) (ms : List Pattern.Marked) : List String :=
  let fragments := ms.map fun (c, quoted) => Fragment.char c quoted (!quoted)
  let found := Expansion.fields ifs fragments
  let text (ms : List Pattern.Marked) := String.ofList (ms.map Prod.fst)
  if found.length ≤ count then found.map text ++ List.replicate (count - found.length) ""
  else (found.take (count - 1)).map text ++ [text (remaining (count - 1) ms)]
where
  /-- A separator that is white space. -/
  isBlank (m : Pattern.Marked) : Bool := !m.2 && Expansion.isBlank m.1 && ifs.contains m.1
  /-- A separator. -/
  isSeparator (m : Pattern.Marked) : Bool := !m.2 && ifs.contains m.1
  /-- What is left of a line behind some fields, without the white space around it. -/
  remaining : Nat → List Pattern.Marked → List Pattern.Marked
    | 0, ms => ((ms.dropWhile isBlank).reverse.dropWhile isBlank).reverse
    | n + 1, ms =>
      let ms := (ms.dropWhile isBlank).dropWhile (!isSeparator ·)
      match ms.dropWhile isBlank with
      | m :: rest => if isSeparator m then remaining n rest else remaining n (m :: rest)
      | [] => []

/-- The options of `read`: whether a backslash is kept, and the names behind them. -/
def readArguments (raw : Bool) : (fuel : Nat) → List String → Act (Bool × List String)
  | 0, args => pure (raw, args)
  | fuel + 1, args =>
    match args with
    | "--" :: args => pure (raw, args)
    | "-p" :: _ :: args => readArguments raw fuel args
    | arg :: rest =>
      match arg.toList with
      | '-' :: 'r' :: [] => readArguments true fuel rest
      | '-' :: 'r' :: cs => readArguments true fuel (String.ofList ('-' :: cs) :: rest)
      | '-' :: 'p' :: _ :: _ => readArguments raw fuel rest
      | '-' :: c :: _ => abort s!"Illegal option -{c}"
      | _ => pure (raw, args)
    | [] => pure (raw, [])

def read : Run := fun _ args => do
  let (raw, names) ← readArguments false (args.length + 4) args
  if names = [] then abort "arg count"
  let s ← session
  let cs := (Text.ofBytes (s.available 0).1).toList
  let (ms, n, ended) := line raw (cs.length + 1) cs
  Action.modify (·.consume 0 n)
  (names.zip (lineValues s.separators names.length ms)).forM fun (name, value) => do
    if !isName name then abort s!"{name}: bad variable name"
    assign name value
  setStatus (if ended then 0 else 1)

/-- Looks at the next option among arguments. -/
def getopts : Run := fun _ args => do
  match args with
  | options :: name :: given =>
    let s ← session
    let args := if given = [] then s.params else given
    let place := max 1 (((s.value? "OPTIND").getD "1").toNat?.getD 1)
    let silent := options.toList.head? = some ':'
    let finish (place : Nat) : Act Unit := do
      assign "OPTIND" (toString place)
      assign name "?"
      Action.modify fun s => { s with optionPlace := 0 }
      setStatus 1
    let found (place inner : Nat) (letter : String) : Act Unit := do
      assign "OPTIND" (toString place)
      assign name letter
      Action.modify fun s => { s with optionPlace := inner }
      setStatus 0
    match args[place - 1]? with
    | none => finish place
    | some arg =>
      if arg = "--" then finish (place + 1)
      else match arg.toList with
        | '-' :: first :: rest =>
          let letters := first :: rest
          let c := letters[s.optionPlace]?.getD first
          let behind := letters.drop (s.optionPlace + 1)
          let next := if behind = [] then (place + 1, 0) else (place, s.optionPlace + 1)
          match (options.toList.dropWhile (· = ':')).dropWhile (· ≠ c) with
          | [] =>
            if silent then assign "OPTARG" (String.singleton c)
            else
              Action.modify (·.unset "OPTARG")
              Action.modify (·.print 2 s!"Illegal option -{c}\n")
            found next.1 next.2 "?"
          | _ :: ':' :: _ =>
            if behind ≠ [] then
              assign "OPTARG" (String.ofList behind)
              found (place + 1) 0 (String.singleton c)
            else match args[place]? with
              | some value =>
                assign "OPTARG" value
                found (place + 2) 0 (String.singleton c)
              | none =>
                if silent then
                  assign "OPTARG" (String.singleton c)
                  found (place + 1) 0 ":"
                else
                  Action.modify (·.unset "OPTARG")
                  Action.modify (·.print 2 s!"No arg for -{c} option\n")
                  found (place + 1) 0 "?"
          | _ =>
            Action.modify (·.unset "OPTARG")
            found next.1 next.2 (String.singleton c)
        | _ => finish place
  | _ => abort "Usage: getopts optstring var [arg...]"

/-! ## Control -/

def exit : Run := fun _ args => do
  match args with
  | [] => throw (.exit (← session).status)
  | arg :: _ => throw (.exit ((← number arg) % 256))

def return_ : Run := fun _ args => do
  match args with
  | [] => throw (.return (← session).status)
  | arg :: _ => throw (.return ((← number arg) % 256))

/-- How many loops a builtin is about, of those that are running. -/
def loops (args : List String) : Act Nat := do
  let n ← match args with
    | [] => pure 1
    | arg :: _ => number arg
  if n = 0 then abort "Illegal number: 0"
  return min n (← session).loops

def break_ : Run := fun _ args => do
  let n ← loops args
  setStatus 0
  if n ≠ 0 then throw (.leave n)

def continue_ : Run := fun _ args => do
  let n ← loops args
  setStatus 0
  if n ≠ 0 then throw (.next n)

/-- Runs its arguments as a script. -/
def eval : Run := fun run args => do
  setStatus 0
  run.text (" ".intercalate args)

/-- Runs a file as a script. -/
def source : Run := fun run args => do
  match args with
  | [] => setStatus 0
  | name :: _ =>
    let s ← session
    let path ← if name.toList.contains '/' then pure name
      else do
        let dirs := (Text.fields ':' ((s.value? "PATH").getD "").toList).map String.ofList
        match dirs.find? fun dir => s.files.isFile (.ofOctets (dir ++ "/" ++ name)) with
        | some dir => pure (dir ++ "/" ++ name)
        | none => abort s!"{name}: not found"
    match s.files.read (.ofOctets path) with
    | .ok contents =>
      setStatus 0
      Action.modify fun s => { s with builtin := some path }
      try run.text (Text.ofBytes contents)
      catch
        | .return n => setStatus n
        | i => throw i
    | .error _ => abort s!"cannot open {path}: No such file"

/-! ## Signals -/

def signal? (text : String) : Option Nat :=
  match Text.readDigits? text.toList with
  | some n => if n ≤ 64 then some n else none
  | none =>
    let name := (if text.startsWith "SIG" then text.drop 3 else text.drop 0).toString.toUpper
    if name = "EXIT" then some 0
    else (Exit.signalNames.find? (·.2 = name)).map Prod.fst

def signalName (n : Nat) : String :=
  if n = 0 then "EXIT" else (List.lookup n Exit.signalNames).getD (toString n)

def trap : Run := fun _ args => do
  let args := match args with
    | "--" :: args => args
    | args => args
  let change (action : Option String) (names : List String) : Act Unit := do
    setStatus 0
    names.forM fun name => do
      match signal? name with
      | some n => Action.modify fun s => { s with
          traps := match action with
            | some text => s.traps.insert n text
            | none => s.traps.filterKeys (· ≠ n) }
      | none =>
        Action.modify (·.print 2 s!"trap: {name}: bad trap\n")
        setStatus 1
  match args with
  | [] =>
    let sorted := (← session).traps.entries.mergeSort fun a b => decide (a.1 ≤ b.1)
    print (String.join (sorted.map fun (n, text) =>
      "trap -- " ++ quote text ++ " " ++ signalName n ++ "\n"))
    setStatus 0
  | [name] => change none [name]
  | "-" :: names => change none names
  | first :: names =>
    if (Text.readDigits? first.toList).isSome then change none (first :: names)
    else change (some first) names

/-- What `kill` does with the processes that it is given: nothing if there is none, or if the signal only
asks for them. A shell does what it has been told to do on a signal. -/
def sendTo (run : Runner) (signal : Nat) (target : String) : Act Unit := do
  let s ← session
  let pid ← number (if target.startsWith "-" then (target.drop 1).toString else target)
  let known := pid = s.pid || pid = s.parent || s.lastJob = some pid
  if !known then
    complain "No such process\n"
    setStatus 1
  else if signal = 0 || s.lastJob = some pid then pure ()
  else if pid = s.pid then
    let harmless := [17, 18, 23, 28].contains signal
    match s.traps.get? signal with
    | some "" => pure ()
    | some text =>
      if signal = 9 || signal = 19 then throw (.kill pid signal)
      run.text text
      setStatus 0
    | none => if harmless then pure () else throw (.kill pid signal)
  else throw (.kill pid signal)

def killUsage : String :=
  "Usage: kill [-s sigspec | -signum | -sigspec] [pid | job]... or\nkill -l [exitstatus]"

def kill : Run := fun run args => do
  let send (signal : Nat) (targets : List String) : Act Unit := do
    let targets := match targets with
      | "--" :: targets => targets
      | targets => targets
    if targets = [] then abort killUsage
    setStatus 0
    targets.forM (sendTo run signal)
  match args with
  | [] => abort killUsage
  | ["-l"] =>
    print ("0\n" ++ String.join (Exit.signalNames.map fun e => e.2 ++ "\n"))
    setStatus 0
  | "-l" :: arg :: _ =>
    let n ← number arg
    let n := if 128 < n then n - 128 else n
    match List.lookup n Exit.signalNames with
    | some name =>
      print (name ++ "\n")
      setStatus 0
    | none => abort s!"invalid signal number or exit status: {arg}"
  | ["-s"] => abort "No arg for -s option"
  | "-s" :: name :: targets =>
    match signal? name with
    | some n => send n targets
    | none => abort s!"invalid signal number or name: {name}"
  | arg :: targets =>
    match arg.toList with
    | '-' :: c :: cs =>
      if arg = "--" then send 15 targets
      else match signal? (String.ofList (c :: cs)) with
        | some n => send n targets
        | none => abort s!"Illegal option -{c}"
    | _ => send 15 args

/-- Waits for processes, which have always ended. -/
def wait : Run := fun _ args => do
  setStatus 0
  args.forM fun arg => do
    let n ← number arg
    setStatus (if (← session).lastJob = some n then 0 else 127)

/-! ## The rest -/

def umask : Run := fun _ args => do
  match args with
  | [] => print "0022\n"
  | arg :: _ =>
    if !(arg.toList.all fun c => '0' ≤ c && c ≤ '7') then abort s!"Illegal mode: {arg}"
  setStatus 0

def times : Run := fun _ _ => do
  print "0m0.000000s 0m0.000000s\n0m0.000000s 0m0.000000s\n"
  setStatus 0

def silent (status : Nat) : Run := fun _ _ => setStatus status

def ofName? (name : String) : Option Run :=
  match name with
  | ":" | "true" | "hash" | "jobs" | "alias" | "unalias" => some (silent 0)
  | "false" => some (silent 1)
  | "." => some source
  | "[" => some bracket
  | "break" => some break_
  | "cd" | "chdir" => some cd
  | "continue" => some continue_
  | "echo" => some echo
  | "eval" => some eval
  | "exit" => some exit
  | "export" => some export_
  | "getopts" => some getopts
  | "kill" => some kill
  | "local" => some local_
  | "printf" => some printf
  | "pwd" => some pwd
  | "read" => some read
  | "readonly" => some readonly
  | "return" => some return_
  | "set" => some set
  | "shift" => some shift
  | "test" => some fun _ args => condition args
  | "times" => some times
  | "trap" => some trap
  | "ulimit" => some fun _ _ => do
    print "unlimited\n"
    setStatus 0
  | "umask" => some umask
  | "unset" => some unset
  | "wait" => some wait
  | _ => none

end BaseLang.Shell.Builtin
