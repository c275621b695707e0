import BaseLang.Program.Shell.Builtin
import BaseLang.Program.Shell.Parser

/-!
# Running scripts

* `Step.redirect` : what redirections do to the descriptors;
* `Step.simple` : a simple command, which is a function, a builtin or a program;
* `Step.command`, `Step.text` : any command, and the text of a script, by means of what runs the commands in
  them;
* `Runner.ofFuel` : runs commands that are not nested deeper than the fuel allows;
* `Session.main` : what a shell does with its arguments.
-/

namespace BaseLang.Shell

namespace Step

open Act

/-! ## Redirections -/

/-- Why a file has not been opened, in the words of a shell. -/
def openMessage (creates : Bool) : OsError → String
  | .notFound | .notDirectory => if creates then "Directory nonexistent" else "No such file"
  | e => e.description

def descriptorPath? (path : String) : Option Nat :=
  match path with
  | "/dev/stdin" => some 0
  | "/dev/stdout" => some 1
  | "/dev/stderr" => some 2
  | _ =>
    if path.startsWith "/dev/fd/" then (path.drop 8).toString.toNat? else none

/-- Opens a file. Writing creates it, and makes it empty if it does not append. -/
def openFile (fs : FileSystem) (opening : Opening) (path : Path) : Except OsError (OpenFile × FileSystem) :=
  match opening with
  | .read =>
    match fs.locate path with
    | .error e => .error e
    | .ok loc => if (fs.node? loc).isSome then .ok (.file loc 0 opening, fs) else .error .notFound
  | .write => (fs.target path).map fun loc => (.file loc 0 opening, fs.store loc .empty false)
  | .append | .readWrite => (fs.target path).map fun loc =>
      (.file loc 0 opening, if (fs.node? loc).isSome then fs else fs.store loc .empty false)

/-- A redirection whose word has been expanded. -/
inductive Target where
  | file (descriptor : Nat) (opening : Opening) (path : String)
  | copy (descriptor : Nat) (source : String)
  | here (descriptor : Nat) (contents : ByteArray)

def target (run : Runner) : Redirection → Act Target
  | .file d opening w => return .file d opening (← Expansion.text run w)
  | .copy d w => return .copy d (← Expansion.text run w)
  | .here d n => do
    match List.lookup n (← session).documents with
    | some w => return .here d (Text.toBytes (Expansion.textOf (← Expansion.ofPieces run false false w)))
    | none => return .here d .empty

/-- Ends the shell since a word does not name a descriptor. -/
def badDescriptor {α : Type} : Act α := do
  Action.modify fun s => { s with line := s.readLine }
  abort ScriptError.badDescriptor.message

/-- What a redirection does to the descriptors, and whether it fails. -/
def apply : Target → Act Bool
  | .file d opening path => do
    let s ← session
    let refuse (e : OsError) : Act Bool := do
      let creates := opening ≠ .read
      let verb := if creates then "create" else "open"
      complain s!"cannot {verb} {path}: {openMessage creates e}"
      return false
    if path = "/dev/null" then
      Action.modify (·.attach d .nothing)
      return true
    else match descriptorPath? path with
      | some source =>
        match s.descriptors.get? source with
        | some i =>
          Action.modify fun s => { s with descriptors := s.descriptors.insert d i }
          return true
        | none => refuse .notFound
      | none =>
        if opening = .write && s.hasOption 'C' && s.files.isFile (.ofOctets path) then refuse .alreadyExists
        else match openFile s.files opening (.ofOctets path) with
          | .ok (f, files) =>
            Action.modify fun s => { s with files }.attach d f
            return true
          | .error e => refuse e
  | .copy d source => do
    match source.toList with
    | ['-'] =>
      Action.modify fun s => { s with descriptors := s.descriptors.filterKeys (· ≠ d) }
      return true
    | [c] =>
      if !c.isDigit then badDescriptor
      let n := c.toNat - '0'.toNat
      match (← session).descriptors.get? n with
      | some i =>
        Action.modify fun s => { s with descriptors := s.descriptors.insert d i }
        return true
      | none =>
        complain s!"{n}: Bad file descriptor"
        return false
    | _ => badDescriptor
  | .here d contents => do
    Action.modify (·.attach d (.text contents 0))
    return true

/-- Redirections in order, up to the first one that fails. -/
def applyAll : List Target → Act Bool
  | [] => pure true
  | t :: ts => do if ← apply t then applyAll ts else return false

def redirect (run : Runner) (rs : List Redirection) : Act Bool := do
  applyAll (← rs.mapM (target run))

/-- An act whose changes of the descriptors are taken back. -/
def keepingDescriptors {α : Type} (a : Act α) : Act α := fun s =>
  let (outcome, s') := a s
  (outcome, { s' with descriptors := s.descriptors })

/-! ## Simple commands -/

def assignAll (run : Runner) : List (String × Word) → Act (List (String × String))
  | [] => pure []
  | (name, w) :: rest => do
    let value ← Expansion.text run w
    Act.assign name value
    return (name, value) :: (← assignAll run rest)

/-- Writes a command before it runs, if the shell has been told to do so. -/
def trace (descriptors : Table Nat Nat) (assignments : List (String × String)) (words : List String) :
    Act Unit := do
  let s ← session
  if s.hasOption 'x' then
    let line := (s.value? "PS4").getD ""
      ++ " ".intercalate (assignments.map (fun (name, value) => name ++ "=" ++ value) ++ words)
    Action.modify fun s =>
      { { s with descriptors }.print 2 (line ++ "\n") with descriptors := s.descriptors }

/-- An act within which some variables have other values. -/
def keepingVariables {α : Type} (names : List String) (a : Act α) : Act α := fun s =>
  let (outcome, s') := a s
  let restored := names.foldl (fun (vs : Table String Variable) name =>
    match s.bindings.get? name with
    | some v => vs.insert name v
    | none => vs.filterKeys (· ≠ name)) s'.bindings
  (outcome, { s' with bindings := restored })

def callFunction (run : Runner) (mode : Mode) (body : Command) (args : List String) : Act Unit := fun s =>
  let (outcome, s') := (run.command ⟨mode.tested, false⟩ body) { s with
    params := args, frames := [] :: s.frames, loops := 0 }
  let bindings := (s'.frames.headD []).foldl (fun (vs : Table String Variable) (name, v?) =>
    match v? with
    | some v => vs.insert name v
    | none => vs.filterKeys (· ≠ name)) s'.bindings
  let s' := { s' with params := s.params, frames := s.frames, loops := s.loops, bindings }
  match outcome with
  | .error (.return n) => (.ok (), { s' with status := n })
  | o => (o, s')

/-- Runs a builtin. The error of one that is not special only gives a status. -/
def runBuiltin (run : Runner) (name : String) (special : Bool) (b : Builtin.Run) (args : List String) :
    Act Unit := fun s =>
  let (outcome, s') := b run args { s with builtin := some name }
  let s' := { s' with builtin := s.builtin }
  match outcome with
  | .error .error => if special then (outcome, s') else (.ok (), { s' with status := 2 })
  | _ => (outcome, s')

/-- What a shell would be that runs in a process of its own. -/
abbrev Fresh := List String → Act Unit

/-- Why a program has not been run. -/
def refuse (name : String) (e : OsError) : Act Unit := do
  complain s!"{name}: {launchMessage e}"
  setStatus (launchStatus e)

/-- Runs a program. One at the end of a subshell takes its place. -/
def runProgram (fresh : Fresh) (run : Runner) (fuel : Nat) (mode : Mode) (name : String) (args : List String) :
    Act Unit := do
  let s ← session
  let launched (path : String) (args : List String) : Act Unit := do
    match ← launch fresh run fuel path name args s.exported with
    | .ok e =>
      if mode.last && s.traps.entries.isEmpty then throw (.replaced e)
      setStatus (← reap e)
    | .error .badFormat =>
      match ← launch fresh run fuel "/bin/sh" "/bin/sh" (path :: args) s.exported with
      | .ok e => setStatus (← reap e)
      | .error e => refuse name e
    | .error e => refuse name e
  match s.files.search ((s.value? "PATH").getD FileSystem.standardPath) name with
  | .ok path => launched path args
  | .error e => refuse name e

def exec (fresh : Fresh) (run : Runner) (fuel : Nat) (name : String) (args : List String) : Act Unit := do
  let s ← session
  let failed (e : OsError) : Act Unit := do
    Action.modify fun s => { s with builtin := some "exec" }
    complain s!"{name}: {launchMessage e}"
    throw (.exit (launchStatus e))
  match s.files.search ((s.value? "PATH").getD FileSystem.standardPath) name with
  | .ok path =>
    match ← launch fresh run fuel path name args s.exported with
    | .ok e => throw (.replaced e)
    | .error e => failed e
  | .error e => failed e

/-- What a name stands for: the words behind it, or nothing if it is unknown. -/
def describe (s : Session) (name : String) : Option String :=
  if keywords.contains name then some "a shell keyword"
  else if (s.functions.get? name).isSome then some "a shell function"
  else if specialBuiltins.contains name then some "a special shell builtin"
  else if (Builtin.ofName? name).isSome || ["command", "type", "exec"].contains name then
    some "a shell builtin"
  else
    match s.files.search ((s.value? "PATH").getD FileSystem.standardPath) name with
    | .ok path => some path
    | .error _ => none

def typeOf : Builtin.Run := fun _ names => do
  setStatus 0
  names.forM fun name => do
    match describe (← session) name with
    | some what => print s!"{name} is {what}\n"
    | none =>
      print s!"{name}: not found\n"
      setStatus 127

def commandOf (name : String) : Act Unit := do
  match describe (← session) name with
  | some what =>
    print ((if what.startsWith "a " then name else what) ++ "\n")
    setStatus 0
  | none => setStatus 127

/-- Runs a command that is not a function. -/
def runNamed (fresh : Fresh) (run : Runner) (mode : Mode) (special : Bool) :
    (fuel : Nat) → (name : String) → (args : List String) → Act Unit
  | 0, _, _ => throw .stuck
  | fuel + 1, name, args => do
    match name, args with
    | "command", [] => setStatus 0
    | "command", "-v" :: args =>
      match args with
      | [] => setStatus 0
      | name :: _ => commandOf name
    | "command", "-V" :: args => typeOf run (args.take 1)
    | "command", "-p" :: word :: args | "command", "--" :: word :: args | "command", word :: args =>
      runNamed fresh run mode false fuel word args
    | "type", _ => typeOf run args
    | "exec", [] => setStatus 0
    | "exec", "--" :: word :: args | "exec", word :: args => exec fresh run fuel word args
    | _, _ =>
      match Builtin.ofName? name with
      | some b => runBuiltin run name (special && specialBuiltins.contains name) b args
      | none => runProgram fresh run fuel mode name args

/-- Runs a simple command: expands its words, redirects, sets variables, and runs what its first word names.
Only the assignments in front of a special builtin, or of nothing, last. -/
def simple (fresh : Fresh) (run : Runner) (fuel : Nat) (mode : Mode) (line : Nat)
    (assignments : List (String × Word)) (words : List Word) (rs : List Redirection) : Act Unit := do
  Action.modify fun s => { s with line, lastOutput := none }
  let fields ← Expansion.words run words
  let descriptors := (← session).descriptors
  let name := fields.headD ""
  let special := specialBuiltins.contains name
  let isFunction := ((← session).functions.get? name).isSome
  let body : Act Unit := do
    if !(← redirect run rs) then
      setStatus 2
      if special && !isFunction then throw .error
    else match fields with
      | [] =>
        let values ← assignAll run assignments
        if values ≠ [] then trace descriptors values []
        setStatus ((← session).lastOutput.getD 0)
      | name :: args =>
        let called : Act Unit := do
          let values ← assignAll run assignments
          trace descriptors values fields
          Action.modify fun s => { s with
            bindings := values.foldl (fun (vs : Table String Variable) (name, _) =>
              match vs.get? name with
              | some v => vs.insert name { v with exported := true }
              | none => vs) s.bindings }
          match (← session).functions.get? name with
          | some body => callFunction run mode body args
          | none => runNamed fresh run mode true (fuel + 1) name args
        if special && !isFunction then called
        else keepingVariables (assignments.map Prod.fst) called
  if name = "exec" && fields.length = 1 then body else keepingDescriptors body

/-! ## Compound commands -/

/-- Ends a shell that has been told to do so at the first failure. -/
def check (mode : Mode) : Act Unit := do
  let s ← session
  if s.status ≠ 0 && s.hasOption 'e' && !mode.tested then throw (.exit s.status)

/-- Runs a loop for as long as its condition says so; `status` is that of its last round. -/
def loop (run : Runner) (isWhile : Bool) (condition body : Command) : (fuel : Nat) → (status : Nat) → Act Unit
  | 0, _ => throw .stuck
  | fuel + 1, status => do
    let goesOn ← try
        run.command .condition condition
        let s ← session
        pure (some ((s.status = 0) = isWhile : Bool))
      catch
        | .leave 1 => pure none
        | .leave (n + 2) => throw (.leave (n + 1))
        | .next 1 => pure (some true)
        | .next (n + 2) => throw (.next (n + 1))
        | i => throw i
    match goesOn with
    | none | some false => setStatus status
    | some true =>
      let ended ← inRound (run.command .inner body)
      if ended then pure () else loop run isWhile condition body fuel (← session).status
where
  /-- A round of a loop, and whether it is the last one. -/
  inRound (a : Act Unit) : Act Bool := do
    try
      a
      return false
    catch
      | .leave 1 => return true
      | .leave (n + 2) => throw (.leave (n + 1))
      | .next 1 => return false
      | .next (n + 2) => throw (.next (n + 1))
      | i => throw i

def each (run : Runner) (name : String) (body : Command) : List String → Act Unit
  | [] => pure ()
  | value :: values => do
    Act.assign name value
    if ← loop.inRound (run.command .inner body) then pure () else each run name body values

def looping (a : Act Unit) : Act Unit := do
  Action.modify fun s => { s with loops := s.loops + 1 }
  try
    a
    Action.modify fun s => { s with loops := s.loops - 1 }
  catch i =>
    Action.modify fun s => { s with loops := s.loops - 1 }
    throw i

/-- Runs the first arm of which a pattern accepts a text. -/
def select (run : Runner) (mode : Mode) (text : String) : List (List Word × Option Command) → Act Unit
  | [] => setStatus 0
  | (patterns, body) :: arms => do
    let ps ← patterns.mapM (Expansion.pattern run)
    if ps.any (Pattern.accepts · text.toList) then
      match body with
      | some c => run.command mode c
      | none => setStatus 0
    else select run mode text arms

/-- Runs commands of which each reads what the one before has written. -/
def pipeline (run : Runner) (input : Option Nat) : List Command → Act Exit
  | [] => return .code 0
  | c :: cs => do
    let place := (← session).openFiles.size
    let isLast := cs.isEmpty
    let e ← forked run do
      match input with
      | some i => Action.modify fun s => { s with descriptors := s.descriptors.insert 0 i }
      | none => pure ()
      if !isLast then Action.modify (·.attach 1 (.text .empty 0))
      run.command ⟨false, true⟩ c
    if isLast then return e else pipeline run (some place) cs

def command (fresh : Fresh) (run : Runner) (fuel : Nat) (mode : Mode) : Command → Act Unit
  | .simple line assignments words rs => do
    simple fresh run fuel mode line assignments words rs
    check mode
  | .pipeline cs => do
    setStatus (← reap (← pipeline run none cs))
    check mode
  | .negation c => do
    run.command .condition c
    setStatus (if (← session).status = 0 then 1 else 0)
  | .both a b => do
    run.command .condition a
    if (← session).status = 0 then run.command mode b
  | .either a b => do
    run.command .condition a
    if (← session).status ≠ 0 then run.command mode b
  | .sequence a b => do
    run.command ⟨mode.tested, false⟩ a
    run.command mode b
  | .background c => do
    let pid := (← session).nextPid
    let _ ← forked run do
      Action.modify (·.attach 0 .nothing)
      run.command ⟨false, true⟩ c
    Action.modify fun s => { s with lastJob := some pid }
    setStatus 0
  | .subshell line body rs => do
    Action.modify fun s => { s with line }
    let e ← forked run do
      if ← redirect run rs then run.command ⟨false, true⟩ body else throw .error
    if mode.last && (← session).traps.entries.isEmpty then throw (.replaced e)
    setStatus (← reap e)
    check mode
  | .redirected line body rs => do
    Action.modify fun s => { s with line }
    keepingDescriptors do
      if ← redirect run rs then run.command ⟨mode.tested, false⟩ body else setStatus 2
  | .choice condition yes no => do
    run.command .condition condition
    if (← session).status = 0 then run.command mode yes
    else match no with
      | some c => run.command mode c
      | none => setStatus 0
  | .loop isWhile condition body => looping (loop run isWhile condition body fuel 0)
  | .each line name words body => do
    Action.modify fun s => { s with line }
    let values ← Expansion.words run words
    setStatus 0
    looping (each run name body values)
  | .select line w arms => do
    Action.modify fun s => { s with line }
    let text ← Expansion.text run w
    setStatus 0
    select run mode text arms
  | .define _ name body => do
    Action.modify fun s => { s with functions := s.functions.insert name body }
    setStatus 0

/-! ## Scripts -/

def lines (run : Runner) : (fuel : Nat) → Reader → Act Unit
  | 0, _ => throw .stuck
  | fuel + 1, r => do
    let s ← session
    let (outcome, r) := { r with documents := s.documents, nextDocument := s.nextDocument }.next
    Action.modify fun s => { s with
      documents := r.documents, nextDocument := r.nextDocument, readLine := r.line }
    match outcome with
    | .error e =>
      Action.modify fun s => { s with line := r.line }
      abort e.message
    | .ok (c, ended) =>
      match c with
      | some c => if s.hasOption 'n' then pure () else run.command .inner c
      | none => pure ()
      if ended then pure () else lines run fuel r

/-- Runs a text as a script. -/
def text (run : Runner) (contents : String) : Act Unit := do
  let cs := contents.toList
  lines run (cs.length + 2) (.start cs (← session).line 0)

end Step

/-! ## Shells -/

/-- The arguments of a shell: its options, whether the next argument is a script, and what is left. -/
def arguments (inline : Bool) : (fuel : Nat) → List String → Act (Bool × List String)
  | 0, args => pure (inline, args)
  | fuel + 1, args => do
    match args with
    | "--" :: args | "-" :: args => return (inline, args)
    | "-o" :: name :: args =>
      Builtin.setNamedOption true name
      arguments inline fuel args
    | arg :: rest =>
      match arg.toList with
      | '-' :: letters =>
        Builtin.setOptions true (letters.filter (· ≠ 'c'))
        arguments (inline || letters.contains 'c') fuel rest
      | '+' :: letters =>
        Builtin.setOptions false letters
        arguments inline fuel rest
      | _ => return (inline, args)
    | [] => return (inline, [])

/-- What a shell does with its arguments: it runs a script that is the first of them, that is in a file, or
that is its input. -/
def main (run : Runner) (args : List String) : Act Unit := do
  Action.modify fun s => { s with line := 0 }
  let (inline, args) ← arguments false (args.length + 1) args
  match inline, args with
  | true, [] => Act.abort "-c requires an argument"
  | true, script :: rest =>
    Action.modify fun s => { s with line := 1, name := rest.headD s.name, params := rest.tail }
    Step.text run script
  | false, [] =>
    let (input, _) := (← Act.session).available 0
    Action.modify fun s => { s.consume 0 input.size with line := 1 }
    Step.text run (Text.ofBytes input)
  | false, file :: params =>
    let s ← Act.session
    match s.files.read (.ofOctets file) with
    | .ok contents =>
      Action.modify fun s => { s with line := 1, name := file, params }
      Step.text run (Text.ofBytes contents)
    | .error e => Act.abort s!"cannot open {file}: {Step.openMessage false e}"

/-- Runs commands that are not nested deeper than the fuel allows, and as many rounds of loops. -/
def Runner.ofFuel : (fuel : Nat) → Runner
  | 0 => ⟨fun _ _ => throw .stuck, fun _ => throw .stuck⟩
  | fuel + 1 =>
    ⟨fun mode c => Step.command (main (ofFuel fuel)) (ofFuel fuel) fuel mode c,
      fun contents => Step.text (ofFuel fuel) contents⟩

end BaseLang.Shell
