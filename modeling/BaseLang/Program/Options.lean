import BaseLang.Program

/-!
# Options of programs

* `OptionTable` : the options that a program knows;
* `Options` : the options and the operands that a program is given, in any order;
* `Options.read` : the options among some arguments.
-/

namespace BaseLang

/-- The letters of the options of a program, and the long names that some of them have. -/
structure OptionTable where
  plain : String
  valued : String
  long : List (String × Char)

inductive OptionError where
  | invalid (letter : Char)
  | missingValue (letter : Char)
  | unknown (name : String)

def OptionError.message : OptionError → String
  | invalid c => s!"invalid option -- '{c}'"
  | missingValue c => s!"option requires an argument -- '{c}'"
  | unknown name => s!"unrecognized option '--{name}'"

/-- Options with their values, in order, and operands. An option that takes no value has the empty one. -/
structure Options where
  given : List (Char × String)
  operands : List String

namespace Options

def has (o : Options) (letter : Char) : Bool := o.given.any (·.1 = letter)

def value? (o : Options) (letter : Char) : Option String :=
  (o.given.reverse.find? (·.1 = letter)).map Prod.snd

def values (o : Options) (letter : Char) : List String :=
  (o.given.filter (·.1 = letter)).map Prod.snd

/-- The last one of some options that exclude each other. -/
def last? (o : Options) (letters : String) : Option Char :=
  (o.given.reverse.find? (letters.toList.contains ·.1)).map Prod.fst

/-- The options in one argument, and the last of them if its value is the next argument. -/
def cluster (t : OptionTable) : List Char → Except OptionError (List (Char × String) × Option Char)
  | [] => .ok ([], none)
  | c :: cs =>
    if t.valued.toList.contains c then
      .ok (if cs = [] then ([], some c) else ([(c, String.ofList cs)], none))
    else if t.plain.toList.contains c then
      (cluster t cs).map fun (more, pending) => ((c, "") :: more, pending)
    else .error (.invalid c)

/-- The option with a long name, which may have its value behind an equals sign. -/
def named (t : OptionTable) (cs : List Char) : Except OptionError (List (Char × String) × Option Char) :=
  let name := String.ofList (cs.takeWhile (· ≠ '='))
  let value := cs.drop (name.length + 1)
  match List.lookup name t.long with
  | none => .error (.unknown name)
  | some c =>
    if t.valued.toList.contains c && cs.length = name.length then .ok ([], some c)
    else .ok ([(c, String.ofList value)], none)

/-- The options among arguments, the first of which may be the value of a pending option. -/
def readFrom (t : OptionTable) : (pending : Option Char) → List String → Except OptionError Options
  | none, [] => .ok ⟨[], []⟩
  | some c, [] => .error (.missingValue c)
  | some c, arg :: args => (readFrom t none args).map fun o => { o with given := (c, arg) :: o.given }
  | none, arg :: args =>
    let continued (r : Except OptionError (List (Char × String) × Option Char)) :=
      match r with
      | .error e => .error e
      | .ok (found, pending) =>
        (readFrom t pending args).map fun o => { o with given := found ++ o.given }
    match arg.toList with
    | ['-', '-'] => .ok ⟨[], args⟩
    | '-' :: '-' :: name => continued (named t name)
    | '-' :: c :: cs => continued (cluster t (c :: cs))
    | _ => (readFrom t none args).map fun o => { o with operands := arg :: o.operands }

/-- The options among arguments. Options may follow operands, up to a double dash. -/
def read (t : OptionTable) (args : List String) : Except OptionError Options := readFrom t none args

end Options

/-- A program that fails and points to its help. -/
def Call.misuse (c : Call) (status : Nat) (message : String) : Outcome :=
  c.fail status s!"{message}\nTry '{c.name} --help' for more information."

/-- A program that reads its options first. -/
def Tool.withOptions (t : OptionTable) (status : Nat) (run : Call → Options → FileSystem → Outcome × FileSystem) :
    Tool := fun c fs =>
  match Options.read t c.args with
  | .ok o => run c o fs
  | .error e => (c.misuse status e.message, fs)

/-- A program that does something for each of its operands, and fails if this fails for one of them. -/
def Tool.forEach (operands : List String) (run : String → FileSystem → Outcome × FileSystem)
    (fs : FileSystem) : Outcome × FileSystem :=
  operands.foldl (fun (done, fs) operand =>
    let (o, fs) := run operand fs
    let all := done ++ o
    (if o.exit.isSuccess then { all with exit := done.exit } else all, fs)) (.silent 0, fs)

end BaseLang
