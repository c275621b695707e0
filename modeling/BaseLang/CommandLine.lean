import BaseLang.Path
import BaseLang.Text.Split

/-!
# The command line

* `Command` : what can be asked for;
* `UsageError` : why arguments ask for no command;
* `Arguments` : the arguments of a command read so far. The value of an option, or the operand, is only
  looked at when the next known argument comes or there are no more;
* `Command.parse` : the command that arguments ask for.
-/

namespace BaseLang

/-- What can be asked for: to bring the artifacts of a definition up to date, to tell whether they are,
or to show the profile in a transformation module. -/
inductive Command where
  | process (definition : Path) (plugin conf : Option Path) (verbose : Bool)
  | status (definition : Path) (plugin : Option Path) (verbose : Bool)
  | profile (transformation : Path) (verbose : Bool)
  deriving DecidableEq

/-- Why arguments ask for no command. Asking for help or for the version is among the reasons. -/
inductive UsageError where
  | help
  | version
  | nothingAsked
  | unknownCommand
  | unknownArgument
  | unneededValue
  | repeated
  | invalidValue
  | missingOperand
  deriving DecidableEq

inductive Verb where
  | process
  | status
  | profile
  deriving DecidableEq

namespace Verb

def ofName? : String → Option Verb
  | "process" => some process
  | "status" => some status
  | "profile" => some profile
  | _ => none

def takesPlugin : Verb → Bool
  | process | status => true
  | profile => false

def takesConf : Verb → Bool
  | process => true
  | status | profile => false

end Verb

/-! ## The arguments of a command -/

/-- The arguments that have a value. -/
inductive Slot where
  | operand
  | plugin
  | conf
  deriving DecidableEq

/-- The arguments read so far. The pending one has been named and may still be without its value. -/
structure Arguments where
  operand : Option String
  plugin : Option String
  conf : Option String
  verbose : Bool
  pending : Option (Slot × Option String)
  deriving DecidableEq

namespace Arguments

def none : Arguments := ⟨.none, .none, .none, false, .none⟩

def get (a : Arguments) : Slot → Option String
  | .operand => a.operand
  | .plugin => a.plugin
  | .conf => a.conf

def set (a : Arguments) (value : String) : Slot → Arguments
  | .operand => { a with operand := some value }
  | .plugin => { a with plugin := some value }
  | .conf => { a with conf := some value }

/-- Takes a value, unless there is one already or it is empty. -/
def store (a : Arguments) (slot : Slot) (value : String) : Except UsageError Arguments :=
  if (a.get slot).isSome then .error .repeated
  else if value = "" then .error .invalidValue
  else .ok (a.set value slot)

/-- Takes the pending value. -/
def settle (a : Arguments) : Except UsageError Arguments :=
  match a.pending with
  | .none => .ok a
  | some (_, .none) => .error .invalidValue
  | some (slot, some value) => { a with pending := .none }.store slot value

def attach (a : Arguments) (slot : Slot) (value : String) : Except UsageError Arguments := do
  (← a.settle).store slot value

/-- Waits for the value of an option. -/
def expect (a : Arguments) (slot : Slot) : Except UsageError Arguments := do
  return { (← a.settle) with pending := some (slot, .none) }

def beVerbose (a : Arguments) : Except UsageError Arguments := do
  let a ← a.settle
  if a.verbose then throw .repeated
  return { a with verbose := true }

def askHelp (a : Arguments) : Except UsageError Arguments := do
  let _ ← a.settle
  throw .help

/-- Takes the operand, also where the value of an option is missing. There is only one. -/
def addOperand (a : Arguments) (word : String) : Except UsageError Arguments :=
  if a.operand.isSome || (a.pending.any fun p => p.1 = .operand) then .error .unknownArgument
  else do return { (← a.settle) with pending := some (.operand, some word) }

/-- Takes what is no option: the value that is waited for, or else the operand. -/
def addWord (a : Arguments) (word : String) : Except UsageError Arguments :=
  match a.pending with
  | some (slot, .none) => .ok { a with pending := some (slot, some word) }
  | _ => a.addOperand word

/-- Takes options of one letter, of which the last may have a value. -/
def addShort (verb : Verb) (a : Arguments) : List Char → Except UsageError Arguments
  | [] => .ok a
  | c :: cs =>
    match c with
    | 'h' => a.askHelp
    | 'v' =>
      match a.beVerbose with
      | .ok a => a.addShort verb cs
      | .error e => .error e
    | 'p' =>
      if verb.takesPlugin then
        match cs with
        | [] => a.expect .plugin
        | '=' :: value => a.attach .plugin (String.ofList value)
        | value => a.attach .plugin (String.ofList value)
      else .error .unknownArgument
    | _ => .error .unknownArgument

/-- The name of a long option and the value attached to it. -/
def splitLong (cs : List Char) : String × Option String :=
  let name := cs.takeWhile (· ≠ '=')
  (String.ofList name,
    match cs.drop name.length with
    | [] => .none
    | _ :: value => some (String.ofList value))

def addFlag (value : Option String) (take : Except UsageError Arguments) :
    Except UsageError Arguments :=
  if value.isSome then .error .unneededValue else take

/-- Takes an option that has a name, if the command has that option. -/
def addOption (a : Arguments) (known : Bool) (slot : Slot) (value : Option String) :
    Except UsageError Arguments :=
  if !known then .error .unknownArgument
  else match value with
    | some value => a.attach slot value
    | .none => a.expect slot

def addLong (verb : Verb) (a : Arguments) (cs : List Char) : Except UsageError Arguments :=
  let (name, value) := splitLong cs
  match name with
  | "help" => addFlag value a.askHelp
  | "verbose" => addFlag value a.beVerbose
  | "plugin" => a.addOption verb.takesPlugin .plugin value
  | "conf" => a.addOption verb.takesConf .conf value
  | _ => .error .unknownArgument

def add (verb : Verb) (a : Arguments) (arg : String) : Except UsageError Arguments :=
  match arg.toList with
  | '-' :: '-' :: cs => a.addLong verb cs
  | '-' :: c :: cs => a.addShort verb (c :: cs)
  | _ => a.addWord arg

/-- All arguments of a command. Behind `--` there are only operands. -/
def read (verb : Verb) (a : Arguments) : List String → Except UsageError Arguments
  | [] => a.settle
  | "--" :: args => do (← args.foldlM addOperand a).settle
  | arg :: args => do (← a.add verb arg).read verb args

def command (verb : Verb) (a : Arguments) : Except UsageError Command :=
  match a.operand with
  | .none => .error .missingOperand
  | some operand =>
    .ok (match verb with
      | .process => .process ⟨operand⟩ (a.plugin.map Path.mk) (a.conf.map Path.mk) a.verbose
      | .status => .status ⟨operand⟩ (a.plugin.map Path.mk) a.verbose
      | .profile => .profile ⟨operand⟩ a.verbose)

end Arguments

/-! ## The first argument -/

namespace Command

def isName (word : String) : Bool := word = "help" || (Verb.ofName? word).isSome

def helpOn : List String → UsageError
  | [] => .help
  | [word] => if isName word then .help else .unknownCommand
  | _ => .unknownCommand

def leadingOption : List Char → UsageError
  | '-' :: cs =>
    match Arguments.splitLong cs with
    | ("help", .none) => .help
    | ("version", .none) => .version
    | ("help", some _) | ("version", some _) => .unneededValue
    | _ => .unknownArgument
  | 'h' :: _ => .help
  | 'V' :: _ => .version
  | _ => .unknownArgument

def behindDashes : List String → UsageError
  | [] => .nothingAsked
  | word :: _ => if isName word then .unknownArgument else .unknownCommand

def parse (args : List String) : Except UsageError Command :=
  match args with
  | [] => .error .nothingAsked
  | "--" :: args => .error (behindDashes args)
  | "help" :: args => .error (helpOn args)
  | word :: args =>
    match Verb.ofName? word with
    | some verb => do (← Arguments.none.read verb args).command verb
    | none =>
      match word.toList with
      | '-' :: c :: cs => .error (leadingOption (c :: cs))
      | _ => .error .unknownCommand

end Command

end BaseLang
