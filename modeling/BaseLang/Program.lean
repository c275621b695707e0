import BaseLang.FileSystem.Disk
import BaseLang.Text.Octets

/-!
# Programs

* `Exit` : how a program ends, with the wording of its ending;
* `Outcome` : the end of a program and what it has written;
* `Call`, `Tool` : what a program is given, and what it does to the files;
* `Programs` : the programs that can be run, by name.

The texts that a program is given and writes are texts of octets.
-/

namespace BaseLang

inductive Stream where
  | output
  | errors
  deriving DecidableEq

/-- How a program ends: by itself with a status, or by a signal. -/
inductive Exit where
  | code (status : Nat)
  | signal (number : Nat)
  deriving DecidableEq

namespace Exit

def signalNames : List (Nat × String) :=
  [(1, "HUP"), (2, "INT"), (3, "QUIT"), (4, "ILL"), (5, "TRAP"), (6, "ABRT"), (7, "BUS"), (8, "FPE"),
   (9, "KILL"), (10, "USR1"), (11, "SEGV"), (12, "USR2"), (13, "PIPE"), (14, "ALRM"), (15, "TERM"),
   (16, "STKFLT"), (17, "CHLD"), (18, "CONT"), (19, "STOP"), (20, "TSTP"), (21, "TTIN"), (22, "TTOU"),
   (23, "URG"), (24, "XCPU"), (25, "XFSZ"), (26, "VTALRM"), (27, "PROF"), (28, "WINCH"), (29, "IO"),
   (30, "PWR"), (31, "SYS")]

/-- The status by which a shell knows the end. -/
def status : Exit → Nat
  | code n => n
  | signal n => 128 + n

/-- Whether nothing has gone wrong. -/
def isSuccess (e : Exit) : Bool := e = code 0

def message : Exit → String
  | code n => s!"exit status: {n}"
  | signal n =>
    match List.lookup n signalNames with
    | some name => s!"signal: {n} (SIG{name})"
    | none => s!"signal: {n}"

end Exit

/-- How a program has ended, what it has written in this order, and whether it has read its standard
input. -/
structure Outcome where
  exit : Exit
  writes : List (Stream × ByteArray)
  drained : Bool

namespace Outcome

def silent (status : Nat) : Outcome := ⟨.code status, [], false⟩

/-- A program that has written to its output. -/
def printed (output : ByteArray) : Outcome := ⟨.code 0, [(.output, output)], false⟩

def print (text : String) : Outcome := printed (Text.toBytes text)

/-- A program that has failed with a line on its error output. -/
def failed (status : Nat) (message : String) : Outcome :=
  ⟨.code status, [(.errors, Text.toBytes (message ++ "\n"))], false⟩

def withStatus (o : Outcome) (status : Nat) : Outcome := { o with exit := .code status }

/-- The same outcome of a program that has read its standard input. -/
def drain (o : Outcome) : Outcome := { o with drained := true }

/-- Two programs run one after the other. -/
def append (a b : Outcome) : Outcome := ⟨b.exit, a.writes ++ b.writes, a.drained || b.drained⟩

instance : Append Outcome := ⟨append⟩

def written (o : Outcome) (s : Stream) : ByteArray :=
  o.writes.foldl (fun done w => if w.1 = s then done ++ w.2 else done) .empty

end Outcome

def Path.ofOctets (s : String) : Path := ⟨Text.ofOctets s⟩

/-- What a program is given: the name that it is called by, its arguments, what it can read from its
standard input, whether this is a file, and its variables. -/
structure Call where
  name : String
  args : List String
  input : ByteArray
  fromFile : Bool
  environment : List (String × String)

/-- A program that fails with a line that starts with its name. -/
def Call.fail (c : Call) (status : Nat) (message : String) : Outcome :=
  .failed status s!"{c.name}: {message}"

/-- What a program does, given how it is called. -/
abbrev Tool := Call → FileSystem → Outcome × FileSystem

/-- Runs a program with arguments, in the working directory of the file system. -/
abbrev Programs := (program : String) → (args : List String) → Disk OsError Outcome

end BaseLang
