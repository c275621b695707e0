import BaseLang.Program.Shell.Session

/-!
# Subshells

* `Act.ending` : how an act that has left what it was doing ends its process;
* `Act.forked` : an act in a process of its own, which changes nothing of the session but the files and
  what has been read and written;
* `Act.reap` : the status of a process, which is reported if it has been killed.
-/

namespace BaseLang.Shell.Act

/-- How the process of an act ends, by the outcome of the act, the status of its last command and the
number of the process. It does not end if another process is meant, or if the fuel has run out. -/
def ending (pid : Option Nat) (status : Nat) : Except Interrupt Unit → Except Interrupt Exit
  | .ok () => .ok (.code status)
  | .error (.exit n) | .error (.return n) => .ok (.code n)
  | .error .error => .ok (.code 2)
  | .error (.replaced e) => .ok e
  | .error (.leave _) | .error (.next _) => .ok (.code status)
  | .error (.kill p n) => if pid = some p then .ok (.signal n) else .error (.kill p n)
  | .error .stuck => .error .stuck

/-- Whether a process that ends so does what it has been told to do at its end. -/
def runsTraps : Except Interrupt Unit → Bool
  | .error (.replaced _) | .error (.kill ..) | .error .stuck => false
  | _ => true

/-- An act, and what has been told to do at the end of its process. -/
def untilEnd (run : Runner) (pid : Option Nat) (body : Act Unit) : Act Exit := fun s =>
  let (outcome, s) := body s
  match ending pid s.status outcome, s.traps.get? 0 with
  | .ok (.code n), some text =>
    if text = "" || !runsTraps outcome then (.ok (.code n), s)
    else
      let s := { s with traps := s.traps.filterKeys (· ≠ 0), status := n }
      match run.text text s with
      | (.ok (), s) => (.ok (.code n), s)
      | (.error i, s) => (ending pid n (.error i), s)
  | e, _ => (e, s)

/-- The same session after a process that has started in it: the files are as the process has left them, and
all that has been read and written stays so. -/
def afterProcess (s child : Session) : Session :=
  { s with
    files := { child.files with workingDir := s.files.workingDir }
    openFiles := child.openFiles
    writes := child.writes
    nextPid := child.nextPid
    documents := child.documents
    nextDocument := child.nextDocument }

/-- An act in a process of its own. What would be done on signals is forgotten in it. -/
def forked (run : Runner) (body : Act Unit) : Act Exit := fun s =>
  let child := { s with
    traps := Table.ofList (s.traps.entries.filter (·.2 = ""))
    loops := 0
    nextPid := s.nextPid + 1 }
  let (e, child) := untilEnd run none body child
  (e, afterProcess s child)

/-- What is said about a process that a signal has ended. -/
def obituary : Nat → String
  | 1 => "Hangup"
  | 3 => "Quit"
  | 4 => "Illegal instruction"
  | 5 => "Trace/breakpoint trap"
  | 6 => "Aborted"
  | 7 => "Bus error"
  | 8 => "Floating point exception"
  | 9 => "Killed"
  | 10 => "User defined signal 1"
  | 11 => "Segmentation fault"
  | 12 => "User defined signal 2"
  | 14 => "Alarm clock"
  | 15 => "Terminated"
  | n => s!"Signal {n}"

def reap (e : Exit) : Act Nat := do
  match e with
  | .signal n => if n ≠ 2 && n ≠ 13 then .modify (·.print 2 (obituary n ++ "\n"))
  | .code _ => pure ()
  return e.status

end BaseLang.Shell.Act
