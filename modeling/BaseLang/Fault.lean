import BaseLang.FileSystem
import BaseLang.Term.Reader

/-!
# Faults

* `Fault` : what the file system, a file or an outside program reports when a task fails;
* `Fault.ofOs` : refused file operations as faults.
-/

namespace BaseLang

inductive Fault where
  | os (e : OsError)
  | notUtf8
  | noParent
  | configuration
  | noStem
  | notUnder (root : Path)
  | read (e : ReadError)
  | text (message : String)
  deriving DecidableEq

namespace Fault

def message : Fault → String
  | os e => e.message
  | notUtf8 => "stream did not contain valid UTF-8"
  | noParent => "The path has no parent directory"
  | configuration => "the configuration is not well-formed"
  | noStem => "the file name has no usable stem"
  | notUnder root => s!"not found under `{root.text}`"
  | read e => e.message
  | text message => message

end Fault

inductive TextFault where
  | os (e : OsError)
  | notUtf8
  deriving DecidableEq

def TextFault.fault : TextFault → Fault
  | os e => .os e
  | notUtf8 => .notUtf8

def TextFault.message (e : TextFault) : String := e.fault.message

def FileSystem.readText (fs : FileSystem) (p : Path) : Except TextFault String :=
  match fs.read p with
  | .error e => .error (.os e)
  | .ok contents =>
    match String.fromUTF8? contents with
    | some text => .ok text
    | none => .error .notUtf8

end BaseLang
