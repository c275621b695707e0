import BaseLang.Action
import BaseLang.FileSystem

/-!
# Actions on a file system

* `Disk ε α` : an action on a file system;
* `Disk.write`, `Disk.copy`, `Disk.rename` : single operations;
* `Disk.makeDirs` : a directory with all the directories above it that are missing.
-/

namespace BaseLang

abbrev Disk (ε α : Type) := Action FileSystem ε α

namespace Disk

def write (p : Path) (text : String) : Disk OsError Unit := .update (·.write p text.toUTF8)

def makeDir (p : Path) : Disk OsError Unit := .update (·.makeDir p)

def copy (source destination : Path) : Disk OsError Unit := .update (·.copy source destination)

def rename (source destination : Path) : Disk OsError Unit := .update (·.rename source destination)

/-- Makes a directory, unless there is one already. -/
def ensureDir (p : Path) (missing : Disk OsError Unit) : Disk OsError Unit := fun fs =>
  match fs.makeDir p with
  | .ok fs => (.ok (), fs)
  | .error .notFound => missing fs
  | .error e => if fs.isDir p then (.ok (), fs) else (.error e, fs)

/-- Makes the first of some directories, of which each is the parent of the one before it, and as many
of its parents as are missing. The empty path is always there. -/
def makeChain : List Path → Disk OsError Unit
  | [] => throw .noTree
  | p :: parents =>
    if p.text = "" then pure ()
    else ensureDir p do
      makeChain parents
      ensureDir p (throw .notFound)

/-- Makes a directory and all directories above it that are missing. -/
def makeDirs (p : Path) : Disk OsError Unit := makeChain p.ancestors

end Disk

end BaseLang
