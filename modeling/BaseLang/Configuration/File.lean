import BaseLang.Configuration
import BaseLang.FileSystem.Disk
import BaseLang.ProcessError

/-!
# Configuration files

* `Configuration.load` : the configuration in a file;
* `Configuration.loadOrInit` : the same, but a file without a configuration is set aside and one with the
  standard configuration takes its place.
-/

namespace BaseLang.Configuration

/-- Makes the directory of a file. The root and the empty path are in no directory. -/
def makeDirOf (file : Path) : Disk Fault Unit :=
  match file.parent? with
  | none => throw .noParent
  | some dir => (Disk.makeDirs dir).mapFailure .os

/-- The configuration in a file, whose directory is made if it is missing. -/
def ofFile (file : Path) : Disk Fault Configuration := do
  makeDirOf file
  let text ← Action.query fun fs => (fs.readText file).mapError TextFault.fault
  match parse? text with
  | some c => return c
  | none => throw .configuration

/-- Where a file is set aside at a time: behind its extension come the seconds and `bak`. -/
def backupPath (file : Path) (time : Time) : Path :=
  let extension := String.ofList (file.extension?.getD [])
  (file.withExtension? s!"{extension}.{time / 1000000000}.bak").getD file

/-- Sets a file aside, if there is one. -/
def setAside (file : Path) : Disk Fault Unit := fun fs =>
  if fs.holds file then
    (Disk.rename file (backupPath file fs.clock)).mapFailure .os fs
  else (.ok (), fs)

/-- Writes a configuration to a file. What is there is set aside. -/
def save (c : Configuration) (file : Path) : Disk Fault Unit := do
  setAside file
  makeDirOf file
  (Disk.write file c.text).mapFailure .os

def load (file : Path) : Disk ProcessError Configuration :=
  (ofFile file).mapFailure (.external (.loadConfiguration file))

/-- The configuration in a file, or else the standard one, which is then written there. -/
def loadOrInit (file : Path) : Disk ProcessError Configuration := do
  match ← (ofFile file).attempt with
  | .ok c => return c
  | .error _ =>
    (save standard file).mapFailure (.external (.writeConfiguration file))
    return standard

def userFile (home : Path) : Path := (home.file "basil").file "basil.toml"

end BaseLang.Configuration
