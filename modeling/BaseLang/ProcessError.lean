import BaseLang.Fault
import BaseLang.Profile

/-!
# Errors of processing

* `Task` : what a run was trying to do when something failed;
* `BootstrapFault` : generated modules that are not as they have to be;
* `ProcessError` : why a language definition cannot be processed.
-/

namespace BaseLang

inductive Task where
  | nameLanguage (definition : Path)
  | makeArtifactDir (dir : Path)
  | readTime (file : Path)
  | write (file : Path)
  | read (file : Path)
  | parse (file : Path) (startSymbol : String)
  | locate (file : Path) (language : String)
  | loadConfiguration (file : Path)
  | writeConfiguration (file : Path)
  | makeCache
  | runGenerator (program : String)
  | other (description : String)
  deriving DecidableEq

def Task.text : Task → String
  | nameLanguage definition => s!"derive a language name from `{definition.text}`"
  | makeArtifactDir dir => s!"create the artifact directory `{dir.text}`"
  | readTime file => s!"read the modification time of `{file.text}`"
  | write file => s!"write `{file.text}`"
  | read file => s!"read `{file.text}`"
  | parse file startSymbol => s!"parse `{file.text}` as {startSymbol}"
  | locate file language => s!"locate `{file.text}` for base language `{language}`"
  | loadConfiguration file => s!"load the configuration at `{file.text}`"
  | writeConfiguration file => s!"write the default configuration to `{file.text}`"
  | makeCache => "create a cache directory"
  | runGenerator program => s!"run the generator `{program}`"
  | other description => description

/-- A generated module that is not encoded as the rest of the toolchain expects. -/
inductive BootstrapFault where
  | shape (e : ShapeError)
  | extract (e : ExtractError)
  deriving DecidableEq

def BootstrapFault.message : BootstrapFault → String
  | shape e => e.message
  | extract e => e.message

/-- Why a language definition cannot be processed: its generated modules are wrong, something outside
failed, or the definition itself has errors. -/
inductive ProcessError where
  | implementation (cause : BootstrapFault)
  | external (task : Task) (cause : Fault)
  | definition (language : String) (messages : List String)
  deriving DecidableEq

namespace ProcessError

def message : ProcessError → String
  | implementation cause =>
    s!"A bug in the base-language bootstrapper occurred: {cause.message}"
  | external task cause =>
    s!"Base-language processing failed unexpectedly while trying to {task.text}: {cause.message}"
  | definition language messages =>
    s!"While processing the base language definition of `{language}` the following errors occurred:\n"
      ++ "\n".intercalate messages

/-- A refused file operation, as the failure of a task. -/
def ofOs (task : Task) (e : OsError) : ProcessError := external task (.os e)

/-- The error for a module that declares no usable profile. A missing definition is up to the author of
the language. -/
def ofExtract (language : String) : ExtractError → ProcessError
  | .missing d => definition language [ExtractError.message (.missing d)]
  | e => implementation (.extract e)

end ProcessError

end BaseLang
