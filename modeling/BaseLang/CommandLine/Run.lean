import BaseLang.CommandLine
import BaseLang.Configuration.File
import BaseLang.Program.Generator
import BaseLang.Regeneration

/-!
# Running commands

* `Environment` : what commands need besides the files;
* `CommandError` : why a command fails;
* `Command.run` : what a command prints.
-/

namespace BaseLang

/-- What commands need besides the files: the configuration file of the user, the programs that can be
run, and a directory that generators may use. -/
structure Environment where
  userConfiguration : Path
  programs : Programs
  cache : Path

inductive CommandError where
  | process (e : ProcessError)
  | read (file : Path) (e : TextFault)
  | parse (file : Path) (e : ReadError)
  | extract (e : ExtractError)
  | noPlugin (definition : Path)
  deriving DecidableEq

namespace CommandError

def message : CommandError → String
  | process e => e.message
  | read file e => s!"Failed to read `{file.text}`: {e.message}"
  | parse file e => s!"Failed to parse `{file.text}`: {e.message}"
  | extract e => e.message
  | noPlugin definition =>
    s!"Cannot tell the plugin directory of `{definition.text}`; pass --plugin"

end CommandError

namespace Command

/-- The plugin of a definition: the one given, or else the one that has it in its `src`. -/
def pluginOf (definition : Path) (given : Option Path) : Except CommandError Plugin :=
  match given with
  | some root => .ok ⟨root⟩
  | none =>
    match Plugin.ofDefinition? definition with
    | some p => .ok p
    | none => .error (.noPlugin definition)

/-- The configuration in a file given, or else the one of the user. -/
def configuration (env : Environment) : Option Path → Disk ProcessError Configuration
  | some file => Configuration.load file
  | none => Configuration.loadOrInit env.userConfiguration

def toolchain (env : Environment) (c : Configuration) : Toolchain :=
  Toolchain.textual Toolchain.standardWidth (c.generator.generator env.programs env.cache)

/-- Processes a definition without keeping an account of it. -/
def processFiles (env : Environment) (p : Plugin) (c : Configuration) (definition : Path) :
    Disk ProcessError BaseLanguage := fun fs =>
  let (outcome, run) := p.process (toolchain env c) c definition ⟨fs, []⟩
  (outcome, run.files)

/-- The profile of a definition whose artifacts are brought up to date. -/
def runProcess (env : Environment) (definition : Path) (plugin conf : Option Path) :
    Disk CommandError String := do
  let p ← .ofExcept (pluginOf definition plugin)
  let c ← (configuration env conf).mapFailure .process
  let base ← (processFiles env p c definition).mapFailure .process
  return base.profile.text

def runStatus (definition : Path) (plugin : Option Path) (fs : FileSystem) :
    Except CommandError String :=
  match pluginOf definition plugin with
  | .error e => .error e
  | .ok p =>
    match p.status definition fs with
    | .ok freshness => .ok (freshness.text ++ "\n")
    | .error e => .error (.process e)

/-- The profile in a transformation module, as if its language were in the same directory. -/
def runProfile (file : Path) (fs : FileSystem) : Except CommandError String := do
  let source ← (fs.readText file).mapError (.read file)
  let module ← (Term.read source).mapError (.parse file)
  let language ← (languageName file).mapError .process
  let dir := file.parent?.getD ⟨"."⟩
  let profile ← (Profile.read module language ⟨dir, language⟩).mapError .extract
  return profile.text

def run (env : Environment) : Command → Disk CommandError String
  | process definition plugin conf _ => runProcess env definition plugin conf
  | status definition plugin _ => .query (runStatus definition plugin)
  | profile file _ => .query (runProfile file)

end Command

end BaseLang
