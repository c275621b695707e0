import BaseLang.Configuration
import BaseLang.Program
import BaseLang.Text.Blank
import BaseLang.Text.Split
import BaseLang.Text.Utf8
import BaseLang.Toolchain

/-!
# Generators that are programs

* `GeneratorCommand.expand` : the arguments of a generator, with paths in the place of their names;
* `reportedErrors` : the errors that a generator has found in a definition;
* `GeneratorCommand.generator` : runs a program as a generator, in an empty cache directory.
-/

namespace BaseLang

/-- An argument with three paths in the place of their names, which are replaced one after another. -/
def expandArgument (definition out cache : Path) (arg : String) : String :=
  let arg := Text.replaceAll "\x7bdefinition\x7d".toList definition.chars arg.toList
  let arg := Text.replaceAll "\x7bout\x7d".toList out.chars arg
  String.ofList (Text.replaceAll "\x7bcache\x7d".toList cache.chars arg)

def GeneratorCommand.expand (c : GeneratorCommand) (definition out cache : Path) : List String :=
  c.args.map (expandArgument definition out cache)

def errorMark : List Char := "error:".toList

def lineError? (line : List Char) : Option String :=
  let line := Text.trimStart line
  if errorMark.isPrefixOf line then some (String.ofList (Text.trim (line.drop errorMark.length)))
  else none

def reportedErrors (output : List Char) : List String := (Text.lines output).filterMap lineError?

/-- What a generator that has ended leaves behind. One that fails without reporting an error has failed
for another reason than the definition. -/
def GeneratorCommand.judge (c : GeneratorCommand) (o : Outcome) (artifacts : Artifacts) :
    Except ProcessError Generated :=
  let output := Text.decodeLossy (o.written .errors).toList
  let errors := reportedErrors output
  if !o.exit.isSuccess && errors.isEmpty then
    .error (.external (.runGenerator c.program)
      (.text (o.exit.message ++ "\n" ++ String.ofList (Text.trimEnd output))))
  else .ok ⟨artifacts.path .grammar, artifacts.path .transformation, errors⟩

/-- An action in a new and empty directory, which is removed afterwards. -/
def inCache {α : Type} (cache : Path) (a : Disk ProcessError α) : Disk ProcessError α := fun fs =>
  match ((Disk.makeDir cache).mapFailure (.ofOs .makeCache)).run fs with
  | (.error e, fs) => (.error e, fs)
  | (.ok (), fs) =>
    let (outcome, fs) := a fs
    (outcome, (fs.remove cache).toOption.getD fs)

def inDirectory {ε α : Type} (dir : Path) (a : Disk ε α) : Disk ε α := fun fs =>
  let place := (fs.locate dir).toOption.getD fs.workingDir
  let (outcome, fs') := a { fs with workingDir := place }
  (outcome, { fs' with workingDir := fs.workingDir })

def GeneratorCommand.generator (c : GeneratorCommand) (programs : Programs) (cache : Path) : Generator :=
  fun definition language out => do
    let outcome ← inCache cache <| inDirectory cache <|
      (programs c.program (c.expand definition out cache)).mapFailure (.ofOs (.runGenerator c.program))
    .ofExcept (c.judge outcome ⟨out, language⟩)

end BaseLang
