import BaseLang.FileSystem.Disk
import BaseLang.Profile
import BaseLang.Term.Literal

/-!
# Source files of an extensible language

The toplevel declarations of one source file, sorted into the parts of a source file in its base language.

* `Role`, `Profile.role` : the parts that a declaration can play;
* `SourceUnit` : what has been collected from a file; `SourceUnit.ofPath` starts with nothing;
* `splitQualified` : the namespace and the module name in a qualified name;
* `SourceUnit.add`, `SourceUnit.addAll` : takes one more declaration, or all of a list;
* `SourceUnit.generated` : the source text in the base language;
* `SourceUnit.writeGenerated`, `SourceUnit.compile` : puts it below an output directory, and copies
  outputs to where base-language files are looked for.
-/

namespace BaseLang

/-- The part that a declaration plays. A namespace declaration and an import come with the position of
the module name among their arguments. -/
inductive Role where
  | namespaceDecl (index : Nat)
  | importDecl (index : Nat)
  | body
  | other
  deriving DecidableEq

/-- The part that a declaration plays in a language. What could play several parts is a namespace
declaration rather than an import, and an import rather than a part of the body. -/
def Profile.role (p : Profile) (t : Term) : Role :=
  match p.namespaceIndex? t with
  | some index => .namespaceDecl index
  | none =>
    match p.importIndex? t with
    | some index => .importDecl index
    | none => if p.isBody t then .body else .other

inductive SourceError where
  | noModuleName (source : Path)
  | namespaceShape (e : ShapeError)
  | namespaceMismatch (declared expected : String)
  | moduleNameMismatch (declared expected : String)
  | duplicateHeader (decl : Term)
  | unexpected (decl : Term) (language : String)
  | suffixWithSlash (suffix : String)
  | write (file : Path) (e : OsError)
  | copy (source destination : Path) (e : OsError)

namespace SourceError

def message : SourceError → String
  | noModuleName source => s!"Source file `{source.text}` has no module name"
  | namespaceShape e => s!"Malformed namespace declaration: {e.message}"
  | namespaceMismatch declared expected =>
    s!"The declared namespace `{declared}` does not match the expected namespace `{expected}`"
  | moduleNameMismatch declared expected =>
    s!"The declared module name `{declared}` does not match the expected module name `{expected}`"
  | duplicateHeader decl => s!"A second namespace declaration `{decl.text}` in the same source file"
  | unexpected decl language =>
    s!"Declaration `{decl.text}` does not belong to base language `{language}`"
  | suffixWithSlash suffix => s!"The file suffix `{suffix}` contains a path separator"
  | write file e => s!"Failed to write `{file.text}`: {e.message}"
  | copy source destination e =>
    s!"Failed to copy `{source.text}` to `{destination.text}`: {e.message}"

end SourceError

/-! ## Qualified names -/

/-- The namespace and the module name in a qualified name. The parts of the namespace are set apart by
slashes; where names are not qualified, there is none. -/
def splitQualified (kind : NamespaceKind) (qualified : String) : Option String × String :=
  match kind.separator? with
  | none => (none, qualified)
  | some sep =>
    match Text.splitLast sep qualified.toList with
    | none => (some "", qualified)
    | some (before, name) =>
      (some ("/".intercalate ((Text.fields sep before).map String.ofList)), String.ofList name)

/-- The qualified name in an argument of a namespace declaration: a string literal, or else the text of
the argument. -/
def qualifiedName (arg : Term) : String :=
  match arg.decodeString with
  | .ok name => name
  | .error _ => arg.text

/-! ## Source units -/

/-- What has been collected from a source file: the texts of the declarations in each part. The path is relative
to the root of the sources. -/
structure SourceUnit where
  profile : Profile
  source : Path
  moduleName : String
  namespaceName : String
  header : Option String
  imports : List String
  body : List String

namespace SourceUnit

/-- The namespace of a path: the directories that lead to it. -/
def namespaceOf (source : Path) : String :=
  match source.parent? with
  | some dir => "/".intercalate dir.components
  | none => ""

/-- A source file of which nothing has been collected yet. Its module is named after its stem. -/
def ofPath (profile : Profile) (source : Path) : Except SourceError SourceUnit :=
  match source.stem? with
  | none => .error (.noModuleName source)
  | some moduleName =>
    .ok {
      profile, source, moduleName
      namespaceName := namespaceOf source
      header := none
      imports := []
      body := [] }

def checkName (u : SourceUnit) (qualified : String) : Except SourceError Unit :=
  let (declared?, name) := splitQualified u.profile.namespaceKind qualified
  match declared?.filter (· ≠ u.namespaceName) with
  | some declared => .error (.namespaceMismatch declared u.namespaceName)
  | none => if name = u.moduleName then .ok () else .error (.moduleNameMismatch name u.moduleName)

/-- Takes a namespace declaration, if there is none yet and it declares the right name. -/
def addHeader (decl : Term) (index : Nat) : Action SourceUnit SourceError Unit := do
  .query fun u => if u.header.isSome then .error (.duplicateHeader decl) else .ok ()
  let arg ← .ofExcept ((decl.child index).mapError .namespaceShape)
  .query fun u => u.checkName (qualifiedName arg)
  .modify fun u => { u with header := some decl.text }

/-- Takes a declaration in the part that it plays. One that plays no part is refused. -/
def addAs (decl : Term) : Role → Action SourceUnit SourceError Unit
  | .namespaceDecl index => addHeader decl index
  | .importDecl _ => .modify fun u => { u with imports := u.imports ++ [decl.text] }
  | .body => .modify fun u => { u with body := u.body ++ [decl.text] }
  | .other => .query fun u => .error (.unexpected decl u.profile.language)

/-- Takes one more declaration and gives the part that it plays. -/
def add (decl : Term) : Action SourceUnit SourceError Role := do
  let role ← .query fun u => .ok (u.profile.role decl)
  addAs decl role
  return role

/-- Takes declarations one after another, and goes on behind those that are refused. -/
def addAll (u : SourceUnit) (decls : List Term) : SourceUnit :=
  decls.foldl (fun u decl => ((add decl).run u).2) u

/-- The source text in the base language: the header, the imports and the body, one declaration a line. It is
empty as long as there is no header. -/
def generated (u : SourceUnit) : String :=
  match u.header with
  | none => ""
  | some header => header ++ "\n" ++ "\n".intercalate u.imports ++ "\n" ++ "\n".intercalate u.body

/-! ## Files -/

def withSuffix (p : Path) (suffix : String) : Except SourceError Path :=
  match p.withExtension? suffix with
  | some p => .ok p
  | none => .error (.suffixWithSlash suffix)

/-- Where the source text belongs, relative to an output directory. -/
def outFile (u : SourceUnit) : Except SourceError Path :=
  withSuffix u.source (u.profile.baseSuffix ++ "-src")

def makeParent (file : Path) : Disk SourceError Unit :=
  match file.parent? with
  | some dir => (Disk.makeDirs dir).mapFailure (.write file)
  | none => pure ()

/-- Writes the source text below an output directory. -/
def writeGenerated (u : SourceUnit) (out : Path) : Disk SourceError Path := do
  let file := out.join (← .ofExcept u.outFile)
  makeParent file
  (Disk.write file u.generated).mapFailure (.write file)
  return file

/-- Copies one output from below `out` to below `bin`, where it has the suffix of the base language. -/
def compileOutput (u : SourceUnit) (out bin output : Path) : Disk SourceError Path := do
  let destination := bin.join (← .ofExcept (withSuffix output u.profile.baseSuffix))
  makeParent destination
  (Disk.copy (out.join output) destination).mapFailure (.copy (out.join output) destination)
  return destination

/-- Copies outputs from below `out` to below `bin`, one after another. -/
def compile (u : SourceUnit) (out bin : Path) : List Path → Disk SourceError (List Path)
  | [] => pure []
  | output :: outputs => do
    let destination ← u.compileOutput out bin output
    return destination :: (← u.compile out bin outputs)

end SourceUnit

end BaseLang
