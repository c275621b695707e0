import BaseLang.FileSystem.Disk
import BaseLang.ProcessError

/-!
# Plugins

A plugin keeps language definitions in `src` and the artifacts derived from them in `bin`.

* `Plugin` : the two directories below its root; `Plugin.ofDefinition?` finds the root from a definition;
* `languageName` : the language that a definition describes;
* `Freshness.of` : whether the artifacts of a language are newer than its definition.
-/

namespace BaseLang

structure Plugin where
  root : Path
  deriving DecidableEq

namespace Plugin

/-- The directory of the definitions. -/
def src (p : Plugin) : Path := p.root.file "src"

/-- The directory of the artifacts. -/
def bin (p : Plugin) : Path := p.root.file "bin"

def artifacts (p : Plugin) (language : String) : Artifacts := ⟨p.bin, language⟩

/-- Makes the directory of the artifacts if it is missing. -/
def ensureBin (p : Plugin) : Disk ProcessError Unit :=
  (Disk.makeDirs p.bin).mapFailure (.ofOs (.makeArtifactDir p.bin))

/-- The plugin that has a definition in its `src`. -/
def ofDefinition? (definition : Path) : Option Plugin :=
  match definition.parent? with
  | some dir =>
    if dir.fileName? = some "src".toList then dir.parent?.map Plugin.mk else none
  | none => none

end Plugin

/-- The name of the language that a definition describes: the stem of its file name. -/
def languageName (definition : Path) : Except ProcessError String :=
  match definition.stem? with
  | some stem => .ok stem
  | none => .error (.external (.nameLanguage definition) .noStem)

/-! ## Freshness -/

inductive Freshness where
  | fresh
  | stale
  deriving DecidableEq

namespace Freshness

def text : Freshness → String
  | fresh => "fresh"
  | stale => "stale"

def modified (fs : FileSystem) (p : Path) : Except OsError Time := (fs.stat p).map Node.modified

/-- Artifacts in their order against the time of their definition. The first one that is missing or not
newer decides. -/
def check (fs : FileSystem) (source : Time) : List Path → Except ProcessError Freshness
  | [] => .ok fresh
  | artifact :: rest =>
    match modified fs artifact with
    | .ok time => if source < time then check fs source rest else .ok stale
    | .error .notFound => .ok stale
    | .error e => .error (.ofOs (.readTime artifact) e)

/-- Artifacts are fresh if each one is there and was changed after the definition. -/
def of (fs : FileSystem) (definition : Path) (artifacts : Artifacts) : Except ProcessError Freshness :=
  match modified fs definition with
  | .ok source => check fs source artifacts.paths
  | .error e => .error (.ofOs (.readTime definition) e)

end Freshness

def Plugin.status (p : Plugin) (definition : Path) (fs : FileSystem) : Except ProcessError Freshness :=
  match languageName definition with
  | .ok language => Freshness.of fs definition (p.artifacts language)
  | .error e => .error e

/-! ## Processed languages -/

/-- A processed language: its profile, its plugin, and how its artifacts were found. -/
structure BaseLanguage where
  profile : Profile
  plugin : Plugin
  freshness : Freshness
  deriving DecidableEq

namespace BaseLanguage

def name (l : BaseLanguage) : String := l.profile.language

/-- A file of the plugin: the one among the artifacts, or else the one among the definitions. -/
def locate (l : BaseLanguage) (file : Path) (fs : FileSystem) : Except ProcessError Path :=
  match [l.plugin.bin.join file, l.plugin.src.join file].find? fs.isFile with
  | some path => .ok path
  | none => .error (.external (.locate file l.name) (.notUnder l.plugin.root))

end BaseLanguage

end BaseLang
