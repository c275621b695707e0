import BaseLang.Text.Split

/-!
# Paths

File names as texts, taken apart at `/` without looking at any file system.

* `Path.parent?`, `Path.fileName?` : everything before the last component, and that component;
* `Path.stem?`, `Path.extension?` : the parts of a file name around its last dot;
* `Path.join` : a path below another one;
* `Path.withExtension?` : the same path with another file extension;
* `Path.components`, `Path.ancestors` : the components, and the path with all its parents.

Empty components and `.` are not components, except for a `.` at the very start.
-/

namespace BaseLang

/-- A file name, absolute or relative. -/
structure Path where
  text : String
  deriving DecidableEq, Inhabited

namespace Path

def chars (p : Path) : List Char := p.text.toList

def ofChars (cs : List Char) : Path := ⟨String.ofList cs⟩

def isAbsolute (p : Path) : Bool := p.chars.head? = some '/'

/-- A path text read backwards, without the slashes and `.` components at its end. What stands at the
very start remains. -/
def dropEnd : List Char → List Char
  | '/' :: c :: cs => dropEnd (c :: cs)
  | '.' :: '/' :: cs => dropEnd ('/' :: cs)
  | cs => cs

/-- The characters of a path, read backwards, up to the end of its last component. -/
def reversed (p : Path) : List Char := dropEnd p.chars.reverse

/-- The last component as it is written, empty for the root and the empty path. -/
def lastPart (p : Path) : List Char := (p.reversed.takeWhile (· ≠ '/')).reverse

/-- Everything before the last component; the root and the empty path have no parent. -/
def parent? (p : Path) : Option Path :=
  match p.reversed with
  | [] | ['/'] => none
  | cs => some (ofChars (dropEnd (cs.dropWhile (· ≠ '/'))).reverse)

/-- The last component, if it names a file. -/
def fileName? (p : Path) : Option (List Char) :=
  match p.lastPart with
  | [] | ['.'] | ['.', '.'] => none
  | name => some name

/-- A file name cut at its last dot, if there is one behind its first character. -/
def splitName (name : List Char) : List Char × Option (List Char) :=
  match Text.splitLast '.' name with
  | some ([], _) | none => (name, none)
  | some (stem, extension) => (stem, some extension)

def stem? (p : Path) : Option String :=
  p.fileName?.map fun name => String.ofList (splitName name).1

/-- What follows the last dot of the file name. -/
def extension? (p : Path) : Option (List Char) :=
  p.fileName?.bind fun name => (splitName name).2

/-- The path `q` as seen from `p`: an absolute path stays as it is. -/
def join (p q : Path) : Path :=
  if q.isAbsolute then q
  else if p.text = "" || p.chars.getLast? = some '/' then ⟨p.text ++ q.text⟩
  else ⟨p.text ++ "/" ++ q.text⟩

def file (p : Path) (name : String) : Path := p.join ⟨name⟩

/-- The path with everything behind the stem of its file name replaced by an extension, where an empty
extension has no dot. A path without a file name stays as it is. -/
def setExtension (p : Path) (extension : List Char) : Path :=
  match p.fileName? with
  | none => p
  | some name =>
    let stem := (splitName name).1
    let before := (p.reversed.dropWhile (· ≠ '/')).reverse
    ofChars (before ++ stem ++ if extension = [] then [] else '.' :: extension)

/-- The path with another extension. An extension that contains a slash is refused. -/
def withExtension? (p : Path) (extension : String) : Option Path :=
  if '/' ∈ extension.toList then none
  else
    let shortened := match p.extension? with
      | none => p
      | some old => ofChars (p.chars.take (p.chars.length - old.length))
    some (shortened.setExtension extension.toList)

/-! ## Components -/

/-- The names between the slashes of a path, also empty ones and dots. -/
def segments (p : Path) : List String := (Text.fields '/' p.chars).map String.ofList

/-- The components of a path. The root counts as one, and so does a `.` at the start. -/
def components (p : Path) : List String :=
  let named := p.segments.filter fun s => s ≠ "" && s ≠ "."
  if p.isAbsolute then "/" :: named
  else if p.segments.head? = some "." then "." :: named
  else named

/-- The parents of a path, from the nearest one on, at most `count` of them. -/
def parentsUpTo : (count : Nat) → Path → List Path
  | 0, _ => []
  | count + 1, p =>
    match p.parent? with
    | none => []
    | some q => q :: parentsUpTo count q

/-- The path, its parent, and so on up to the root or the empty path. -/
def ancestors (p : Path) : List Path := p :: parentsUpTo p.chars.length p

end Path

end BaseLang
