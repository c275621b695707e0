import BaseLang.Program

/-!
# Shell patterns

* `Pattern` : characters, classes and wildcards;
* `Pattern.ofMarked` : the pattern that a text spells, in which quoted characters stand for themselves;
* `Pattern.accepts` : whether a pattern accepts a whole text;
* `Pattern.files` : the paths of files that a path with patterns accepts, in order.
-/

namespace BaseLang

inductive Wild where
  | char (c : Char)
  | any
  | run
  | oneOf (negated : Bool) (ranges : List (Char × Char))
  deriving DecidableEq

abbrev Pattern := List Wild

namespace Pattern

/-- A character, and whether it is quoted. -/
abbrev Marked := Char × Bool

def classRanges : List (String × List (Char × Char)) :=
  [("alpha", [('a', 'z'), ('A', 'Z')]), ("digit", [('0', '9')]),
   ("alnum", [('a', 'z'), ('A', 'Z'), ('0', '9')]), ("upper", [('A', 'Z')]), ("lower", [('a', 'z')]),
   ("space", [(' ', ' '), ('\t', '\x0d')]), ("blank", [(' ', ' '), ('\t', '\t')]),
   ("punct", [('!', '/'), (':', '@'), ('[', '\x60'), ('\x7b', '~')]),
   ("xdigit", [('0', '9'), ('a', 'f'), ('A', 'F')]), ("cntrl", [('\x00', '\x1f'), ('\x7f', '\x7f')]),
   ("print", [(' ', '~')]), ("graph", [('!', '~')])]

/-- The items of a class up to its closing bracket, with the text behind that. The first character may
be a closing bracket itself. -/
def classItems : (fuel : Nat) → (first : Bool) → List Marked → Option (List (Char × Char) × List Marked)
  | 0, _, _ => none
  | _, _, [] => none
  | fuel + 1, first, (c, quoted) :: cs =>
    if c = ']' && !quoted && !first then some ([], cs)
    else
      let named := match c, cs with
        | '[', (':', _) :: rest =>
          let name := (rest.map Prod.fst).takeWhile (· ≠ ':')
          match rest.drop name.length with
          | (':', _) :: (']', _) :: behind =>
            (List.lookup (String.ofList name) classRanges).map fun rs => (rs, behind)
          | _ => none
        | _, _ => none
      match named, cs with
      | some (rs, behind), _ => (classItems fuel false behind).map fun (is, rest) => (rs ++ is, rest)
      | none, ('-', false) :: (hi, q) :: behind =>
        if hi = ']' && !q then (classItems fuel false cs).map fun (is, rest) => ((c, c) :: is, rest)
        else (classItems fuel false behind).map fun (is, rest) => ((c, hi) :: is, rest)
      | none, _ => (classItems fuel false cs).map fun (is, rest) => ((c, c) :: is, rest)

def class? (cs : List Marked) : Option (Wild × List Marked) :=
  match cs with
  | ('!', false) :: rest | ('^', false) :: rest =>
    (classItems (cs.length + 1) true rest).map fun (is, rest) => (.oneOf true is, rest)
  | _ => (classItems (cs.length + 1) true cs).map fun (is, rest) => (.oneOf false is, rest)

def ofMarkedUpTo : (fuel : Nat) → List Marked → Pattern
  | 0, _ => []
  | _, [] => []
  | fuel + 1, (c, quoted) :: cs =>
    if quoted then .char c :: ofMarkedUpTo fuel cs
    else match c with
      | '*' => .run :: ofMarkedUpTo fuel cs
      | '?' => .any :: ofMarkedUpTo fuel cs
      | '[' =>
        match class? cs with
        | some (w, rest) => w :: ofMarkedUpTo fuel rest
        | none => .char c :: ofMarkedUpTo fuel cs
      | '\\' =>
        match cs with
        | (d, _) :: rest => .char d :: ofMarkedUpTo fuel rest
        | [] => [.char c]
      | _ => .char c :: ofMarkedUpTo fuel cs

/-- The pattern that a text spells. -/
def ofMarked (cs : List Marked) : Pattern := ofMarkedUpTo cs.length cs

def Wild.accepts (w : Wild) (c : Char) : Bool :=
  match w with
  | .char d => c = d
  | .any => true
  | .run => false
  | .oneOf negated ranges => (ranges.any fun r => r.1 ≤ c && c ≤ r.2) != negated

/-- A text, what follows its first character, and so on to the empty text. -/
def suffixes : List Char → List (List Char)
  | [] => [[]]
  | c :: cs => (c :: cs) :: suffixes cs

def accepts : Pattern → List Char → Bool
  | [], cs => cs.isEmpty
  | .run :: ws, cs => (suffixes cs).any (accepts ws)
  | _ :: _, [] => false
  | w :: ws, c :: cs => Wild.accepts w c && accepts ws cs

/-- Whether a pattern accepts anything else than one text. -/
def isWild (p : Pattern) : Bool := p.any fun
  | .char _ => false
  | _ => true

/-! ## Files -/

/-- Whether a pattern accepts a file name. A dot at its start has to be spelled out. -/
def acceptsName (p : Pattern) (name : String) : Bool :=
  (name.toList.head? ≠ some '.' || p.head? = some (.char '.')) && accepts p name.toList

def literal (p : Pattern) : String :=
  String.ofList (p.filterMap fun
    | .char c => some c
    | _ => none)

def names (fs : FileSystem) (dir : String) : List String :=
  match fs.locate (.ofOctets dir) with
  | .error _ => []
  | .ok loc =>
    let found := fs.nodes.keys.filterMap fun
      | name :: parent => if parent = loc then some (Text.octets name) else none
      | [] => none
    found.mergeSort fun a b => decide (a ≤ b)

/-- The names in a directory that a pattern accepts, also those of the directory itself and of the one
above it. -/
def acceptedNames (fs : FileSystem) (dir : String) (p : Pattern) : List String :=
  (("." :: ".." :: names fs dir).filter (acceptsName p)).mergeSort fun a b => decide (a ≤ b)

/-- The paths behind `base` that the parts of a path with patterns accept. -/
def filesFrom (fs : FileSystem) (base : String) : List Pattern → List String
  | [] => [base]
  | [p] =>
    if isWild p then
      (acceptedNames fs (if base = "" then "." else base) p).map (base ++ ·)
    else if literal p = "" || fs.holds (.ofOctets (base ++ literal p)) then [base ++ literal p] else []
  | p :: ps =>
    if isWild p then
      let dirs := (acceptedNames fs (if base = "" then "." else base) p).filter fun name => fs.isDir (.ofOctets (base ++ name))
      dirs.flatMap fun name => filesFrom fs (base ++ name ++ "/") ps
    else filesFrom fs (base ++ literal p ++ "/") ps

/-- A text cut at the slashes that are not part of a class. -/
def splitSlashes (cs : List Marked) : List (List Marked) :=
  cs.foldr (fun c parts =>
    if c.1 = '/' then [] :: parts
    else match parts with
      | [] => [[c]]
      | part :: parts => (c :: part) :: parts) [[]]

def files (fs : FileSystem) (cs : List Marked) : List String :=
  filesFrom fs "" ((splitSlashes cs).map ofMarked)

end Pattern

end BaseLang
