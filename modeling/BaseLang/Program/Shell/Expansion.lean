import BaseLang.Program.Pattern
import BaseLang.Program.Shell.Arithmetic
import BaseLang.Program.Shell.Subshell

/-!
# Expansion of words

* `Fragment` : what a word has become before it is taken apart;
* `Expansion.fields` : fragments taken apart at the field separators;
* `Expansion.words` : the fields of words, with paths in the place of patterns;
* `Expansion.text` : the text of a word that is a single field;
* `Expansion.pattern` : the pattern that a word spells.
-/

namespace BaseLang.Shell

/-- A part of an expanded word: a character, which may be quoted and may separate fields, a place where
there is a field even if it is empty, and a place where a field ends. -/
inductive Fragment where
  | char (c : Char) (quoted separates : Bool)
  | hold
  | cut

namespace Session

def optionText (s : Session) : String := String.ofList s.options

def parameter? (s : Session) (name : String) : Option String :=
  match name with
  | "#" => some (toString s.params.length)
  | "?" => some (toString s.status)
  | "$" => some (toString s.pid)
  | "!" => s.lastJob.map toString
  | "-" => some s.optionText
  | "0" => some s.name
  | _ =>
    match name.toNat? with
    | some n => s.params[n - 1]?
    | none => s.value? name

def separators (s : Session) : List Char := ((s.value? "IFS").getD " \t\n").toList

/-- What stands between parameters that become one text. -/
def joint (s : Session) : String :=
  match s.value? "IFS" with
  | some ifs => String.ofList (ifs.toList.take 1)
  | none => " "

end Session

namespace Expansion

def ofText (text : String) (quoted separates : Bool) : List Fragment :=
  text.toList.map (.char · quoted separates)

def textOf (fs : List Fragment) : String :=
  String.ofList (fs.filterMap fun
    | .char c _ _ => some c
    | _ => none)

def marked (fs : List Fragment) : List Pattern.Marked :=
  fs.filterMap fun
    | .char c quoted _ => some (c, quoted)
    | _ => none

def isBlank (c : Char) : Bool := c = ' ' || c = '\t' || c = '\n'

/-- Fragments taken apart at separators. `field` is what has been read of a field, backwards; `ended` says
that the field before it has ended at white space. -/
def fieldsFrom (ifs : List Char) (field : Option (List Pattern.Marked)) (ended : Bool) :
    List Fragment → List (List Pattern.Marked)
  | [] => (field.map List.reverse).toList
  | .hold :: fs => fieldsFrom ifs (some (field.getD [])) false fs
  | .cut :: fs => (field.map List.reverse).toList ++ fieldsFrom ifs none false fs
  | .char c quoted separates :: fs =>
    if separates && ifs.contains c then
      if isBlank c then
        match field with
        | some cs => cs.reverse :: fieldsFrom ifs none true fs
        | none => fieldsFrom ifs none ended fs
      else match field, ended with
        | some cs, _ => cs.reverse :: fieldsFrom ifs none false fs
        | none, true => fieldsFrom ifs none false fs
        | none, false => [] :: fieldsFrom ifs none false fs
    else fieldsFrom ifs (some ((c, quoted) :: field.getD [])) false fs

/-- Fragments taken apart at separators. Adjacent white space counts once. -/
def fields (ifs : List Char) (fs : List Fragment) : List (List Pattern.Marked) :=
  fieldsFrom ifs none false fs

/-- The longest or shortest start of a text that a pattern accepts is removed. -/
def trimStart (p : Pattern) (longest : Bool) (cs : List Char) : List Char :=
  let cuts := List.range (cs.length + 1)
  match (if longest then cuts.reverse else cuts).find? fun n => Pattern.accepts p (cs.take n) with
  | some n => cs.drop n
  | none => cs

def trimEnd (p : Pattern) (longest : Bool) (cs : List Char) : List Char :=
  let cuts := List.range (cs.length + 1)
  match (if longest then cuts else cuts.reverse).find? fun n => Pattern.accepts p (cs.drop n) with
  | some n => cs.take n
  | none => cs

/-- A text without the line ends behind it and without NUL octets. -/
def outputText (bytes : ByteArray) : String :=
  let cs := (Text.ofBytes bytes).toList.filter (· ≠ '\x00')
  String.ofList (cs.reverse.dropWhile (· = '\n')).reverse

/-- What commands write to their output, in a process of their own. -/
def output (run : Runner) (commands : List Command) : Act String := do
  let s ← Act.session
  let place := s.openFiles.size
  let e ← Act.forked run do
    Action.modify (·.attach 1 (.text .empty 0))
    commands.forM (run.command ⟨false, true⟩)
  let status ← Act.reap e
  Action.modify fun s => { s with status, lastOutput := some status }
  match (← Act.session).openFiles[place]? with
  | some (.text contents _) => return outputText contents
  | _ => return ""

def number (expression : String) : Act String := do
  let s ← Act.session
  match Arithmetic.evaluate s.value? expression with
  | .ok (n, set) =>
    set.reverse.forM fun (name, n) => Act.assign name (toString n.toInt)
    return toString n.toInt
  | .error e => Act.abort (e.message expression)

def parameters (quoted splitting starred : Bool) : Act (List Fragment) := do
  let s ← Act.session
  if splitting && !(quoted && starred) then
    let parts := s.params.map fun p =>
      (if quoted then [.hold] else []) ++ ofText p quoted (!quoted)
    return List.intercalate [.cut] parts
  else
    let joint := if starred then s.joint else " "
    return (if quoted then [.hold] else []) ++ ofText (joint.intercalate s.params) quoted (!quoted)

/-- The home directory in the place of a tilde at the start of a text. -/
def tilde (text : String) : Act String := do
  match text.toList with
  | '~' :: rest =>
    match rest, (← Act.session).value? "HOME" with
    | [], some home => return home
    | '/' :: _, some home => return home ++ String.ofList rest
    | _, _ => return text
  | _ => return text

mutual

/-- The fragments of a word. If `splitting`, a list of parameters becomes several fields; `inside` an
expansion, also what is written out is split. -/
def ofPieces (run : Runner) (splitting inside : Bool) : List Piece → Act (List Fragment)
  | [] => pure []
  | p :: ps => do
    let fs ← ofPiece run splitting inside p
    return fs ++ (← ofPieces run splitting inside ps)

def ofPiece (run : Runner) (splitting inside : Bool) : Piece → Act (List Fragment)
  | .text text quoted =>
    pure (if quoted && text = "" then [.hold] else ofText text quoted (inside && !quoted))
  | .output commands quoted => do
    let text ← output run commands
    return (if quoted then [.hold] else []) ++ ofText text quoted (!quoted)
  | .arithmetic expression quoted => do
    let fs ← ofPieces run false false expression
    return ofText (← number (textOf fs)) quoted (!quoted)
  | .parameter name adjustment emptyCounts word quoted => do
    let s ← Act.session
    let isList := name = "@" || name = "*"
    let value? := if isList then (if s.params = [] then none else some (" ".intercalate s.params))
      else s.parameter? name
    let present := if emptyCounts then value?.filter (· ≠ "") else value?
    let fragmentsOf (text : String) : List Fragment :=
      (if quoted then [.hold] else []) ++ ofText text quoted (!quoted)
    let known : Act (List Fragment) := do
      if isList then parameters quoted splitting (name = "*")
      else match value? with
        | some v => return fragmentsOf v
        | none =>
          if s.hasOption 'u' && adjustment = .plain then Act.abort s!"{name}: parameter not set"
          return fragmentsOf ""
    let trimmed (cut : Pattern → List Char → List Char) : Act (List Fragment) := do
      if value?.isNone && s.hasOption 'u' then Act.abort s!"{name}: parameter not set"
      let fs ← ofPieces run false false word
      return fragmentsOf (String.ofList (cut (.ofMarked (marked fs)) (value?.getD "").toList))
    match adjustment with
    | .plain => known
    | .broken => Act.abort "Bad substitution"
    | .length =>
      if value?.isNone && s.hasOption 'u' then Act.abort s!"{name}: parameter not set"
      let n := if isList then s.params.length else (value?.getD "").length
      return ofText (toString n) quoted (!quoted)
    | .default =>
      if present.isSome then known
      else
        let fs ← ofPieces run splitting (!quoted) word
        return (if quoted then [.hold] else []) ++ fs
    | .alternative =>
      if present.isNone then return fragmentsOf ""
      let fs ← ofPieces run splitting (!quoted) word
      return (if quoted then [.hold] else []) ++ fs
    | .assign =>
      if present.isSome then known
      else
        if !isName name then Act.abort s!"{name}: bad variable name"
        let text := textOf (← ofPieces run false false word)
        Act.assign name text
        return fragmentsOf text
    | .demand =>
      if present.isSome then known
      else
        let text := textOf (← ofPieces run false false word)
        Act.abort (if word.isEmpty then
            s!"{name}: parameter not set" ++ (if emptyCounts then " or null" else "")
          else s!"{name}: {text}")
    | .trimStart longest => trimmed fun p cs => trimStart p longest cs
    | .trimEnd longest => trimmed fun p cs => trimEnd p longest cs

end

def withHome : Word → Act Word
  | .text text false :: ps => return .text (← tilde text) false :: ps
  | w => return w

/-- The text of a word that is a single field. -/
def text (run : Runner) (w : Word) : Act String := do
  return textOf (← ofPieces run false false (← withHome w))

def pattern (run : Runner) (w : Word) : Act Pattern := do
  return .ofMarked (marked (← ofPieces run false false (← withHome w)))

/-- The paths that a field accepts as a pattern, or the field itself if there are none. -/
def paths (s : Session) (field : List Pattern.Marked) : List String :=
  let whole := String.ofList (field.map Prod.fst)
  if s.hasOption 'f' || !(field.any fun (c, quoted) => !quoted && "*?[".toList.contains c) then [whole]
  else match Pattern.files s.files field with
    | [] => [whole]
    | found => found

def wordFields (run : Runner) (w : Word) : Act (List String) := do
  let fs ← ofPieces run true false (← withHome w)
  let s ← Act.session
  return (fields s.separators fs).flatMap (paths s)

def words (run : Runner) (ws : List Word) : Act (List String) := do
  return (← ws.mapM (wordFields run)).flatten

end Expansion

end BaseLang.Shell
