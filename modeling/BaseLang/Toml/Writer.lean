/-!
# Writing TOML

* `Toml.quote` : a string in the first form that needs no escapes, or in an escaped form;
* `Toml.quoteList` : an array of strings on one line.
-/

namespace BaseLang.Toml

def longestRun (c : Char) (cs : List Char) : Nat :=
  ((cs.splitBy fun a b => (a = c) = (b = c)).filter fun run => run.head? = some c).foldl
    (fun n run => max n run.length) 0

/-- Characters that can only be written as escapes. -/
def needsEscape (c : Char) : Bool :=
  (c.toNat < 0x20 && c ≠ '\t' && c ≠ '\n') || c.toNat = 0x7f

def fourHex (n : Nat) : List Char :=
  let ds := (Nat.toDigits 16 n).map Char.toUpper
  List.replicate (4 - ds.length) '0' ++ ds

/-- How a character other than a double quote is written in a string with escapes. -/
def escapedChar (multiline : Bool) (c : Char) : List Char :=
  match c with
  | '\x08' => ['\\', 'b']
  | '\t' => ['\\', 't']
  | '\n' => if multiline then ['\n'] else ['\\', 'n']
  | '\x0c' => ['\\', 'f']
  | '\r' => ['\\', 'r']
  | '\\' => ['\\', '\\']
  | c => if needsEscape c then '\\' :: 'u' :: fourHex c.toNat else [c]

/-- The body of a string with escapes, in which no more than `allowed` double quotes follow one
another; `run` of them stand before the text. -/
def escapedBody (multiline : Bool) (allowed : Nat) : (run : Nat) → List Char → List Char
  | _, [] => []
  | run, c :: cs =>
    if c = '"' then
      if run < allowed then c :: escapedBody multiline allowed (run + 1) cs
      else '\\' :: c :: escapedBody multiline allowed 0 cs
    else escapedChar multiline c ++ escapedBody multiline allowed 0 cs

/-- A body between delimiters; over several lines it starts on a new one. -/
def delimited (delimiter : String) (newline : Bool) (body : List Char) : String :=
  delimiter ++ (if newline then "\n" else "") ++ String.ofList body ++ delimiter

/-- A string as a value: in double quotes if nothing has to be escaped there, else in single quotes,
else over several lines in either quotes, and with escapes only if none of these can hold it. -/
def quote (text : String) : String :=
  let cs := text.toList
  let newline := cs.any (· = '\n')
  let coded := cs.any needsEscape
  let backslash := cs.any (· = '\\')
  let doubles := longestRun '"' cs
  let singles := longestRun '\'' cs
  if !coded && !backslash && doubles = 0 && !newline then delimited "\"" false (escapedBody false 0 0 cs)
  else if !coded && singles = 0 && !newline then delimited "'" false cs
  else if !coded && !backslash && doubles ≤ 2 then
    delimited "\"\"\"" newline (escapedBody true 2 0 cs)
  else if !coded && singles ≤ 2 then delimited "'''" newline cs
  else if newline then delimited "\"\"\"" true (escapedBody true 2 0 cs)
  else delimited "\"" false (escapedBody false 0 0 cs)

def quoteList (texts : List String) : String :=
  "[" ++ ", ".intercalate (texts.map quote) ++ "]"

end BaseLang.Toml
