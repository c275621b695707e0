import BaseLang.Text.Octets

/-!
# Escapes

Texts of octets in which a backslash and what follows it stand for another octet.

* `EscapeStyle` : which escapes there are;
* `EscapeStyle.unescape` : what a text with escapes stands for, and whether one of these ends the output.
-/

namespace BaseLang

structure EscapeStyle where
  /-- Up to three octal digits behind a zero that is not one of them. -/
  zeroOctal : Bool
  /-- Up to three octal digits. -/
  octal : Bool
  /-- Up to two hexadecimal digits behind an `x`. -/
  hex : Bool
  /-- A `c` ends the output. -/
  stop : Bool
  /-- A double quote stands for itself. -/
  quote : Bool

namespace EscapeStyle

/-- The escapes of the `echo` of a shell, and of its formatted arguments. -/
def shellText : EscapeStyle := ⟨true, true, false, true, false⟩

def shellFormat : EscapeStyle := ⟨false, true, false, false, true⟩

/-- The escapes of the `echo` program, and of formatted arguments. -/
def text : EscapeStyle := ⟨true, true, true, true, false⟩

/-- The escapes of a format of the `printf` program. -/
def format : EscapeStyle := ⟨false, true, true, true, true⟩

def digit? (c : Char) : Option Nat :=
  if c.isDigit then some (c.toNat - '0'.toNat)
  else if 'a' ≤ c && c ≤ 'f' then some (c.toNat - 'a'.toNat + 10)
  else if 'A' ≤ c && c ≤ 'F' then some (c.toNat - 'A'.toNat + 10)
  else none

/-- The digits of a base at the start of a text, at most `count` of them. -/
def digits (base count : Nat) (cs : List Char) : List Nat :=
  (((cs.take count).map digit?).takeWhile fun d => d.any (· < base)).filterMap id

def value (base : Nat) (ds : List Nat) : Nat := ds.foldl (fun n d => n * base + d) 0

def octet (n : Nat) : Char := Text.octet (UInt8.ofNat n)

def letter? : Char → Option Char
  | 'a' => some '\x07'
  | 'b' => some '\x08'
  | 'e' => some '\x1b'
  | 'f' => some '\x0c'
  | 'n' => some '\n'
  | 'r' => some '\r'
  | 't' => some '\t'
  | 'v' => some '\x0b'
  | '\\' => some '\\'
  | _ => none

/-- The octet that a backslash in front of a text stands for, and how much of the text belongs to it. -/
def escape? (s : EscapeStyle) (cs : List Char) : Option (Char × Nat) :=
  match cs with
  | [] => none
  | c :: rest =>
    let octal := digits 8 3 cs
    let zeroOctal := digits 8 3 rest
    let hex := digits 16 2 rest
    if c = '0' && s.zeroOctal then some (octet (value 8 zeroOctal), zeroOctal.length + 1)
    else if s.octal && octal ≠ [] then some (octet (value 8 octal), octal.length)
    else if c = 'x' && s.hex && hex ≠ [] then some (octet (value 16 hex), hex.length + 1)
    else if c = '"' && s.quote then some ('"', 1)
    else (letter? c).map (·, 1)

/-- What a text with escapes stands for behind the `skip` characters of the escape before it, and whether
an escape ends the output. -/
def unescapeAfter (s : EscapeStyle) : (skip : Nat) → List Char → List Char × Bool
  | _, [] => ([], false)
  | skip + 1, _ :: cs => s.unescapeAfter skip cs
  | 0, c :: cs =>
    if c = '\\' then
      match s.escape? cs with
      | some (d, n) => let (ds, ended) := s.unescapeAfter n cs; (d :: ds, ended)
      | none =>
        if s.stop && cs.head? = some 'c' then ([], true)
        else let (ds, ended) := s.unescapeAfter 0 cs; (c :: ds, ended)
    else let (ds, ended) := s.unescapeAfter 0 cs; (c :: ds, ended)

/-- What a text with escapes stands for, and whether an escape ends the output. -/
def unescape (s : EscapeStyle) (text : String) : List Char × Bool := s.unescapeAfter 0 text.toList

end EscapeStyle

end BaseLang
