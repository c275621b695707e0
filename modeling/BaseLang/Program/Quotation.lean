import BaseLang.Program

/-!
# Names in messages

* `quoteName` : a name of a file between quotes, as a shell would read it;
* `quoteIfNeeded` : the same, unless the name is plain.
-/

namespace BaseLang

namespace Quotation

/-- Whether an octet is written as it is. -/
def isPrintable (c : Char) : Bool := ' ' ≤ c && c ≤ '~'

/-- Whether an octet is one that a shell gives a meaning to. -/
def isMeaningful (c : Char) : Bool := " !\"$&'()*;<=>?[\\^\x60|:".toList.contains c || !isPrintable c

def escape (c : Char) : List Char :=
  match c with
  | '\n' => ['\\', 'n']
  | '\t' => ['\\', 't']
  | '\r' => ['\\', 'r']
  | '\x07' => ['\\', 'a']
  | '\x08' => ['\\', 'b']
  | '\x0b' => ['\\', 'v']
  | '\x0c' => ['\\', 'f']
  | _ =>
    let ds := Nat.toDigits 8 c.toNat
    '\\' :: List.replicate (3 - ds.length) '0' ++ ds

/-- The rest of a name of which a part between quotes is open, and of which an escaped part is open if
`escaping`. -/
def rest : (escaping : Bool) → List Char → List Char
  | _, [] => ['\'']
  | false, c :: cs =>
    if c = '\'' then "'\\''".toList ++ rest false cs
    else if isPrintable c then c :: rest false cs
    else "'$'".toList ++ escape c ++ rest true cs
  | true, c :: cs =>
    if isPrintable c then "''".toList ++ (if c = '\'' then "\\''".toList else [c]) ++ rest false cs
    else escape c ++ rest true cs

end Quotation

def quoteName (name : String) : String :=
  let cs := name.toList
  let doubled := cs.contains '\'' && cs.all fun c =>
    c = '\'' || (Quotation.isPrintable c && !"\"$\x60\\!".toList.contains c)
  if doubled then "\"" ++ name ++ "\"" else String.ofList ('\'' :: Quotation.rest false cs)

/-- A name between quotes, unless a shell gives no meaning to any of its octets. -/
def quoteIfNeeded (name : String) : String :=
  match name.toList with
  | [] => quoteName name
  | c :: cs =>
    if c = '#' || c = '~' || (c :: cs).any Quotation.isMeaningful then quoteName name else name

end BaseLang
