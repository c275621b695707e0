import BaseLang.Text.Width.Emoji

/-!
# Characters in context

The columns that a character adds to the text behind it. A text is read from its end, because what joins
characters into one sign of some width is mostly seen at their last one.

* `Ligature` : the end of a sequence that a script writes as a single letter;
* `Emoji` : the end of a sequence that appears as a single emoji;
* `Context` : what a text starts with, as far as this matters to a character in front of it, with the
  columns that are not settled yet (`Context.pending`);
* `Context.before` : the columns that are settled by a character in front, and the new context.
-/

namespace BaseLang.Text

/-- How a variation selector asks a character to appear. -/
inductive Style where
  | emoji
  | text
  deriving DecidableEq

/-- The end of a ligature. Some ligatures need a joiner, which has been read or not. -/
inductive Ligature where
  | alef
  | lamed (joined : Bool)
  | subscript
  | ya (joined : Bool)
  | vowelYa
  | consonant (joined : Bool)
  | tiedConsonant
  | tone
  | orkhonI (joined : Bool)
  | kiratE
  | kiratAi
  deriving DecidableEq

/-- The letters of a flag behind a joiner: one, or a number of them that is even or odd. -/
inductive FlagCount where
  | one
  | even
  | odd
  deriving DecidableEq

inductive Emoji where
  | whole
  | skinTone
  | flagLetter
  | flagLetters
  | joined (keycap : Bool) (styled : Bool)
  | joinedFlag (count : FlagCount)
  | tagged (letters digits : Nat)
  deriving DecidableEq

/-- What a text starts with. -/
inductive Context where
  | plain
  | lineFeed
  | styled (style : Style)
  | ligature (l : Ligature) (style : Option Style)
  | emoji (e : Emoji)
  deriving DecidableEq

/-! ## Classes of characters -/

def between (lo hi : Nat) (c : Char) : Bool := lo ≤ c.toNat && c.toNat ≤ hi

/-- The columns of a character that stands alone, apart from a Khmer sign that has three. -/
def charWidth (c : Char) : Nat :=
  if c.toNat ≤ 0xa0 then 1
  else if inRanges c.toNat zeroWidthRanges then 0
  else if inRanges c.toNat wideRanges then 2
  else 1

/-- Marks that can be ignored, which do not separate the parts of a ligature. -/
def isIgnorableMark (c : Char) : Bool :=
  c = '\u034f' || between 0x17b4 0x17b5 c || between 0x180b 0x180d c || c = '\u180f'
    || between 0xfe00 0xfe0f c || between 0xe0100 0xe01ef c

/-- Characters without width that Arabic letters join across. -/
def isTransparent (c : Char) : Bool :=
  charWidth c = 0 && !inRanges c.toNat breakingRanges

def isAlef (c : Char) : Bool :=
  inRanges c.toNat
    [(0x622, 0x623), (0x625, 0x625), (0x627, 0x627), (0x671, 0x673), (0x675, 0x675), (0x773, 0x774),
     (0x870, 0x882)]

def isLam (c : Char) : Bool :=
  inRanges c.toNat [(0x644, 0x644), (0x6b5, 0x6b8), (0x76a, 0x76a), (0x8a6, 0x8a6), (0x8c7, 0x8c7)]

/-- Khmer letters that have a form below the line. -/
def hasSubscript (c : Char) : Bool :=
  inRanges c.toNat
    [(0x1780, 0x1782), (0x1784, 0x1787), (0x1789, 0x178c), (0x178e, 0x1793), (0x1795, 0x1798),
     (0x179b, 0x179d), (0x17a0, 0x17a0), (0x17a2, 0x17a2), (0x17a7, 0x17a7), (0x17ab, 0x17ac),
     (0x17af, 0x17af)]

def isTifinaghConsonant (c : Char) : Bool := between 0x2d31 0x2d65 c || c = '\u2d6f'

def joiner : Char := '\u200d'

/-! ## Steps -/

namespace Context

/-- The columns that count unless the next character in front joins the text: those of a Khmer letter
below the line, of the sign that ties two consonants, and of a single letter of a flag. -/
def pending : Context → Nat
  | ligature .subscript _ | ligature .tiedConsonant _ => 1
  | emoji (.joinedFlag .one) | emoji (.joinedFlag .odd) => 1
  | _ => 0

def style? : Context → Option Style
  | styled s => some s
  | ligature _ s => s
  | emoji (.joined _ true) => some .emoji
  | _ => none

def unstyled : Context → Context
  | ligature l _ => ligature l none
  | styled _ | emoji (.joined _ true) => plain
  | ctx => ctx

/-- The context behind a variation selector. -/
def withStyle (s : Style) : Context → Nat × Context
  | ligature l _ => (0, ligature l (some s))
  | emoji (.joined keycap _) => (0, if s = .emoji then emoji (.joined keycap true) else styled s)
  | ctx => (ctx.pending, styled s)

/-- Whether an emoji in front belongs to the one that the text starts with. -/
def joins : Context → Bool
  | emoji (.joined ..) => true
  | _ => false

end Context

def Ligature.join : Ligature → Ligature
  | lamed _ => lamed true
  | ya _ => ya true
  | consonant _ => consonant true
  | orkhonI _ => orkhonI true
  | l => l

/-- What the end of a ligature becomes with the character in front of it, if that belongs to it: the
columns that are settled, and the new context. -/
def Ligature.before? (c : Char) (l : Ligature) : Option (Nat × Context) :=
  if l = alef then
    if isLam c then some (0, .plain)
    else if isTransparent c then some (0, .ligature alef none)
    else none
  else if c = joiner then some (0, .ligature l.join none)
  else if isIgnorableMark c then some (0, .ligature l none)
  else match l with
    | lamed true => if c = '\u05d0' then some (0, .plain) else none
    | subscript => if c = '\u17d2' then some (0, .plain) else none
    | ya true => if c = '\u1a17' then some (0, .ligature vowelYa none) else none
    | vowelYa => if c = '\u1a15' then some (0, .plain) else none
    | consonant joined =>
      if c = '\u2d7f' then some (0, .ligature tiedConsonant none)
      else if joined && isTifinaghConsonant c then some (0, .plain)
      else none
    | tiedConsonant => if isTifinaghConsonant c then some (0, .plain) else none
    | tone => if between 0xa4f8 0xa4fb c then some (0, .plain) else none
    | orkhonI true => if c.toNat = 0x10c32 then some (0, .plain) else none
    | kiratE =>
      if c.toNat = 0x16d63 || c.toNat = 0x16d69 then some (0, .plain)
      else if c.toNat = 0x16d67 then some (0, .ligature kiratAi none)
      else if c.toNat = 0x16d68 then some (1, .ligature kiratE none)
      else none
    | kiratAi => if c.toNat = 0x16d63 then some (0, .plain) else none
    | _ => none

namespace Emoji

/-- The end of the emoji that a tag belongs to: the code of a region has three to six letters or three
digits in front of the last tag, and the flag that it belongs to in front of these. -/
def beforeTags? (c : Char) (letters digits : Nat) : Option (Nat × Context) :=
  if between 0xe0061 0xe007a c && digits = 0 && letters < 6 then
    some (0, .emoji (tagged (letters + 1) 0))
  else if between 0xe0030 0xe0039 c && digits < 3 && letters ≤ 4 then
    some (0, .emoji (tagged 0 (digits + 1)))
  else if c.toNat = 0x1f3f4 && (3 ≤ letters || digits = 3) then some (0, .emoji whole)
  else none

/-- What the end of an emoji becomes with the character in front of it, if that belongs to it. -/
def before? (c : Char) (e : Emoji) : Option (Nat × Context) :=
  match e with
  | whole => if c = joiner then some (0, .emoji (joined false false)) else none
  | skinTone =>
    if c = joiner then some (0, .emoji (joined false false))
    else if isModifierBase c then some (0, .emoji whole)
    else none
  | flagLetter => if isRegional c then some (1, .emoji flagLetters) else none
  | flagLetters =>
    if c = joiner then some (0, .emoji (joined false false))
    else if isRegional c then some (1, .emoji flagLetters)
    else none
  | joined false false =>
    if c = '\u20e3' then some (0, .emoji (joined true false))
    else if isRegional c then some (0, .emoji (joinedFlag .one))
    else if isSkinTone c then some (0, .emoji skinTone)
    else if c.toNat = 0xe007f then some (0, .emoji (tagged 0 0))
    else if isEmoji c then some (0, .emoji whole)
    else none
  | joined .. => none
  | joinedFlag .one => if isRegional c then some (0, .emoji (joinedFlag .even)) else none
  | joinedFlag .odd =>
    if c = joiner then some (1, .emoji (joined false false))
    else if isRegional c then some (0, .emoji (joinedFlag .even))
    else none
  | joinedFlag .even =>
    if c = joiner then some (0, .emoji (joined false false))
    else if isRegional c then some (2, .emoji (joinedFlag .odd))
    else none
  | tagged letters digits => beforeTags? c letters digits

end Emoji

/-- The columns that a character settles at the end of a text, and the context that it makes. -/
def Context.ofChar (c : Char) : Nat × Context :=
  if c = '\n' then (1, lineFeed)
  else if c.toNat ≤ 0xa0 then (1, plain)
  else if c = '\u05dc' then (1, ligature (.lamed false) none)
  else if isAlef c then (1, ligature .alef none)
  else if hasSubscript c then (0, ligature .subscript none)
  else if c = '\u17d8' then (3, plain)
  else if c = '\u1a10' then (1, ligature (.ya false) none)
  else if isTifinaghConsonant c then (1, ligature (.consonant false) none)
  else if between 0xa4fc 0xa4fd c then (1, ligature .tone none)
  else if c.toNat = 0x10c03 then (1, ligature (.orkhonI false) none)
  else if c.toNat = 0x16d67 then (1, ligature .kiratE none)
  else if c.toNat = 0x16d68 then (1, ligature .kiratAi none)
  else if isRegional c then (1, emoji .flagLetter)
  else if isSkinTone c then (2, emoji .skinTone)
  else if isEmoji c then (2, emoji .whole)
  else (charWidth c, plain)

/-- What a context without a style becomes with a character in front that joins the text behind it. -/
def Context.joined? (c : Char) : Context → Option (Nat × Context)
  | lineFeed => if c = '\r' then some (0, plain) else none
  | ligature l _ => if c.toNat ≤ 0xa0 then none else l.before? c
  | emoji e => if c.toNat ≤ 0xa0 then none else e.before? c
  | _ => none

/-- The columns that a character in front of a text settles, and the context that it makes. -/
def Context.before (c : Char) (ctx : Context) : Nat × Context :=
  if ctx.style? = some .emoji && isStyleBase c then
    (ctx.pending + if ctx.joins then 0 else 2, emoji .whole)
  else if ctx.style? = some .text && isNarrowAsText c then (ctx.pending + 1, plain)
  else if c = '\ufe0f' then ctx.unstyled.withStyle .emoji
  else if c = '\ufe0e' then ctx.unstyled.withStyle .text
  else match ctx.unstyled.joined? c with
    | some step => step
    | none => (ctx.pending + (ofChar c).1, (ofChar c).2)

end BaseLang.Text
