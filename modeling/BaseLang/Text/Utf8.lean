/-!
# Texts as bytes

* `byteLength` : the bytes of a text in UTF-8;
* `lastBoundary?` : the last place to cut a text that is not behind a given byte. There always is one
  (`isSome_lastBoundary?`);
* `excerpt` : a text of at most so many bytes, or a shortened one that says so;
* `decodeLossy` : the text of bytes, with U+FFFD in the place of every maximal ill-formed part.
-/

namespace BaseLang.Text

def byteLength : List Char → Nat
  | [] => 0
  | c :: cs => c.utf8Size + byteLength cs

/-! ## Cutting -/

/-- The place between two characters that is met first on the way from byte `cut` to the front of a
text, and `none` if the way goes on in front of byte zero. -/
def lastBoundary? (text : String) (cut : Nat) : Option text.Pos :=
  if h : String.Pos.Raw.IsValid text ⟨cut⟩ then some ⟨⟨cut⟩, h⟩
  else
    match cut with
    | 0 => none
    | cut + 1 => lastBoundary? text cut

theorem lastBoundary?_of_isValid {text : String} {cut : Nat} (h : String.Pos.Raw.IsValid text ⟨cut⟩) :
    lastBoundary? text cut = some ⟨⟨cut⟩, h⟩ := by
  unfold lastBoundary?
  rw [dif_pos h]

theorem lastBoundary?_succ {text : String} {cut : Nat} (h : ¬ String.Pos.Raw.IsValid text ⟨cut + 1⟩) :
    lastBoundary? text (cut + 1) = lastBoundary? text cut := by
  rw [lastBoundary?, dif_neg h]

theorem isSome_lastBoundary? (text : String) (cut : Nat) : (lastBoundary? text cut).isSome := by
  induction cut with
  | zero => rw [lastBoundary?_of_isValid String.Pos.Raw.isValid_zero, Option.isSome_some]
  | succ cut ih =>
    by_cases h : String.Pos.Raw.IsValid text ⟨cut + 1⟩
    · rw [lastBoundary?_of_isValid h, Option.isSome_some]
    · rwa [lastBoundary?_succ h]

/-- The text itself if it takes at most `budget` bytes, else its part in front of the last place to cut
that leaves room for three dots, and the dots. -/
def excerpt (budget : Nat) (text : String) : String :=
  if text.utf8ByteSize ≤ budget then text
  else
    let cut := (lastBoundary? text (budget - 3)).get (isSome_lastBoundary? text (budget - 3))
    (text.sliceTo cut).copy ++ "..."

/-! ## Decoding -/

def replacement : Char := '\ufffd'

def isContinuation (b : UInt8) : Bool :=
  0x80 ≤ b && b < 0xc0

/-- The least and the greatest second byte allowed after a leading byte of three or four bytes. -/
def secondByteRange (lead : UInt8) : UInt8 × UInt8 :=
  if lead == 0xe0 then (0xa0, 0xbf)
  else if lead == 0xed then (0x80, 0x9f)
  else if lead == 0xf0 then (0x90, 0xbf)
  else if lead == 0xf4 then (0x80, 0x8f)
  else (0x80, 0xbf)

def isSecondByte (lead b : UInt8) : Bool :=
  (secondByteRange lead).1 ≤ b && b ≤ (secondByteRange lead).2

/-- The character whose bits are those of a leading byte and its continuation bytes. -/
def assemble (lead : Nat) (continuation : List UInt8) : Char :=
  Char.ofNat (continuation.foldl (fun n b => n * 64 + (b.toNat - 0x80)) lead)

/-- The character that starts at `lead`, and how many of the bytes after it belong to it. An
ill-formed sequence gives the replacement character for its longest part that could still have become
a character. -/
def decodeAt (lead : UInt8) (rest : List UInt8) : Char × Nat :=
  if lead < 0x80 then (Char.ofNat lead.toNat, 0)
  else if lead < 0xc2 || 0xf4 < lead then (replacement, 0)
  else match rest with
    | [] => (replacement, 0)
    | b₁ :: rest =>
      if !isSecondByte lead b₁ then (replacement, 0)
      else if lead < 0xe0 then (assemble (lead.toNat - 0xc0) [b₁], 1)
      else match rest with
        | [] => (replacement, 1)
        | b₂ :: rest =>
          if !isContinuation b₂ then (replacement, 1)
          else if lead < 0xf0 then (assemble (lead.toNat - 0xe0) [b₁, b₂], 2)
          else match rest with
            | [] => (replacement, 2)
            | b₃ :: _ =>
              if isContinuation b₃ then (assemble (lead.toNat - 0xf0) [b₁, b₂, b₃], 3)
              else (replacement, 2)

/-- The text of the bytes behind the first `skip` ones, which belong to the character before them. -/
def decodeAfter : (skip : Nat) → List UInt8 → List Char
  | _, [] => []
  | skip + 1, _ :: bs => decodeAfter skip bs
  | 0, b :: bs => (decodeAt b bs).1 :: decodeAfter (decodeAt b bs).2 bs

/-- The text of some bytes, with a replacement character for each maximal ill-formed part. -/
def decodeLossy (bytes : List UInt8) : List Char :=
  decodeAfter 0 bytes

end BaseLang.Text
