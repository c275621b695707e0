import BaseLang.Text.Utf8

/-!
# Octets

Programs see bytes. A text of octets has one character for each byte, so that bytes which are not UTF-8
can be handled as text too.

* `ofBytes`, `toBytes` : bytes as a text of octets, and back;
* `octets`, `ofOctets` : the octets of a text in UTF-8, and the text that octets spell;
* `toBytes_ofBytes` : no byte is lost.
-/

namespace BaseLang.Text

def octet (b : UInt8) : Char := Char.ofUInt8 b

def byte (c : Char) : UInt8 := UInt8.ofNat c.toNat

/-- Bytes as a text of octets. -/
def ofBytes (bs : ByteArray) : String := String.ofList (bs.data.toList.map octet)

/-- The bytes of a text of octets. -/
def toBytes (s : String) : ByteArray := ⟨(s.toList.map byte).toArray⟩

def octets (s : String) : String := ofBytes s.toUTF8

def ofOctets (s : String) : String := String.ofList (decodeLossy (s.toList.map byte))

theorem byte_octet (b : UInt8) : byte (octet b) = b := by
  change UInt8.ofNat b.toUInt32.toNat = b
  simp

theorem toBytes_ofBytes (bs : ByteArray) : toBytes (ofBytes bs) = bs := by
  have h : byte ∘ octet = id := funext byte_octet
  simp [toBytes, ofBytes, h]

end BaseLang.Text
