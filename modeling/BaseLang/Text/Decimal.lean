/-!
# Decimal integers

* `decimal` : the digits of an integer, with a minus sign in front of a negative one;
* `readDecimal?` : an optional sign and at least one digit;
* `readInt64?` : the same, within the range of 64-bit integers;
* `mem_decimal`, `readDecimal?_decimal` : the characters of an integer, which are read back.
-/

namespace BaseLang.Text

/-- The decimal digits of an integer, after a minus sign if it is negative. -/
def decimal : Int → List Char
  | .ofNat n => Nat.toDigits 10 n
  | .negSucc n => '-' :: Nat.toDigits 10 (n + 1)

def readDigits? (cs : List Char) : Option Nat :=
  if cs ≠ [] ∧ cs.all Char.isDigit then some (Nat.ofDigitChars 10 cs 0) else none

/-- The value of an optional sign followed by one or more decimal digits. -/
def readDecimal? : List Char → Option Int
  | '-' :: cs => (readDigits? cs).map fun n => -(n : Int)
  | '+' :: cs => (readDigits? cs).map Int.ofNat
  | cs => (readDigits? cs).map Int.ofNat

/-- The value of a signed decimal literal, if it fits 64 bits. -/
def readInt64? (cs : List Char) : Option Int64 :=
  match readDecimal? cs with
  | some n =>
    if Int64.minValue.toInt ≤ n ∧ n ≤ Int64.maxValue.toInt then some (Int64.ofInt n) else none
  | none => none

/-! ## Digits -/

theorem isDigit_iff {c : Char} : c.isDigit ↔ 48 ≤ c.toNat ∧ c.toNat ≤ 57 := by
  simp only [Char.isDigit, Bool.and_eq_true, decide_eq_true_eq, ge_iff_le, UInt32.le_iff_toNat_le]
  exact Iff.rfl

theorem isDigit_of_mem_toDigits {n : Nat} : ∀ c ∈ Nat.toDigits 10 n, c.isDigit = true := fun _ hc =>
  Nat.isDigit_of_mem_toDigits (by decide) (by decide) hc

theorem mem_decimal {n : Int} {c : Char} (h : c ∈ decimal n) : c = '-' ∨ c.isDigit = true := by
  cases n with
  | ofNat k => exact .inr (isDigit_of_mem_toDigits c h)
  | negSucc k =>
    rcases List.mem_cons.1 h with rfl | h
    · exact .inl rfl
    · exact .inr (isDigit_of_mem_toDigits c h)

theorem newline_notMem_decimal (n : Int) : '\n' ∉ decimal n := fun hm => absurd (mem_decimal hm) (by decide)

theorem decimal_ne_nil (n : Int) : decimal n ≠ [] := by
  cases n with
  | ofNat n => exact Nat.toDigits_ne_nil
  | negSucc n => simp [decimal]

/-! ## Reading -/

theorem readDigits?_toDigits (n : Nat) : readDigits? (Nat.toDigits 10 n) = some n := by
  have h : (Nat.toDigits 10 n).all Char.isDigit := List.all_eq_true.2 isDigit_of_mem_toDigits
  simp [readDigits?, Nat.toDigits_ne_nil, h, Nat.ofDigitChars_ten_toDigits]

theorem readDecimal?_of_isDigit {c : Char} (h : c.isDigit) (cs : List Char) :
    readDecimal? (c :: cs) = (readDigits? (c :: cs)).map Int.ofNat := by
  unfold readDecimal?
  split
  · rename_i heq
    cases heq
    exact absurd h (by decide)
  · rename_i heq
    cases heq
    exact absurd h (by decide)
  · rfl

theorem readDecimal?_toDigits (n : Nat) : readDecimal? (Nat.toDigits 10 n) = some (n : Int) := by
  have hr := readDigits?_toDigits n
  have hd : ∀ c ∈ Nat.toDigits 10 n, c.isDigit = true := isDigit_of_mem_toDigits
  cases h : Nat.toDigits 10 n with
  | nil => exact absurd h Nat.toDigits_ne_nil
  | cons c cs =>
    rw [h] at hr hd
    rw [readDecimal?_of_isDigit (hd c (by simp)), hr]
    rfl

theorem readDecimal?_decimal (n : Int) : readDecimal? (decimal n) = some n := by
  cases n with
  | ofNat n => exact readDecimal?_toDigits n
  | negSucc n =>
    rw [decimal, readDecimal?, readDigits?_toDigits]
    rfl

theorem readInt64?_toDigits {n : Nat} (h : (n : Int) ≤ Int64.maxValue.toInt) :
    readInt64? (Nat.toDigits 10 n) = some (Int64.ofInt n) := by
  have hmin : Int64.minValue.toInt ≤ n := Int.le_trans (by decide) (Int.natCast_nonneg n)
  rw [readInt64?, readDecimal?_toDigits]
  exact if_pos ⟨hmin, h⟩

end BaseLang.Text
