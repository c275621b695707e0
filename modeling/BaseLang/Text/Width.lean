import BaseLang.Text.Width.Context

/-!
# Display width

* `columns` : the columns that a text takes on a terminal. What several characters write as one sign
  takes the columns of that sign;
* `scan_append` : a text in front of one that nothing can join;
* `displayWidth` : the same, except that ASCII text is as wide as it is long.
-/

namespace BaseLang.Text

/-- The columns of a text that are settled, and the context that it makes. -/
def scan (cs : List Char) : Nat × Context :=
  cs.foldr (fun c r => (r.1 + (r.2.before c).1, (r.2.before c).2)) (0, .plain)

def columns (cs : List Char) : Nat := (scan cs).1 + (scan cs).2.pending

def isAscii (c : Char) : Bool := c.toNat < 0x80

/-- The columns that a text takes, where each ASCII character counts in a text of nothing else. -/
def displayWidth (cs : List Char) : Nat := if cs.all isAscii then cs.length else columns cs

@[simp] theorem scan_nil : scan [] = (0, .plain) := rfl

theorem scan_cons (c : Char) (cs : List Char) :
    scan (c :: cs)
      = ((scan cs).1 + ((scan cs).2.before c).1, ((scan cs).2.before c).2) := rfl

/-- A text in front of one that nothing can join is read like a text that stands alone. -/
theorem scan_append {ds : List Char} (h : (scan ds).2 = .plain) (cs : List Char) :
    scan (cs ++ ds) = ((scan cs).1 + (scan ds).1, (scan cs).2) := by
  induction cs with
  | nil => simp [← h]
  | cons c cs ih =>
    rw [List.cons_append, scan_cons, ih, scan_cons]
    simp [Nat.add_right_comm]

end BaseLang.Text
