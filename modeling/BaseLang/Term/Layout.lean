import BaseLang.Term
import BaseLang.Text.Width

/-!
# Layout

Terms broken over lines so that, where it can be done, no line is wider than a limit.

* `Term.width` : the columns of the compact text;
* `Term.layoutAt` : a term that starts at the indentation of its line. It stays on the line if it fits
  there together with the comma that may follow it. Otherwise each child gets a line of its own,
  indented by two more, and the closing bracket goes below the opening line;
* `Term.pretty` : the layout of a whole term.
-/

namespace BaseLang

namespace Term

mutual

/-- The columns of the compact text. -/
def width : Term → Nat
  | .appl cons [] => Text.displayWidth cons.toList
  | .appl cons (t :: ts) => Text.displayWidth cons.toList + t.width + widthAfter ts + 2
  | .list [] => 2
  | .list (t :: ts) => t.width + widthAfter ts + 2
  | .str text => Text.displayWidth (Text.quoted text.toList)
  | .int value => Text.displayWidth (Text.decimal value.toInt)

/-- The columns of the terms that follow a first one, with their commas. -/
def widthAfter : List Term → Nat
  | [] => 0
  | t :: ts => t.width + widthAfter ts + 1

end

def isBlank : Term → Bool
  | .appl "" [] => true
  | _ => false

/-- The indentation of an item of a node, by that of the node. The line of a last item without any text
is indented like the closing bracket that follows it. -/
def itemIndent (indent : Nat) (t : Term) (after : List Term) : Nat :=
  if t.isBlank && after.isEmpty then indent else indent + 2

/-- A new line with its indentation. -/
def newline (indent : Nat) : List Char := '\n' :: List.replicate indent ' '

/-- The columns of what must stay on the line behind an item: a comma unless it is the last one. -/
def trailOf (after : List Term) : Nat := if after = [] then 0 else 1

mutual

/-- A term laid out within `limit` columns, starting at column `indent` and followed on its line by
`trail` more columns. -/
def layoutAt (limit indent trail : Nat) : Term → List Char
  | .appl cons [] => cons.toList
  | .appl cons (t :: ts) =>
    if indent + (appl cons (t :: ts)).width + trail ≤ limit then (appl cons (t :: ts)).chars
    else cons.toList ++ '(' :: (newline (itemIndent indent t ts)
      ++ layoutAt limit (indent + 2) (trailOf ts) t ++ layoutAfter limit indent ts
      ++ newline indent ++ [')'])
  | .list [] => ['[', ']']
  | .list (t :: ts) =>
    if indent + (list (t :: ts)).width + trail ≤ limit then (list (t :: ts)).chars
    else '[' :: (newline (itemIndent indent t ts)
      ++ layoutAt limit (indent + 2) (trailOf ts) t ++ layoutAfter limit indent ts
      ++ newline indent ++ [']'])
  | .str text => Text.quoted text.toList
  | .int value => Text.decimal value.toInt

/-- The items that follow the first one of a node, each behind a comma and on a line of its own. -/
def layoutAfter (limit indent : Nat) : List Term → List Char
  | [] => []
  | t :: ts => ',' :: (newline (itemIndent indent t ts)
      ++ layoutAt limit (indent + 2) (trailOf ts) t ++ layoutAfter limit indent ts)

end

/-- A term laid out within `limit` columns. -/
def pretty (limit : Nat) (t : Term) : String := String.ofList (t.layoutAt limit 0 0)

end Term

end BaseLang
