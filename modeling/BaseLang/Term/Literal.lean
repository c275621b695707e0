import BaseLang.Table
import BaseLang.Term.Shape
import BaseLang.Text.Blank

/-!
# Literals of generated code

Generated code wraps nearly every node in one redundant `NoAnnoList(..)`. It spells a list as a
terminal `List([..])` of at most one element, or as a chain `ListTail([head], tail)` that ends in one.
Raw literals and raw lists are accepted wherever their wrapped spelling is.

* `Term.unwrapped` : a term without one such layer;
* `Term.decodeString`, `Term.decodeIndex`, `Term.decodePair` : single values;
* `Term.chain` : the elements of a list in either spelling, up to the first place that has neither;
* `Term.decodeList`, `Term.decodeTable`, `Term.decodeStrings` : lists of values.
-/

namespace BaseLang

namespace Term

/-- The term without one `NoAnnoList(..)` layer, if it has one. -/
def unwrapped : Term → Term
  | .appl cons [t] => if cons = "NoAnnoList" then t else .appl cons [t]
  | t => t

/-- The text of a string literal, raw or below `Str`, without its written quotes. -/
def decodeString (t : Term) : Except ShapeError String :=
  match t.unwrapped with
  | .str text => .ok (Text.unquote text)
  | u =>
    match u.destruct₁ "Str" with
    | .ok literal => literal.asStr.map Text.unquote
    | .error e => .error e

/-- The value of an integer literal: an integer, or a text of digits with quotes and white space
around it. -/
def literalInt (t : Term) : Except ShapeError Int64 :=
  match t with
  | .int value => .ok value
  | _ =>
    match t.asStr with
    | .ok text =>
      match Text.readInt64? (Text.trim (Text.unquoteChars text.toList)) with
      | some value => .ok value
      | none => .error ⟨.integer, t⟩
    | .error e => .error e

/-- A value that can be an argument position; `t` is the term that it was read from. -/
def asIndex (t : Term) (value : Int64) : Except ShapeError Nat :=
  if 0 ≤ value.toInt then .ok value.toInt.toNat else .error ⟨.index, t⟩

/-- An argument position: a non-negative integer literal, raw or below `Int`. -/
def decodeIndex (t : Term) : Except ShapeError Nat :=
  match t.unwrapped with
  | .int value => asIndex (.int value) value
  | u =>
    match u.destruct₁ "Int" with
    | .ok literal =>
      match literalInt literal with
      | .ok value => asIndex u value
      | .error e => .error e
    | .error e => .error e

/-- The two terms of a pair, spelled `Tuple([name, index])` or as a raw list. -/
def pairParts (t : Term) : Except ShapeError (Term × Term) :=
  match t.unwrapped with
  | .list ts => (Term.list ts).elem₂
  | u =>
    match u.destruct₁ "Tuple" with
    | .ok parts => parts.elem₂
    | .error e => .error e

def decodePair (t : Term) : Except ShapeError (String × Nat) := do
  let (name, index) ← t.pairParts
  let name ← name.decodeString
  let index ← index.decodeIndex
  return (name, index)

/-! ## Lists -/

/-- The elements of a list as far as its spelling is right, and what is wrong behind them. -/
structure Chain where
  elems : List Term
  fault : Option ShapeError

/-- The elements of the terminal `whole`, given as the term `t` that should be a list. -/
def terminal (whole t : Term) : Chain :=
  match t.elems with
  | .ok ts => if ts.length ≤ 1 then ⟨ts, none⟩ else ⟨[], some ⟨.terminal, whole⟩⟩
  | .error e => ⟨[], some e⟩

/-- The elements of a list in one of its spellings, where `layer` says whether one `NoAnnoList(..)`
may surround it. -/
def chainBelow : (layer : Bool) → Term → Chain
  | _, .list ts => terminal (.list ts) (.list ts)
  | layer, .appl cons [t] =>
    if layer && cons = "NoAnnoList" then chainBelow false t
    else if cons = "List" then terminal (.appl cons [t]) t
    else ⟨[], some ⟨.chain, .appl cons [t]⟩⟩
  | _, .appl cons [head, tail] =>
    if cons = "ListTail" then
      match head.elem₁ with
      | .ok first => ⟨first :: (chainBelow true tail).elems, (chainBelow true tail).fault⟩
      | .error e => ⟨[], some e⟩
    else ⟨[], some ⟨.chain, .appl cons [head, tail]⟩⟩
  | _, t => ⟨[], some ⟨.chain, t⟩⟩

def chain (t : Term) : Chain := chainBelow true t

/-- The decoded elements of a list, in order. An element that cannot be decoded is reported before any
fault further down the chain. -/
def decodeList {α : Type} (t : Term) (decode : Term → Except ShapeError α) :
    Except ShapeError (List α) :=
  match t.chain.elems.mapM decode with
  | .ok values =>
    match t.chain.fault with
    | none => .ok values
    | some e => .error e
  | .error e => .error e

/-- An association list of names and argument positions, as a table: of the pairs with one name the
first one gives the place and the last one the position. -/
def decodeTable (t : Term) : Except ShapeError (Table String Nat) :=
  (t.decodeList decodePair).map Table.ofList

def decodeStrings (t : Term) : Except ShapeError (List String) := t.decodeList decodeString

end Term

end BaseLang
