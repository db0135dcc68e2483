/-
**From tokens to documents.**

The tokens of a text are read one at a time by a machine whose state is the stack of the arrays and
objects that are still open, and what may come next.  The result is a tree in which a number or a
string without a meaning stands as such; a tree without any of them is a document.

Main definitions:

* `Json.Tree` — the tree of a text;
* `Json.Reading`, `Json.Reading.step`, `Json.Reading.run` — the machine;
* `Json.Tree.ofString?` — the tree of a text;
* `Json.Tree.value?`, `Json.Value.tree` — trees and documents;
* `Json.Tree.restrict` — what a record keeps of a tree;
* `Json.Value.ofString?` — **the canonical document of a text**.
-/

import OfferLayout.Json.Token

set_option relaxedAutoImplicit false
set_option autoImplicit false

namespace OfferLayout

namespace Json

/-- The tree of a document text.  Numbers and strings may lack a value. -/
inductive Tree where
  /-- Null. -/
  | null
  /-- A truth value. -/
  | bool (b : Bool)
  /-- A number, and its value if it has one. -/
  | number (n : Option Number)
  /-- A string, and its text if it has one. -/
  | string (s : Option String)
  /-- An array. -/
  | array (items : List Tree)
  /-- An object; a name may lack a text as well. -/
  | object (members : List (Option String × Tree))

instance : Inhabited Tree := ⟨.null⟩

/-! ### The machine -/

/-- An array or object that is still open, with what it holds so far, latest first. -/
inductive Frame where
  /-- An array that waits for an element. -/
  | array (items : List Tree)
  /-- An object that waits for the value of the member `name`. -/
  | object (members : List (Option String × Tree)) (name : Option String)

/-- What may come next.  Every state holds the open arrays and objects, innermost first. -/
inductive Reading where
  /-- A value. -/
  | value (opened : List Frame)
  /-- The first element of an array, or its closing mark. -/
  | firstItem (opened : List Frame)
  /-- The name of a member; or, if the object was just opened, its closing mark. -/
  | memberName (members : List (Option String × Tree)) (first : Bool) (opened : List Frame)
  /-- The colon after a name. -/
  | colon (members : List (Option String × Tree)) (name : Option String) (opened : List Frame)
  /-- A comma or a closing mark, after the value `t`. -/
  | after (t : Tree) (opened : List Frame)

namespace Reading

/-- The state after the first token of a value. -/
def startValue (opened : List Frame) : Token → Option Reading
  | .openBrace => some (.memberName [] true opened)
  | .openBracket => some (.firstItem opened)
  | .null => some (.after .null opened)
  | .bool b => some (.after (.bool b) opened)
  | .number n => some (.after (.number n) opened)
  | .string s => some (.after (.string s) opened)
  | _ => none

/-- The state after one token, if the token may come next. -/
def step : Reading → Token → Option Reading
  | .value opened, t => startValue opened t
  | .firstItem opened, .closeBracket => some (.after (.array []) opened)
  | .firstItem opened, t => startValue (.array [] :: opened) t
  | .memberName members _ opened, .string s => some (.colon members s opened)
  | .memberName _ true opened, .closeBrace => some (.after (.object []) opened)
  | .colon members name opened, .colon => some (.value (.object members name :: opened))
  | .after t (.array items :: opened), .comma => some (.value (.array (t :: items) :: opened))
  | .after t (.array items :: opened), .closeBracket =>
      some (.after (.array (t :: items).reverse) opened)
  | .after t (.object members name :: opened), .comma =>
      some (.memberName ((name, t) :: members) false opened)
  | .after t (.object members name :: opened), .closeBrace =>
      some (.after (.object ((name, t) :: members).reverse) opened)
  | _, _ => none

/-- The state after a list of tokens. -/
def run : Reading → List Token → Option Reading
  | r, [] => some r
  | r, t :: ts => (r.step t).bind fun r' => run r' ts

/-- The tree that was read, if nothing is open. -/
def tree? : Reading → Option Tree
  | .after t [] => some t
  | _ => none

end Reading

namespace Tree

/-- The tree of a text. -/
def ofString? (s : String) : Option Tree :=
  (tokens s.toList).bind fun ts => ((Reading.value []).run ts).bind Reading.tree?

/-! ### Trees and documents -/

mutual

/-- The number of arrays and objects that enclose the innermost place of a tree. -/
def depth : Tree → Nat
  | .array items => depthItems items + 1
  | .object members => depthMembers members + 1
  | _ => 0

/-- The greatest depth among the elements of an array. -/
def depthItems : List Tree → Nat
  | [] => 0
  | t :: rest => max (depth t) (depthItems rest)

/-- The greatest depth among the values of the members of an object. -/
def depthMembers : List (Option String × Tree) → Nat
  | [] => 0
  | (_, t) :: rest => max (depth t) (depthMembers rest)

end

mutual

/-- The document that a tree denotes, if every number and string has a value. -/
def value? : Tree → Option Value
  | .null => some .null
  | .bool b => some (.bool b)
  | .number n => n.map .number
  | .string s => s.map .string
  | .array items => (valueItems? items).map .array
  | .object members => (valueMembers? members).map .object

/-- The documents that the elements of an array denote. -/
def valueItems? : List Tree → Option (List Value)
  | [] => some []
  | t :: rest => (value? t).bind fun v => (valueItems? rest).map (v :: ·)

/-- The members that the members of an object denote. -/
def valueMembers? : List (Option String × Tree) → Option (List (String × Value))
  | [] => some []
  | (name, t) :: rest =>
      name.bind fun name =>
        (value? t).bind fun v => (valueMembers? rest).map ((name, v) :: ·)

end

/-- Changes the elements of an array that stand for the given names, in order. -/
def changeItems (change : String → Tree → Tree) : List String → List Tree → List Tree
  | name :: names, t :: ts => change name t :: changeItems change names ts
  | _, ts => ts

/-- **What a record keeps of a tree**: the members of an object whose names are among the given
ones, or all the elements of an array; the value of each named field is changed.  A name without a
text is kept, so that it does not go unnoticed. -/
def restrict (names : List String) (change : String → Tree → Tree) : Tree → Tree
  | .object members =>
      .object (members.filterMap fun (name, t) =>
        match name with
        | none => some (none, t)
        | some name => if name ∈ names then some (some name, change name t) else none)
  | .array items => .array (changeItems change names items)
  | t => t

/-- Changes every element of an array. -/
def mapItems (change : Tree → Tree) : Tree → Tree
  | .array items => .array (items.map change)
  | t => t

end Tree

mutual

/-- The tree of a document. -/
def Value.tree : Value → Tree
  | .null => .null
  | .bool b => .bool b
  | .number n => .number (some n)
  | .string s => .string (some s)
  | .array items => .array (Value.treeItems items)
  | .object members => .object (Value.treeMembers members)

/-- The trees of the elements of an array. -/
def Value.treeItems : List Value → List Tree
  | [] => []
  | v :: rest => Value.tree v :: Value.treeItems rest

/-- The trees of the members of an object. -/
def Value.treeMembers : List (String × Value) → List (Option String × Tree)
  | [] => []
  | (name, v) :: rest => (some name, Value.tree v) :: Value.treeMembers rest

end

/-- The greatest number of arrays and objects that may enclose a place of a document. -/
def maxDepth : Nat := 127

/-- The document of a text as it is written, if it is not nested too deeply. -/
def Value.ofStringRaw? (s : String) : Option Value :=
  (Tree.ofString? s).bind fun t => if t.depth ≤ maxDepth then t.value? else none

/-- **The canonical document of a text**, if the text is that of a document that is not nested too
deeply. -/
def Value.ofString? (s : String) : Option Value := (Value.ofStringRaw? s).map Value.canonical

end Json

end OfferLayout
