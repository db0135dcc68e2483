/-
**Settings texts.**

A settings text is a sequence of lines: blank ones, headers and assignments.  They are read one
after the other, and what they say is put together in their order.

Main definitions:

* `Toml.keyPath?` — a dotted key;
* `Toml.value?` — a value;
* `Toml.Line`, `Toml.line?`, `Toml.lines?` — lines;
* `Toml.Value.ofString?` — **the table of a settings text**.
-/

import OfferLayout.Toml.Quoted
import OfferLayout.Toml.Scalar
import OfferLayout.Toml.Table

set_option relaxedAutoImplicit false
set_option autoImplicit false

namespace OfferLayout

namespace Toml

/-- Arrays and tables within one another, and the names of a dotted key, must be fewer than this. -/
def depthLimit : Nat := 80

/-! ### Keys -/

/-- Whether a character may stand in a name without quotes. -/
def isBare (c : Char) : Bool := c.isAlphanum || c = '-' || c = '_'

/-- A name, and what follows it. -/
def name? (s : List Char) : Option (String × List Char) :=
  match s with
  | '"' :: r => (lineText? '"' r).map fun t => (String.ofList t.1, t.2)
  | '\'' :: r => (lineText? '\'' r).map fun t => (String.ofList t.1, t.2)
  | _ =>
      if (s.takeWhile isBare).isEmpty then none
      else some (String.ofList (s.takeWhile isBare), s.dropWhile isBare)

/-- The names of a dotted key, and what follows it and the blanks after it. -/
def names? (s : List Char) : Option (List String × List Char) :=
  match name? (skipBlanks s) with
  | none => none
  | some (name, r) =>
      match skipBlanks r with
      | '.' :: rest =>
          if rest.length < s.length then (names? rest).map fun t => (name :: t.1, t.2) else none
      | rest => some ([name], rest)
termination_by s.length

/-- **A dotted key**, and what follows it and the blanks after it. -/
def keyPath? (s : List Char) : Option (List String × List Char) :=
  (names? s).bind fun t => if t.1.length < depthLimit then some t else none

/-! ### Values -/

/-- A way to read a value at the start of a text. -/
abbrev ReadsValue : Type := List Char → Option (Value × List Char)

/-- The elements of an array up to its closing mark, and what follows that.  There may be a comma
after the last one. -/
def items? (item : ReadsValue) (s : List Char) : Option (List Value × List Char) :=
  match skipLines s with
  | ']' :: rest => some ([], rest)
  | start =>
      match item start with
      | none => none
      | some (v, r) =>
          match skipLines r with
          | ']' :: rest => some ([v], rest)
          | ',' :: rest =>
              if rest.length < s.length then (items? item rest).map fun t => (v :: t.1, t.2)
              else none
          | _ => none
termination_by s.length

/-- A key and its value, with what follows them. -/
def pair? (item : ReadsValue) (s : List Char) : Option ((List String × Value) × List Char) :=
  match keyPath? s with
  | some (path, '=' :: r) => (item (skipBlanks r)).map fun t => ((path, t.1), t.2)
  | _ => none

/-- The assignments of a table in braces up to its closing mark, and what follows that.  There is at
least one, and no comma after the last. -/
def pairs? (item : ReadsValue) (s : List Char) : Option (List (List String × Value) × List Char) :=
  match pair? item s with
  | none => none
  | some (p, r) =>
      match skipBlanks r with
      | '}' :: rest => some ([p], rest)
      | ',' :: rest =>
          if rest.length < s.length then (pairs? item rest).map fun t => (p :: t.1, t.2) else none
      | _ => none
termination_by s.length

/-- The table in braces up to its closing mark, and what follows that. -/
def braced? (item : ReadsValue) (s : List Char) : Option (Value × List Char) :=
  match skipBlanks s with
  | '}' :: rest => some (.table [], rest)
  | _ => (pairs? item s).bind fun t => (tableOf? t.1).map fun v => (v, t.2)

/-- **A value**, in which arrays and tables may be nested up to the given depth. -/
def value? : Nat → ReadsValue
  | 0, s =>
      match s with
      | '[' :: _ => none
      | '{' :: _ => none
      | '"' :: _ => (quoted? s).map fun t => (.text t.1, t.2)
      | '\'' :: _ => (quoted? s).map fun t => (.text t.1, t.2)
      | _ => scalar? s
  | depth + 1, s =>
      match s with
      | '[' :: r => (items? (value? depth) r).map fun t => (.array t.1, t.2)
      | '{' :: r => braced? (value? depth) r
      | _ => value? 0 s

/-! ### Lines -/

/-- What a line says. -/
inductive Line where
  /-- Nothing. -/
  | blank
  /-- A table is opened. -/
  | header (path : List String)
  /-- One more element of an array of tables is opened. -/
  | elementHeader (path : List String)
  /-- A value is assigned to a key. -/
  | pair (path : List String) (v : Value)

/-- What the first line of a text says, and the other lines.  A value may take several lines. -/
def line? (s : List Char) : Option (Line × List Char) :=
  match skipBlanks s with
  | '[' :: '[' :: r =>
      match keyPath? r with
      | some (path, ']' :: ']' :: rest) => (lineEnd? rest).map fun t => (.elementHeader path, t)
      | _ => none
  | '[' :: r =>
      match keyPath? r with
      | some (path, ']' :: rest) => (lineEnd? rest).map fun t => (.header path, t)
      | _ => none
  | r =>
      match lineEnd? r with
      | some rest => some (.blank, rest)
      | none =>
          (pair? (value? (depthLimit - 1)) r).bind fun t =>
            (lineEnd? t.2).map fun rest => (.pair t.1.1 t.1.2, rest)

/-- What the lines of a text say. -/
def lines? (s : List Char) : Option (List Line) :=
  match s with
  | [] => some []
  | c :: r =>
      match line? (c :: r) with
      | none => none
      | some (l, rest) => if rest.length ≤ r.length then (lines? rest).map (l :: ·) else none
termination_by s.length

/-! ### The whole text -/

/-- A text that is being put together: its table, and the path of the table that is open. -/
structure Writing where
  /-- The table of the whole text. -/
  root : Node := .empty
  /-- The path of the table that is open. -/
  path : List String := []

/-- What is written after one more line. -/
def Writing.write (w : Writing) : Line → Option Writing
  | .blank => some w
  | .header path => (w.root.openTable path).map fun root => ⟨root, path⟩
  | .elementHeader path => (w.root.openElement path).map fun root => ⟨root, path⟩
  | .pair path v => (w.root.atHeader w.path (Node.assign path v)).map fun root => ⟨root, w.path⟩

/-- The text without the mark of its byte order. -/
def withoutMark : List Char → List Char
  | '\uFEFF' :: s => s
  | s => s

/-- **The table of a settings text.** -/
def Value.ofString? (s : String) : Option Value :=
  (lines? (withoutMark s.toList)).bind fun ls =>
    (ls.foldlM Writing.write {}).map fun w => w.root.toValue

end Toml

end OfferLayout
