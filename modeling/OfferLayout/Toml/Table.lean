/-
**Tables of a settings text.**

A table is written in parts: by headers, which open a table or one more element of an array of
tables, and by assignments under keys, which may be dotted.  No part may be written twice, and a
table that one way of writing has finished cannot be continued in another.  So a table keeps in mind
how it came about.

Main definitions:

* `Toml.Origin`, `Toml.Node` — a table that is being written;
* `Toml.Node.reach` — going down a path;
* `Toml.Node.assign`, `Toml.Node.openTable`, `Toml.Node.openElement` — the three ways to write;
* `Toml.Node.toValue` — the value of what was written;
* `Toml.tableOf?` — the table of the assignments within braces.
-/

import OfferLayout.Toml.Value

set_option relaxedAutoImplicit false
set_option autoImplicit false

namespace OfferLayout

namespace Toml

/-- How a table came about. -/
inductive Origin where
  /-- It was opened by a header of its own, and may be filled. -/
  | opened
  /-- A header went through it, and it may still be opened. -/
  | passed
  /-- A dotted key went through it, and other dotted keys may. -/
  | dotted
deriving DecidableEq, Repr

/-- A part of a table that is being written. -/
inductive Node where
  /-- A value, which is complete. -/
  | value (v : Value)
  /-- A table. -/
  | table (origin : Origin) (members : List (String × Node))
  /-- An array of tables: those that came before, and the one that is being written. -/
  | tables (earlier : List Node) (last : List (String × Node))

/-- The table without members. -/
def Node.empty : Node := .table .opened []

instance : Inhabited Node := ⟨.empty⟩

/-- Puts a value under a name. -/
def put {α : Type} (name : String) (a : α) : List (String × α) → List (String × α)
  | [] => [(name, a)]
  | (other, b) :: rest => if other = name then (name, a) :: rest else (other, b) :: put name a rest

namespace Node

/-! ### Going down a path -/

/-- What is done to the table at the end of a path: its origin and its members are changed. -/
abbrev Change : Type := Origin → List (String × Node) → Option (List (String × Node))

/-- **Goes down a path** and changes the members of the table at its end.  Tables that are missing
on the way are made.  A dotted key does not go through a table that was opened by a header. -/
def reach (byKey : Bool) (change : Change) :
    List String → Origin → List (String × Node) → Option (List (String × Node))
  | [], origin, members => change origin members
  | name :: path, _, members =>
      match members.lookup name with
      | none =>
          let origin := if byKey then Origin.dotted else Origin.passed
          (reach byKey change path origin []).map fun m => put name (.table origin m) members
      | some (.value _) => none
      | some (.table origin inner) =>
          if byKey ∧ origin = .opened then none
          else (reach byKey change path origin inner).map fun m => put name (.table origin m) members
      | some (.tables earlier last) =>
          (reach byKey change path .opened last).map fun m => put name (.tables earlier m) members

/-- Puts a value under a new name.  At the end of a dotted key there must be a table that a dotted
key has made. -/
def assignMember (byPath : Bool) (name : String) (v : Value) : Change := fun origin members =>
  if byPath ∧ origin ≠ .dotted then none
  else if (members.lookup name).isSome then none
  else some (members ++ [(name, .value v)])

/-- The last name of a path and those before it. -/
def splitLast : List String → Option (List String × String)
  | [] => none
  | [name] => some ([], name)
  | name :: path => (splitLast path).map fun r => (name :: r.1, r.2)

/-- **Assigns a value** to a dotted key, in the table with the given members. -/
def assign (path : List String) (v : Value) : Change := fun origin members =>
  (splitLast path).bind fun r =>
    reach true (assignMember (!r.1.isEmpty) r.2 v) r.1 origin members

/-! ### Headers -/

/-- Opens a table under a name, unless it was opened before. -/
def openMember (name : String) : Change := fun _ members =>
  match members.lookup name with
  | none => some (members ++ [(name, .table .opened [])])
  | some (.table .passed inner) => some (put name (.table .opened inner) members)
  | _ => none

/-- Opens one more element of an array of tables under a name. -/
def openElementMember (name : String) : Change := fun _ members =>
  match members.lookup name with
  | none => some (members ++ [(name, .tables [] [])])
  | some (.tables earlier last) =>
      some (put name (.tables (earlier ++ [.table .opened last]) []) members)
  | _ => none

/-- Changes the table at the end of a path that a header gives. -/
def atHeader (path : List String) (change : Change) : Node → Option Node
  | .table origin members => (reach false change path origin members).map (.table origin)
  | _ => none

/-- **Opens the table** that a header names. -/
def openTable (path : List String) (root : Node) : Option Node :=
  (splitLast path).bind fun r => root.atHeader r.1 (openMember r.2)

/-- **Opens one more element** of the array of tables that a header names. -/
def openElement (path : List String) (root : Node) : Option Node :=
  (splitLast path).bind fun r => root.atHeader r.1 (openElementMember r.2)

/-! ### What was written -/

mutual

/-- The value of what was written. -/
def toValue : Node → Value
  | .value v => v
  | .table _ members => .table (toMembers members)
  | .tables earlier last => .array (toItems earlier ++ [.table (toMembers last)])

/-- The values of the elements of an array of tables. -/
def toItems : List Node → List Value
  | [] => []
  | n :: rest => toValue n :: toItems rest

/-- The values of the members of a table. -/
def toMembers : List (String × Node) → List (String × Value)
  | [] => []
  | (name, n) :: rest => (name, toValue n) :: toMembers rest

end

end Node

/-- The table of the assignments within braces. -/
def tableOf? (pairs : List (List String × Value)) : Option Value :=
  (pairs.foldlM (fun members p => Node.assign p.1 p.2 .opened members) []).map fun members =>
    .table (Node.toMembers members)

end Toml

end OfferLayout
