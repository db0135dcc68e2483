/-
**Files.**

A command reads files by their paths.  A path is a list of names that are followed from the root,
one after the other: the empty name and a single dot lead nowhere, two dots lead to the enclosing
folder, and nothing lies beyond a file.  A path that cannot be followed, or that leads to a folder,
gives no text, and the fault tells why.

Main definitions:

* `FileFault`, `FileFault.message` — why a file cannot be read;
* `Files` — the files that a command can read;
* `Folder` — files that lie in one folder;
* `Folder.enter`, `Folder.read` — **following a path**.

Main results:

* `Folder.enter_file` — nothing lies beyond a file.
-/

import OfferLayout.Dict
import OfferLayout.Text.Cut

set_option relaxedAutoImplicit false
set_option autoImplicit false

namespace OfferLayout

/-! ### Faults -/

/-- Why a file cannot be read. -/
inductive FileFault where
  /-- There is no such file. -/
  | missing
  /-- The file may not be read. -/
  | denied
  /-- Something on the way is not a folder. -/
  | notFolder
  /-- The path leads to a folder. -/
  | folder
  /-- A name on the way, or the path, is too long. -/
  | tooLong
  /-- The bytes of the file are not those of a text. -/
  | notText
deriving DecidableEq, Repr

/-- What is said about the fault. -/
def FileFault.message : FileFault → String
  | .missing => "No such file or directory (os error 2)"
  | .denied => "Permission denied (os error 13)"
  | .notFolder => "Not a directory (os error 20)"
  | .folder => "Is a directory (os error 21)"
  | .tooLong => "File name too long (os error 36)"
  | .notText => "stream did not contain valid UTF-8"

/-- The files that a command can read: the text of each, by its path. -/
abbrev Files : Type := String → Except FileFault String

/-! ### Following a path -/

/-- Files that lie in one folder. -/
structure Folder where
  /-- The names on the way from the root to the folder. -/
  names : List String
  /-- The texts of the files, by their names. -/
  files : Dict String

/-- What lies at the end of a path. -/
inductive Place where
  /-- A folder, with the names on the way from the root. -/
  | folder (names : List String)
  /-- A file, with its text. -/
  | file (text : String)
deriving DecidableEq, Repr

namespace Folder

/-- The greatest number of bytes of a name. -/
def maxName : Nat := 255

/-- The greatest number of bytes of a path. -/
def maxPath : Nat := 4095

/-- **Follows one name.** -/
def enter (f : Folder) : Place → String → Except FileFault Place
  | .file _, _ => .error .notFolder
  | .folder way, name =>
      if name = "" ∨ name = "." then .ok (.folder way)
      else if name = ".." then .ok (.folder way.dropLast)
      else if maxName < Text.byteSize name.toList then .error .tooLong
      else if way = f.names then
        match f.files.get? name with
        | none => .error .missing
        | some text => .ok (.file text)
      else if way ++ [name] = f.names.take (way.length + 1) then .ok (.folder (way ++ [name]))
      else .error .missing

/-- Nothing lies beyond a file, not even the place itself. -/
@[simp] theorem enter_file (f : Folder) (text name : String) :
    f.enter (.file text) name = .error .notFolder := rfl

/-- The names that make up a path. -/
def namesOf (path : String) : List String := (Text.fields '/' path.toList).map String.ofList

/-- **The text at the end of a path.** -/
def read (f : Folder) (path : String) : Except FileFault String :=
  if path = "" then .error .missing
  else if maxPath < Text.byteSize path.toList then .error .tooLong
  else
    match (namesOf path).foldlM f.enter (.folder []) with
    | .error fault => .error fault
    | .ok (.folder _) => .error .folder
    | .ok (.file text) => .ok text

end Folder

end OfferLayout
