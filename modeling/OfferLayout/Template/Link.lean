/-
**Links and fallback chains.**

The expression of a placeholder is a chain of links, separated by bars, that are tried from left to
right.  A link names a key of the data or of the state, or is a text to be used as it stands.  An
exclamation mark after a key makes it mandatory: if nothing is found there, the whole template
yields nothing.

Main definitions:

* `Target`, `Link` — what a link names, and a link;
* `Link.parse`, `Chain.parse` — reading a link, and a chain of links;
* `Link.print`, `Chain.print` — writing them;
* `PlaceholderError` — what can be wrong with a placeholder.

Main results:

* `Chain.parse_eq` — a chain is read piece by piece.
-/

import OfferLayout.Template.Namespace
import OfferLayout.Text.Blank
import OfferLayout.Text.Cut

set_option relaxedAutoImplicit false
set_option autoImplicit false

namespace OfferLayout

/-! ### Links -/

/-- What a link names. -/
inductive Target where
  /-- The data at a path within a namespace. -/
  | data (space : DataSpace) (path : String)
  /-- The state at a key. -/
  | state (key : String)
deriving DecidableEq, Repr

namespace Target

/-- The namespace of the target. -/
def scope : Target → Namespace
  | .data space _ => .data space
  | .state _ => .state

/-- The path or key within the namespace. -/
def key : Target → String
  | .data _ path => path
  | .state key => key

/-- The spelling of a target: its namespace, a point, and its key. -/
def name (t : Target) : String := t.scope.name ++ "." ++ t.key

end Target

/-- One link of a fallback chain. -/
inductive Link where
  /-- A key, which may be mandatory. -/
  | keyed (target : Target) (mandatory : Bool)
  /-- A text to be used as it stands. -/
  | literal (text : String)
deriving DecidableEq, Repr

namespace Link

/-- The namespace that must be in scope for the link; a literal needs none. -/
def scope? : Link → Option Namespace
  | .keyed target _ => some target.scope
  | .literal _ => none

/-- Whether the link is a mandatory key. -/
def isMandatory : Link → Bool
  | .keyed _ mandatory => mandatory
  | .literal _ => false

end Link

/-! ### Errors -/

/-- What can be wrong with a placeholder. -/
inductive PlaceholderError where
  /-- Nothing was found at a mandatory key. -/
  | mandatoryEmpty (target : Target)
  /-- The namespace is not in scope. -/
  | illegalNamespace (scope : Namespace)
  /-- A link names data of an unknown namespace. -/
  | unknownNamespace (link : String)
  /-- A link names a namespace and no key. -/
  | noKey (link : String)
  /-- An expression has no link. -/
  | noLinks (expression : String)
deriving DecidableEq, Repr

namespace PlaceholderError

/-- Whether the error makes an expansion empty instead of failing it. -/
def collapses : PlaceholderError → Bool
  | .illegalNamespace _ => false
  | _ => true

/-- What is said about the error. -/
def message : PlaceholderError → String
  | .mandatoryEmpty target => "mandatory placeholder key resolved empty: " ++ target.name
  | .illegalNamespace scope => s!"namespace {scope.name} is not available in this context"
  | .unknownNamespace link => s!"unknown placeholder namespace in '{link}'"
  | .noKey link => s!"malformed placeholder: link '{link}' names no key"
  | .noLinks expression =>
      "malformed placeholder: empty placeholder expression '%^" ++ expression ++ "^%'"

end PlaceholderError

/-! ### Reading -/

namespace Link

/-- Divides a link into what stands before a final exclamation mark and the blanks before that, and
whether the mark is there. -/
def splitMark (piece : List Char) : List Char × Bool :=
  match Text.dropLast? '!' piece with
  | some body => (Text.trimEnd body, true)
  | none => (piece, false)

/-- Reads the link that a nonblank piece of an expression stands for. -/
def parse (piece : List Char) : Except PlaceholderError Link :=
  let (body, mandatory) := splitMark piece
  match Text.after? "DATA.".toList body with
  | some rest =>
      let (segment, path) := Text.splitFirst '.' rest
      match DataSpace.ofSegment? (String.ofList segment) with
      | none => .error (.unknownNamespace (String.ofList piece))
      | some space =>
          match path with
          | none | some [] => .error (.noKey (String.ofList piece))
          | some path => .ok (.keyed (.data space (String.ofList path)) mandatory)
  | none =>
      match Text.after? "STATE.".toList body with
      | some [] => .error (.noKey (String.ofList piece))
      | some key => .ok (.keyed (.state (String.ofList key)) mandatory)
      | none => .ok (.literal (String.ofList piece))

/-- Writes a link: a key with its exclamation mark if it is mandatory, a literal as it stands. -/
def print : Link → String
  | .keyed target mandatory => target.name ++ (if mandatory then "!" else "")
  | .literal text => text

end Link

namespace Chain

/-- The pieces of an expression that are not blank, trimmed. -/
def pieces (expression : List Char) : List (List Char) :=
  ((Text.fields '|' expression).map Text.trim).filter fun piece => !piece.isEmpty

/-- Reads the links of pieces; the first piece that is no link is the fault. -/
def parsePieces : List (List Char) → Except PlaceholderError (List Link)
  | [] => .ok []
  | piece :: rest =>
      match Link.parse piece with
      | .error e => .error e
      | .ok link =>
          match parsePieces rest with
          | .error e => .error e
          | .ok links => .ok (link :: links)

/-- **Reads a fallback chain**, which has at least one link. -/
def parse (expression : List Char) : Except PlaceholderError (List Link) :=
  match pieces expression with
  | [] => .error (.noLinks (String.ofList expression))
  | piece :: rest => parsePieces (piece :: rest)

/-- Writes a fallback chain. -/
def print (links : List Link) : String := "|".intercalate (links.map Link.print)

/-- A chain is read piece by piece. -/
theorem parse_eq {expression : List Char} (h : pieces expression ≠ []) :
    parse expression = parsePieces (pieces expression) := by
  unfold parse
  split
  · next hnil => exact absurd hnil h
  · next hcons => rw [hcons]

end Chain

end OfferLayout
