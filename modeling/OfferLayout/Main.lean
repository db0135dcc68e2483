/-
**The program.**

The files that the command line names are read, the command is carried out, and its report is
written to the two outputs.

Main definitions:

* `faultOf` — why a file could not be read;
* `readFiles` — the files at the given paths;
* `main` — the program.
-/

import OfferLayout.Command.Run

set_option relaxedAutoImplicit false
set_option autoImplicit false

namespace OfferLayout

/-- Why a file could not be read. -/
def faultOf : IO.Error → FileFault
  | .permissionDenied _ _ _ => .denied
  | .inappropriateType _ code _ => if code = 21 then .folder else .notFolder
  | .invalidArgument _ _ _ => .tooLong
  | .userError _ => .notText
  | _ => .missing

/-- The files at the given paths. -/
def readFiles (paths : List String) : IO Files := do
  let entries ← paths.mapM fun (path : String) => do
    try
      let text ← IO.FS.readFile path
      return (path, Except.ok text)
    catch e => return (path, Except.error (faultOf e))
  return fun path => (entries.lookup path).getD (.error .missing)

end OfferLayout

/-- The program. -/
def main (args : List String) : IO UInt32 := do
  let files ← OfferLayout.readFiles (OfferLayout.pathsOfArguments args)
  let report := OfferLayout.runArguments args files
  (← IO.getStdout).putStr report.stdout
  (← IO.getStderr).putStr report.stderr
  return UInt32.ofNat report.exit
