import Quill.CommandLine.Compile

/-!
# The program

The command line on real files.
-/

namespace Quill

/-- A system error by its number, which some calls give as a negative one, and its text. -/
def FileError.numbered (code : UInt32) (text : String) : FileError :=
  let number := min code (0 - code)
  if number = 20 then .notADirectory
  else if number = 21 then .isADirectory
  else .other (text ++ " (os error " ++ toString number ++ ")")

/-- What a system error means for a file. -/
def FileError.ofSystem : IO.Error → FileError
  | .noFileOrDirectory .. => .notFound
  | .inappropriateType _ number text | .permissionDenied _ number text
  | .resourceExhausted _ number text | .invalidArgument _ number text => .numbered number text
  | error => .other (toString error)

/-- Do something with a file; a name that the system cannot hold is refused before. -/
def attempt (path : String) (action : IO α) : IO (Except FileError α) := do
  if path.toList.contains '\x00' then return .error .nulInName
  try return .ok (← action)
  catch error => return .error (.ofSystem error)

def realDisk : Disk IO where
  read path := attempt path (IO.FS.readBinFile path)
  write path bytes := attempt path (IO.FS.writeBinFile path bytes)

end Quill

def main (arguments : List String) : IO UInt32 := do
  let exit ← Quill.CommandLine.run Quill.realDisk arguments
  IO.print exit.stdout
  IO.eprint exit.stderr
  return UInt32.ofNat exit.code
