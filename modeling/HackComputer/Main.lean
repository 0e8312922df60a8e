import HackComputer.CommandLine

/-!
# The program

Reads the files that the command names, executes it and passes on what it
leaves.
-/

namespace HackComputer

/-- The number of a failure, which may be given as its negative. -/
def failureNumber (code : UInt32) : Nat :=
  min code.toNat (0x100000000 - code.toNat)

/-- The failure of a stream that a failed input or output operation means. -/
def streamError : IO.Error → StreamError
  | .noFileOrDirectory .. => .notFound
  | .inappropriateType _ code _ => if failureNumber code = 20 then .notDirectory else .isDirectory
  | .resourceExhausted .. => .noSpace
  | .invalidArgument _ code text =>
    if failureNumber code = 36 then .nameTooLong else .other text
  | error => .other (toString error)

/-- What is found at a path. -/
def lookAt (path : String) : IO Place := do
  try
    let contents ← IO.FS.readBinFile path
    return .file contents.toList
  catch error =>
    return match streamError error with
      | .notFound => .vacant
      | cause => .unusable cause

end HackComputer

open HackComputer CommandLine in
/-- Executes the command that the arguments form. -/
def main (arguments : List String) : IO UInt32 := do
  let paths := match Command.ofArguments arguments with
    | .ok command => command.files
    | .error _ => []
  let found ← paths.mapM fun path => return (path, ← lookAt path)
  let outcome := perform (fun path => (found.lookup path).getD .vacant) arguments
  IO.print outcome.output
  for line in outcome.errors do
    IO.eprintln line
  return outcome.code.toUInt32
