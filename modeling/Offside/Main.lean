import Offside.Command.Outcome

/-! # The command — files in, output and exit code out -/

namespace Offside

/-- What is found under the name of a file. -/
def lookAt (name : String) : IO FileState := do
  try
    return .content (← IO.FS.readBinFile name)
  catch fault =>
    match fault with
    | .inappropriateType _ code _ => return if code == 21 then .directory else .blocked
    | .invalidArgument _ code _ => return if code == 36 then .tooLong else .missing
    | _ => return .missing

/-- The files that the arguments name. -/
def filesNamed (arguments : List String) : IO Files := do
  let names := match Invocation.read? arguments with
    | some (.request r) => r.files
    | some .version => []
    | none => []
  let found ← names.mapM fun name => return (name, ← lookAt name)
  return fun name => (found.lookup name).getD .missing

end Offside

/-- Run the command. -/
def main (arguments : List String) : IO UInt32 := do
  let outcome := Offside.Outcome.ofArguments (← Offside.filesNamed arguments) arguments
  (← IO.getStdout).putStr outcome.stdout
  (← IO.getStderr).putStr outcome.stderr
  return outcome.code.toUInt32
