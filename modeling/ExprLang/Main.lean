import ExprLang.CommandLine.Basic

/-!
# The program

Reads the file that the arguments name, if they name one, and writes what
`CommandLine.run` says.
-/

namespace ExprLang.CommandLine

def fileOf? (arguments : List String) : Option String :=
  match Request.ofArguments arguments with
  | .ok (.run options) => if options.eval?.isSome then none else options.file?
  | _ => none

def readText (name : String) : IO (Except FileError String) := do
  try
    let bytes ← IO.FS.readBinFile name
    match String.fromUTF8? bytes with
    | some text => return .ok text
    | none => return .error .notText
  catch error =>
    match error with
    | .noFileOrDirectory .. => return .error .notFound
    | .inappropriateType .. => return .error .isDirectory
    | error => return .error (.other error.toString)

end ExprLang.CommandLine

open ExprLang.CommandLine in
def main (arguments : List String) : IO UInt32 := do
  let content ←
    match fileOf? arguments with
    | some name => readText name
    | none => pure (.error .notFound)
  let outcome := run arguments fun _ => content
  (← IO.getStdout).putStr outcome.stdout
  (← IO.getStderr).putStr outcome.stderr
  return outcome.code.toUInt32
