import SchemaGraph.CommandLine

set_option autoImplicit false

/-! # The program

Reads the files that the run asks for and prints its report. -/

open SchemaGraph

/-- Why a file cannot be read, in the words of the system. -/
def readFailure : IO.Error → String
  | .noFileOrDirectory .. => "No such file or directory (os error 2)"
  | .inappropriateType .. => "Is a directory (os error 21)"
  | .permissionDenied .. => "Permission denied (os error 13)"
  | .userError _ => "stream did not contain valid UTF-8"
  | other => toString other

/-- Find out about a file. -/
def lookAt (name : String) : IO CommandLine.FileState := do
  try
    let text ← IO.FS.readFile name
    let location ← IO.FS.realPath name
    return .readable text location.toString
  catch e => return .failed (readFailure e)

/-- Run until the report looks for no file that nothing is known about. -/
partial def runAll (args : List String) (files : CommandLine.Files) (names : List String) :
    IO CommandLine.Report := do
  let mut files := files
  for name in names do
    files := (name, ← lookAt name) :: files
  let report := CommandLine.run files Graph.defaultFuel args
  match (CommandLine.wantedFiles report).filter fun name => (files.lookup name).isNone with
  | [] => return report
  | more => runAll args files more

def main (args : List String) : IO UInt32 := do
  let report ← runAll args [] (CommandLine.namedFiles args)
  (← IO.getStdout).putStr (CommandLine.lines report.out)
  (← IO.getStderr).putStr (CommandLine.lines report.err)
  return report.code.toUInt32
