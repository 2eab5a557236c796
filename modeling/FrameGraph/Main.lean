import FrameGraph.CommandLine.Report

/-!
# The program

Reads the description that the command line names and prints or writes what was built from it.
-/

open FrameGraph FrameGraph.CommandLine

/-- Whether a path leads anywhere, and the content of the file there. -/
def readContent (path : String) : IO (Bool × Option (List UInt8)) := do
  try
    let data ← IO.FS.readBinFile path
    return (true, some data.toList)
  catch
    | .noFileOrDirectory .. => return (false, none)
    | _ => return (true, none)

def usage : String :=
  "usage: [--config PATH] [--output PATH] [--log-level DEBUG|INFO|WARNING|ERROR]"

def causeText (cause : Fault) : String :=
  cause.message?.getD "the description has the wrong form"

/-- Prints what options ask for, and answers the exit code. -/
def report (o : Options) : IO UInt32 := do
  match o.path with
  | .error cause =>
    IO.eprintln (causeText cause)
    return 1
  | .ok path =>
    let (found, content) ← readContent path
    let report := Report.ofOptions o path found content
    IO.print report.printed
    match report.ending with
    | .exit code => return code.toUInt32
    | .abort cause =>
      IO.eprintln (causeText cause)
      return 1
    | .write path document =>
      IO.FS.writeFile path document
      IO.print (Report.writtenLine path)
      return 0

def main (args : List String) : IO UInt32 := do
  match Options.parse args with
  | .error .help =>
    IO.println usage
    return 0
  | .error .misuse =>
    IO.eprintln usage
    return 2
  | .ok o => report o
