import Offload.Command

/-!
# The program

Reads the command line and the manifest's file, carries the command out, and prints. Reports go to
the standard output, and so do faults in JSON; all other text goes to the standard error.
-/

namespace Offload.Console

def readFile (path : String) : IO (Except FileProblem String) := do
  try
    let text ← IO.FS.readFile path
    return .ok text
  catch
    | .noFileOrDirectory .. => return .error .notFound
    | _ => return .error .unreadable

def usageText : UsageProblem → String
  | .version => "hetvm-run"
  | _ => "usage: hetvm-run [--output json|human] [--log-level LEVEL] run|disasm|check MANIFEST\n" ++
    "options of run: --iterations N, --warmup, --batched, --invalidate"

/-- Carry out the words of a command line. Gives the exit code. -/
def runWords (words : List String) : IO UInt32 := do
  match CommandLine.parse words with
  | .error problem =>
    if problem.exitCode == 0 then IO.println (usageText problem)
    else IO.eprintln (usageText problem)
    return UInt32.ofNat problem.exitCode
  | .ok line =>
    let file ← readFile line.manifest
    let (result, journal) := line.execute file
    match Level.ofName? line.logLevel with
    | some level => (journal.upTo level).forM fun m => IO.eprintln (m.level.name ++ " " ++ m.text)
    | none => pure ()
    match result with
    | .ok report =>
      IO.println (report.printed line.output)
      return 0
    | .error fault =>
      match line.output with
      | .json => IO.println (fault.render .json)
      | .human => IO.eprintln (fault.render .human)
      return UInt32.ofNat fault.exitCode

end Offload.Console

def main (words : List String) : IO UInt32 := Offload.Console.runWords words
