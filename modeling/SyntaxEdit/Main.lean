/-
The program on the command line.

Its words are those of the command line. Standard input holds a description of everything else that
a run depends on: the files, and the syntax trees of their texts. What the run prints goes to
standard output and standard error, and a description of the file that it writes follows on standard
output.
-/
import SyntaxEdit.CommandLine.Description

namespace SyntaxEdit

/-- The rest of a stream behind what has been read of it. -/
partial def readRest (input : IO.FS.Stream) (read : String) : IO String := do
  let line ← input.getLine
  if line.isEmpty then return read else readRest input (read ++ line)

/-- Print what comes of a run, and give its exit code. -/
def printOutcome (o : Outcome) : IO UInt32 := do
  IO.print (String.ofList (o.output ++ o.description))
  IO.eprint (String.ofList o.errors)
  return UInt32.ofNat o.code

/-- Run the program in the surroundings that standard input describes. -/
def runDescribed (words : List String) : IO UInt32 := do
  let description ← readRest (← IO.getStdin) ""
  match Surroundings.ofDescription? description.toList with
  | none =>
    IO.eprintln "error: standard input holds no description of a workspace"
    return 2
  | some surroundings => printOutcome (runProgram surroundings (words.map String.toList))

end SyntaxEdit

def main (words : List String) : IO UInt32 :=
  SyntaxEdit.runDescribed words
