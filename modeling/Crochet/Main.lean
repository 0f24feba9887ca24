import Crochet.Console.Program

/-!
# The command line

The program over the files and the screen of the machine it runs on.
-/

namespace Crochet

/-- The reason for a failure of the machine, in words. -/
def reasonOf : IO.Error → String
  | .noFileOrDirectory .. => "No such file or directory (os error 2)"
  | error => toString error

/-- The text of a file on the machine. -/
def readText (path : String) : IO (Except String (List Char)) := do
  try
    let bytes ← IO.FS.readBinFile path
    match String.fromUTF8? bytes with
    | some text => pure (.ok text.toList)
    | none => pure (.error "stream did not contain valid UTF-8")
  catch error => pure (.error (reasonOf error))

/-- Writes a file on the machine. -/
def writeBytes (path : String) (bytes : List UInt8) : IO (Option String) := do
  try
    IO.FS.writeBinFile path ⟨bytes.toArray⟩
    pure none
  catch error => pure (some (reasonOf error))

/-- The machine. -/
def machine : Host IO where
  read := readText
  write := writeBytes
  say := IO.println
  tell text := do
    IO.eprint text
    (← IO.getStderr).flush

end Crochet

/-- Runs the program on the words of the command line. -/
def main (words : List String) : IO UInt32 := Crochet.Program.run Crochet.machine words
