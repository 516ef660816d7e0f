import RecordConsole.Console

/-!
The program: it reads the files and lines that the console asks for, and prints what the console
answers.
-/
namespace RecordConsole.Program

/-- The failures of reading that the console reports itself; others end the program. -/
def fileError? : IO.Error → Option FileError
  | .noFileOrDirectory _ _ _ => some .notFound
  | .inappropriateType _ code _ => some (if code = 20 then .notDirectory else .isDirectory)
  | .resourceBusy code _ => if code = 16 then some .busy else none
  | _ => none

def readFile (path : String) : IO (Except FileError ByteArray) := do
  try
    return .ok (← IO.FS.readBinFile path)
  catch e =>
    match fileError? e with
    | some known => return .error known
    | none => throw e

partial def nextLine (input : IO.FS.Stream) (line : ByteArray) : IO ByteArray := do
  let read ← input.read 1
  if read.isEmpty then return line
  let line := line ++ read
  if read.data.toList == [0x0A] then return line
  nextLine input line

def stop (abort : Abort) : IO UInt32 := do
  (← IO.getStderr).putStr abort.text
  return 1

partial def converse (console : Console) (input output : IO.FS.Stream) : IO UInt32 := do
  output.putStr Console.prompt
  output.flush
  let line ← nextLine input .empty
  if line.isEmpty then return 0
  match Console.decodeLine line.data.toList with
  | .error abort => stop abort
  | .ok text =>
    match console.reply text with
    | none => return 0
    | some answer =>
      output.putStr answer
      converse console input output

def runConsole (settings : Settings) : IO UInt32 := do
  let paths := settings.users.toList ++ settings.threads.toList
  let files ← paths.mapM fun path => do return (path, ← readFile path)
  match Console.start settings fun path => (files.lookup path).getD (.error .notFound) with
  | .error abort => stop abort
  | .ok console =>
    let output ← IO.getStdout
    match settings.command with
    | some line =>
      let (code, printed) := console.execute line
      output.putStr printed
      return UInt32.ofNat code.toNat
    | none =>
      output.putStr console.banner
      converse console (← IO.getStdin) output

end RecordConsole.Program

open RecordConsole in
def main (words : List String) : IO UInt32 := do
  match Settings.ofWords words with
  | .error e =>
    (← IO.getStderr).putStr ("error: " ++ e.message ++ "\n")
    return 2
  | .ok settings => Program.runConsole settings
