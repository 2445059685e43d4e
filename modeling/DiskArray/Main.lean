import DiskArray.Program
import Std.Time.Format
import Std.Time.Zoned

/-!
# The command line

Reads the environment and the two files, takes lines from the standard input, and writes what the session
shows. The image is written back after every turn that wrote a block, the signatures at the end.
-/

namespace DiskArray.CommandLine

/-- The environment as the process finds it. -/
def readEnvironment : IO Environment := do
  let values ← Setting.all.mapM fun s => do return (s, ← IO.getEnv s.variableName)
  return fun s => (values.lookup s).join

/-- The time of day for the log. -/
def readClock : IO String := do
  let now ← Std.Time.PlainTime.now
  let two (n : Int) := Text.padStart 2 '0' (toString n)
  let milliseconds := Text.padStart 3 '0' (toString (now.nanosecond.val / 1000000))
  return two now.hour.val ++ ":" ++ two now.minute.val ++ ":" ++ two now.second.val ++ "." ++ milliseconds

/-- How output is to be written now. -/
def readDisplay (threshold : Log.Threshold) : IO Shell.Display := do
  let terminal ← (← IO.getStdout).isTty
  let plain := (← IO.getEnv "NO_COLOR").isSome
  return { color := terminal && !plain, threshold, time := ← readClock }

/-- The refusal that a number of the operating system stands for. The number may come with its sign
changed, as a word of 32 bits. -/
def fileErrorOfCode (code : UInt32) : Option FileError :=
  match min code.toNat (UInt32.size - code.toNat) with
  | 2 => some .notFound
  | 17 => some .alreadyExists
  | 20 => some .notDirectory
  | 21 => some .isDirectory
  | 36 => some .nameTooLong
  | 40 => some .tooManyLinks
  | _ => none

/-- The text of a refusal with a number, or else its details. -/
def codeText (code : UInt32) (details : String) : String :=
  ((fileErrorOfCode code).map FileError.message).getD details

/-- The text of an error of the system. -/
def errorText : IO.Error → String
  | .noFileOrDirectory _ code details => codeText code details
  | .inappropriateType _ code details => codeText code details
  | .invalidArgument _ code details => codeText code details
  | e => toString e

/-- The bytes of a file, if there is one. -/
def readFile? (path : String) : IO (Option (List UInt8)) := do
  try
    return some (← IO.FS.readBinFile path).data.toList
  catch
    | .noFileOrDirectory _ _ _ => return none
    | e => throw e

def writeFile (path : String) (bytes : List UInt8) : IO Unit :=
  IO.FS.writeBinFile path ⟨bytes.toArray⟩

/-- The store with a file of the system. -/
def keepFile (store : Store) (path : String) (bytes : List UInt8) : IO Store :=
  match store.makeFile path (.ofBytes bytes) with
  | .ok store => return store
  | .error e => throw (IO.userError e.message)

/-- The two files of an array; an image that is missing is made, to find out whether it can be. -/
def readStore (config : Config) : IO Store := do
  let image ← readFile? config.image
  if image.isNone then writeFile config.image []
  let store ← keepFile Store.empty config.image (image.getD [])
  let sidecar := Signature.sidecarPath config.image
  match ← readFile? sidecar with
  | some bytes => keepFile store sidecar bytes
  | none => return store

/-- Writes one file of a store back. -/
def writeBack (store : Store) (path : String) : IO Unit := do
  if let some file := store.file? path then writeFile path file.bytes

/-- Writes output to the two streams. -/
def emit (threshold : Log.Threshold) (o : Shell.Output) : IO Unit := do
  let display ← readDisplay threshold
  let out ← IO.getStdout
  out.putStr (o.shownText display)
  out.flush
  IO.eprint (o.errorText display)

/-- Asks a question of the user, who can be asked only at a terminal. -/
def ask (q : Shell.Question) : IO Shell.Answer := do
  let input ← IO.getStdin
  if !(← input.isTty) then return none
  IO.eprint (q.text ++ " [y/N] ")
  let line ← input.getLine
  let word := Text.trim line
  if word.isEmpty then return some q.default
  return some (word == "y" || word == "Y" || word == "yes")

/-- Shows the prompt and takes what the user enters. -/
def readInput (s : Shell.Session) : IO Shell.Input := do
  let input ← IO.getStdin
  if ← input.isTty then
    let display ← readDisplay s.config.threshold
    IO.print (s.prompt.left.render display.color ++ "> ")
    (← IO.getStdout).flush
  let line ← input.getLine
  return if line.isEmpty then .endOfInput else .line line

/-- Has the user answer before a line is taken that will ask. -/
def prepareAnswer (s : Shell.Session) : Shell.Input → IO Shell.Session
  | .line text => do
    match Shell.parseCommand (Text.trim text) with
    | .ok .format => return { s with answers := [← ask Shell.formatQuestion] }
    | _ => return s
  | _ => return s

/-- Takes turns until one ends the session; gives its state then. -/
partial def takeTurns (s : Shell.Session) : IO Shell.Session := do
  let input ← readInput s
  let s ← prepareAnswer s input
  let t := s.turn input
  emit s.config.threshold t.output
  if t.session.driver.device.tally.of .writeBlock != s.driver.device.tally.of .writeBlock then
    writeBack t.session.store s.config.image
  if t.ends then return t.session else takeTurns t.session

/-- Runs a session on files that could be read. -/
def runSession (config : Config) (store : Store) : IO Unit := do
  let surroundings : Shell.Surroundings :=
    { user := (← IO.getEnv "USER").getD "user", host := ← IO.getEnv "HOSTNAME", home := ← IO.getEnv "HOME" }
  let begun := Shell.start config surroundings [] store
  emit config.threshold begun.output
  match begun.session with
  | .error store => writeBack store config.image
  | .ok s =>
    writeBack s.store config.image
    let closing := (← takeTurns s).shutdown
    emit config.threshold closing.output
    if !closing.session.driver.device.signatures.isEmpty then
      writeBack closing.session.store (Signature.sidecarPath config.image)

end DiskArray.CommandLine

open DiskArray DiskArray.CommandLine in
/-- Runs the program on the process's own environment and files. -/
def main : IO UInt32 := do
  match Config.ofEnvironment (← readEnvironment) with
  | .error e =>
    let display ← readDisplay .off
    IO.eprint (Text.Styled.render display.color (Program.configFailure e))
    return 1
  | .ok config =>
    let store ← (readStore config).toBaseIO
    match store with
    | .ok store => runSession config store
    | .error e =>
      emit config.threshold (Shell.bootBanner ++ .line (Shell.errorLine (errorText e)))
    return 0
