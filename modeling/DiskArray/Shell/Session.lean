import DiskArray.Boot
import DiskArray.Shell.Execute
import DiskArray.Shell.Grammar

/-!
# Sessions

A session boots the array, takes the user's input line by line, and shuts the array down. It is a fold:
each line, key or failed reading is one turn on the state, and the first turn that ends the session is
the last one. On every way out the array is unmounted, the signatures are saved if there are any, and the
hit rate is shown if the cache is in use.
-/

namespace DiskArray.Shell

open Text

/-- What a session finds around it. -/
structure Surroundings where
  user : String
  /-- The host's name, if it can be found out. -/
  host : Option String
  /-- The home directory, if there is one. -/
  home : Option String
  /-- Why the history of lines cannot be kept. -/
  historyFailure : Option String := none

/-- The state of a session. -/
structure Session where
  config : Config
  surroundings : Surroundings
  driver : ImageDriver
  /-- What the user will answer to questions. -/
  answers : List Answer

/-- What comes from the user. -/
inductive Input where
  | line (text : String)
  /-- The key that drops the line. -/
  | interrupt
  /-- The key that ends the input. -/
  | endOfInput
  /-- Reading fails. -/
  | failure (reason : String)
deriving DecidableEq, Repr

/-- What happens to a session: the user enters something, or the image file is cut or grown to a length
behind its back. -/
inductive Event where
  | input (i : Input)
  | truncate (size : Nat)
deriving DecidableEq, Repr

/-! ### Start -/

/-- The version that the welcome tells. -/
def version : String := "0.1.0"

/-- Clears the screen and moves to its first cell. -/
def clearScreen : String := "\x1b[2J\x1b[1;1H"

/-- The line of an error. -/
def errorLine (message : String) : Styled := [bold .red "❌ Error:", plain (" " ++ message)]

/-- What is shown before the boot. -/
def bootBanner : Output :=
  { shown := [plain clearScreen, bold .brightYellow "[mdadm Booting...]", plain "\n"] }

/-- What is shown when the array is ready. -/
def welcome (config : Config) (s : Surroundings) : Output :=
  { shown :=
      [plain ("\x1b[38;5;14mWelcome to mdadm v" ++ version ++ " (" ++ config.image ++ ")\n\x1b[0m"),
        colored .brightBlack
          "Type 'help' for available commands. Use ↑↓ for history, Tab for auto-completion.\n",
        plain "\n"] ++
      match s.historyFailure with
      | some reason => [colored .yellow "⚠️  History disabled:", plain (" " ++ reason ++ "\n")]
      | none => [] }

/-- The file that keeps the history of lines. -/
def historyPath (s : Surroundings) : String := s.home.getD "." ++ "/.mdadm_history"

/-- How lines are to be edited. -/
structure LineEditor where
  historyPath : String
  /-- Lines that the history keeps. -/
  historySize : Nat
  /-- The words that are completed. -/
  completions : List String
  /-- Letters needed before a word is completed. -/
  completionLength : Nat
deriving DecidableEq, Repr

/-- The line editor that a session sets up. -/
def lineEditor (s : Surroundings) : LineEditor :=
  { historyPath := historyPath s, historySize := 100, completions, completionLength := 2 }

/-- How a session starts: what is shown, the line editor if the boot succeeds, and the session or else the files. -/
structure Start where
  output : Output
  editor : Option LineEditor := none
  session : Except Store Session

/-- Boots the array for a session. -/
def start (config : Config) (surroundings : Surroundings) (answers : List Answer) (store : Store) :
    Start :=
  let report := Boot.run config store
  let booting := bootBanner ++ .logged report.log
  match report.result with
  | .error e => { output := booting ++ .line (errorLine e.message), session := .error report.state }
  | .ok driver =>
    { output := booting ++ welcome config surroundings
      editor := some (lineEditor surroundings)
      session := .ok { config, surroundings, driver, answers } }

/-! ### Turns -/

/-- The two sides of the prompt. -/
structure Prompt where
  left : Styled
  right : Styled
deriving DecidableEq, Repr

namespace Session

/-- The files, with what the array has on its image. -/
def store (s : Session) : Store := s.driver.device.backing.store

/-- The session with other files. -/
def withStore (s : Session) (store : Store) : Session :=
  { s with
    driver.device.backing.store := store }

/-- Whether the array can be read and written, as the prompt tells. -/
def mode (s : Session) : Span :=
  if !s.driver.mounted then colored .red "unmounted"
  else if s.driver.writable then colored .green "rw"
  else colored .yellow "ro"

def prompt (s : Session) : Prompt :=
  { left :=
      [colored .green (s.surroundings.user ++ "@" ++ s.surroundings.host.getD "localhost"), plain ":[",
        s.mode, plain "]"]
    right := [bold .brightBlue "mdadm"] }

/-- The image file is cut or grown behind the session's back. -/
def truncate (s : Session) (size : Nat) : Session :=
  s.withStore (s.store.resizeFile s.config.image size)

end Session

/-- What a turn leaves behind. -/
structure Turn where
  session : Session
  output : Output := {}
  asked : Option Question := none
  /-- The session is over. -/
  ends : Bool := false

/-- The return code of an error of the driver, and how far the transfer got. -/
def errorDetail : DriverError → String
  | e@(.device _ _ transferred) =>
    "(rc " ++ toString e.code ++ ", " ++ toString transferred ++ " bytes transferred)"
  | e => "(rc " ++ toString e.code ++ ")"

/-- The line of a command that failed. -/
def failureLine (e : CommandError) : Styled :=
  errorLine e.message ++
    match e with
    | .driver e => [plain " ", colored .brightBlack (errorDetail e)]
    | _ => []

/-- The line about input that is no command. -/
def parseErrorLine (e : ParseError) : Styled :=
  [colored .yellow "⚠️ ", plain " ", colored .yellow (e.message ++ ". Type 'help' for command list.")]

namespace Session

/-- Carries out a command. -/
def command (s : Session) (c : Command) : Turn :=
  let effect := execute s.driver s.answers c
  let failure := match effect.failure with
    | some e => Output.line (failureLine e)
    | none => {}
  { session := { s with driver := effect.driver, answers := effect.answers }
    output := effect.output ++ failure
    asked := effect.asked
    ends := c = .exit }

/-- Takes a line. -/
def line (s : Session) (text : String) : Turn :=
  let trimmed := trim text
  if trimmed.isEmpty then { session := s }
  else
    match parseCommand trimmed with
    | .ok c => s.command c
    | .error e => { session := s, output := .line (parseErrorLine e) }

/-- One turn. -/
def turn (s : Session) : Input → Turn
  | .line text => s.line text
  | .interrupt => { session := s, output := .line [] }
  | .endOfInput =>
    { session := s, output := .line [colored .yellow "Exiting mdadm..."], ends := true }
  | .failure reason =>
    { session := s, output := .line [plain ("Error reading line: " ++ reason)], ends := true }

end Session

/-! ### Shutdown -/

/-- What a part of the shutdown leaves behind. -/
structure Closing where
  session : Session
  output : Output := {}

namespace Closing

/-- Goes on with the next part. -/
def andThen (c : Closing) (next : Session → Closing) : Closing :=
  let n := next c.session
  { session := n.session, output := c.output ++ n.output }

end Closing

namespace Session

/-- Unmounts the array if it is mounted. -/
def unmountAtEnd (s : Session) : Closing :=
  if s.driver.mounted then
    let o := s.driver.unmount
    let failure := match o.result with
      | .ok _ => {}
      | .error e => Output.line [colored .yellow "⚠️  Unmount failed:", plain (" " ++ e.message)]
    { session := { s with driver := o.state }, output := .logged o.log ++ failure }
  else { session := s }

/-- Saves the signatures if there are any. -/
def saveSignatures (s : Session) : Closing :=
  let table := s.driver.device.signatures
  if table.isEmpty then { session := s }
  else
    match table.save s.store (Signature.sidecarPath s.config.image) with
    | .ok store => { session := s.withStore store }
    | .error e =>
      { session := s
        output := .line [colored .yellow "⚠️  Could not save signatures:", plain (" " ++ e.message)] }

/-- Shows the hit rate if the cache is in use. -/
def showHitRate (s : Session) : Closing :=
  if s.driver.cache.isEnabled then
    { session := s, output := { diagnostics := [.text (s.driver.cache.statistics ++ "\n")] } }
  else { session := s }

/-- Says good-bye. -/
def sayGoodBye (s : Session) : Closing :=
  { session := s, output := .line [colored .brightYellow "GoodBye!"] }

/-- Ends a session. -/
def shutdown (s : Session) : Closing :=
  ((s.unmountAtEnd.andThen saveSignatures).andThen showHitRate).andThen sayGoodBye

end Session

/-! ### The whole session -/

/-- What one prompt led to. -/
structure Step where
  prompt : Prompt
  output : Output
  asked : Option Question

namespace Session

/-- What the prompt of a session led to. -/
def stepOf (s : Session) (t : Turn) (more : Output) : Step :=
  { prompt := s.prompt, output := t.output ++ more, asked := t.asked }

/-- Ends a session with its last turn, to which the shutdown belongs. -/
def finish (s : Session) (t : Turn) : List Step × Session :=
  let closing := t.session.shutdown
  ([s.stepOf t closing.output], closing.session)

/-- Runs a session to its end. When the events are used up, the input ends. -/
def run (s : Session) : List Event → List Step × Session
  | [] => s.finish (s.turn .endOfInput)
  | .truncate size :: rest => (s.truncate size).run rest
  | .input i :: rest =>
    let t := s.turn i
    if t.ends then s.finish t
    else
      let after := t.session.run rest
      (s.stepOf t {} :: after.1, after.2)

end Session

/-- All that a session shows, and the files it leaves. -/
structure Transcript where
  start : Output
  editor : Option LineEditor := none
  /-- The boot succeeded, so the steps follow. -/
  booted : Bool
  steps : List Step
  store : Store

/-- A whole session, from the boot on. -/
def session (config : Config) (surroundings : Surroundings) (answers : List Answer) (store : Store)
    (events : List Event) : Transcript :=
  let begun := start config surroundings answers store
  match begun.session with
  | .error store => { start := begun.output, booted := false, steps := [], store }
  | .ok s =>
    let ran := s.run events
    { start := begun.output, editor := begun.editor, booted := true, steps := ran.1, store := ran.2.store }

end DiskArray.Shell
