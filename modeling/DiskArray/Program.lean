import DiskArray.Shell.Session

/-!
# The program

The configuration is read from the environment. If it is wrong, the error is all that is shown and the
exit status is one; otherwise a session runs, after which the status is zero.
-/

namespace DiskArray.Program

open Shell

/-- What a run of the program leaves behind. -/
structure Result where
  status : Nat
  /-- What goes to the standard output. -/
  out : String
  /-- What goes to the standard error. -/
  err : String
  store : Store

/-- What a configuration that is wrong shows. -/
def configFailure (e : ConfigError) : Text.Styled := errorLine e.message ++ [Text.plain "\n"]

/-- Runs the program. Only the threshold of the display is taken from the configuration. -/
def run (env : Environment) (surroundings : Surroundings) (answers : List Answer) (color : Bool)
    (time : String) (store : Store) (events : List Event) : Result :=
  match Config.ofEnvironment env with
  | .error e => { status := 1, out := "", err := Text.Styled.render color (configFailure e), store }
  | .ok config =>
    let display : Display := { color, threshold := config.threshold, time }
    let t := session config surroundings answers store events
    let outputs := t.start :: t.steps.map (·.output)
    { status := 0
      out := String.join (outputs.map (Output.shownText display))
      err := String.join (outputs.map (Output.errorText display))
      store := t.store }

end DiskArray.Program
