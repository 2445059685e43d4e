import DiskArray.Text.Numeral
import DiskArray.Text.Style

/-!
# The log

Every part of the array returns the records it made together with its result. Which of them are
written is decided once, at the end, by a threshold; a record is one line, in the colour of its level.
-/

namespace DiskArray.Log

/-- How grave a record is, gravest first. -/
inductive Level where
  | error | warn | info | debug | trace
deriving DecidableEq, Repr

namespace Level

/-- Position in the order of the levels; the gravest comes first. -/
def rank : Level → Nat
  | .error => 1
  | .warn => 2
  | .info => 3
  | .debug => 4
  | .trace => 5

def name : Level → String
  | .error => "ERROR"
  | .warn => "WARN"
  | .info => "INFO"
  | .debug => "DEBUG"
  | .trace => "TRACE"

def color : Level → Text.Color
  | .error => .red
  | .warn => .brightYellow
  | .info => .blue
  | .debug => .green
  | .trace => .brightBlack

end Level

/-- The least grave level that is still written, if any is. -/
inductive Threshold where
  | off
  | upTo (level : Level)
deriving DecidableEq, Repr

namespace Threshold

def name : Threshold → String
  | .off => "OFF"
  | .upTo level => level.name

/-- Every threshold. -/
def all : List Threshold :=
  [.off, .upTo .error, .upTo .warn, .upTo .info, .upTo .debug, .upTo .trace]

/-- The threshold with this name, in any letter case. -/
def ofName? (text : String) : Option Threshold :=
  all.find? fun t => t.name.toList == text.toList.map Char.toUpper

/-- Whether records of a level are written. -/
def admits : Threshold → Level → Bool
  | .off, _ => false
  | .upTo most, level => level.rank ≤ most.rank

end Threshold

/-- One entry of the log. The target names the part that made it. -/
structure Record where
  level : Level
  target : String
  message : String
deriving DecidableEq, Repr

/-- The record as a line, without its end; `time` stands first. -/
def Record.line (time : String) (r : Record) : String :=
  "[" ++ time ++ "][" ++ Text.padStart 5 ' ' r.level.name ++ "][" ++ r.target ++ "] " ++ r.message

/-- What is written for one record. -/
def Record.render (color : Bool) (time : String) (r : Record) : String :=
  (Text.colored r.level.color (r.line time)).render color ++ "\n"

/-- What is written for the records that pass the threshold. -/
def render (threshold : Threshold) (color : Bool) (time : String) (records : List Record) : String :=
  String.join ((records.filter fun r => threshold.admits r.level).map (Record.render color time))

end DiskArray.Log
