import DiskArray.Log
import DiskArray.Text.Style

/-!
# Output

What the shell shows: styled text for the user, and diagnostics, which are log records and plain text.
Only at the end are they turned into what is written, by whether colour is on, which records pass, and
the time.
-/

namespace DiskArray.Shell

open Text

/-- Something for the error stream. -/
inductive Diagnostic where
  | record (r : Log.Record)
  | text (s : String)
deriving DecidableEq, Repr

/-- Text for the user and diagnostics, each in order. -/
structure Output where
  shown : Styled := []
  diagnostics : List Diagnostic := []
deriving DecidableEq, Repr

/-- How output is written. -/
structure Display where
  color : Bool := false
  threshold : Log.Threshold := .upTo .warn
  /-- What stands for the time in the log. -/
  time : String
deriving DecidableEq, Repr

namespace Output

instance : Append Output where
  append a b := ⟨a.shown ++ b.shown, a.diagnostics ++ b.diagnostics⟩

/-- One line for the user. -/
def line (spans : Styled) : Output := { shown := spans ++ [plain "\n"] }

/-- Lines for the user. -/
def lines (all : List Styled) : Output := { shown := all.flatMap (· ++ [plain "\n"]) }

/-- Records of the log. -/
def logged (records : List Log.Record) : Output := { diagnostics := records.map .record }

/-- What the user sees. -/
def shownText (display : Display) (o : Output) : String := Styled.render display.color o.shown

/-- What a diagnostic writes. -/
def diagnosticText (display : Display) : Diagnostic → String
  | .record r => Log.render display.threshold display.color display.time [r]
  | .text s => s

/-- What goes to the error stream. -/
def errorText (display : Display) (o : Output) : String :=
  String.join (o.diagnostics.map (diagnosticText display))

end Output

end DiskArray.Shell
