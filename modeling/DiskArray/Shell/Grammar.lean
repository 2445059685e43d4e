import DiskArray.Shell.Command
import DiskArray.Text.Blank
import DiskArray.Text.Number

/-!
# The grammar of commands

A line is cut into words. The first word names the command, the others are its arguments; commands
without arguments pay no heed to further words. Numbers are read from the left, and the first one that
is malformed or does not fit its field is the error.
-/

namespace DiskArray.Shell

/-- Commands that want a fixed form. -/
inductive Usage where
  | read | write | fill | sign | cache
deriving DecidableEq, Repr

def Usage.text : Usage → String
  | .read => "read <addr> <len>"
  | .write => "write <addr> <text>"
  | .fill => "fill <addr> <len> <byte>"
  | .sign => "sign <disk> <block>"
  | .cache => "cache create <n> | resize <n> | destroy | stats"

/-- Why a line is no command. -/
inductive ParseError where
  | empty
  | unknown (word : String)
  | usage (command : Usage)
  | number (e : Text.NumberError)
  | outOfRange (word : String)
deriving DecidableEq, Repr

def ParseError.message : ParseError → String
  | .empty => "empty command"
  | .unknown word => "unknown command '" ++ word ++ "'"
  | .usage command => "usage: " ++ command.text
  | .number e => e.message
  | .outOfRange word => "'" ++ word ++ "' is out of range"

/-- A number that fits a field of so many bits. -/
def field (bits : Nat) (word : String) : Except ParseError Nat :=
  match Text.parseNumber word with
  | .error e => .error (.number e)
  | .ok v => if v < 1 <<< bits then .ok v else .error (.outOfRange word)

/-- An address or a length. -/
def wideField (word : String) : Except ParseError UInt32 := (field 32 word).map UInt32.ofNat

/-- A disk, a block or a byte. -/
def byteField (word : String) : Except ParseError UInt8 := (field 8 word).map UInt8.ofNat

/-- A capacity. -/
def capacityField (word : String) : Except ParseError UInt64 := (field 64 word).map UInt64.ofNat

/-- The bytes of words, with one space between each two. -/
def joinedBytes (words : List String) : List UInt8 := (" ".intercalate words).toUTF8.data.toList

def parseRead : List String → Except ParseError Command
  | [address, length] => do return .read (← wideField address) (← wideField length)
  | _ => .error (.usage .read)

def parseWrite : List String → Except ParseError Command
  | address :: word :: more => do return .write (← wideField address) (joinedBytes (word :: more))
  | _ => .error (.usage .write)

def parseFill : List String → Except ParseError Command
  | [address, length, byte] => do
    return .fill (← wideField address) (← wideField length) (← byteField byte)
  | _ => .error (.usage .fill)

def parseSign : List String → Except ParseError Command
  | [disk, block] => do return .sign (← byteField disk) (← byteField block)
  | _ => .error (.usage .sign)

def parseCache : List String → Except ParseError Command
  | ["create", n] => do return .cache (.create (← capacityField n))
  | ["resize", n] => do return .cache (.resize (← capacityField n))
  | ["destroy"] => .ok (.cache .destroy)
  | ["stats"] => .ok (.cache .stats)
  | _ => .error (.usage .cache)

/-- The command with a name and arguments. -/
def parseNamed (name : String) (args : List String) : Except ParseError Command :=
  match name with
  | "help" => .ok .help
  | "mount" => .ok .mount
  | "unmount" => .ok .unmount
  | "grant" => .ok .grant
  | "revoke" => .ok .revoke
  | "status" => .ok .status
  | "read" => parseRead args
  | "write" => parseWrite args
  | "fill" => parseFill args
  | "sign" => parseSign args
  | "cache" => parseCache args
  | "format" => .ok .format
  | "exit" => .ok .exit
  | "quit" => .ok .exit
  | other => .error (.unknown other)

/-- The command on a line. -/
def parseCommand (line : String) : Except ParseError Command :=
  match Text.words line with
  | [] => .error .empty
  | name :: args => parseNamed name args

end DiskArray.Shell
