import DiskArray.Text.Numeral

/-!
# Help

The commands of the shell and what they do, as the user is told, and the words that are completed.
-/

namespace DiskArray.Shell

/-- Each command with what it does. -/
def helpRows : List (String × String) :=
  [("mount", "Mount the disk array"),
    ("unmount", "Unmount the disk array"),
    ("grant", "Grant write permission"),
    ("revoke", "Revoke write permission"),
    ("status", "Show array, cache and device state"),
    ("read <addr> <len>", "Hex dump <len> bytes (max 1024) at linear <addr>"),
    ("write <addr> <text>", "Write text at linear <addr>"),
    ("fill <addr> <len> <byte>", "Fill <len> bytes at <addr> with <byte>"),
    ("sign <disk> <block>", "Sign a block and print its digest"),
    ("cache create <n>", "Enable the block cache with <n> entries (2..4096)"),
    ("cache resize <n>", "Resize the block cache"),
    ("cache destroy", "Disable the block cache"),
    ("cache stats", "Show cache occupancy and hit rate"),
    ("format", "Zero the whole array"),
    ("help", "Show this help message"),
    ("exit", "Quit the shell")]

/-- One line of the help: the description starts in a fixed column. -/
def helpRow (row : String × String) : String := "  " ++ Text.padEnd 27 row.1 ++ row.2 ++ "\n"

/-- The text of the help command. -/
def helpText : String :=
  "\n" ++ String.join (helpRows.map helpRow) ++ "\n  Numbers may be decimal or 0x-prefixed hex.\n"

/-- The words that are completed while a line is typed. -/
def completions : List String :=
  ["help", "mount", "unmount", "grant", "revoke", "status", "read", "write", "fill", "sign", "cache",
    "create", "resize", "destroy", "stats", "format", "exit"]

end DiskArray.Shell
