import DiskArray.Files.Error
import DiskArray.Files.File

/-!
# A store of files

Files, directories and symbolic links, each at its place: the names that lead to it from the root. A
place never passes through a link, so two paths name one file exactly when they resolve to one place.
`Store.resolve` walks a path as an operating system does that is asked to open it: links are followed,
a missing last name is allowed where a file is to be created, and each way to fail has its error. Files are
made through the same walk, so what lies behind a link is found and not hidden. The system may refuse to tell
the length of a file that is open, or to change it, as it does where the file is a device (`Refusals`).
-/

namespace DiskArray

namespace Files

/-- The names from the root down, free of `.`, `..` and links. -/
abbrev Place := List String

/-- What can be at a place. -/
inductive Node where
  | file (content : File)
  | directory
  | link (target : String)

/-- Most links that one path may lead through. -/
abbrev maxLinks : Nat := 40

/-- Longest name, in bytes. -/
abbrev maxName : Nat := 255

/-- A path of this many bytes is too long. -/
abbrev pathLimit : Nat := 4096

/-- The parts of a path between its slashes, empty ones included. -/
def splitSlashes : List Char → List (List Char)
  | [] => [[]]
  | c :: cs =>
    if c = '/' then [] :: splitSlashes cs
    else
      match splitSlashes cs with
      | [] => [[c]]
      | part :: parts => (c :: part) :: parts

/-- A path taken apart. -/
structure Route where
  /-- It starts at the root and not where the walk stands. -/
  fromRoot : Bool
  names : List String
  /-- A slash follows the last name, which must then be a directory. -/
  slashed : Bool
deriving Repr

/-- Takes a path apart; slashes in a row count as one. -/
def Route.ofPath (path : String) : Route :=
  let cs := path.toList
  { fromRoot := cs.head? == some '/'
    names := ((splitSlashes cs).filter (!·.isEmpty)).map String.ofList
    slashed := cs.getLast? == some '/' }

/-- What the system refuses of a file that is open, with its reasons. -/
structure Refusals where
  /-- To tell the length. -/
  measure : Option FileError := none
  /-- To change the length. -/
  resize : Option FileError := none

end Files

open Files

/-- All there is on the file system. -/
structure Store where
  /-- The directory in which relative paths start. -/
  home : Place
  /-- What is at each place. -/
  nodes : List (Place × Node)
  /-- What is refused of the files at each place. -/
  refusals : Place → Refusals := fun _ => {}

namespace Store

/-- An empty working directory. -/
def empty : Store := { home := ["home"], nodes := [(["home"], .directory)] }

instance : Inhabited Store := ⟨empty⟩

/-- What is at a place. The root is a directory without being named among the nodes. -/
def node? (s : Store) (place : Place) : Option Node :=
  match s.nodes.lookup place with
  | some node => some node
  | none => if place.isEmpty then some .directory else none

/-- Puts a node at its place in a list of nodes. -/
def putIn (place : Place) (node : Node) : List (Place × Node) → List (Place × Node)
  | [] => [(place, node)]
  | (p, n) :: rest => if p = place then (p, node) :: rest else (p, n) :: putIn place node rest

/-- The store with a node at a place. -/
def put (s : Store) (place : Place) (node : Node) : Store :=
  { s with nodes := putIn place node s.nodes }

/-! ### Walking a path -/

/-- Walks the remaining names from the directory `here`, with `links` more links allowed. The answer is
the place and what is there: nothing, if only the last name is missing. Where a file would be created,
the last name may not be followed by a slash. -/
def walk (s : Store) (creating : Bool) (links : Nat) (here : Place) (names : List String)
    (slashed : Bool) : Except FileError (Place × Option Node) :=
  match names with
  | [] => .ok (here, some .directory)
  | name :: more =>
    if name = "." then walk s creating links here more slashed
    else if name = ".." then walk s creating links here.dropLast more slashed
    else if more.isEmpty && creating && slashed then .error .isDirectory
    else if maxName < name.utf8ByteSize then .error .nameTooLong
    else
      let place := here ++ [name]
      match s.node? place with
      | none => if more.isEmpty then .ok (place, none) else .error .notFound
      | some .directory => walk s creating links place more slashed
      | some (.file content) =>
        if more.isEmpty && !slashed then .ok (place, some (.file content)) else .error .notDirectory
      | some (.link target) =>
        match links with
        | 0 => .error .tooManyLinks
        | links + 1 =>
          let route := Route.ofPath target
          walk s creating links (if route.fromRoot then [] else here) (route.names ++ more)
            (slashed || (more.isEmpty && route.slashed))
termination_by (links, names.length)

/-- Where the walk along a route starts. -/
def startOf (s : Store) (route : Route) : Place := if route.fromRoot then [] else s.home

/-- Where a path leads, and what is there. -/
def resolve (s : Store) (path : String) (creating : Bool) : Except FileError (Place × Option Node) :=
  if path.toList.contains '\x00' then .error .zeroInPath
  else if path.isEmpty then .error .notFound
  else if pathLimit ≤ path.utf8ByteSize then .error .nameTooLong
  else
    let route := Route.ofPath path
    walk s creating maxLinks (s.startOf route) route.names route.slashed

/-! ### Files -/

/-- Opens a file for reading and writing, which makes an empty one where there is none. -/
def openFile (s : Store) (path : String) : Except FileError (Place × Store) :=
  match s.resolve path true with
  | .error e => .error e
  | .ok (place, some (.file _)) => .ok (place, s)
  | .ok (place, none) => .ok (place, s.put place (.file .empty))
  | .ok (_, some _) => .error .isDirectory

/-- The content of the file at a place; none counts as an empty one. -/
def content (s : Store) (place : Place) : File :=
  match s.node? place with
  | some (.file f) => f
  | _ => .empty

/-- Changes the file at a place. -/
def modify (s : Store) (place : Place) (change : File → File) : Store :=
  s.put place (.file (change (s.content place)))

/-- The length of an open file. -/
def sizeAt (s : Store) (place : Place) : Except FileError Nat :=
  match (s.refusals place).measure with
  | some e => .error e
  | none => .ok (s.content place).size

/-- Cuts an open file, or grows it with zeros. -/
def resizeAt (s : Store) (place : Place) (size : Nat) : Except FileError Store :=
  match (s.refusals place).resize with
  | some e => .error e
  | none => .ok (s.modify place (·.resize size))

/-- Writes a whole file, which is made where there is none and emptied where there is one. -/
def save (s : Store) (path : String) (bytes : List UInt8) : Except FileError Store :=
  match s.openFile path with
  | .error e => .error e
  | .ok (place, s) => .ok (s.put place (.file (.ofBytes bytes)))

/-- What a path leads to, when it is opened for reading. -/
def lookup (s : Store) (path : String) : Except FileError (Place × Node) :=
  match s.resolve path false with
  | .error e => .error e
  | .ok (_, none) => .error .notFound
  | .ok (place, some node) => .ok (place, node)

/-- The content of a file that can be read. -/
def file? (s : Store) (path : String) : Option File :=
  match s.lookup path with
  | .ok (_, .file f) => some f
  | _ => none

/-- Cuts a file, or grows it with zeros; where there is none nothing happens. -/
def resizeFile (s : Store) (path : String) (size : Nat) : Store :=
  match s.lookup path with
  | .ok (place, .file f) => s.put place (.file (f.resize size))
  | _ => s

/-! ### Making files -/

/-- The directory that names lead to from `here`. Those that are missing are made; links on the way are
followed, but none is made good that leads nowhere. -/
def makeDirectories (s : Store) (here : Place) : List String → Except FileError (Place × Store)
  | [] => .ok (here, s)
  | name :: more =>
    match s.walk false maxLinks here [name] true with
    | .error e => .error e
    | .ok (place, some _) => s.makeDirectories place more
    | .ok (place, none) =>
      if place = here ++ [name] then (s.put place .directory).makeDirectories place more
      else .error .alreadyExists

/-- The directory that the last name of a path stands in; directories that are missing are made. -/
def makeParent (s : Store) (path : String) : Except FileError (Place × Store) :=
  let route := Route.ofPath path
  s.makeDirectories (s.startOf route) route.names.dropLast

/-- Puts a file at a path, with the directories that lead there. A link at the path is followed, and
the file it leads to is replaced. -/
def makeFile (s : Store) (path : String) (file : File) : Except FileError Store :=
  match s.makeParent path with
  | .error e => .error e
  | .ok (_, s) =>
    match s.openFile path with
    | .error e => .error e
    | .ok (place, s) => .ok (s.put place (.file file))

end Store

end DiskArray
