import RaidTimeline.Source
import RaidTimeline.Text.Quoted
import RaidTimeline.Text.Utf8

/-!
# Stored files

A store gives the contents of files by their paths.  Texts are stored as UTF-8, with any kind of
line ends and perhaps with a byte order mark.

Main results:

- Definition {lit}`Store`: directories and files by name.
- Definition {lit}`Store.readText`: the text of a file, or why there is none.
- Definition {lit}`StorageFault.message`: the words for a failure.
-/

namespace RaidTimeline

/-- What is stored under a name. -/
inductive Stored where
  | file (octets : List UInt8)
  | directory
deriving DecidableEq

/-- What is stored, by path. -/
abbrev Store := List (Text × Stored)

/-- Why a text cannot be read or written. -/
inductive StorageFault where
  | notFound (path : Text)
  | isDirectory (path : Text)
  | notDirectory (path : Text)
  | undecodable (fault : Utf8Fault)
deriving DecidableEq

/-- The words for a failure. -/
def StorageFault.message : StorageFault → Text
  | .notFound path => "[Errno 2] No such file or directory: ".toList ++ Text.quoted path
  | .isDirectory path => "[Errno 21] Is a directory: ".toList ++ Text.quoted path
  | .notDirectory path => "[Errno 20] Not a directory: ".toList ++ Text.quoted path
  | .undecodable fault => fault.message

namespace Store

/-- Whether a path leads to a directory by its spelling alone. -/
def endsInSlash (path : Text) : Bool := path.getLast? == some '/'

/-- The names along a path.  An absolute path begins with a slash; empty names and the name of
the same directory lead nowhere. -/
def names (path : Text) : List Text :=
  (if path.head? = some '/' then [['/']] else [])
    ++ (Text.splitOn '/' path).filter fun name => !name.isEmpty && name != ['.']

/-- Whether names lead to the directory where paths begin. -/
def isRoot (path : List Text) : Bool := path.isEmpty || path == [['/']]

/-- What is stored under some names. -/
def entry? (store : Store) (path : List Text) : Option Stored :=
  (store.find? (names ·.1 == path)).map (·.2)

/-- Whether a file is stored under some names. -/
def isFile (store : Store) (path : List Text) : Bool :=
  match store.entry? path with
  | some (.file _) => true
  | _ => false

/-- Whether some names lead to a directory. -/
def isDirectory (store : Store) (path : List Text) : Bool :=
  isRoot path || store.entry? path == some .directory

/-- The entry of a store that a path leads to, or why it leads nowhere. -/
def resolve (store : Store) (path : Text) : Except StorageFault Stored :=
  let along := names path
  if path.isEmpty then .error (.notFound path)
  else if isRoot along then .ok .directory
  else
    match store.entry? along with
    | some (.file octets) =>
        if endsInSlash path then .error (.notDirectory path) else .ok (.file octets)
    | some .directory => .ok .directory
    | none =>
        if (List.range along.length).any fun n => store.isFile (along.take n) then
          .error (.notDirectory path)
        else .error (.notFound path)

/-- The octets of a file. -/
def readOctets (store : Store) (path : Text) : Except StorageFault (List UInt8) :=
  match store.resolve path with
  | .error fault => .error fault
  | .ok .directory => .error (.isDirectory path)
  | .ok (.file octets) => .ok octets

/-- The octets of the byte order mark. -/
def markOctets : List UInt8 := [0xEF, 0xBB, 0xBF]

/-- The octets of a text file behind its byte order mark.  A file that is nothing but the
beginning of a mark is empty. -/
def dropMark (octets : List UInt8) : List UInt8 :=
  if markOctets.isPrefixOf octets then octets.drop 3
  else if octets.isPrefixOf markOctets then []
  else octets

/-- The text of some octets, without byte order mark and with line feeds only. -/
def decodeText (octets : List UInt8) : Except StorageFault Text :=
  match Text.decode (dropMark octets) with
  | .ok t => .ok (Text.foldLineEnds t)
  | .error fault => .error (.undecodable fault)

/-- The text of a file, without byte order mark and with line feeds only. -/
def readText (store : Store) (path : Text) : Except StorageFault Text :=
  (store.readOctets path).bind decodeText

/-- Stores a text under a path, replacing what was there. -/
def writeText (store : Store) (path : Text) (text : Text) : Except StorageFault Store :=
  let along := names path
  let replaced : Store :=
    store.filter (names ·.1 != along) ++ [(path, .file (Text.encode text))]
  match store.resolve path with
  | .ok .directory => .error (.isDirectory path)
  | .ok (.file _) => .ok replaced
  | .error (.notFound _) =>
      if path.isEmpty || !store.isDirectory along.dropLast then .error (.notFound path)
      else if endsInSlash path then .error (.isDirectory path)
      else .ok replaced
  | .error fault => .error fault

end Store

end RaidTimeline
