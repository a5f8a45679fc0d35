import ShiftMesh.Container.Address
import ShiftMesh.Container.Author
import ShiftMesh.Container.Path
import ShiftMesh.Container.Store

/-!
# ShiftMesh.Container.Disk — files by place, and writing containers to them

A path is followed in two ways.  A file is read or removed at the place that is reached by going
from directory to directory, so everything on the way must be there.  A database is opened at the
place that the words of its path name, so a missing directory does no harm if two dots take it back.

* `Disk`: what stands at each place.
* `Disk.walk`, `Disk.resolve`: from directory to directory.
* `Disk.databasePlace`: by the words of the path.
* `Disk.readText`: the text of a file.
* `Disk.write`: writes the container of a draft, in three steps that each may fail: the draft is
  validated, the file at the path is removed, the container is created.
-/

namespace ShiftMesh.Container

/-- What stands at each place. -/
structure Disk where
  files : List (Place × Content) := []
  /-- The directories beside those that are always there. -/
  directories : List Place := []
  /-- The names that lead from the root to the working directory. -/
  working : List String := []
  deriving Repr, Inhabited

namespace Disk

/-- The greatest number of bytes in a name. -/
def nameLimit : Nat := 255

/-- The greatest number of bytes in a path. -/
def pathLimit : Nat := 4095

/-- Whether a directory stands at a place.  One stands wherever places are named from, and all the
way from the root to the working directory. -/
def isDirectory (d : Disk) (place : Place) : Bool :=
  place.names.isEmpty || d.directories.contains place ||
    (place.anchor = .root && place.names.isPrefixOf d.working)

/-- The file at a place. -/
def at? (d : Disk) (place : Place) : Option Content :=
  (d.files.find? fun f => f.1 = place).map (·.2)

/-- Puts a file in the place of the one that stands there. -/
def put (d : Disk) (place : Place) (content : Content) : Disk :=
  { d with files := (place, content) :: d.files.filter fun f => f.1 ≠ place }

/-- The disk without the file at a place. -/
def clear (d : Disk) (place : Place) : Disk :=
  { d with files := d.files.filter fun f => f.1 ≠ place }

/-! ## From directory to directory -/

/-- Follows the parts of a path from a place on.  Each part needs a directory to be looked up in;
nothing need stand at the place that the last one names. -/
def walk (d : Disk) (here : Place) : List String → Except IoFault Place
  | [] => .ok here
  | part :: rest =>
    if (d.at? here).isSome then .error .notADirectory
    else if !d.isDirectory here then .error .notFound
    else if nameLimit < part.utf8ByteSize then .error .nameTooLong
    else d.walk (here.enter part) rest

/-- The place that a path leads to; the empty path leads nowhere. -/
def resolve (d : Disk) (path : String) : Except IoFault Place :=
  let p := Path.ofString path
  if p.parts.isEmpty then .error .notFound
  else if pathLimit < path.utf8ByteSize then .error .nameTooLong
  else d.walk p.start p.parts

/-- The file that a path leads to. -/
def file? (d : Disk) (path : String) : Option Content := (d.resolve path).toOption.bind d.at?

/-- Whether a path leads to something that is there. -/
def leadsSomewhere (d : Disk) (path : String) : Bool :=
  (d.resolve path).toOption.any fun place => d.isDirectory place || (d.at? place).isSome

/-- The text of a file. -/
def readText (d : Disk) (path : String) : Except IoFault String :=
  (d.resolve path).bind fun place =>
    if d.isDirectory place then .error .isADirectory
    else
      match d.at? place with
      | none => .error .notFound
      | some (.text s) => .ok s
      | some _ => .error .notText

/-- Removes the file that a path leads to, if there is one. -/
def remove (d : Disk) (path : String) : Except IoFault Disk :=
  match d.resolve path with
  | .error .notFound => .ok d
  | .error e => .error e
  | .ok place => if d.isDirectory place then .error .isADirectory else .ok (d.clear place)

/-! ## Databases -/

/-- What the name of the journal beside a database adds to that of the database. -/
def journalEnding : String := "-journal"

/-- The greatest number of bytes in the path from the root to a journal. -/
def databasePathLimit : Nat := 512

/-- The names that lead to a place from the root. -/
def namesFromRoot (d : Disk) (place : Place) : List String :=
  match place.anchor with
  | .root => place.names
  | .working levels => d.working.take (d.working.length - levels) ++ place.names

/-- The number of bytes in the path from the root to a place. -/
def pathSize (d : Disk) (place : Place) : Nat :=
  (d.namesFromRoot place).foldl (fun size name => size + (name.utf8ByteSize + 1)) 0

/-- Whether a path comes through these places without a name below a file, without a name that is
too long for the directory that it is looked up in, and without a place too far from the root. -/
def isPassable (d : Disk) (stops : List Place) : Bool :=
  stops.all fun place =>
    decide (d.pathSize place < databasePathLimit) &&
      (place.names.isEmpty ||
        (d.at? place.parent).isNone &&
          (place.name.utf8ByteSize ≤ nameLimit || !d.isDirectory place.parent))

/-- The place of the file of a database.  Its directory must be there, and it must have room for a
journal beside it. -/
def databasePlace (d : Disk) (path : String) : Except StorageFault Place :=
  let p := Path.ofString path
  let place := p.place
  if d.isPassable p.stops && d.isDirectory place.parent && !d.isDirectory place &&
      (place.name ++ journalEnding).utf8ByteSize ≤ nameLimit &&
      d.pathSize place + journalEnding.utf8ByteSize ≤ databasePathLimit then
    .ok place
  else .error (.cannotOpen path)

/-- Puts the tables of a container into the database at an address, which must have none so far.
A database that is kept nowhere leaves the disk as it is. -/
def create (d : Disk) (text : String) (db : Database) : Except StorageFault Disk := do
  let address ← Address.ofString text
  match address.backing with
  | .transient => if address.readOnly then .error .readOnly else .ok d
  | .file path =>
    let place ← d.databasePlace path
    let found ← match d.at? place with
      | some content => content.database?
      | none =>
        if address.creates && address.permissionsOf.all d.leadsSomewhere then .ok {}
        else .error (.cannotOpen path)
    if address.readOnly then .error .readOnly
    else if found ≠ {} then .error (.cannotOpen path)
    else .ok (d.put place (.database db))

/-- Writes the container of a draft to a path, and answers with the disk afterwards: a draft with an
inconsistency touches nothing; otherwise the file at the path is removed and the container is
created. -/
def write (d : Disk) (path : String) (draft : MeshDraft) : Except MeshError Unit × Disk :=
  match draft.author with
  | .error e => (.error e, d)
  | .ok db =>
    match d.remove path with
    | .error e => (.error (.io e), d)
    | .ok cleared =>
      match cleared.create path db with
      | .error e => (.error (.storage e), cleared)
      | .ok written => (.ok (), written)

end Disk

end ShiftMesh.Container
