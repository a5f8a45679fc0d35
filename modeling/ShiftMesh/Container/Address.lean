import ShiftMesh.Error
import ShiftMesh.Json.Token
import ShiftMesh.Text.Blank

/-!
# ShiftMesh.Container.Address — how the database of a container is addressed

A text that begins with `file:` is a URI: an authority, which must be empty or the local host, a
path, parameters after a question mark, and a fragment, which is ignored.  Any other text is a path.

* `Address`: where the bytes go, and what may be done with them.
* `unescape`: the bytes of a text with percent escapes; an escaped null ends the text.
* `parameters`: the named values after the question mark, in order, without those whose name is
  empty.
* `Opening`: the choices that parameters make, one after the other; an access mode may only narrow
  the one before.
* `Address.ofString`: the address of a text.
-/

namespace ShiftMesh.Container

/-- Where the bytes of a database go. -/
inductive Backing where
  /-- They are lost when the database is closed. -/
  | transient
  /-- They stand in a file. -/
  | file (path : String)
  deriving Repr, BEq, DecidableEq, Inhabited

/-- How a database is addressed. -/
structure Address where
  backing : Backing
  readOnly : Bool := false
  /-- Whether a file that is missing is created. -/
  creates : Bool := true
  /-- A file whose permissions a created one takes over. -/
  permissionsOf : Option String := none
  deriving Repr, BEq, DecidableEq, Inhabited

namespace Address

/-- The path of a database that is kept in memory. -/
def memoryPath : String := ":memory:"

/-! ## Escapes and parameters -/

/-- The bytes of a character. -/
def bytesOf (c : Char) : List UInt8 := (String.singleton c).toUTF8.toList

/-- The bytes of a text with percent escapes; an escaped null ends the text. -/
def unescape : List Char → List UInt8
  | [] => []
  | '%' :: a :: b :: rest =>
    match Json.hexDigit? a, Json.hexDigit? b with
    | some high, some low =>
      if high = 0 ∧ low = 0 then [] else UInt8.ofNat (16 * high + low) :: unescape rest
    | _, _ => bytesOf '%' ++ unescape (a :: b :: rest)
  | c :: rest => bytesOf c ++ unescape rest

/-- Bytes as text; if they are no text, each stands for the character of its number. -/
def textOf (bytes : List UInt8) : String :=
  (String.fromUTF8? ⟨bytes.toArray⟩).getD (String.ofList (bytes.map fun b => Char.ofNat b.toNat))

/-- The text that an escaped one stands for. -/
def unescaped (cs : List Char) : String := textOf (unescape cs)

/-- A text before and after the first of a mark, without the mark. -/
def cutAt (mark : Char) (cs : List Char) : List Char × List Char :=
  (cs.takeWhile (· != mark), (cs.dropWhile (· != mark)).drop 1)

/-- The named values that stand between ampersands. -/
def parameters (query : List Char) : List (String × String) :=
  let pairs := (Text.split (· == '&') query).map fun part =>
    let (name, value) := cutAt '=' part
    (unescaped name, unescaped value)
  pairs.filter fun p => !p.1.isEmpty

/-! ## Parameters -/

/-- What a database is opened for. -/
inductive AccessMode where
  | readOnly
  | readWrite
  | create
  | memory
  deriving Repr, BEq, DecidableEq, Inhabited

namespace AccessMode

/-- The mode of a name. -/
def ofName? : String → Option AccessMode
  | "ro" => some readOnly
  | "rw" => some readWrite
  | "rwc" => some create
  | "memory" => some memory
  | _ => none

/-- How much a mode permits. -/
def rank : AccessMode → Nat
  | readOnly => 1
  | readWrite => 2
  | create => 3
  | memory => 4

/-- Whether a mode may take the place of another: it permits no more, or it is that of memory. -/
def mayFollow (next before : AccessMode) : Bool := next = memory || next.rank ≤ before.rank

end AccessMode

/-- The layers that reach files, and the one that keeps databases in memory. -/
def fileLayers : List String := ["unix", "unix-none", "unix-dotfile", "unix-excl"]

/-- The layer that keeps databases in memory. -/
def memoryLayer : String := "memdb"

/-- The choices that parameters have made. -/
structure Opening where
  mode : AccessMode := .create
  layer : String := "unix"
  deriving Repr, BEq, DecidableEq, Inhabited

/-- The choice that a parameter makes; one of another name makes none. -/
def choose (o : Opening) (parameter : String × String) : Except StorageFault Opening :=
  match parameter with
  | ("vfs", layer) => .ok { o with layer }
  | ("cache", value) =>
    if value = "shared" ∨ value = "private" then .ok o else .error (.unknownMode "cache" value)
  | ("mode", value) =>
    match AccessMode.ofName? value with
    | none => .error (.unknownMode "access" value)
    | some mode =>
      if mode.mayFollow o.mode then .ok { o with mode } else .error (.modeRefused value)
  | _ => .ok o

/-- The number that a text begins with. -/
def leadingNumber (cs : List Char) : Nat :=
  (cs.takeWhile Char.isDigit).foldl (fun n c => 10 * n + (c.toNat - '0'.toNat)) 0

/-- Whether a value turns a switch on: a word, or a number whose low byte is not zero. -/
def isOn (value : String) : Bool :=
  if value.toList.head?.any Char.isDigit then leadingNumber value.toList % 256 != 0
  else ["on", "yes", "true"].contains (String.ofList (value.toList.map Char.toLower))

/-! ## Addresses -/

/-- The address of a path with parameters.  A file that never changes is only read. -/
def ofParts (path : String) (parameters : List (String × String)) :
    Except StorageFault Address := do
  let opening ← parameters.foldlM choose {}
  let inMemory := opening.mode = .memory || path = memoryPath
  let unchanging := !inMemory && !path.isEmpty && (parameters.lookup "immutable").any isOn
  if !(memoryLayer :: fileLayers).contains opening.layer then
    .error (.unknownLayer opening.layer)
  else
    .ok
      { backing :=
          if inMemory || path.isEmpty || opening.layer = memoryLayer then .transient else .file path
        readOnly := opening.mode = .readOnly || unchanging
        creates := opening.mode = .create
        permissionsOf := parameters.lookup "modeof" }

/-- The text of a URI after its authority. -/
def withoutAuthority : List Char → Except StorageFault (List Char)
  | '/' :: '/' :: rest =>
    let authority := String.ofList (rest.takeWhile (· != '/'))
    if authority = "" ∨ authority = "localhost" then .ok (rest.dropWhile (· != '/'))
    else .error (.unknownAuthority authority)
  | cs => .ok cs

/-- How URIs begin. -/
def scheme : List Char := "file:".toList

/-- The address of a text. -/
def ofString (s : String) : Except StorageFault Address :=
  let cs := s.toList
  if !scheme.isPrefixOf cs then ofParts s []
  else
    (withoutAuthority (cs.drop scheme.length)).bind fun body =>
      let (path, query) := cutAt '?' (cutAt '#' body).1
      ofParts (unescaped path) (parameters query)

end Address

end ShiftMesh.Container
