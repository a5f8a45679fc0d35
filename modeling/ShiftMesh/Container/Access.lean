import ShiftMesh.Container.Disk

/-!
# ShiftMesh.Container.Access — reaching a container by its location

A location is tried as a local file, then as an embedded resource, then over the network.  Each path
opens the container, or declines with a reason and leaves the location to the next one; once a path
has opened it, its content decides.

* `OpenOptions`: the registered resources, the network switch and its timeout, also as environment
  variables give them.
* `Attempt`, `AccessPath.attempt`: what each path makes of a location.
* `openMesh`: the mesh at a location.
-/

namespace ShiftMesh.Container

/-! ## Options -/

/-- How containers are located and opened. -/
structure OpenOptions where
  /-- The registered containers by name. -/
  resources : List (String × Content) := []
  /-- Whether locations may be fetched over the network. -/
  network : Bool := false
  /-- The time allowed for a fetch, in nanoseconds. -/
  timeout : Nat := 30 * 1000000000
  deriving Repr, Inhabited

namespace OpenOptions

/-- The variable of the network switch. -/
def networkVariable : String := "TINSHIFT_NETWORK"

/-- The variable of the network timeout in seconds. -/
def timeoutVariable : String := "TINSHIFT_NETWORK_TIMEOUT"

/-- Whether a switch is on. -/
def isOn (value : String) : Bool :=
  let word := (Text.trim value.toList).map Char.toUpper
  [['O', 'N'], ['1'], ['Y', 'E', 'S'], ['T', 'R', 'U', 'E']].contains word

/-- An unsigned 64-bit number: digits with an optional plus sign. -/
def count? (cs : List Char) : Option Nat :=
  let digits := match cs with
    | '+' :: rest => rest
    | _ => cs
  if digits.isEmpty || digits.any (!·.isDigit) then none
  else
    let n := Decimal.ofDigits digits
    if n < Nat.pow 2 64 then some n else none

/-- The options that environment variables give. -/
def ofEnvironment (environment : String → Option String) : OpenOptions where
  network := ((environment networkVariable).map isOn).getD false
  timeout :=
    (((environment timeoutVariable).bind fun v => count? (Text.trim v.toList)).getD 30) * 1000000000

/-- The registered container of a name. -/
def resource? (o : OpenOptions) (name : String) : Option Content :=
  (o.resources.find? fun r => r.1 = name).map (·.2)

end OpenOptions

/-! ## Access paths -/

/-- The ways to reach a location. -/
inductive AccessPath where
  | localFile
  | embedded
  | network
  deriving Repr, BEq, DecidableEq, Inhabited

namespace AccessPath

/-- The ways in the order in which they are tried. -/
def order : List AccessPath := [localFile, embedded, network]

/-- The name of a way. -/
def name : AccessPath → String
  | localFile => "local"
  | embedded => "embedded"
  | network => "network"

/-- The name of a way as a title. -/
def title : AccessPath → String
  | localFile => "Local"
  | embedded => "Embedded"
  | network => "Network"

end AccessPath

/-- What a way makes of a location. -/
inductive Attempt where
  /-- The container is reached. -/
  | opened (content : Content)
  /-- The location is left to the next way. -/
  | declined (reason : String)
  /-- The location belongs to this way, and it fails. -/
  | failed (reason : String)

/-- Whether a location is an address of the web. -/
def isWebAddress (location : String) : Bool :=
  "http://".toList.isPrefixOf location.toList || "https://".toList.isPrefixOf location.toList

/-- What a way makes of a location. -/
def AccessPath.attempt (disk : Disk) (options : OpenOptions) (location : String) :
    AccessPath → Attempt
  | localFile =>
    if isWebAddress location then .declined "not a filesystem path"
    else
      match disk.file? location with
      | none => .declined "no such file"
      | some content => .opened content
  | embedded =>
    match options.resource? location with
    | none => .declined "no such resource"
    | some content => .opened content
  | network =>
    if !isWebAddress location then .declined "not a URL"
    else if !options.network then .declined "network access disabled"
    else .failed "no network"

/-- The first way that reaches a location, with what it reaches; `reasons` are those of the ways
tried before. -/
def reach (disk : Disk) (options : OpenOptions) (location : String) :
    (reasons : List String) → List AccessPath → Except MeshError (AccessPath × Content)
  | reasons, [] => .error (.unreachable location ("; ".intercalate reasons))
  | reasons, way :: rest =>
    match way.attempt disk options location with
    | .opened content => .ok (way, content)
    | .declined reason => reach disk options location (reasons ++ [way.name ++ ": " ++ reason]) rest
    | .failed reason => .error (.unreachable location reason)

/-- A mesh reached by its location. -/
structure OpenMesh where
  access : AccessPath
  content : Content
  store : MeshStore
  deriving Repr

namespace OpenMesh

/-- The triangles of the mesh, as its content was when it was opened. -/
def source (m : OpenMesh) : TriangleSource Blob Float := m.store.source m.content

end OpenMesh

/-- Opens the mesh at a location. -/
def openMesh (disk : Disk) (options : OpenOptions) (location : String) :
    Except MeshError OpenMesh :=
  match reach disk options location [] AccessPath.order with
  | .error e => .error e
  | .ok (access, content) => (MeshStore.ofContent content).map fun store => ⟨access, content, store⟩

end ShiftMesh.Container
