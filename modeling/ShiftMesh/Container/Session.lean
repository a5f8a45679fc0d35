import ShiftMesh.Container.Access
import ShiftMesh.Mesh.Evaluator

/-!
# ShiftMesh.Container.Session — a disk, and the mesh that is open on it

An open mesh keeps the metadata it was opened with.  Its triangles are read from the container as it
is at the time of a query, so a change of the container shows; a container that takes the place of
the one that was opened does not.

* `Handle`: an open mesh with the file that it follows and its cached triangle.
* `Session.write`, `Session.overwrite`, `Session.change`: the three ways to change a file: replace
  it, overwrite it in place, change its tables.
* `Session.attach`: takes over the result of opening a mesh; the mesh that was open before is
  closed.
* `Session.find`, `Session.transform`: lookups by the open mesh.
-/

namespace ShiftMesh.Container

/-- An open mesh. -/
structure Handle where
  mesh : OpenMesh
  /-- The file that is read at each query; without one, the content found at opening is read. -/
  follows : Option Place
  /-- The triangle kept for the next lookup. -/
  cache : Option (CachedTriangle Float) := none

namespace Handle

/-- The handle of a mesh that was opened at a location; only a local file is followed. -/
def ofMesh (location : String) (mesh : OpenMesh) : Handle where
  mesh
  follows := if mesh.access = .localFile then some (Path.ofString location).place else none

/-- What the handle reads. -/
def content (h : Handle) (d : Disk) : Content :=
  match h.follows with
  | none => h.mesh.content
  | some place => (d.at? place).getD h.mesh.content

/-- The triangles that the handle reads. -/
def source (h : Handle) (d : Disk) : TriangleSource Blob Float := h.mesh.store.source (h.content d)

/-- The handle after its file is removed from the disk: it keeps the file as it was. -/
def keep (h : Handle) (before : Disk) (removed : Place) : Handle :=
  if h.follows = some removed then
    { h with follows := none, mesh := { h.mesh with content := h.content before } }
  else h

end Handle

/-- A disk, and the mesh that is open on it. -/
structure Session where
  disk : Disk := {}
  handle : Option Handle := none

namespace Session

/-! ## Files -/

/-- Replaces the file at a path by the container of a draft. -/
def write (s : Session) (path : String) (draft : MeshDraft) : Except MeshError Unit × Session :=
  match s.disk.write path draft with
  | (.error e, disk) => (.error e, { s with disk })
  | (.ok (), disk) =>
    let removed := (Path.ofString path).place
    (.ok (), { disk, handle := s.handle.map fun h => h.keep s.disk removed })

/-- Overwrites the file at a path with bytes. -/
def overwrite (s : Session) (path : String) (b : Blob) : Session :=
  { s with disk := s.disk.put (Path.ofString path).place (.bytes b) }

/-- The database in the file at a path, if there is a file. -/
def database? (s : Session) (path : String) : Option (Except StorageFault Database) :=
  (s.disk.file? path).map Content.database?

/-- Changes the tables of the container at a path; nothing if there is no file. -/
def change (s : Session) (path : String) (f : Database → Except StorageFault Database) :
    Option (Except StorageFault Session) :=
  (s.database? path).map fun found => do
    let changed ← f (← found)
    pure { s with disk := s.disk.put (Path.ofString path).place (.database changed) }

/-! ## The open mesh -/

/-- Takes over the result of opening a mesh at a location. -/
def attach (s : Session) (location : String) (result : Except MeshError OpenMesh) : Session :=
  { s with handle := result.toOption.map (Handle.ofMesh location) }

/-- The triangles of the open mesh. -/
def source? (s : Session) : Option (TriangleSource Blob Float) :=
  s.handle.map fun h => h.source s.disk

/-- Puts the cached triangle of the open mesh. -/
def keepCache (s : Session) (cache : Option (CachedTriangle Float)) : Session :=
  { s with handle := s.handle.map fun h => { h with cache } }

/-- The cached triangle of the open mesh. -/
def cache (s : Session) : Option (CachedTriangle Float) := s.handle.bind (·.cache)

/-- Looks up a point by the open mesh; nothing if no mesh is open. -/
def find (s : Session) (p : Point Float) (d : Direction) :
    Option (Except MeshError (Option (TriangleMatch Float)) × Session) :=
  s.source?.map fun source =>
    let lookup := source.find s.cache p d
    (lookup.answer, s.keepCache lookup.cache)

/-- Corrects a coordinate by the open mesh; nothing if no mesh is open. -/
def transform (s : Session) (d : Direction) (c : Coordinate Float) :
    Option (Except MeshError (Option (Coordinate Float)) × Session) :=
  s.source?.map fun source =>
    let evaluation := source.transform s.cache d c
    (evaluation.answer, s.keepCache evaluation.cache)

end Session

end ShiftMesh.Container
