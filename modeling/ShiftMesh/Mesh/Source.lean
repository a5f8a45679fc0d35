import ShiftMesh.Mesh.Metadata
import ShiftMesh.PointBlob

/-!
# ShiftMesh.Mesh.Source — triangles as they are stored, and the streams that deliver them

* `VerticalValues`: the height corrections at the corners; `VerticalValues.offsets` are the signed
  ones.
* `StoredPoint`: a stored form of points with its reading, which may fail.
* `TriangleRow`: one stored triangle; `TriangleRow.vertices` and `TriangleRow.corrections` are the
  corners that a search tests and the values that it attaches, for the side that is searched.
* `RowStream`: the rows of one query with the failures that may end it; `RowStream.scan` feeds them
  to a reader that can stop early, and counts the rows it has read.
* `TriangleSource`: the metadata of a mesh and the stream for each window; `TriangleSource.ofRows`
  streams the rows of a list whose boxes meet the window.
-/

namespace ShiftMesh

/-- The height corrections at the three corners. -/
inductive VerticalValues (α : Type) where
  /-- The signed corrections. -/
  | offset (values : Corners α)
  /-- The heights before and after the correction. -/
  | paired (source target : Corners α)
  deriving Repr, BEq, DecidableEq

/-- The signed correction at each corner. -/
def VerticalValues.offsets {α : Type} [Scalar α] : VerticalValues α → Corners α
  | offset values => values
  | paired source target => target.zip (· - ·) source

/-- A stored form `β` of points over `α`. -/
class StoredPoint (β : Type) (α : outParam Type) where
  /-- Reads a stored point. -/
  decode : β → Except DecodeError (Point α)

/-- Containers store points as blobs. -/
instance : StoredPoint Blob Float := ⟨PointBlob.decode PointBlob.stored⟩

/-- One stored triangle. -/
structure TriangleRow (β α : Type) where
  /-- The stored source positions of the corners. -/
  geometry : Corners β
  /-- The target positions, if the mesh corrects positions. -/
  target : Option (Triangle α)
  /-- The height corrections, if the mesh corrects heights. -/
  vertical : Option (VerticalValues α)
  deriving Repr

/-- The corrections of a triangle: the positions that a lookup answers with, and the height
corrections. -/
structure CorrectionSet (α : Type) where
  horizontal : Option (Triangle α)
  vertical : Option (VerticalValues α)
  deriving Repr, BEq, DecidableEq

namespace TriangleRow

variable {β α : Type} [StoredPoint β α]

/-- The source corners of a row. -/
def triangle (r : TriangleRow β α) : Except DecodeError (Triangle α) :=
  r.geometry.mapM? StoredPoint.decode

/-- The corners that a search on a side tests: the target corners if they are wanted and present,
and the source corners otherwise. -/
def vertices (r : TriangleRow β α) (side : Side) : Except DecodeError (Triangle α) :=
  match side, r.target with
  | .target, some t => .ok t
  | _, _ => r.triangle

/-- The corrections that a search on a side attaches: it answers with the corners of the
other side. -/
def corrections (r : TriangleRow β α) (side : Side) : Except DecodeError (CorrectionSet α) :=
  match side, r.target with
  | .target, some _ => r.triangle.map fun t => ⟨some t, r.vertical⟩
  | _, target => .ok ⟨target, r.vertical⟩

end TriangleRow

/-- What a reader asks for after a row. -/
inductive Signal (σ : Type) where
  /-- The next row. -/
  | more (state : σ)
  /-- No further row. -/
  | stop (state : σ)

/-- How reading a list of rows ends. -/
inductive Ending (σ : Type) where
  /-- The rows ran out. -/
  | exhausted (state : σ)
  /-- The reader stopped. -/
  | stopped (state : σ)
  /-- The reader failed. -/
  | failed (error : MeshError)

/-- Feeds rows to a reader until it stops or fails; also counts the rows it has read. -/
def readRows {σ ρ : Type} (step : σ → ρ → Except MeshError (Signal σ)) (state : σ) :
    List ρ → Nat × Ending σ
  | [] => (0, .exhausted state)
  | r :: rest =>
    match step state r with
    | .error e => (1, .failed e)
    | .ok (.stop next) => (1, .stopped next)
    | .ok (.more next) =>
      let (n, ending) := readRows step next rest
      (n + 1, ending)

/-- The rows of one query and how the query can fail. -/
structure RowStream (β α : Type) where
  rows : List (TriangleRow β α)
  /-- The failure met after the last row. -/
  failure : Option MeshError := none
  /-- The failure met by a reader that stops after so many rows. -/
  stopFailure : Nat → Option MeshError := fun _ => none

namespace RowStream

variable {β α σ : Type}

/-- Streams results in order; the first failure ends the stream. -/
def ofResults : List (Except MeshError (TriangleRow β α)) → RowStream β α
  | [] => { rows := [] }
  | .error e :: _ => { rows := [], failure := some e }
  | .ok r :: rest => { ofResults rest with rows := r :: (ofResults rest).rows }

/-- A state, unless a failure is met. -/
def settle (state : σ) : Option MeshError → Except MeshError σ
  | none => .ok state
  | some e => .error e

/-- Feeds a stream to a reader; answers with the rows it has read and with its last state, or with
the failure of the reader or of the stream. -/
def scan (s : RowStream β α) (step : σ → TriangleRow β α → Except MeshError (Signal σ))
    (state : σ) : Nat × Except MeshError σ :=
  match readRows step state s.rows with
  | (n, .exhausted final) => (n, settle final s.failure)
  | (n, .stopped final) => (n, settle final (s.stopFailure n))
  | (n, .failed e) => (n, .error e)

end RowStream

/-- A mesh whose triangles can be queried by window. -/
structure TriangleSource (β α : Type) where
  metadata : MeshMetadata α
  /-- The rows whose boxes meet a window. -/
  query : Window α → RowStream β α

/-! ## Sources in memory -/

section

variable {β α : Type} [Scalar α] [StoredPoint β α]

/-- Whether a row is streamed for a window: its source box meets the window, or its corners cannot
be read. -/
def TriangleRow.meets (w : Window α) (r : TriangleRow β α) : Bool :=
  match r.triangle with
  | .error _ => true
  | .ok v => w.meetsTriangle v

/-- The rows of a list that meet the window, in order. -/
def TriangleSource.ofRows (metadata : MeshMetadata α) (rows : List (TriangleRow β α)) :
    TriangleSource β α where
  metadata
  query w := { rows := rows.filter (TriangleRow.meets w) }

/-- The rows of a list, for every window. -/
def TriangleSource.ofAllRows (metadata : MeshMetadata α) (rows : List (TriangleRow β α)) :
    TriangleSource β α where
  metadata
  query _ := { rows }

end

end ShiftMesh
