import ShiftMesh.Error
import ShiftMesh.Plane.Window

/-!
# ShiftMesh.Mesh.Metadata — what is known about a mesh once it is open

* `FallbackStrategy`: which triangle answers for a point that no triangle contains;
  `FallbackStrategy.ofName?` and `FallbackStrategy.name` are its written form.
* `VerticalEncoding`: whether heights are stored in pairs or as offsets.
* `VertexCount`: a positive 32-bit count.
* `MeshMetadata`: components, shift range, fallback, vertex count, extent and reference systems.
* `MeshMetadata.searchedSide`: an inverse lookup on a mesh with horizontal corrections searches the
  target corners.
-/

namespace ShiftMesh

/-- Which triangle answers for a point that no triangle contains. -/
inductive FallbackStrategy where
  /-- No triangle answers. -/
  | none
  /-- The triangle with the closest edge. -/
  | nearestSide
  /-- The triangle with the closest centroid. -/
  | nearestCentroid
  deriving Repr, BEq, DecidableEq, Inhabited

namespace FallbackStrategy

/-- The written form of a strategy. -/
def name : FallbackStrategy → String
  | none => "none"
  | nearestSide => "nearest_side"
  | nearestCentroid => "nearest_centroid"

/-- Reads the written form of a strategy. -/
def ofName? (s : String) : Except MetadataFault FallbackStrategy :=
  if s = "none" then .ok none
  else if s = "nearest_side" then .ok nearestSide
  else if s = "nearest_centroid" then .ok nearestCentroid
  else .error .unknownFallback

/-- The measure by which a strategy ranks triangles. -/
def sqDistance {α : Type} [Scalar α] (s : FallbackStrategy) (p : Point α) (v : Triangle α) : α :=
  match s with
  | nearestCentroid => p.sqDistance v.centroid
  | nearestSide | none => v.sqDistanceToEdges p

end FallbackStrategy

/-- How vertical corrections are stored at a vertex. -/
inductive VerticalEncoding where
  /-- A source height and a target height; the correction is their difference. -/
  | paired
  /-- The signed correction itself. -/
  | offset
  deriving Repr, BEq, DecidableEq, Inhabited

/-- The columns that name an encoding. -/
def VerticalEncoding.name : VerticalEncoding → String
  | paired => "source_z/target_z"
  | offset => "offset_z"

/-- A positive 32-bit count of vertices. -/
structure VertexCount where
  val : Nat
  pos : 0 < val
  lt : val < Nat.pow 2 32
  deriving Repr, DecidableEq

/-- A number as a vertex count, if it is positive and fits 32 bits. -/
def VertexCount.ofInt? (n : Int) : Option VertexCount :=
  if h : 0 < n ∧ n < Nat.pow 2 32 then some ⟨n.toNat, by omega, by omega⟩ else none

/-- The two sets of corners that a triangle can have. -/
inductive Side where
  /-- The positions before the correction. -/
  | source
  /-- The positions after the correction. -/
  | target
  deriving Repr, BEq, DecidableEq, Inhabited

/-- The direction of a transformation. -/
inductive Direction where
  /-- From source coordinates to target coordinates. -/
  | forward
  /-- From target coordinates back to source coordinates. -/
  | inverse
  deriving Repr, BEq, DecidableEq, Inhabited

/-- What is known about a mesh once it is open. -/
structure MeshMetadata (α : Type) where
  /-- Whether positions are corrected. -/
  horizontal : Bool
  /-- How heights are corrected, if they are. -/
  vertical : Option VerticalEncoding
  /-- The range of the horizontal shifts. -/
  shift : ShiftRange α
  fallback : FallbackStrategy
  /-- The advertised number of vertices, which sizes the outward search. -/
  vertexCount : Option VertexCount
  /-- The extent of the source positions. -/
  extent : Extent α
  inputCrs : Option String
  outputCrs : Option String
  deriving Repr

/-- The corners that a lookup tests: those after the correction for an inverse lookup on a
horizontal mesh, and those before it otherwise. -/
def MeshMetadata.searchedSide {α : Type} (m : MeshMetadata α) (d : Direction) : Side :=
  match d, m.horizontal with
  | .inverse, true => .target
  | _, _ => .source

end ShiftMesh
