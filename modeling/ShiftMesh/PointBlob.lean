import ShiftMesh.Error
import ShiftMesh.Plane.Point

/-!
# ShiftMesh.PointBlob — the fixed-size binary form of a vertex position

A point is stored as a container header of 8 bytes, a byte-order marker, a geometry type of 4 bytes,
and two double words.

* `PointBlob.encodeWords`, `PointBlob.decodeWords`: the two words of a point against its 29 bytes,
  in either byte order.  Only the length of the bytes is checked; the first 13 are not interpreted.
* `PointBlob.encode`, `PointBlob.decode`: the same for points of doubles.
* `PointBlob.decodeTriangle`: three corners; the first corner of a wrong length decides the error.
-/

namespace ShiftMesh

/-- Stored bytes. -/
abbrev Blob := List UInt8

/-- The order in which the bytes of a word are stored. -/
inductive ByteOrder where
  | little
  | big
  deriving Repr, BEq, DecidableEq, Inhabited

namespace ByteOrder

/-- The lowest `width` bytes of a number, the lowest first. -/
def ascending : (width n : Nat) → Blob
  | 0, _ => []
  | width + 1, n => UInt8.ofNat n :: ascending width (n / 256)

/-- The number whose bytes are given, the lowest first. -/
def valueAscending : Blob → Nat
  | [] => 0
  | b :: rest => b.toNat + 256 * valueAscending rest

/-- The bytes of a word of the given width. -/
def bytes (order : ByteOrder) (width n : Nat) : Blob :=
  match order with
  | little => ascending width n
  | big => (ascending width n).reverse

/-- The number that the bytes of a word stand for. -/
def value (order : ByteOrder) (word : Blob) : Nat :=
  match order with
  | little => valueAscending word
  | big => valueAscending word.reverse

/-- The byte by which a blob announces its byte order. -/
def flag : ByteOrder → UInt8
  | little => 1
  | big => 0

end ByteOrder

namespace PointBlob

/-- The length of the container header. -/
def headerLength : Nat := 8

/-- The bytes before the coordinates: container header, byte-order marker, geometry type. -/
def prefixLength : Nat := headerLength + 1 + 4

/-- The length of a stored point. -/
def length : Nat := prefixLength + 2 * 8

/-- The geometry type of a point. -/
def geometryType : Nat := 1

/-- The bytes before the coordinates, for a reference system and a byte order. -/
def heading (order : ByteOrder) (srsId : Int32) : Blob :=
  [0x47, 0x50, 0, order.flag] ++ order.bytes 4 srsId.toUInt32.toNat ++
    [order.flag] ++ order.bytes 4 geometryType

/-- Stores the two words of a point. -/
def encodeWords (order : ByteOrder) (srsId : Int32) (p : Point UInt64) : Blob :=
  heading order srsId ++ order.bytes 8 p.x.toNat ++ order.bytes 8 p.y.toNat

/-- Reads the two words of a point; only the length of the bytes is checked. -/
def decodeWords (order : ByteOrder) (blob : Blob) : Except DecodeError (Point UInt64) :=
  if blob.length = length then
    .ok ⟨UInt64.ofNat (order.value ((blob.drop prefixLength).take 8)),
      UInt64.ofNat (order.value (blob.drop (prefixLength + 8)))⟩
  else .error ⟨length, blob.length⟩

/-- Stores a point. -/
def encode (order : ByteOrder) (srsId : Int32) (p : Point Float) : Blob :=
  encodeWords order srsId p.words

/-- Reads a point. -/
def decode (order : ByteOrder) (blob : Blob) : Except DecodeError (Point Float) :=
  (decodeWords order blob).map Point.ofWords

/-- The byte order of containers. -/
def stored : ByteOrder := .little

/-- Reads the three corners of a triangle. -/
def decodeTriangle (blobs : Corners Blob) : Except DecodeError (Triangle Float) :=
  blobs.mapM? (decode stored)

end PointBlob

end ShiftMesh
