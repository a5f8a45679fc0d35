import ShiftMesh.Mesh.Header

/-!
# ShiftMesh.Mesh.Schema — the correction columns of the vertices

* `VertexSchema.ofColumns`: which of the five known columns a list of names holds.
* `VertexSchema.validate`: the vertical encoding of a mesh with these columns, pairs before offsets;
  a fault if the header requires a column that is not there.
* `valueColumns`: the columns of the declared components, in the order of storage.
-/

namespace ShiftMesh

/-- The correction columns found among the vertices. -/
structure VertexSchema where
  sourceZ : Bool := false
  targetX : Bool := false
  targetY : Bool := false
  targetZ : Bool := false
  offsetZ : Bool := false
  deriving Repr, BEq, DecidableEq, Inhabited

namespace VertexSchema

/-- The known columns among the given names. -/
def ofColumns (names : List String) : VertexSchema where
  sourceZ := names.contains "source_z"
  targetX := names.contains "target_x"
  targetY := names.contains "target_y"
  targetZ := names.contains "target_z"
  offsetZ := names.contains "offset_z"

/-- Checks the columns against the header and picks the vertical encoding. -/
def validate (s : VertexSchema) (h : Header) : Except SchemaFault (Option VerticalEncoding) :=
  if h.horizontal && !s.targetX then .error (.missingTarget "target_x")
  else if h.horizontal && !s.targetY then .error (.missingTarget "target_y")
  else if !h.vertical then .ok none
  else if s.sourceZ && s.targetZ then .ok (some .paired)
  else if s.offsetZ then .ok (some .offset)
  else .error .missingHeights

end VertexSchema

/-- The columns of the declared components. -/
def valueColumns (horizontal : Bool) (vertical : Option VerticalEncoding) : List String :=
  (if horizontal then ["target_x", "target_y"] else []) ++
    match vertical with
    | some .paired => ["source_z", "target_z"]
    | some .offset => ["offset_z"]
    | none => []

end ShiftMesh
