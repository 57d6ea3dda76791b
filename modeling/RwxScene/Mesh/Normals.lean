import RwxScene.Mesh.Triangulation

/-!
# Normals

A triangle has the normal of its plane, unless it is degenerate. A vertex gathers the normals of its
triangles: if two of them are opposed, the surface folds over there; otherwise they are averaged,
each turned to the side on which the sum so far lies.
-/

namespace RwxScene.Normals

/-- The position of a vertex; there is one for every corner of a triangle. -/
def position (positions : Array Vec3) (i : Nat) : Vec3 := positions[i]?.getD .zero

/-- The unit normal of a triangle. -/
def ofCorners (epsilon : Scalar) (t : Triangle Vec3) : Option Vec3 :=
  ((t.second - t.first).cross (t.third - t.first)).normalize? epsilon

/-- The unit normal of a triangle over some positions. -/
def ofTriangle (epsilon : Scalar) (positions : Array Vec3) (t : Triangle Nat) : Option Vec3 :=
  ofCorners epsilon (t.map (position positions))

/-- The vertices of the triangles that have a normal, each with that normal. -/
def incidences (faces : List (Triangle Nat × Option Vec3)) : List (Nat × Vec3) :=
  faces.flatMap fun (t, normal) ↦
    match normal with
    | some n => t.toList.map (·, n)
    | none => []

/-- The normals that meet at each of `size` vertices, in the order of the triangles. -/
def gather (size : Nat) (incidences : List (Nat × Vec3)) : Array (List Vec3) :=
  incidences.foldr (fun (i, n) normals ↦ normals.modify i (n :: ·)) (Array.replicate size [])

/-- Two of the normals have an inner product below `threshold`. -/
def opposed (threshold : Scalar) : List Vec3 → Bool
  | [] => false
  | n :: ns => ns.any (fun m ↦ n.dot m < threshold) || opposed threshold ns

/-- The sum of normals, each turned to the side of the sum before it. -/
def alignedSum (normals : List Vec3) : Vec3 :=
  normals.foldl (fun sum n ↦ if sum.dot n < 0 then sum - n else sum + n) .zero

/-- The unit vector along the sum of normals; upward where there is none. -/
def average (epsilon : Scalar) (normals : List Vec3) : Vec3 :=
  ((alignedSum normals).normalize? epsilon).getD .up

end RwxScene.Normals
