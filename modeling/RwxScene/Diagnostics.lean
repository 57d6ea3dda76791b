/-!
# Diagnostics

Nothing that a scene text says is an error. What could not be used is passed over or mended, and
counted here.
-/

namespace RwxScene

/-- What was passed over or mended while a scene was loaded. -/
structure Diagnostics where
  /-- Lines read. -/
  lines : Nat
  /-- Lines that are no command. -/
  ignoredLines : Nat
  /-- Faces with a corner that is no vertex. -/
  outOfRangeFaces : Nat
  /-- Triangles without a normal. -/
  degenerateTriangles : Nat
  /-- Entries of matrices set to zero or one. -/
  sanitizedMatrixComponents : Nat
  /-- Matrices of clumps that no placement has. -/
  repairedMatrices : Nat
  /-- Ends of scopes that were not open. -/
  unmatchedScopeEnds : Nat
  /-- Clumps open at the end of the text. -/
  autoClosedClumps : Nat
  /-- Batches with vertices of their own for each triangle. -/
  duplicatedBatches : Nat
deriving DecidableEq

namespace Diagnostics

/-- Nothing has happened yet. -/
def none : Diagnostics := ⟨0, 0, 0, 0, 0, 0, 0, 0, 0⟩

/-- Nothing was passed over or mended. Lines are not a fault, and neither are split batches. -/
def isClean (d : Diagnostics) : Bool :=
  d == { none with lines := d.lines, duplicatedBatches := d.duplicatedBatches }

/-- The counts in one line. -/
def summary (d : Diagnostics) : String :=
  toString d.lines ++ " lines, " ++ toString d.ignoredLines ++ " ignored, " ++
    toString d.outOfRangeFaces ++ " bad faces, " ++
    toString d.degenerateTriangles ++ " degenerate triangles, " ++
    toString d.sanitizedMatrixComponents ++ " sanitized matrix values, " ++
    toString d.repairedMatrices ++ " repaired matrices, " ++
    toString d.unmatchedScopeEnds ++ " unmatched ends, " ++
    toString d.autoClosedClumps ++ " auto-closed clumps"

end Diagnostics

end RwxScene
