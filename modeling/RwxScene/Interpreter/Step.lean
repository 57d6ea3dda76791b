import RwxScene.Command.Line
import RwxScene.Interpreter.State
import RwxScene.Space.Noise

/-!
# Interpretation

One command takes the state to the next; there is no command that cannot be followed. `State.finish`
ends the clumps that are still open and hands out the tree.

A batch is open as long as the faces of a clump have materials of one signature. It is waiting while
another clump is open inside, and goes on after that.
-/

namespace RwxScene

namespace State

/-! ### Geometry -/

/-- Declares a vertex. -/
def addVertex (s : State) (position : Vec3) (uv : UV) : State :=
  let position := (s.instanceTransform.map (·.transformPoint position)).getD position
  { s with level := { s.level with pool := s.level.pool.push ⟨position, uv⟩ } }

/-- Ends the open batch. A batch without triangles is dropped. -/
def flush (s : State) : State :=
  match s.level.batch with
  | none => s
  | some b =>
    let level := { s.level with batch := none }
    if b.isEmpty then { s with level }
    else
      let (batch, degenerate) := b.finish s.settings
      { s with
        level := { level with node := { level.node with batches := level.node.batches ++ [batch] } }
        diagnostics :=
          { s.diagnostics with
            degenerateTriangles := s.diagnostics.degenerateTriangles + degenerate
            duplicatedBatches :=
              s.diagnostics.duplicatedBatches + if batch.duplicated then 1 else 0 } }

/-- Ends the open batch if its signature is another one. -/
def flushUnless (s : State) (signature : Signature) : State :=
  match s.level.batch with
  | none => s
  | some b => if b.signature = signature then s else s.flush

/-- Adds triangles to the open batch, or to a new one. -/
def extend (s : State) (material : Material) (signature : Signature) (ts : List (Triangle Nat)) :
    State :=
  let batch := s.level.batch.getD (.new material signature)
  { s with level := { s.level with batch := some (batch.pushAll s.level.pool ts) } }

/-- Adds a face whose corners are known. -/
def addResolved (s : State) (f : Face) (offsets : List Nat) : State :=
  let ts := f.shape.triangulate offsets
  let material := s.level.faceMaterial f.tag
  if s.level.retagged f.tag then
    let signature := material.signature
    (s.flushUnless signature).extend material signature ts
  else
    let s := { s with level := s.level.remember }
    let signature := s.level.signature
    (s.flushUnless signature).extend material signature ts

/-- Adds a face; one with a corner that is no vertex is dropped. -/
def addFace (s : State) (f : Face) : State :=
  match s.level.pool.resolve f.indices with
  | none => s.count fun d ↦ { d with outOfRangeFaces := d.outOfRangeFaces + 1 }
  | some offsets => s.addResolved f offsets

/-! ### Transformations -/

/-- The state with another matrix in force. -/
def withMatrix (s : State) (m : Mat4) : State := { s with level := { s.level with matrix := m } }

/-- The rotation by some degrees. -/
def rotation (axis : Vec3) (degrees : Scalar) : Mat4 := .ofAxisAngle axis (.ofDegrees degrees)

/-- Changes the matrix in force. -/
def transform (s : State) : Transformation → State
  | .translate v => s.withMatrix (s.level.matrix * .ofTranslation v)
  | .rotate axis degrees => s.withMatrix (s.level.matrix * rotation axis degrees)
  | .scale v => s.withMatrix (s.level.matrix * .ofScale v)
  | .set entries =>
    let (m, changed) := Mat4.sanitize s.settings.matrixNoiseThreshold entries
    (s.withMatrix m).count fun d ↦
      { d with sanitizedMatrixComponents := d.sanitizedMatrixComponents + changed }
  | .identity => s.withMatrix .identity

/-! ### Clumps -/

/-- The name of the `n`-th clump. -/
def clumpName (n : Nat) : String := "clump_" ++ toString n

/-- Opens a clump, which begins with the matrix and material in force. -/
def enter (s : State) : State :=
  { s with
    level :=
      .opened (clumpName (s.clumps + 1)) s.level.matrix s.level.material s.level.memo
    outer := s.level :: s.outer
    clumps := s.clumps + 1
    baked := false }

/-- The joint that a clump has if it ends now. -/
def pose (s : State) : Option Mat4 :=
  if s.joint.agrees .identity then none else some (s.settings.handedness.matrix s.joint)

/-- Gives the node of the innermost clump its joint and its place. -/
def place (s : State) : State :=
  let node := { s.level.node with joint := s.pose }
  if s.baked then { s with level := { s.level with node } }
  else
    let (placement, findings) := Placement.decompose (s.settings.handedness.matrix s.level.matrix)
    { s with
      level := { s.level with node := { node with placement } }
      diagnostics :=
        { s.diagnostics with
          repairedMatrices :=
            s.diagnostics.repairedMatrices + if findings.anyRepaired then 1 else 0 } }

/-- Ends the innermost clump, whose node becomes the last child of the one around it. -/
def leave (s : State) (parent : Level) (outer : List Level) : State :=
  let s := s.flush.place
  let node := { parent.node with children := parent.node.children ++ [s.level.node] }
  { s with level := { parent with node }, outer, baked := false }

/-! ### Scopes -/

/-- Begins or ends a scope. An end without a begin is counted; of a transform scope or a joint it
also sets the matrix to the identity. -/
def mark (s : State) : ScopeMark → State
  | .clumpBegin => s.enter
  | .clumpEnd =>
    match s.outer with
    | [] => s.countUnmatched
    | parent :: outer => s.leave parent outer
  | .transformBegin =>
    let saved := ⟨s.level.matrix, s.level.material⟩
    { s with level := { s.level with scopes := saved :: s.level.scopes } }
  | .transformEnd =>
    match s.level.scopes with
    | [] => (s.withMatrix .identity).countUnmatched
    | saved :: scopes =>
      let level := s.level.withMaterial saved.material
      { s with level := { level with matrix := saved.matrix, scopes } }
  | .jointBegin => { s with joints := s.joint :: s.joints }
  | .jointEnd =>
    match s.joints with
    | [] => { s with joint := .identity }.countUnmatched
    | joint :: joints => { s with joint, joints }
  | .identityJoint => { s with joint := .identity }

/-! ### Commands -/

/-- Follows a command. -/
def apply (s : State) : Command → State
  | .vertex position uv => s.addVertex position (uv.getD .zero)
  | .face f => s.addFace f
  | .material d => { s with level := s.level.withMaterial (s.level.material.apply d) }
  | .transform t => s.transform t
  | .scope m => s.mark m
  | .rotateJoint axis degrees => { s with joint := s.joint * rotation axis degrees }

/-- Follows a line; one that is no command changes nothing. -/
def step (s : State) : Line → State
  | .command c => s.apply c
  | _ => s

/-! ### The end -/

/-- Ends all open clumps from the inside out. -/
def closeAll (s : State) : List Level → State
  | [] => s
  | parent :: outer =>
    let s := s.count fun d ↦ { d with autoClosedClumps := d.autoClosedClumps + 1 }
    closeAll (s.leave parent outer) outer

/-- The finished tree and the counts. -/
def finish (s : State) : Node × Diagnostics :=
  let s := (s.closeAll s.outer).flush
  (s.level.node, s.diagnostics)

end State

end RwxScene
