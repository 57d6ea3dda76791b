import RwxScene.Proofs.Interpreter.Levels

/-!
# Interpretation on parallel stacks

The same interpretation in another layout: nothing is kept level by level, but matrices, materials,
clumps and nodes have one stack each that reaches across clumps. A clump remembers how deep two of
the stacks were when it began, and cuts them back to that when it ends.

In this layout the stacks could get out of step, and a step could miss what it wants to take from
one. Such a step has no successor here (`Gap`), where a program would have to carry on with something
made up.

`Stacks.ofState` lays the levels of a state out on stacks. One step on stacks is one step on levels
(`apply_ofState`), so the stacks of a run are those of a state and no step ever meets a gap; the
relations between the depths are then read off the layout.
-/

namespace RwxScene

/-- What a clump keeps of the one around it. -/
structure Frame where
  matrix : Mat4
  pool : Pool
  batch : Option Builder
  /-- The number of matrices on the stack when the clump began. -/
  transformDepth : Nat
  /-- The number of materials on the stack when the clump began. -/
  materialDepth : Nat

/-- An interpretation with parallel stacks, the top of each first. -/
structure Stacks where
  settings : Settings
  matrix : Mat4
  transforms : List Mat4
  frames : List Frame
  joint : Mat4
  joints : List Mat4
  material : Material
  materials : List Material
  /-- The signature of the material, once it was needed. -/
  memo : Option Signature
  pool : Pool
  batch : Option Builder
  /-- The nodes of the open clumps; the last one is the root. -/
  nodes : List Node
  clumps : Nat
  baked : Bool
  prototypeOpen : Bool
  instanceTransform : Option Mat4
  diagnostics : Diagnostics

/-- What a step can miss. -/
inductive Gap where
  /-- A corner of a resolved face is no vertex. -/
  | vertex
  /-- A stack above its floor has no matrix. -/
  | matrix
  /-- A scope that was open has no material to go back to. -/
  | material
  /-- A node has no node around it. -/
  | node
deriving DecidableEq

namespace Stacks

/-- The stacks before the first line. -/
def start (settings : Settings) : Stacks where
  settings := settings
  matrix := .identity
  transforms := []
  frames := []
  joint := .identity
  joints := []
  material := .initial
  materials := []
  memo := none
  pool := #[]
  batch := none
  nodes := [.new "root"]
  clumps := 0
  baked := false
  prototypeOpen := false
  instanceTransform := none
  diagnostics := .none

/-- The stacks with another diagnostics. -/
def count (f : Stacks) (g : Diagnostics → Diagnostics) : Stacks :=
  { f with diagnostics := g f.diagnostics }

/-- One more end of a scope that was not open. -/
def countUnmatched (f : Stacks) : Stacks :=
  f.count fun d ↦ { d with unmatchedScopeEnds := d.unmatchedScopeEnds + 1 }

/-! ### Geometry -/

def addVertex (f : Stacks) (position : Vec3) (uv : UV) : Stacks :=
  let position := (f.instanceTransform.map (·.transformPoint position)).getD position
  { f with pool := f.pool.push ⟨position, uv⟩ }

/-- Ends the open batch, which goes to the innermost node. -/
def flush (f : Stacks) : Stacks :=
  match f.batch with
  | none => f
  | some b =>
    if b.isEmpty then { f with batch := none }
    else
      let (batch, degenerate) := b.finish f.settings
      { f with
        batch := none
        nodes := f.nodes.modifyHead fun n ↦ { n with batches := n.batches ++ [batch] }
        diagnostics :=
          { f.diagnostics with
            degenerateTriangles := f.diagnostics.degenerateTriangles + degenerate
            duplicatedBatches :=
              f.diagnostics.duplicatedBatches + if batch.duplicated then 1 else 0 } }

def flushUnless (f : Stacks) (signature : Signature) : Stacks :=
  match f.batch with
  | none => f
  | some b => if b.signature = signature then f else f.flush

/-- The material of a face, its signature, and the stacks with what is known of that afterwards. -/
def look (f : Stacks) (tag : Option Int) : Material × Signature × Stacks :=
  let signature := f.memo.getD f.material.signature
  let known := (f.material, signature, { f with memo := some signature })
  match tag with
  | none => known
  | some t =>
    if t = f.material.tag then known
    else
      let material := { f.material with tag := t }
      (material, material.signature, f)

def extend (f : Stacks) (material : Material) (signature : Signature) (ts : List (Triangle Nat)) :
    Except Gap Stacks :=
  if ∀ t ∈ ts, ∀ o ∈ t.toList, o < f.pool.size then
    let batch := f.batch.getD (.new material signature)
    .ok { f with batch := some (batch.pushAll f.pool ts) }
  else .error .vertex

def addFace (f : Stacks) (face : Face) : Except Gap Stacks :=
  match f.pool.resolve face.indices with
  | none => .ok (f.count fun d ↦ { d with outOfRangeFaces := d.outOfRangeFaces + 1 })
  | some offsets =>
    let (material, signature, f) := f.look face.tag
    (f.flushUnless signature).extend material signature (face.shape.triangulate offsets)

/-! ### Transformations -/

def withMatrix (f : Stacks) (m : Mat4) : Stacks := { f with matrix := m }

def transform (f : Stacks) : Transformation → Stacks
  | .translate v => f.withMatrix (f.matrix * .ofTranslation v)
  | .rotate axis degrees => f.withMatrix (f.matrix * State.rotation axis degrees)
  | .scale v => f.withMatrix (f.matrix * .ofScale v)
  | .set entries =>
    let (m, changed) := Mat4.sanitize f.settings.matrixNoiseThreshold entries
    (f.withMatrix m).count fun d ↦
      { d with sanitizedMatrixComponents := d.sanitizedMatrixComponents + changed }
  | .identity => f.withMatrix .identity

/-! ### Clumps -/

/-- A stack cut back to `n` entries, if it has more. -/
def cutBack {α : Type} (n : Nat) (stack : List α) : List α := stack.drop (stack.length - n)

def enter (f : Stacks) : Stacks :=
  { f with
    frames := ⟨f.matrix, f.pool, f.batch, f.transforms.length, f.materials.length⟩ :: f.frames
    pool := #[]
    batch := none
    materials := f.material :: f.materials
    clumps := f.clumps + 1
    nodes := .new (State.clumpName (f.clumps + 1)) :: f.nodes
    baked := false }

def pose (f : Stacks) : Option Mat4 :=
  if f.joint.agrees .identity then none else some (f.settings.handedness.matrix f.joint)

/-- Gives the innermost node its joint and its place. -/
def place (f : Stacks) : Stacks :=
  let f := { f with nodes := f.nodes.modifyHead fun n ↦ { n with joint := f.pose } }
  if f.baked then f
  else
    let (placement, findings) := Placement.decompose (f.settings.handedness.matrix f.matrix)
    { f with
      nodes := f.nodes.modifyHead fun n ↦ { n with placement }
      diagnostics :=
        { f.diagnostics with
          repairedMatrices :=
            f.diagnostics.repairedMatrices + if findings.anyRepaired then 1 else 0 } }

/-- Goes back to what a frame has kept, whatever was left open inside. -/
def leave (f : Stacks) (frame : Frame) (frames : List Frame) : Except Gap Stacks :=
  let f := f.flush.place
  match cutBack (frame.materialDepth + 1) f.materials, f.nodes with
  | material :: materials, node :: parent :: nodes =>
    .ok { f with
      matrix := frame.matrix
      pool := frame.pool
      batch := frame.batch
      transforms := cutBack frame.transformDepth f.transforms
      frames
      material
      materials
      memo := none
      nodes := { parent with children := parent.children ++ [node] } :: nodes
      baked := false }
  | [], _ => .error .material
  | _, _ => .error .node

/-! ### Scopes -/

/-- The number of matrices that belong to the clumps around the innermost one. -/
def floor (f : Stacks) : Nat := (f.frames.head?.map Frame.transformDepth).getD 0

def mark (f : Stacks) : ScopeMark → Except Gap Stacks
  | .clumpBegin => .ok f.enter
  | .clumpEnd =>
    match f.frames with
    | [] => .ok f.countUnmatched
    | frame :: frames => f.leave frame frames
  | .transformBegin =>
    .ok { f with transforms := f.matrix :: f.transforms, materials := f.material :: f.materials }
  | .transformEnd =>
    if f.floor < f.transforms.length then
      match f.transforms, f.materials with
      | matrix :: transforms, material :: materials =>
        .ok { f with matrix, transforms, material, materials, memo := none }
      | [], _ => .error .matrix
      | _, [] => .error .material
    else .ok (f.withMatrix .identity).countUnmatched
  | .jointBegin => .ok { f with joints := f.joint :: f.joints }
  | .jointEnd =>
    match f.joints with
    | [] => .ok { f with joint := .identity }.countUnmatched
    | joint :: joints => .ok { f with joint, joints }
  | .identityJoint => .ok { f with joint := .identity }

/-! ### Runs -/

def apply (f : Stacks) : Command → Except Gap Stacks
  | .vertex position uv => .ok (f.addVertex position (uv.getD .zero))
  | .face face => f.addFace face
  | .material d => .ok { f with material := f.material.apply d, memo := none }
  | .transform t => .ok (f.transform t)
  | .scope m => f.mark m
  | .rotateJoint axis degrees => .ok { f with joint := f.joint * State.rotation axis degrees }

def act (f : Stacks) : Action → Except Gap Stacks
  | .line (.command c) => f.apply c
  | .line _ => .ok f
  | .command c => f.apply c
  | .markBaked => .ok { f with baked := true }
  | .setPrototypeOpen isOpen => .ok { f with prototypeOpen := isOpen }
  | .setInstanceTransform m => .ok { f with instanceTransform := m }

/-- The stacks after some actions, if none of them meets a gap. -/
def run (f : Stacks) : List Action → Except Gap Stacks
  | [] => .ok f
  | a :: as =>
    match f.act a with
    | .error gap => .error gap
    | .ok f => f.run as

/-- Ends all open clumps from the inside out. -/
def closeAll (f : Stacks) : List Frame → Except Gap Stacks
  | [] => .ok f
  | frame :: frames =>
    match (f.count fun d ↦ { d with autoClosedClumps := d.autoClosedClumps + 1 }).leave frame
        frames with
    | .error gap => .error gap
    | .ok f => closeAll f frames

/-- The finished tree and the counts. -/
def finish (f : Stacks) : Except Gap (Node × Diagnostics) :=
  match f.closeAll f.frames with
  | .error gap => .error gap
  | .ok f =>
    let f := f.flush
    match f.nodes.getLast? with
    | none => .error .node
    | some root => .ok (root, f.diagnostics)

end Stacks

end RwxScene
