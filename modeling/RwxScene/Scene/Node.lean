import RwxScene.Mesh.Batch
import RwxScene.Space.Placement

/-!
# Scene trees

A scene is a tree of nodes; each is placed in the space of the node above it and owns batches. The
nodes are visited from the root down, a node before its children and these in order.

`Node.walk` keeps the nodes still to be visited in one list. What is asked of a whole tree (counts,
names, tags) is asked of the list of its nodes.
-/

namespace RwxScene

/-- A node with everything below it. -/
structure Node where
  name : String
  /-- Where the node is in the space of the node above it. -/
  placement : Placement
  /-- The joint matrix in force at the end of the clump, unless it is the identity. -/
  joint : Option Mat4
  children : List Node
  batches : List Batch

namespace Node

/-- A node without content, placed where the node above it is. -/
def new (name : String) : Node := ⟨name, .identity, none, [], []⟩

/-! ### Visiting -/

mutual

/-- The number of nodes in a tree. -/
def size : Node → Nat
  | ⟨_, _, _, children, _⟩ => sizeAll children + 1

/-- The number of nodes in some trees. -/
def sizeAll : List Node → Nat
  | [] => 0
  | n :: ns => size n + sizeAll ns

end

theorem size_eq (n : Node) : n.size = sizeAll n.children + 1 := by
  cases n
  rw [size]

@[simp] theorem sizeAll_append (ns ms : List Node) :
    sizeAll (ns ++ ms) = sizeAll ns + sizeAll ms := by
  induction ns with
  | nil => simp [sizeAll]
  | cons n ns ih => simp [sizeAll, ih, Nat.add_assoc]

/-- The nodes of some trees: the first is visited and its children take its place. -/
def visit : List Node → List Node
  | [] => []
  | n :: ns => n :: visit (n.children ++ ns)
termination_by ns => sizeAll ns
decreasing_by simp [sizeAll, size_eq]

@[simp] theorem visit_nil : visit [] = [] := by rw [visit]

theorem visit_cons (n : Node) (ns : List Node) :
    visit (n :: ns) = n :: visit (n.children ++ ns) := by rw [visit]

/-- The nodes of a tree, each before its children. -/
def walk (n : Node) : List Node := visit [n]

/-- The batches of a tree. -/
def allBatches (n : Node) : List Batch := n.walk.flatMap Node.batches

def nodeCount (n : Node) : Nat := n.walk.length

def batchCount (n : Node) : Nat := n.allBatches.length

def vertexCount (n : Node) : Nat := n.allBatches.foldl (fun k b ↦ k + b.vertexCount) 0

def triangleCount (n : Node) : Nat := n.allBatches.foldl (fun k b ↦ k + b.triangleCount) 0

/-- The first node of this name. -/
def find? (n : Node) (name : String) : Option Node := n.walk.find? (·.name == name)

/-- The batches with this tag. -/
def batchesWithTag (n : Node) (tag : Int) : List Batch := n.allBatches.filter (·.tag == tag)

/-! ### Depth -/

mutual

/-- The nodes of a tree with their depth, each before its children. -/
def outline (depth : Nat) : Node → List (Nat × Node)
  | ⟨name, placement, joint, children, batches⟩ =>
    (depth, ⟨name, placement, joint, children, batches⟩) :: outlineAll (depth + 1) children

/-- The nodes of some trees with their depth. -/
def outlineAll (depth : Nat) : List Node → List (Nat × Node)
  | [] => []
  | n :: ns => outline depth n ++ outlineAll depth ns

end

/-! ### Bounds -/

/-- A box grown by the corners of another one, seen from the node above. -/
def growPlaced (acc : Bounds) (placement : Placement) (b : Bounds) : Bounds :=
  if b.isEmpty then acc
  else
    let m := placement.toMatrix
    b.corners.foldl (fun acc corner ↦ acc.grow (m.transformPoint corner)) acc

mutual

/-- The box around a tree, in the space of its root. -/
def bounds : Node → Bounds
  | ⟨_, _, _, children, batches⟩ =>
    boundsFrom (batches.foldl (fun acc b ↦ acc.union b.bounds) .empty) children

/-- A box grown by some trees. -/
def boundsFrom (acc : Bounds) : List Node → Bounds
  | [] => acc
  | n :: ns => boundsFrom (growPlaced acc n.placement (bounds n)) ns

end

end Node

end RwxScene
