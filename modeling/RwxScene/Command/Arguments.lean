import RwxScene.Command.Basic
import RwxScene.Command.Rejection
import RwxScene.Decimal.Numeral

/-!
# Arguments

`Arguments α` reads a value off the words behind a keyword and leaves the words it does not need. It
is handed the keyword, which two of the rejections name. The readers below are the pieces of which
every command's arguments consist.
-/

namespace RwxScene

/-- A reader of words: from the keyword and the words to come, a value and the words left. -/
def Arguments (α : Type) : Type := String → List String → Except Rejection (α × List String)

namespace Arguments

variable {α β : Type}

instance : Monad Arguments where
  pure a := fun _ ws ↦ .ok (a, ws)
  bind r f := fun k ws ↦
    match r k ws with
    | .ok (a, ws) => f a k ws
    | .error e => .error e

@[simp] theorem pure_apply (a : α) (k : String) (ws : List String) :
    (pure a : Arguments α) k ws = .ok (a, ws) := rfl

theorem bind_apply (r : Arguments α) (f : α → Arguments β) (k : String) (ws : List String) :
    (r >>= f) k ws =
      match r k ws with
      | .ok (a, ws) => f a k ws
      | .error e => .error e := rfl

/-- Rejects the line. -/
def fail (e : Rejection) : Arguments α := fun _ _ ↦ .error e

/-! ### Single words -/

/-- The next word. -/
def next : Arguments String := fun k ws ↦
  match ws with
  | [] => .error (.missingArgument k)
  | w :: ws => .ok (w, ws)

/-- A word that stands for a number. -/
def numeric (read? : List Char → Option α) : Arguments α := do
  let w ← next
  match read? w.toList with
  | some a => pure a
  | none => fail (.invalidNumber w)

/-- A decimal numeral whose nearest scalar is finite. -/
def readFinite? (cs : List Char) : Option Scalar :=
  ((Decimal.Numeral.read? cs).map Decimal.Numeral.toScalar).filter Float32.isFinite

def number : Arguments Scalar := numeric readFinite?

/-- The number of a vertex, in thirty-two bits. -/
def index : Arguments Nat := numeric (Decimal.readNatural? UInt32.size)

/-- A tag, in thirty-two bits with a sign. -/
def tag : Arguments Int := numeric (Decimal.readInteger? Int32.minValue.toInt Int32.maxValue.toInt)

/-- A name as it is written; the word `null` names nothing. -/
def nameOf (w : String) : Option String := if Text.lower w = "null" then none else some w

def name : Arguments (Option String) := do return nameOf (← next)

/-- A word with a meaning, in any case. -/
def meaning (ofWord? : String → Option α) : Arguments α := do
  let w ← next
  match ofWord? (Text.lower w) with
  | some a => pure a
  | none => fun k _ ↦ .error (.invalidValue k w)

/-- One of finitely many choices. -/
def choice [Vocabulary α] : Arguments α := meaning Vocabulary.ofWord?

/-- On or off. -/
def switch? (w : String) : Option Bool :=
  if w = "on" then some true else if w = "off" then some false else none

def switch : Arguments Bool := meaning switch?

/-! ### Several words -/

def vec3 : Arguments Vec3 := do
  let x ← number
  let y ← number
  let z ← number
  return ⟨x, y, z⟩

/-- As many values as asked for. -/
def times (r : Arguments α) : (n : Nat) → Arguments (Vector α n)
  | 0 => pure #v[]
  | n + 1 => do
    let v ← times r n
    let a ← r
    return v.push a

/-- Whether a certain word comes next, in any case; it is taken if so. -/
def flag (word : String) : Arguments Bool := fun _ ws ↦
  match ws with
  | [] => .ok (false, [])
  | w :: ws => if Text.lower w = word then .ok (true, ws) else .ok (false, w :: ws)

/-- The tag that a face may end with. -/
def faceTag : Arguments (Option Int) := do
  if ← flag "tag" then return some (← tag) else return none

/-- Whether no word is left. -/
def isEnd : Arguments Bool := fun _ ws ↦ .ok (ws.isEmpty, ws)

/-- The corners of a polygon, up to the word that introduces a tag. -/
def corners (k : String) : List String → Except Rejection (List Nat × List String)
  | [] => .ok ([], [])
  | w :: ws =>
    if Text.lower w = "tag" then .ok ([], w :: ws)
    else
      match index k [w] with
      | .error e => .error e
      | .ok (i, _) =>
        match corners k ws with
        | .error e => .error e
        | .ok (is, rest) => .ok (i :: is, rest)

/-- The modes that a word adds. -/
def texturesMode? (w : String) : Option TextureModes :=
  if w = "null" then some .none
  else if w = "lit" then some { TextureModes.none with lit := true }
  else if w = "foreshorten" then some { TextureModes.none with foreshorten := true }
  else if w = "filter" then some { TextureModes.none with filter := true }
  else none

/-- All words that are left, as a set of texture modes. -/
def modes (k : String) : List String → Except Rejection TextureModes
  | [] => .ok .none
  | w :: ws =>
    match texturesMode? (Text.lower w) with
    | none => .error (.invalidValue k w)
    | some m => (modes k ws).map m.union

def textureModes : Arguments TextureModes := fun k ws ↦ (modes k ws).map (·, [])

/-- A set of texture modes that takes at least one word. -/
def someTextureModes : Arguments TextureModes := do
  if ← isEnd then fun k _ ↦ .error (.missingArgument k) else textureModes

/-! ### Textures -/

/-- What may be said about a texture besides its name. -/
inductive TextureAttribute where
  | mask
  | normal
  | specular
  | ratio
deriving DecidableEq

instance : Vocabulary TextureAttribute where
  members := [.mask, .normal, .specular, .ratio]
  word
    | .mask => "mask"
    | .normal => "normal"
    | .specular => "specular"
    | .ratio => "ratio"
  find?_word a := by cases a <;> decide

/-- The texture with an attribute read from a word. -/
def TextureAttribute.set (t : TextureSpec) (w : String) :
    TextureAttribute → Except Rejection TextureSpec
  | .mask => .ok { t with mask := nameOf w }
  | .normal => .ok { t with normal := nameOf w }
  | .specular => .ok { t with specular := nameOf w }
  | .ratio =>
    match readFinite? w.toList with
    | some s => .ok { t with ratio := some s }
    | none => .error (.invalidNumber w)

/-- All words that are left, as attributes of a texture; of two of a kind the later one holds. -/
def textureAttributes (k : String) (t : TextureSpec) : List String → Except Rejection TextureSpec
  | [] => .ok t
  | [w] =>
    match (Vocabulary.ofWord? (Text.lower w) : Option TextureAttribute) with
    | none => .error (.trailingWord w)
    | some _ => .error (.missingArgument k)
  | w :: v :: ws =>
    match (Vocabulary.ofWord? (Text.lower w) : Option TextureAttribute) with
    | none => .error (.trailingWord w)
    | some a =>
      match a.set t v with
      | .error e => .error e
      | .ok t => textureAttributes k t ws

def texture : Arguments TextureSpec := do
  let name ← name
  fun k ws ↦ (textureAttributes k (.ofName name) ws).map (·, [])

end Arguments

end RwxScene
