import Mathlib
import RwxScene.Proofs.Interpreter.Counts
import RwxScene.Proofs.Interpreter.Emitted
import RwxScene.Proofs.Mesh.Regular
import RwxScene.Proofs.Model.Slices

/-!
# What a text brings in

Whatever lines are read, no scalar that is not finite and no colour out of range gets into the state
(`State.regular_of_lines`). What a line says is finite, and a directive brings colours into range;
from there on vertices and materials are only copied: into scopes and clumps that wait, into open
batches, and from these into the tree, be it with another tag or in the mirror.

A level is looked at as a whole (`Level.Regular`), so that a step has to be considered only for the
innermost level, and for the one around it when a clump ends.
-/

namespace RwxScene

/-! ### Trees -/

/-- All batches of the tree are regular. -/
def Node.Regular (n : Node) : Prop := ∀ b ∈ n.allBatches, b.Regular

namespace Node

variable {n m : Node}

theorem Regular.hand (h : n.Regular) {bs : List Batch} (hbs : ∀ b ∈ bs, b.Regular) :
    { n with batches := n.batches ++ bs }.Regular := by
  rw [Regular, allBatches_cons] at h ⊢
  obtain ⟨hn, hchildren⟩ := List.forall_mem_append.1 h
  exact List.forall_mem_append.2 ⟨List.forall_mem_append.2 ⟨hn, hbs⟩, hchildren⟩

theorem Regular.adopt (h : n.Regular) (hm : m.Regular) :
    { n with children := n.children ++ [m] }.Regular := fun b hb ↦
  (List.mem_append.1 ((n.allBatches_adopt m).mem_iff.1 hb)).elim (hm b) (h b)

/-- It does not matter where the tree is. -/
theorem Regular.moved (h : n.Regular) (placement : Placement) (joint : Option Mat4) :
    { n with placement, joint }.Regular := by
  rw [Regular, allBatches_cons] at h ⊢
  exact h

end Node

/-! ### Levels -/

namespace Level

/-- All vertices are finite, and all materials and batches of the level and of its node are regular. -/
structure Regular (l : Level) : Prop where
  pool : l.pool.IsFinite
  material : l.material.Regular
  scopes : ∀ saved ∈ l.scopes, saved.material.Regular
  batch : ∀ b, l.batch = some b → b.Regular
  node : l.node.Regular

variable {l parent : Level}

/-- A clump that is opened has nothing but the material. -/
theorem regular_opened {m : Material} (h : m.Regular) (name : String) (matrix : Mat4)
    (memo : Option Signature) : (opened name matrix m memo).Regular where
  pool _ hv := absurd hv (by simp [opened])
  material := h
  scopes _ hsaved := absurd hsaved List.not_mem_nil
  batch _ hb := absurd hb (by simp [opened])
  node b hb := by
    rw [Node.allBatches_cons] at hb
    exact absurd hb (by simp [opened, Node.new])

theorem Regular.settled (h : l.Regular) (settings : Settings) : (l.settled settings).Regular := by
  have hopen : ∀ c ∈ l.openBatch settings, c.Regular := by
    intro c hc
    obtain ⟨b, hb, -, rfl⟩ := exists_finish_of_mem hc
    exact (h.batch b hb).finish settings
  exact ⟨h.pool, h.material, h.scopes, fun _ hb ↦ absurd hb (by simp [Level.settled]),
    h.node.hand hopen⟩

theorem Regular.join (h : l.Regular) {m : Material} (hm : m.Regular) (settings : Settings)
    (signature : Signature) (ts : List (Triangle Nat)) :
    (l.join settings m signature ts).Regular := by
  have hfresh := (Builder.regular_new hm signature).pushAll h.pool ts
  cases hb : l.batch with
  | none =>
    rw [join_of_none settings m ts hb]
    exact { h with batch := fun c hc ↦ Option.some.inj hc ▸ hfresh }
  | some b =>
    by_cases hsig : b.signature = signature
    · rw [join_of_eq settings m ts hb hsig]
      exact { h with batch := fun c hc ↦ Option.some.inj hc ▸ (h.batch b hb).pushAll h.pool ts }
    · rw [join_of_ne settings m ts hb hsig]
      exact { h.settled settings with batch := fun c hc ↦ Option.some.inj hc ▸ hfresh }

theorem Regular.draw (h : l.Regular) (settings : Settings) (f : Face) (offsets : List Nat) :
    (l.draw settings f offsets).Regular := by
  have hm : (l.faceMaterial f.tag).Regular := h.material.withTag _
  rw [Level.draw]
  split
  · exact h.join hm settings _ _
  · exact Regular.join (l := l.remember) { h with } hm settings _ _

/-- When a clump ends, its node is handed to the level around it. -/
theorem Regular.leave (h : l.Regular) (hparent : parent.Regular) (settings : Settings)
    (placement : Placement) (joint : Option Mat4) :
    (parent.adopt { (l.settled settings).node with placement, joint }).Regular :=
  { hparent with node := hparent.node.adopt ((h.settled settings).node.moved placement joint) }

theorem Regular.scopesAfter (h : l.Regular) (c : Command) :
    ∀ saved ∈ l.scopesAfter c, saved.material.Regular := by
  unfold Level.scopesAfter
  split
  · exact List.forall_mem_cons.2 ⟨h.material, h.scopes⟩
  · exact fun saved hsaved ↦ h.scopes saved (List.mem_of_mem_tail hsaved)
  · exact h.scopes

end Level

/-! ### Steps -/

namespace State

/-- All levels are regular, and no host moves vertices. -/
structure Regular (s : State) : Prop where
  unmoved : s.instanceTransform = none
  levels : ∀ l ∈ s.levels, l.Regular

variable {s : State}

theorem Regular.level (h : s.Regular) : s.level.Regular := h.levels _ List.mem_cons_self

theorem Regular.outer (h : s.Regular) : ∀ l ∈ s.outer, l.Regular :=
  (List.forall_mem_cons.1 h.levels).2

theorem regular_start (settings : Settings) : (start settings).Regular where
  unmoved := rfl
  levels _ hl := List.mem_singleton.1 hl ▸ Level.regular_opened Material.regular_initial _ _ _

/-- A material comes from a directive or from the end of a scope, or stays. -/
theorem Regular.material_apply (h : s.Regular) {c : Command} (hc : c.IsFinite)
    (hquiet : c.IsQuiet) : (s.apply c).level.material.Regular := by
  cases c with
  | vertex => exact hquiet.elim
  | face => exact hquiet.elim
  | material d => exact h.level.material.apply hc
  | transform t => cases t <;> exact h.level.material
  | rotateJoint => exact h.level.material
  | scope m =>
    cases m with
    | clumpBegin | clumpEnd => exact hquiet.elim
    | transformBegin | jointBegin | identityJoint => exact h.level.material
    | transformEnd =>
      rw [apply, mark]
      split
      · exact h.level.material
      · next saved scopes hscopes =>
        exact h.level.scopes saved (hscopes ▸ List.mem_cons_self)
    | jointEnd =>
      rw [apply, mark]
      split <;> exact h.level.material

/-- A command with finite values keeps everything regular. -/
theorem Regular.apply (h : s.Regular) {c : Command} (hc : c.IsFinite) :
    (s.apply c).Regular := by
  have hmaterial : c.IsQuiet → (s.apply c).level.material.Regular := h.material_apply hc
  have heffect := s.effect_apply c
  generalize s.apply c = t at heffect hmaterial
  cases heffect with
  | vertex position uv =>
    obtain ⟨hposition, huv⟩ := hc
    have hv : Vertex.IsFinite ⟨s.placed position, uv.getD .zero⟩ := by
      rw [placed, h.unmoved]
      refine ⟨hposition, ?_⟩
      cases huv' : uv with
      | none => exact UV.isFinite_zero
      | some t => exact huv t huv'
    exact ⟨h.unmoved, List.forall_mem_cons.2 ⟨{ h.level with pool := h.level.pool.push hv }, h.outer⟩⟩
  | dropped f d hf => exact ⟨h.unmoved, h.levels⟩
  | drawn f offsets d hf =>
    exact ⟨h.unmoved, List.forall_mem_cons.2 ⟨h.level.draw s.settings f offsets, h.outer⟩⟩
  | entered =>
    exact ⟨h.unmoved,
      List.forall_mem_cons.2 ⟨Level.regular_opened h.level.material _ _ _, h.levels⟩⟩
  | unmatched d ho => exact ⟨h.unmoved, h.levels⟩
  | left parent outer placement joint d ho =>
    obtain ⟨hparent, houter⟩ := List.forall_mem_cons.1 (ho ▸ h.outer)
    exact ⟨h.unmoved,
      List.forall_mem_cons.2 ⟨h.level.leave hparent s.settings placement joint, houter⟩⟩
  | quiet _ matrix material memo joint joints d hquiet hmemo =>
    exact ⟨h.unmoved, List.forall_mem_cons.2
      ⟨{ h.level with material := hmaterial hquiet, scopes := h.level.scopesAfter c }, h.outer⟩⟩

theorem Regular.step (h : s.Regular) (cs : List Char) : (s.step (.read cs)).Regular := by
  cases hline : Line.read cs with
  | command c =>
    have hcommand : (Line.read cs).command? = some c := by rw [hline, Line.command?]
    exact h.apply (Line.isFinite_of_read hcommand)
  | _ => exact h

theorem Regular.stepLines (h : s.Regular) (ls : List (List Char)) : (s.stepLines ls).Regular := by
  induction ls generalizing s with
  | nil => exact h
  | cons cs ls ih => exact ih (h.step cs)

/-! ### The end -/

theorem Regular.closeAll (h : s.Regular) {outer : List Level} (ho : s.outer = outer) :
    (s.closeAll outer).Regular := by
  induction outer generalizing s with
  | nil => exact h
  | cons parent outer ih =>
    obtain ⟨placement, joint, d, hleave⟩ :=
      (s.count fun d ↦ { d with autoClosedClumps := d.autoClosedClumps + 1 }).exists_leave parent
        outer
    obtain ⟨hparent, houter⟩ := List.forall_mem_cons.1 (ho ▸ h.outer)
    refine ih ?_ (by rw [hleave])
    rw [hleave]
    exact ⟨h.unmoved,
      List.forall_mem_cons.2 ⟨h.level.leave hparent s.settings placement joint, houter⟩⟩

theorem Regular.finish (h : s.Regular) : s.finish.1.Regular := by
  obtain ⟨d, hflush⟩ := (s.closeAll s.outer).exists_flush
  show (s.closeAll s.outer).flush.level.node.Regular
  rw [hflush]
  exact ((h.closeAll rfl).level.settled _).node

/-- **Nothing infinite and no colour out of range gets in.** After any lines, the vertices of all open
clumps and of their open batches are finite and all their materials are regular, and so are the batches
that were handed out, now and when the scene is finished. Each of these batches is drawn with its own
colour and opacity. -/
theorem regular_of_lines (settings : Settings) (lines : List (List Char)) :
    let s := (start settings).stepLines lines
    (∀ l ∈ s.levels, l.Regular) ∧
      (∀ b ∈ s.finish.1.allBatches, b.Regular) ∧
        ∀ b ∈ s.handed ++ s.finish.1.allBatches,
          b.material.effectiveColor = (b.material.color, b.material.opacity) := by
  intro s
  have hs : s.Regular := (regular_start settings).stepLines lines
  refine ⟨hs.levels, hs.finish, List.forall_mem_append.2 ⟨fun b hb ↦ ?_, fun b hb ↦ ?_⟩⟩
  · obtain ⟨l, hl, hb⟩ := List.mem_flatMap.1 hb
    exact ((hs.levels l hl).node b hb).material.effectiveColor
  · exact (hs.finish b hb).material.effectiveColor

end State

end RwxScene
