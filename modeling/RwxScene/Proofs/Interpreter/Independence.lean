import RwxScene.Proofs.Interpreter.Aspects

/-!
# Joints, places and geometry do not meet

Whatever the commands of one aspect say, the others come out the same (`aspects_independent`). That
the tree and the counts agree apart from the aspect is what `Aspects` is for. One thing remains: a
tree that was built without commands for joints is not only the same apart from its joints, it has
none. A joint gets into the tree at the end of a clump, so it is enough that the joint in force stays
the identity (`Jointless`).
-/

namespace RwxScene

namespace State

variable {s : State}

/-! ### No joints -/

/-- No joint was ever set, and none is on record. -/
structure Jointless (s : State) : Prop where
  joint : s.joint = .identity
  visit : ∀ l ∈ s.levels, ∀ n ∈ Node.visit l.node.children, n.joint = none

theorem joint_mark (s : State) {m : ScopeMark} (hm : Aspect.carries .joints (.scope m) = false) :
    (s.mark m).joint = s.joint := by
  cases m with
  | clumpBegin => rfl
  | clumpEnd =>
    rw [mark]
    split
    · rfl
    · next parent outer _ =>
      obtain ⟨placement, joint, d, hleave⟩ := s.exists_leave parent outer
      rw [hleave]
  | transformBegin => rfl
  | transformEnd =>
    rw [mark]
    split <;> rfl
  | _ => exact absurd hm (by decide)

theorem joint_apply (s : State) {c : Command} (hc : Aspect.carries .joints c = false) :
    (s.apply c).joint = s.joint := by
  cases c with
  | face f =>
    rw [apply, addFace]
    split
    · rfl
    · next offsets _ =>
      obtain ⟨d, hdraw⟩ := s.exists_addResolved f offsets
      rw [hdraw]
  | transform k => cases k <;> rfl
  | scope m => exact joint_mark s hc
  | rotateJoint axis degrees => exact absurd hc (by simp [Aspect.carries])
  | _ => rfl

/-- The joint of a clump that ends is the joint in force. -/
theorem exists_leave_pose (s : State) (parent : Level) (outer : List Level) :
    ∃ n : Node, n.joint = s.pose ∧ n.children = s.level.node.children ∧
      (s.leave parent outer).levels = parent.adopt n :: outer := by
  obtain ⟨d, hflush⟩ := s.exists_flush
  refine ⟨s.flush.place.level.node, ?_, ?_, rfl⟩
  · rw [place, hflush]
    split <;> rfl
  · rw [place, hflush]
    split <;> rfl

namespace Jointless

theorem opened (name : String) (matrix : Mat4) (material : Material) (memo : Option Signature) :
    ∀ n ∈ Node.visit (Level.opened name matrix material memo).node.children, n.joint = none := by
  show ∀ n ∈ Node.visit [], n.joint = none
  rw [Node.visit_nil]
  exact fun n hn ↦ absurd hn List.not_mem_nil

theorem start (settings : Settings) : Jointless (.start settings) := by
  refine ⟨rfl, fun l hl ↦ ?_⟩
  obtain rfl := List.mem_singleton.1 hl
  exact opened _ _ _ _

theorem leave (h : s.Jointless) {parent : Level} {outer : List Level}
    (ho : s.outer = parent :: outer) :
    ∀ l ∈ (s.leave parent outer).levels, ∀ n ∈ Node.visit l.node.children, n.joint = none := by
  obtain ⟨child, hjoint, hchildren, hlevels⟩ := s.exists_leave_pose parent outer
  have hpose : s.pose = none := by
    rw [pose, h.joint]
    exact if_pos (by decide)
  obtain ⟨hlevel, houter⟩ := List.forall_mem_cons.1 h.visit
  rw [ho] at houter
  obtain ⟨hparent, houter⟩ := List.forall_mem_cons.1 houter
  rw [hlevels]
  refine List.forall_mem_cons.2 ⟨fun n hn ↦ ?_, houter⟩
  replace hn : n ∈ Node.visit (parent.node.children ++ [child]) := hn
  rw [Node.visit_append, Node.visit_singleton, hchildren] at hn
  rcases List.mem_append.1 hn with hn | hn
  · exact hparent n hn
  rcases List.mem_cons.1 hn with rfl | hn
  · rw [hjoint, hpose]
  · exact hlevel n hn

/-- A command that is not about joints sets none. -/
theorem apply (h : s.Jointless) {c : Command} (hc : Aspect.carries .joints c = false) :
    (s.apply c).Jointless := by
  refine ⟨(joint_apply s hc).trans h.joint, ?_⟩
  by_cases hend : c = .scope .clumpEnd
  · subst hend
    rw [State.apply, mark]
    split
    · exact h.visit
    · next ho => exact h.leave ho
  have heffect := s.effect_apply c
  generalize s.apply c = t at heffect ⊢
  obtain ⟨hlevel, houter⟩ := List.forall_mem_cons.1 h.visit
  cases heffect with
  | vertex position uv => exact List.forall_mem_cons.2 ⟨hlevel, houter⟩
  | dropped f d hf => exact h.visit
  | drawn f offsets d hf =>
    refine List.forall_mem_cons.2 ⟨?_, houter⟩
    show ∀ n ∈ Node.visit (s.level.draw s.settings f offsets).node.children, n.joint = none
    rw [(s.level.keeps_draw s.settings f offsets).children]
    exact hlevel
  | entered => exact List.forall_mem_cons.2 ⟨opened _ _ _ _, h.visit⟩
  | unmatched d ho => exact absurd rfl hend
  | left parent outer placement joint d ho => exact absurd rfl hend
  | quiet _ matrix material memo joint joints d hquiet hmemo =>
    exact List.forall_mem_cons.2 ⟨hlevel, houter⟩

theorem run (h : s.Jointless) {as : List Action}
    (has : ∀ x ∈ as, Aspect.concerns .joints x = false) : (s.run as).Jointless := by
  induction as generalizing s with
  | nil => exact h
  | cons x as ih =>
    obtain ⟨hx, has⟩ := List.forall_mem_cons.1 has
    refine ih ?_ has
    cases hc : x.command? with
    | some c =>
      rw [Aspect.concerns, hc] at hx
      rw [act_of_command hc]
      exact h.apply hx
    | none =>
      obtain ⟨_, _, _, hact⟩ := act_of_no_command hc s
      rw [hact]
      exact ⟨h.joint, h.visit⟩

theorem closeAll (h : s.Jointless) {outer : List Level} (ho : s.outer = outer) :
    (s.closeAll outer).Jointless := by
  induction outer generalizing s with
  | nil => exact h
  | cons parent outer ih =>
    set t := s.count fun d ↦ { d with autoClosedClumps := d.autoClosedClumps + 1 }
    have ht : t.Jointless := ⟨h.joint, h.visit⟩
    obtain ⟨placement, joint, d, hleave⟩ := t.exists_leave parent outer
    have houter : (t.leave parent outer).outer = outer := by rw [hleave]
    have hjoint : (t.leave parent outer).joint = .identity := by
      rw [hleave]
      exact h.joint
    exact ih ⟨hjoint, ht.leave ho⟩ houter

end Jointless

/-- A tree that was built without joints has none. -/
theorem joint_finish {settings : Settings} {as : List Action}
    (has : ∀ x ∈ as, Aspect.concerns .joints x = false) :
    ∀ n ∈ ((State.start settings).run as).finish.1.walk, n.joint = none := by
  have hroot := (State.unplaced_finish settings as).2
  have hclosed := ((Jointless.start settings).run has).closeAll rfl
  rw [finish] at hroot ⊢
  generalize (State.start settings).run as = s at hclosed hroot
  obtain ⟨d, hflush⟩ := (s.closeAll s.outer).exists_flush
  have hvisit := hclosed.visit (s.closeAll s.outer).level List.mem_cons_self
  rw [Node.walk_eq]
  refine List.forall_mem_cons.2 ⟨hroot, ?_⟩
  rw [hflush]
  exact hvisit

/-! ### The finished scene -/

/-- **Joints, places and geometry do not meet.** Without the commands that are about one of them a
run ends in the same tree, but for what they are about, and with the same counts, but for its own.
Without the commands for joints there are none. -/
theorem aspects_independent (settings : Settings) (as : List Action) :
    let finished := fun as ↦ ((State.start settings).run as).finish
    let left := fun a : Aspect ↦ finished (as.filter (!a.concerns ·))
    (∀ a, (left a).1.without a = (finished as).1.without a ∧
      (left a).2.without a = (finished as).2.without a) ∧
    ∀ n ∈ (left .joints).1.walk, n.joint = none := by
  intro finished left
  refine ⟨fun a ↦ ?_, joint_finish fun x hx ↦ ?_⟩
  · obtain ⟨htree, hcounts⟩ := finish_congr (run_congr (s := .start settings) (a := a) rfl as)
    exact ⟨htree.symm, hcounts.symm⟩
  · simpa using (List.mem_filter.1 hx).2

end State

end RwxScene
