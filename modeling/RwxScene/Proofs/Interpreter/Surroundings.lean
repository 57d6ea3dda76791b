import RwxScene.Proofs.Interpreter.Run

/-!
# What lies around an open clump

Between two brackets of clumps a run works on the innermost clump alone: on its vertices, its open
batch, its matrix and material. What was finished inside it, the clumps around it and the mark that
its place is baked are its `Surroundings`. A command that is no bracket of a clump neither reads nor
changes them: following it commutes with putting the state into other surroundings (`apply_within`).

Each lemma on the way is about one operation of the interpreter. That the surroundings stay as they
are is the same statement again, for the surroundings that the state has already
(`surroundings_apply`).
-/

namespace RwxScene

/-- A clump begins or ends with the command. -/
def Command.nests : Command → Bool
  | .scope .clumpBegin => true
  | .scope .clumpEnd => true
  | _ => false

namespace Action

/-- No clump begins or ends with the action. -/
def Passes (a : Action) : Prop := ∀ c, a.command? = some c → c.nests = false

/-- An action passes, or a clump begins or ends with it. -/
theorem passes_or (a : Action) : a.Passes ∨ a.command? = some (.scope .clumpBegin) ∨
    a.command? = some (.scope .clumpEnd) := by
  cases hc : a.command? with
  | none => exact .inl fun c h ↦ absurd (hc.symm.trans h) (by simp)
  | some c =>
    by_cases hnests : c.nests = true
    · right
      cases c with
      | scope m =>
        cases m with
        | clumpBegin => exact .inl rfl
        | clumpEnd => exact .inr rfl
        | _ => exact absurd hnests (by decide)
      | _ => exact absurd hnests Bool.false_ne_true
    · refine .inl fun d hd ↦ ?_
      obtain rfl := Option.some.inj (hc.symm.trans hd)
      exact Bool.eq_false_iff.2 hnests

end Action

/-- What an open clump neither reads nor changes until the next bracket of a clump. -/
structure Surroundings where
  name : String
  placement : Placement
  children : List Node
  outer : List Level
  baked : Bool
  /-- The count of repaired matrices, which goes up at the end of a clump only. -/
  repaired : Nat

namespace State

def surroundings (s : State) : Surroundings where
  name := s.level.node.name
  placement := s.level.node.placement
  children := s.level.node.children
  outer := s.outer
  baked := s.baked
  repaired := s.diagnostics.repairedMatrices

/-- The state in other surroundings. -/
def within (s : State) (e : Surroundings) : State :=
  { s with
    level := { s.level with
      node := { s.level.node with
        name := e.name, placement := e.placement, children := e.children } }
    outer := e.outer
    baked := e.baked
    diagnostics := { s.diagnostics with repairedMatrices := e.repaired } }

theorem within_surroundings (s : State) : s.within s.surroundings = s := by
  -- a node is not equal to the one rebuilt from its parts by definition, so it is taken apart
  obtain ⟨settings, ⟨⟨name, placement, pose, children, batches⟩, matrix, material, memo, scopes,
    pool, batch⟩, outer, joint, joints, clumps, baked, prototypeOpen, inst, d⟩ := s
  rfl

theorem markBaked_eq_within (s : State) :
    s.markBaked = s.within { s.surroundings with baked := true } :=
  congrArg markBaked (within_surroundings s).symm

/-- What does the same in all surroundings leaves them as they are. -/
theorem surroundings_of_within {f : State → State} {s : State}
    (hf : ∀ e, f (s.within e) = (f s).within e) : (f s).surroundings = s.surroundings := by
  have hsame := hf s.surroundings
  rw [within_surroundings] at hsame
  show _ = ((f s).within s.surroundings).surroundings
  rw [← hsame]

/-- To what does the same in all surroundings, a mark that the place is baked does not matter. -/
theorem markBaked_of_within {f : State → State} {s : State}
    (hf : ∀ e, f (s.within e) = (f s).within e) : f s.markBaked = (f s).markBaked := by
  rw [markBaked_eq_within, hf, ← surroundings_of_within hf, markBaked_eq_within]

/-! ### Faces -/

theorem flush_within (s : State) (e : Surroundings) : (s.within e).flush = s.flush.within e := by
  have hbatch : (s.within e).level.batch = s.level.batch := rfl
  rw [flush, flush, hbatch]
  cases s.level.batch with
  | none => rfl
  | some b =>
    show ite _ _ _ = (ite _ _ _ : State).within e
    split <;> rfl

theorem flush_markBaked (s : State) : s.markBaked.flush = s.flush.markBaked :=
  markBaked_of_within (flush_within s)

theorem flushUnless_within (s : State) (e : Surroundings) (signature : Signature) :
    (s.within e).flushUnless signature = (s.flushUnless signature).within e := by
  have hbatch : (s.within e).level.batch = s.level.batch := rfl
  rw [flushUnless, flushUnless, hbatch]
  cases s.level.batch with
  | none => rfl
  | some b =>
    show ite _ _ _ = (ite _ _ _ : State).within e
    split
    · rfl
    · exact flush_within s e

theorem addResolved_within (s : State) (e : Surroundings) (f : Face) (offsets : List Nat) :
    (s.within e).addResolved f offsets = (s.addResolved f offsets).within e := by
  have hextend : ∀ (s : State) (material : Material) (signature : Signature)
      (ts : List (Triangle Nat)),
      ((s.within e).flushUnless signature).extend material signature ts =
        ((s.flushUnless signature).extend material signature ts).within e := by
    intro s material signature ts
    rw [flushUnless_within]
    rfl
  rw [addResolved, addResolved]
  show ite (s.level.retagged f.tag = true) _ _ =
    (ite (s.level.retagged f.tag = true) _ _ : State).within e
  split
  · exact hextend s _ _ _
  · exact hextend { s with level := s.level.remember } _ _ _

theorem addFace_within (s : State) (e : Surroundings) (f : Face) :
    (s.within e).addFace f = (s.addFace f).within e := by
  have hpool : (s.within e).level.pool = s.level.pool := rfl
  rw [addFace, addFace, hpool]
  split
  · rfl
  · exact addResolved_within s e f _

/-! ### Commands -/

theorem mark_within (s : State) (e : Surroundings) {m : ScopeMark}
    (hm : (Command.scope m).nests = false) : (s.within e).mark m = (s.mark m).within e := by
  cases m with
  | clumpBegin => exact absurd hm (by decide)
  | clumpEnd => exact absurd hm (by decide)
  | transformEnd =>
    have hscopes : (s.within e).level.scopes = s.level.scopes := rfl
    rw [mark, mark, hscopes]
    split <;> rfl
  | jointEnd =>
    have hjoints : (s.within e).joints = s.joints := rfl
    rw [mark, mark, hjoints]
    split <;> rfl
  | _ => rfl

/-- A command that is no bracket of a clump does the same in all surroundings. -/
theorem apply_within (s : State) (e : Surroundings) {c : Command} (hc : c.nests = false) :
    (s.within e).apply c = (s.apply c).within e := by
  cases c with
  | face f => exact addFace_within s e f
  | transform t => cases t <;> rfl
  | scope m => exact mark_within s e hc
  | _ => rfl

/-- A command that is no bracket of a clump leaves the surroundings as they are. -/
theorem surroundings_apply (s : State) {c : Command} (hc : c.nests = false) :
    (s.apply c).surroundings = s.surroundings :=
  surroundings_of_within (f := (apply · c)) fun e ↦ apply_within s e hc

/-- Until the next bracket of a clump a mark that the place is baked only waits. -/
theorem apply_markBaked (s : State) {c : Command} (hc : c.nests = false) :
    s.markBaked.apply c = (s.apply c).markBaked :=
  markBaked_of_within (f := (apply · c)) fun e ↦ apply_within s e hc

theorem act_markBaked (s : State) {a : Action} (ha : a.Passes) :
    s.markBaked.act a = (s.act a).markBaked := by
  cases hc : a.command? with
  | some c =>
    rw [act_of_command hc, act_of_command hc]
    exact apply_markBaked s (ha c hc)
  | none =>
    cases a with
    | line l =>
      cases l with
      | command c => exact absurd hc (by simp [Action.command?, Line.command?])
      | _ => rfl
    | command c => exact absurd hc (by simp [Action.command?])
    | _ => rfl

/-- Of the surroundings only the mark can change, and only if the host sets it. -/
theorem surroundings_act (s : State) {a : Action} (ha : a.Passes) :
    (s.act a).surroundings = { s.surroundings with baked := (s.act a).baked } := by
  cases hc : a.command? with
  | some c =>
    have hsame := surroundings_apply s (ha c hc)
    rw [act_of_command hc, hsame, show (s.apply c).baked = s.baked from congrArg (·.baked) hsame]
    rfl
  | none =>
    obtain ⟨baked, prototypeOpen, inst, hact⟩ := act_of_no_command hc s
    rw [hact]
    rfl

end State

end RwxScene
