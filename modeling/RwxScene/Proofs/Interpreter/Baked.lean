import RwxScene.Proofs.Interpreter.Nesting
import RwxScene.Proofs.Interpreter.Surroundings

/-!
# A place that is baked

A host may say of the open clump that its vertices are already where its matrix would put them; the
node then stays at the identity. There is one mark for this and not one for each clump. The begin of
another clump takes it away, and so does the end of a clump.

So a mark is kept just if no other clump begins before the clump that it is about ends
(`Action.OpensNext`). If one does, the run is the one without the mark; if none does, the node of the
clump is at the identity. In both cases no other node is another one and nothing else is counted
(`mark_lasts_until_begin`).

The two runs of this comparison part at the end of the marked clump. From there on they differ in one
finished node, which `reset` puts at the identity in both of them, and in the count of repaired
matrices. Nobody looks at a finished node again, so what is the same after `reset` stays the same
(`State.run_congr_reset`), and a node that is finished stays in the tree (`State.mem_finished_run`).
-/

namespace RwxScene

/-- The next bracket of a clump is the begin of one. -/
def Action.OpensNext (as : List Action) : Prop :=
  (as.filterMap Action.command?).find? Command.nests = some (.scope .clumpBegin)

namespace Action

instance (as : List Action) : Decidable (OpensNext as) := inferInstanceAs (Decidable (_ = _))

variable {a : Action} {as : List Action} {c : Command}

theorem opensNext_cons_of_passes (h : a.Passes) : OpensNext (a :: as) ↔ OpensNext as := by
  rw [OpensNext, OpensNext]
  cases hc : a.command? with
  | none => rw [List.filterMap_cons_none hc]
  | some c =>
    rw [List.filterMap_cons_some hc, List.find?_cons_of_neg (Bool.eq_false_iff.1 (h c hc))]

theorem opensNext_cons_of_nests (hc : a.command? = some c) (h : c.nests = true) :
    OpensNext (a :: as) ↔ c = .scope .clumpBegin := by
  rw [OpensNext, List.filterMap_cons_some hc, List.find?_cons_of_pos h, Option.some.injEq]

end Action

/-! ### Without the place of one node -/

namespace Node

/-- The node at the identity, if this is its name. -/
def resetOwn (name : String) (n : Node) : Node :=
  { n with placement := if n.name = name then .identity else n.placement }

mutual

/-- The tree with the nodes of this name at the identity. -/
def reset (name : String) : Node → Node
  | ⟨own, placement, joint, children, batches⟩ =>
    resetOwn name ⟨own, placement, joint, resetAll name children, batches⟩

/-- Trees with the nodes of this name at the identity. -/
def resetAll (name : String) : List Node → List Node
  | [] => []
  | n :: ns => reset name n :: resetAll name ns

end

theorem reset_eq (name : String) (n : Node) :
    reset name n = resetOwn name { n with children := resetAll name n.children } := by
  cases n
  rfl

theorem resetAll_append (name : String) (ns ms : List Node) :
    resetAll name (ns ++ ms) = resetAll name ns ++ resetAll name ms := by
  induction ns with
  | nil => rfl
  | cons n ns ih => rw [List.cons_append, resetAll, resetAll, ih, List.cons_append]

/-- It does not matter where a node of this name is. -/
theorem reset_placement {name : String} {n : Node} (h : n.name = name) (placement : Placement) :
    reset name { n with placement } = reset name n := by
  rw [reset_eq, reset_eq, resetOwn, resetOwn, if_pos h, if_pos h]

end Node

/-- The level with the finished nodes of this name at the identity. -/
def Level.reset (name : String) (l : Level) : Level :=
  { l with node := { l.node with children := Node.resetAll name l.node.children } }

theorem Level.reset_adopt (name : String) (l : Level) (n : Node) :
    (l.adopt n).reset name = (l.reset name).adopt (n.reset name) := by
  rw [reset, adopt, Node.resetAll_append]
  rfl

/-- Surroundings with the finished nodes of this name at the identity, and with nothing repaired. -/
def Surroundings.reset (name : String) (e : Surroundings) : Surroundings :=
  { e with
    children := Node.resetAll name e.children
    outer := e.outer.map (Level.reset name)
    repaired := 0 }

/-- The state in its surroundings with the finished nodes of this name at the identity. -/
def State.reset (name : String) (s : State) : State := s.within (s.surroundings.reset name)

namespace State

variable {name : String} {s t : State}

theorem reset_congr (f g : State → State) (hf : ∀ s : State, g (s.reset name) = (f s).reset name)
    (h : s.reset name = t.reset name) : (f s).reset name = (f t).reset name := by
  rw [← hf, ← hf, h]

theorem reset_node (s : State) :
    Node.reset name s.level.node = Node.resetOwn name (s.reset name).level.node :=
  Node.reset_eq name s.level.node

/-! ### Brackets -/

theorem flush_reset (s : State) : (s.reset name).flush = s.flush.reset name := by
  rw [reset, reset, flush_within, surroundings_of_within (flush_within s)]

theorem place_congr_reset (h : s.reset name = t.reset name) :
    s.place.reset name = t.place.reset name := by
  have hbaked : ∀ s : State, (s.reset name).baked = s.baked := fun _ ↦ rfl
  refine reset_congr place
    (fun s ↦ s.place.within { s.place.surroundings with repaired := 0 }) (fun s ↦ ?_) h
  rw [place, place, hbaked]
  split <;> rfl

/-- The node of the clump that ends is reset with the rest. -/
theorem leave_reset (s : State) (parent : Level) (outer : List Level) :
    (s.leave parent outer).reset name =
      { s.flush.place.reset name with
        level := (parent.reset name).adopt (s.flush.place.level.node.reset name)
        outer := outer.map (Level.reset name)
        baked := false } := by
  rw [← Level.reset_adopt]
  rfl

theorem leave_congr_reset (h : s.reset name = t.reset name) {k l : Level} {ks ls : List Level}
    (hkl : k.reset name = l.reset name)
    (hks : ks.map (Level.reset name) = ls.map (Level.reset name)) :
    (s.leave k ks).reset name = (t.leave l ls).reset name := by
  have hplaced := place_congr_reset (reset_congr flush flush flush_reset h)
  rw [leave_reset, leave_reset, reset_node, reset_node, hplaced, hkl, hks]

theorem mark_clumpEnd_congr_reset (h : s.reset name = t.reset name) :
    (s.mark .clumpEnd).reset name = (t.mark .clumpEnd).reset name := by
  have houter : s.outer.map (Level.reset name) = t.outer.map (Level.reset name) :=
    congrArg outer h
  rw [mark, mark]
  cases hs : s.outer with
  | nil =>
    rw [hs] at houter
    rw [List.map_eq_nil_iff.1 houter.symm]
    exact reset_congr countUnmatched countUnmatched (fun _ ↦ rfl) h
  | cons k ks =>
    rw [hs] at houter
    obtain ⟨l, ls, ht, hkl, hks⟩ := List.map_eq_cons_iff.1 houter.symm
    rw [ht]
    exact leave_congr_reset h hkl.symm hks.symm

/-! ### Runs -/

theorem apply_reset (s : State) {c : Command} (hc : c.nests = false) :
    (s.reset name).apply c = (s.apply c).reset name := by
  rw [reset, reset, apply_within s _ hc, surroundings_apply s hc]

/-- Nobody looks at where a finished node is. -/
theorem act_congr_reset (h : s.reset name = t.reset name) (a : Action) :
    (s.act a).reset name = (t.act a).reset name := by
  rcases a.passes_or with ha | hbegin | hend
  · cases hc : a.command? with
    | some c =>
      rw [act_of_command hc, act_of_command hc]
      exact reset_congr (apply · c) (apply · c) (fun s ↦ apply_reset s (ha c hc)) h
    | none =>
      cases a with
      | line l =>
        cases l with
        | command c => exact absurd hc (by simp [Action.command?, Line.command?])
        | _ => exact h
      | command c => exact absurd hc (by simp [Action.command?])
      | markBaked => exact reset_congr markBaked markBaked (fun _ ↦ rfl) h
      | setPrototypeOpen isOpen =>
        exact reset_congr (setPrototypeOpen · isOpen) (setPrototypeOpen · isOpen) (fun _ ↦ rfl) h
      | setInstanceTransform m =>
        exact reset_congr (setInstanceTransform · m) (setInstanceTransform · m) (fun _ ↦ rfl) h
  · rw [act_of_command hbegin, act_of_command hbegin]
    exact reset_congr enter enter (fun _ ↦ rfl) h
  · rw [act_of_command hend, act_of_command hend]
    exact mark_clumpEnd_congr_reset h

theorem run_congr_reset (h : s.reset name = t.reset name) (as : List Action) :
    (s.run as).reset name = (t.run as).reset name := by
  induction as generalizing s t with
  | nil => exact h
  | cons a as ih => exact ih (act_congr_reset h a)

theorem closeAll_congr_reset (h : s.reset name = t.reset name) {ks ls : List Level}
    (hks : ks.map (Level.reset name) = ls.map (Level.reset name)) :
    (s.closeAll ks).reset name = (t.closeAll ls).reset name := by
  induction ks generalizing s t ls with
  | nil =>
    rw [List.map_eq_nil_iff.1 hks.symm]
    exact h
  | cons k ks ih =>
    obtain ⟨l, ls, rfl, hkl, hkls⟩ := List.map_eq_cons_iff.1 hks.symm
    refine ih (leave_congr_reset ?_ hkl.symm hkls.symm) hkls.symm
    exact reset_congr (count · fun d ↦ { d with autoClosedClumps := d.autoClosedClumps + 1 })
      (count · fun d ↦ { d with autoClosedClumps := d.autoClosedClumps + 1 }) (fun _ ↦ rfl) h

/-- Two outcomes are the same but for where the nodes of a name are and for what was repaired. -/
def SameBut (name : String) (x y : Node × Diagnostics) : Prop :=
  x.1.reset name = y.1.reset name ∧
    x.2 = { y.2 with repairedMatrices := x.2.repairedMatrices }

theorem finish_congr_reset (h : s.reset name = t.reset name) : SameBut name s.finish t.finish := by
  have houter : s.outer.map (Level.reset name) = t.outer.map (Level.reset name) :=
    congrArg outer h
  have hclosed := reset_congr flush flush flush_reset (closeAll_congr_reset h houter)
  refine ⟨?_, ?_⟩
  · show Node.reset name (State.level _).node = Node.reset name (State.level _).node
    rw [reset_node, reset_node, hclosed]
  · have hcounts := congrArg diagnostics hclosed
    exact congrArg (fun d ↦ { d with repairedMatrices := s.finish.2.repairedMatrices }) hcounts

/-! ### What is finished stays -/

/-- The nodes of all clumps that have ended. -/
def finished (s : State) : List Node := s.levels.flatMap fun l ↦ Node.visit l.node.children

theorem finished_congr (hchildren : t.level.node.children = s.level.node.children)
    (houter : t.outer = s.outer) : t.finished = s.finished := by
  rw [finished, finished, levels, levels, List.flatMap_cons, List.flatMap_cons, hchildren, houter]

/-- With the end of a clump its node is finished, and so is what was finished before. -/
theorem mem_finished_leave {parent : Level} {outer : List Level} (h : s.outer = parent :: outer)
    {n : Node} :
    n ∈ (s.leave parent outer).finished ↔ n = s.flush.place.level.node ∨ n ∈ s.finished := by
  have hchildren : s.flush.place.level.node.children = s.level.node.children := by
    obtain ⟨d, hflush⟩ := s.exists_flush
    obtain ⟨placement, joint, d', hplace⟩ := s.flush.exists_place
    rw [hplace, hflush]
    rfl
  have hadopted : (parent.adopt s.flush.place.level.node).node.children =
    parent.node.children ++ [s.flush.place.level.node] := rfl
  show n ∈ (parent.adopt s.flush.place.level.node :: outer).flatMap _ ↔ _
  rw [finished, levels, h, List.flatMap_cons, List.flatMap_cons, List.flatMap_cons, hadopted,
    Node.visit_append, Node.visit_singleton, hchildren]
  simp only [List.mem_append, List.mem_cons]
  tauto

theorem mem_finished_act {n : Node} (h : n ∈ s.finished) (a : Action) : n ∈ (s.act a).finished := by
  rcases a.passes_or with ha | hbegin | hend
  · have hsame := finished_congr (congrArg Surroundings.children (surroundings_act s ha))
      (congrArg Surroundings.outer (surroundings_act s ha))
    rwa [hsame]
  · rw [act_of_command hbegin]
    exact List.mem_append_right (Node.visit []) h
  · rw [act_of_command hend, apply, mark]
    split
    · exact h
    · next ho => exact (mem_finished_leave ho).2 (.inr h)

theorem mem_finished_run {n : Node} (h : n ∈ s.finished) (as : List Action) :
    n ∈ (s.run as).finished := by
  induction as generalizing s with
  | nil => exact h
  | cons a as ih => exact ih (mem_finished_act h a)

/-- Ending a clump that was left open is counted, and otherwise like ending any other. -/
theorem finish_of_cons {parent : Level} {outer : List Level} (h : s.outer = parent :: outer) :
    s.finish = ((s.count fun d ↦ { d with autoClosedClumps := d.autoClosedClumps + 1 }).leave
      parent outer).finish := by
  rw [finish, h]
  rfl

/-- What is finished is in the finished tree. -/
theorem mem_walk_finish {n : Node} (h : n ∈ s.finished) : n ∈ s.finish.1.walk := by
  generalize ho : s.outer = outer
  induction outer generalizing s with
  | nil =>
    obtain ⟨d, hflush⟩ := s.exists_flush
    rw [finish, ho, closeAll, hflush, Node.walk_eq]
    refine List.mem_cons_of_mem _ ?_
    rw [finished, levels, ho, List.flatMap_cons, List.flatMap_nil, List.append_nil] at h
    exact h
  | cons parent outer ih =>
    rw [finish_of_cons ho]
    exact ih ((mem_finished_leave (s := s.count _) ho).2 (.inr h)) rfl

/-! ### Marked and not marked -/

/-- The root is never placed, so it does not matter to it whether it is marked. -/
theorem finish_run_markBaked_of_nil (h : s.outer = []) (as : List Action) :
    (s.markBaked.run as).finish = (s.run as).finish := by
  induction as generalizing s with
  | nil =>
    have hmarked : s.markBaked.outer = [] := h
    rw [run_nil, run_nil, finish, finish, h, hmarked, closeAll, closeAll, flush_markBaked]
    rfl
  | cons a as ih =>
    rw [run_cons, run_cons]
    rcases a.passes_or with ha | hbegin | hend
    · rw [act_markBaked s ha]
      exact ih ((congrArg (·.outer) (surroundings_act s ha)).trans h)
    · rw [act_of_command hbegin, act_of_command hbegin]
      rfl
    · have hmarked : s.markBaked.outer = [] := h
      rw [act_of_command hend, act_of_command hend, apply, apply, mark, mark, h, hmarked]
      exact ih (s := s.countUnmatched) h

/-- The begin of a clump takes the mark away. -/
theorem run_markBaked_of_opensNext (s : State) {as : List Action} (h : Action.OpensNext as) :
    s.markBaked.run as = s.run as := by
  induction as generalizing s with
  | nil => exact absurd h (by decide)
  | cons a as ih =>
    rw [run_cons, run_cons]
    rcases a.passes_or with ha | hbegin | hend
    · rw [act_markBaked s ha]
      exact ih _ ((Action.opensNext_cons_of_passes ha).1 h)
    · rw [act_of_command hbegin, act_of_command hbegin]
      rfl
    · exact absurd ((Action.opensNext_cons_of_nests hend rfl).1 h) (by decide)

/-- A marked clump that ends stays where it was put when it was opened. -/
theorem node_place_markBaked (s : State) :
    s.markBaked.flush.place.level.node.name = s.level.node.name ∧
      s.markBaked.flush.place.level.node.placement = s.level.node.placement := by
  obtain ⟨d, hflush⟩ := s.exists_flush
  rw [flush_markBaked, hflush]
  exact ⟨rfl, rfl⟩

/-- Being placed is being left where one is, in other surroundings. -/
theorem exists_place_markBaked (s : State) :
    ∃ placement baked repaired, s.place = s.markBaked.place.within
      { s.markBaked.place.surroundings with placement, baked, repaired } := by
  cases hb : s.baked with
  | true =>
    have hmarked : s.markBaked = s := by rw [markBaked, ← hb]
    rw [hmarked]
    exact ⟨_, _, _, (within_surroundings s.place).symm⟩
  | false =>
    have hmarked : s.markBaked.baked = true := rfl
    rw [place, place, hmarked, hb]
    exact ⟨_, _, _, rfl⟩

/-- At its end a marked clump differs from one that is not marked in its place alone. -/
theorem leave_markBaked_reset (h : s.level.node.name = name) (parent : Level)
    (outer : List Level) :
    (s.markBaked.leave parent outer).reset name = (s.leave parent outer).reset name := by
  have hname := (node_place_markBaked s).1.trans h
  rw [leave_reset, leave_reset]
  rw [flush_markBaked] at hname ⊢
  obtain ⟨placement, baked, repaired, hplace⟩ := exists_place_markBaked s.flush
  rw [hplace, ← Node.reset_placement hname placement]
  rfl

section Kept

variable {parent : Level} {outer : List Level}

/-- A marked clump that has ended is in the finished tree, where it was put when it was opened, and
nothing else has come out otherwise. -/
theorem finish_run_leave_markBaked (hname : s.level.node.name = name)
    (hplacement : s.level.node.placement = .identity) (ho : s.outer = parent :: outer)
    (as : List Action) :
    SameBut name ((s.markBaked.leave parent outer).run as).finish
        ((s.leave parent outer).run as).finish ∧
      ∃ n ∈ ((s.markBaked.leave parent outer).run as).finish.1.walk,
        n.name = name ∧ n.placement = .identity := by
  have hreset := leave_markBaked_reset hname parent outer
  have hfinished : s.markBaked.flush.place.level.node ∈ (s.markBaked.leave parent outer).finished :=
    (mem_finished_leave (s := s.markBaked) ho).2 (.inl rfl)
  obtain ⟨hnode, hplaced⟩ := node_place_markBaked s
  exact ⟨finish_congr_reset (run_congr_reset hreset as), _,
    mem_walk_finish (mem_finished_run hfinished as), hnode.trans hname, hplaced.trans hplacement⟩

/-- If no other clump begins before the end of the marked one, the mark is kept for it. -/
theorem finish_run_markBaked_of_cons (hname : s.level.node.name = name)
    (hplacement : s.level.node.placement = .identity) (ho : s.outer = parent :: outer)
    {as : List Action} (h : ¬Action.OpensNext as) :
    SameBut name (s.markBaked.run as).finish (s.run as).finish ∧
      ∃ n ∈ (s.markBaked.run as).finish.1.walk, n.name = name ∧ n.placement = .identity := by
  induction as generalizing s with
  | nil =>
    -- the clump is still open at the end and is ended there
    set t := s.count fun d ↦ { d with autoClosedClumps := d.autoClosedClumps + 1 } with ht
    have hended := finish_run_leave_markBaked (s := t) hname hplacement ho []
    rw [run_nil, run_nil] at hended ⊢
    rw [finish_of_cons (s := s.markBaked) ho, finish_of_cons ho]
    exact hended
  | cons a as ih =>
    rw [run_cons, run_cons]
    rcases a.passes_or with ha | hbegin | hend
    · have hsame := surroundings_act s ha
      rw [act_markBaked s ha]
      exact ih ((congrArg (·.name) hsame).trans hname)
        ((congrArg (·.placement) hsame).trans hplacement) ((congrArg (·.outer) hsame).trans ho)
        (mt (Action.opensNext_cons_of_passes ha).2 h)
    · exact absurd ((Action.opensNext_cons_of_nests hbegin rfl).2 rfl) h
    · have hmarked : s.markBaked.outer = parent :: outer := ho
      rw [act_of_command hend, act_of_command hend, apply, apply, mark, mark, ho, hmarked]
      exact finish_run_leave_markBaked hname hplacement ho as

end Kept

theorem run_append (s : State) (as bs : List Action) : s.run (as ++ bs) = (s.run as).run bs :=
  List.foldl_append

end State

/-! ### The finished scene -/

/-- The open clump has its number for a name and is not placed yet. -/
theorem innermost_run (settings : Settings) (as : List Action) :
    let s := (State.start settings).run as
    let clump := (journal settings as).innermost
    s.level.node.name = nodeName clump ∧ s.level.node.placement = .identity ∧
      (s.outer = [] → clump = 0) := by
  intro s clump
  have hR := clumpwise_true settings
  have htracks : Tracks (fun _ _ ↦ True) s (journal settings as) :=
    (Tracks.start hR).run hR hR.stable.forall_start fun _ _ _ _ ↦ trivial
  have hunplaced := hR.stable.forall_run as (fun _ _ _ _ ↦ trivial) s.level List.mem_cons_self
  have hclump : clump = (Level.contents s.settings s.outer).length := htracks.innermost_eq
  have hcontent : s.content[clump]? = some (s.level.node.name, s.level.batches s.settings) := by
    rw [State.content, State.levels, Level.contents, Level.content, hclump,
      List.getElem?_append_right (Nat.le_refl _), Nat.sub_self, List.getElem?_cons_zero]
  refine ⟨(htracks.content _ _ hcontent).1, hunplaced.1, fun ho ↦ ?_⟩
  rw [hclump, ho]
  rfl

/-- **A mark lasts until a clump begins.** The clump that is open when a host says that its place is
baked stays at the identity if no other clump begins before it ends, and it is placed as without the
mark if one does. No other node is another one than without the mark, and nothing else is counted but
the matrices that were repaired. -/
theorem mark_lasts_until_begin (settings : Settings) (as bs : List Action) :
    let clump := (journal settings as).innermost
    let finished := fun as ↦ ((State.start settings).run as).finish
    let marked := finished (as ++ .markBaked :: bs)
    let plain := finished (as ++ bs)
    (Action.OpensNext bs → marked = plain) ∧
      (¬Action.OpensNext bs →
        ∃ n, marked.1.walk[clump]? = some n ∧ n.placement = .identity) ∧
      marked.1.reset (nodeName clump) = plain.1.reset (nodeName clump) ∧
      marked.2 = { plain.2 with repairedMatrices := marked.2.repairedMatrices } := by
  intro clump finished marked plain
  obtain ⟨hname, hplacement, hroot⟩ := innermost_run settings as
  have hmarked : marked = (((State.start settings).run as).markBaked.run bs).finish :=
    congrArg State.finish (State.run_append _ as (.markBaked :: bs))
  have hplain : plain = (((State.start settings).run as).run bs).finish :=
    congrArg State.finish (State.run_append _ as bs)
  have hlost : Action.OpensNext bs → marked = plain := fun h ↦ by
    rw [hmarked, hplain, State.run_markBaked_of_opensNext _ h]
  cases ho : ((State.start settings).run as).outer with
  | nil =>
    have hsame : marked = plain := by
      rw [hmarked, hplain, State.finish_run_markBaked_of_nil ho]
    refine ⟨hlost, fun _ ↦ ⟨marked.1, ?_, (State.unplaced_finish settings _).1⟩, ?_, ?_⟩
    · rw [show clump = 0 from hroot ho, Node.walk_eq]
      rfl
    · rw [hsame]
    · rw [hsame]
  | cons parent outer =>
    by_cases h : Action.OpensNext bs
    · have hsame := hlost h
      exact ⟨hlost, fun hnot ↦ absurd h hnot, by rw [hsame], by rw [hsame]⟩
    · obtain ⟨⟨htree, hcounts⟩, n, hn, hown, hidentity⟩ :=
        State.finish_run_markBaked_of_cons hname hplacement ho h
      rw [← hmarked] at htree hcounts hn
      rw [← hplain] at htree hcounts
      refine ⟨hlost, fun _ ↦ ⟨n, ?_, hidentity⟩, htree, hcounts⟩
      -- a name is that of one clump only, and says where the walk has it
      obtain ⟨k, hk⟩ := List.mem_iff_getElem?.1 hn
      have hrow := Node.row_of_walk (map_row_walk settings (as ++ .markBaked :: bs)) hk
      rw [show clump = k from nodeName_injective (hown.symm.trans hrow.1)]
      exact hk

/-- A clump that was moved and then marked: it stays at the identity if it ends next, and is moved as
without the mark if another clump begins and ends inside it first. -/
theorem mark_lasts_until_begin_moved :
    let as : List Action :=
      [.command (.scope .clumpBegin), .command (.transform (.translate ⟨4, 0, 0⟩))]
    let finished := fun bs ↦ ((State.start .initial).run (as ++ bs)).finish
    let ends : Action := .command (.scope .clumpEnd)
    let begins : Action := .command (.scope .clumpBegin)
    ¬Action.OpensNext [ends] ∧ Action.OpensNext [begins, ends, ends] ∧
      (∃ n, (finished [.markBaked, ends]).1.walk[1]? = some n ∧ n.placement = .identity) ∧
      finished [.markBaked, begins, ends, ends] = finished [begins, ends, ends] := by
  intro as finished ends begins
  have hends : ¬Action.OpensNext [ends] := by decide
  have hbegins : Action.OpensNext [begins, ends, ends] := by decide
  exact ⟨hends, hbegins, (mark_lasts_until_begin .initial as [ends]).2.1 hends,
    (mark_lasts_until_begin .initial as [begins, ends, ends]).1 hbegins⟩

/-- A mark does not stay with the clump that was open: the node of this one is not at the identity. -/
theorem not_identity_of_markBaked :
    let before : List Action :=
      [.command (.scope .clumpBegin), .command (.transform (.translate ⟨4, 0, 0⟩))]
    let after : List Action := [.command (.scope .clumpBegin), .command (.scope .clumpEnd),
      .command (.scope .clumpEnd)]
    (journal .initial before).innermost = 1 ∧
      ∃ n, ((State.start .initial).run (before ++ .markBaked :: after)).finish.1.walk[1]? = some n ∧
        n.name = nodeName 1 ∧ n.placement ≠ .identity := by
  intro before after
  set root := ((State.start .initial).run (before ++ .markBaked :: after)).finish.1
  have hchildren : ∃ n, root.children = [n] ∧ n.name = nodeName 1 ∧ n.placement ≠ .identity := by
    refine ⟨_, rfl, ?_, ?_⟩
    · decide +kernel
    · decide +kernel
  obtain ⟨n, hn, hname, hplacement⟩ := hchildren
  refine ⟨by decide +kernel, n, ?_, hname, hplacement⟩
  rw [Node.walk_eq, hn, Node.visit_cons]
  rfl

end RwxScene
