import RwxScene.Proofs.Interpreter.Clumpwise
import RwxScene.Proofs.Mesh.SelfContained
import RwxScene.Proofs.Scene.Validation

/-!
# What is handed out

Every batch of a finished tree stands on its own (`State.selfContained_finish`), and the validation
has only the values of vertices left to complain about. There are two places where a batch is ended,
the end of a clump and a change of signature; at both the open batch of a level is finished, so that
it is enough that open batches have no idle vertices (`Level.Tight`).
-/

namespace RwxScene

namespace Level

/-- The level is well-formed, and its open batch has no idle vertices. -/
structure Tight (l : Level) : Prop where
  wellFormed : l.WellFormed
  batch : ∀ b, l.batch = some b → b.Tight

section Join

variable {settings : Settings} {l : Level}

/-- The open batch is what its builder is finished to, which has triangles. -/
theorem exists_finish_of_mem {c : Batch} (hc : c ∈ l.openBatch settings) :
    ∃ b, l.batch = some b ∧ b.triangles ≠ #[] ∧ (b.finish settings).1 = c := by
  rw [openBatch] at hc
  cases hb : l.batch with
  | none =>
    rw [hb] at hc
    exact absurd hc List.not_mem_nil
  | some b =>
    rw [hb] at hc
    replace hc : c ∈ if b.isEmpty then [] else [(b.finish settings).1] := hc
    split at hc
    · exact absurd hc List.not_mem_nil
    · next hne =>
      exact ⟨b, rfl, fun he ↦ hne (Array.isEmpty_iff.2 he), (List.mem_singleton.1 hc).symm⟩

theorem Tight.selfContained_openBatch (h : l.Tight) :
    ∀ b ∈ l.openBatch settings, b.SelfContained := by
  intro c hc
  obtain ⟨b, hb, hne, rfl⟩ := exists_finish_of_mem hc
  exact (h.wellFormed.batch b hb).selfContained (h.batch b hb) hne settings

theorem Tight.join (h : l.Tight) (m : Material) {ts : List (Triangle Nat)}
    (hts : ∀ t ∈ ts, ∀ o ∈ t.toList, o < l.pool.size) :
    (l.join settings m m.signature ts).Tight := by
  refine ⟨h.wellFormed.join settings m hts, fun c hc ↦ ?_⟩
  have hfresh := (Builder.tight_new m m.signature).pushAll l.pool ts
  cases hb : l.batch with
  | none =>
    rw [join_of_none settings m ts hb] at hc
    exact Option.some.inj hc ▸ hfresh
  | some b =>
    by_cases hsig : b.signature = m.signature
    · rw [join_of_eq settings m ts hb hsig] at hc
      exact Option.some.inj hc ▸ (h.batch b hb).pushAll l.pool ts
    · rw [join_of_ne settings m ts hb hsig] at hc
      exact Option.some.inj hc ▸ hfresh

/-- A batch that drawing leaves with the node was there before, be it as the open one. -/
theorem mem_batches_of_mem_join {m : Material} {ts : List (Triangle Nat)} {b : Batch}
    (h : b ∈ (l.join settings m m.signature ts).node.batches) : b ∈ l.batches settings := by
  cases hb : l.batch with
  | none =>
    rw [join_of_none settings m ts hb] at h
    exact List.mem_append_left _ h
  | some c =>
    by_cases hsig : c.signature = m.signature
    · rw [join_of_eq settings m ts hb hsig] at h
      exact List.mem_append_left _ h
    · rw [join_of_ne settings m ts hb hsig] at h
      exact h

end Join

theorem stable_tight (settings : Settings) : Stable settings (fun _ ↦ True) Tight where
  start := ⟨(stable_wellFormed settings).start, fun _ hb ↦ absurd hb (by simp [opened])⟩
  vertex l v h := ⟨(stable_wellFormed settings).vertex l v h.wellFormed, h.batch⟩
  draw l f offsets _ hf h := by
    obtain ⟨memo, hmemo, hdraw⟩ := h.wellFormed.draw_eq settings f offsets
    rw [hdraw]
    exact Tight.join (l := { l with memo }) ⟨⟨hmemo, h.wellFormed.batch⟩, h.batch⟩ _
      (lt_of_mem_triangulate hf)
  enter l name h := ⟨(stable_wellFormed settings).enter l name h.wellFormed,
    fun _ hb ↦ absurd hb (by simp [opened])⟩
  adopt l n h := ⟨(stable_wellFormed settings).adopt l n h.wellFormed, h.batch⟩
  quiet l matrix material memo scopes hmemo h :=
    ⟨(stable_wellFormed settings).quiet l matrix material memo scopes hmemo h.wellFormed, h.batch⟩

end Level

/-- The batches of a clump stand on their own, the open one included. -/
theorem clumpwise_selfContained (settings : Settings) :
    Clumpwise settings (fun _ ↦ True) Level.Tight fun bs _ ↦ ∀ b ∈ bs, b.SelfContained where
  stable := Level.stable_tight settings
  nil _ hb := absurd hb List.not_mem_nil
  skip _ _ _ _ hbs := hbs
  draw l _ _ f offsets hf hl _ hres _ hbs b hb := by
    rcases List.mem_append.1 hb with hb | hb
    · obtain ⟨memo, hmemo, hdraw⟩ := hl.wellFormed.draw_eq settings f offsets
      rw [hdraw] at hb
      exact hbs b (Level.mem_batches_of_mem_join (l := { l with memo }) hb)
    · exact ((Level.stable_tight settings).draw l f offsets hf hres hl).selfContained_openBatch b hb

/-- What every builder gets by being finished, the batches of a clump have. -/
theorem clumpwise_of_finish {settings : Settings} {P : Batch → Prop}
    (h : ∀ b : Builder, P (b.finish settings).1) :
    Clumpwise settings (fun _ ↦ True) Level.WellFormed fun bs _ ↦ ∀ b ∈ bs, P b where
  stable := Level.stable_wellFormed settings
  nil _ hb := absurd hb List.not_mem_nil
  skip _ _ _ _ hbs := hbs
  draw l _ _ f offsets _ hl _ _ _ hbs b hb := by
    rcases List.mem_append.1 hb with hb | hb
    · obtain ⟨memo, hmemo, hdraw⟩ := hl.draw_eq settings f offsets
      rw [hdraw] at hb
      exact hbs b (Level.mem_batches_of_mem_join (l := { l with memo }) hb)
    · obtain ⟨c, -, -, rfl⟩ := Level.exists_finish_of_mem hb
      exact h c

/-- What holds of the batches of every clump holds of all batches. -/
theorem Clumpwise.of_mem_allBatches {settings : Settings} {Q : Level → Prop} {P : Batch → Prop}
    (h : Clumpwise settings (fun _ ↦ True) Q fun bs _ ↦ ∀ b ∈ bs, P b) (as : List Action) {b : Batch}
    (hb : b ∈ ((State.start settings).run as).finish.1.allBatches) : P b := by
  obtain ⟨n, hn, hb⟩ := List.mem_flatMap.1 hb
  obtain ⟨k, hk⟩ := List.mem_iff_getElem?.1 hn
  exact ((h.tree as fun _ _ _ _ ↦ trivial).2 k n hk).2 b hb

/-- **Batches stand on their own.** Whatever has happened, every batch of the finished tree can be
drawn as it is, and no validation finds a structural fault in the tree. -/
theorem State.selfContained_finish (settings : Settings) (as : List Action) :
    (∀ b ∈ ((State.start settings).run as).finish.1.allBatches, b.SelfContained) ∧
      ∀ o, ∀ p ∈ (Validation.validate o ((State.start settings).run as).finish.1).problems,
        p.fault.isStructural = false := by
  have hbatches : ∀ b ∈ ((State.start settings).run as).finish.1.allBatches, b.SelfContained := by
    intro b hb
    obtain ⟨n, hn, hb⟩ := List.mem_flatMap.1 hb
    obtain ⟨k, hk⟩ := List.mem_iff_getElem?.1 hn
    exact (((clumpwise_selfContained settings).tree as fun _ _ _ _ ↦ trivial).2 k n hk).2 b hb
  refine ⟨hbatches, fun o p hp ↦ ?_⟩
  obtain ⟨b, hb, hfault⟩ := Validation.exists_mem_faults hp
  exact (hbatches b hb).isStructural_eq_false hfault

end RwxScene
