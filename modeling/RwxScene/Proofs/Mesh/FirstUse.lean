import Mathlib
import RwxScene.Proofs.Mesh.Shading
import RwxScene.Proofs.Mesh.Slots

/-!
# Vertices in the order of their first use

A builder copies a vertex when its offset is used for the first time, so what it holds is settled by
the offsets that were pushed, in a row: the copies are the vertices at the offsets without
repetitions, and the slot of an offset is its number among these (`Builder.Ranked`). Nothing else
goes in; a pool that gets more vertices between two pushes has the same ones at the old offsets
(`Builder.fill_eq_pushAll`).
-/

namespace RwxScene

/-! ### Without repetitions -/

section Repetitions

variable {α : Type} [BEq α] [LawfulBEq α]

/-- A last element is kept if it was not there before. -/
theorem eraseDups_concat (as : List α) (a : α) :
    (as ++ [a]).eraseDups = if a ∈ as then as.eraseDups else as.eraseDups ++ [a] := by
  rw [List.eraseDups_append, List.removeAll, List.filter_singleton]
  by_cases ha : a ∈ as
  · simp [ha]
  · simp [ha, List.eraseDups_cons]

/-- What is left stands in the order of its first occurrences. -/
theorem pairwise_idxOf_eraseDups (as : List α) :
    as.eraseDups.Pairwise fun a b ↦ as.idxOf a < as.idxOf b := by
  induction as using List.reverseRecOn with
  | nil => exact .nil
  | append_singleton as a ih =>
    have hold : as.eraseDups.Pairwise fun b c ↦ (as ++ [a]).idxOf b < (as ++ [a]).idxOf c := by
      refine ih.imp_of_mem fun hb hc h ↦ ?_
      rwa [List.idxOf_append_of_mem (List.mem_eraseDups.1 hb),
        List.idxOf_append_of_mem (List.mem_eraseDups.1 hc)]
    rw [eraseDups_concat]
    split
    · exact hold
    · next ha =>
      refine List.pairwise_append.2 ⟨hold, List.pairwise_singleton _ _, fun b hb c hc ↦ ?_⟩
      obtain rfl := List.mem_singleton.1 hc
      have hb := List.mem_eraseDups.1 hb
      rw [List.idxOf_append_of_mem hb, List.idxOf_append_of_notMem ha]
      exact Nat.lt_add_right _ (List.idxOf_lt_length_of_mem hb)

theorem nodup_eraseDups (as : List α) : as.eraseDups.Nodup := by
  refine (pairwise_idxOf_eraseDups as).imp fun {a b} h ↦ ?_
  rintro rfl
  exact Nat.lt_irrefl _ h

omit [BEq α] [LawfulBEq α] in
theorem getElem?_concat_eq_some_iff {as : List α} {a b : α} {k : ℕ} :
    (as ++ [a])[k]? = some b ↔ as[k]? = some b ∨ k = as.length ∧ a = b := by
  rcases Nat.lt_trichotomy k as.length with hk | rfl | hk
  · rw [List.getElem?_append_left hk, or_iff_left fun h ↦ Nat.ne_of_lt hk h.1]
  · simp
  · rw [List.getElem?_eq_none (by simp; omega), List.getElem?_eq_none (by omega)]
    simp
    omega

end Repetitions

namespace Builder

variable {pool : Pool} {offsets : List ℕ} {b : Builder}

/-! ### Ranks -/

/-- The builder has copied the vertices at some offsets, each at its first use, and knows them by
their ranks. -/
structure Ranked (pool : Pool) (offsets : List ℕ) (b : Builder) : Prop where
  vertices : b.vertices.toList.map some = offsets.eraseDups.map (pool[·]?)
  slots : ∀ o k : ℕ, b.slots[o]? = some k ↔ offsets.eraseDups[k]? = some o

theorem ranked_new (pool : Pool) (m : Material) (signature : Signature) :
    (new m signature).Ranked pool [] where
  vertices := rfl
  slots o k := by simp [new]

namespace Ranked

theorem size_vertices (h : b.Ranked pool offsets) :
    b.vertices.size = offsets.eraseDups.length := by
  simpa using congrArg List.length h.vertices

/-- An offset has a slot just if it was used. -/
theorem getElem?_slots_eq_none_iff (h : b.Ranked pool offsets) {o : ℕ} :
    b.slots[o]? = none ↔ o ∉ offsets := by
  rw [Option.eq_none_iff_forall_not_mem, ← List.mem_eraseDups, List.mem_iff_getElem?, not_exists]
  exact forall_congr' fun k ↦ not_congr (h.slots o k)

/-- The slot of an offset is its rank. -/
theorem getElem?_slots (h : b.Ranked pool offsets) {o : ℕ} (ho : o ∈ offsets) :
    b.slots[o]? = some (offsets.eraseDups.idxOf o) :=
  (h.slots o _).2 (List.getElem?_idxOf (List.mem_eraseDups.2 ho))

theorem place (h : b.Ranked pool offsets) {o : ℕ} (ho : o < pool.size) :
    (b.place pool o).2.Ranked pool (offsets ++ [o]) := by
  by_cases hmem : o ∈ offsets
  · have hplace : (b.place pool o).2 = b := by
      rw [Builder.place, h.getElem?_slots hmem]
    rw [hplace]
    refine ⟨?_, ?_⟩ <;> rw [eraseDups_concat, if_pos hmem]
    · exact h.vertices
    · exact h.slots
  · have hnone := h.getElem?_slots_eq_none_iff.2 hmem
    rw [place_of_none hnone]
    refine ⟨?_, fun o' k ↦ ?_⟩ <;> rw [eraseDups_concat, if_neg hmem]
    · have hvertex : some (pool.vertex o) = pool[o]? := by
        rw [Pool.vertex, Array.getElem?_eq_getElem ho, Option.getD_some]
      rw [Array.toList_push, List.map_append, List.map_append, h.vertices, List.map_singleton,
        List.map_singleton, hvertex]
    · show (b.slots.insert o b.vertices.size)[o']? = _ ↔ _
      rw [Std.TreeMap.getElem?_insert, getElem?_concat_eq_some_iff, h.size_vertices]
      by_cases heq : o = o'
      · subst heq
        have hunused : offsets.eraseDups[k]? ≠ some o :=
          fun hk ↦ hmem (List.mem_eraseDups.1 (List.mem_of_getElem? hk))
        rw [if_pos Std.ReflCmp.compare_self, Option.some.injEq, eq_comm, or_iff_right hunused,
          and_iff_left rfl]
      · rw [if_neg (mt Std.LawfulEqCmp.compare_eq_iff_eq.1 heq), h.slots,
          or_iff_left fun hk ↦ heq hk.2]

theorem push (h : b.Ranked pool offsets) {t : Triangle ℕ} (ht : ∀ o ∈ t.toList, o < pool.size) :
    (b.push pool t).Ranked pool (offsets ++ t.toList) := by
  obtain ⟨hfirst, hsecond, hthird⟩ :
      t.first < pool.size ∧ t.second < pool.size ∧ t.third < pool.size := by
    simpa [Triangle.toList] using ht
  have hplaced := ((h.place hfirst).place hsecond).place hthird
  rw [List.append_assoc, List.append_assoc] at hplaced
  exact ⟨hplaced.vertices, hplaced.slots⟩

/-- The offsets that were pushed settle what is copied. -/
theorem pushAll (h : b.Ranked pool offsets) {ts : List (Triangle ℕ)}
    (hts : ∀ t ∈ ts, ∀ o ∈ t.toList, o < pool.size) :
    (b.pushAll pool ts).Ranked pool (offsets ++ ts.flatMap Triangle.toList) := by
  induction ts generalizing b offsets with
  | nil => rwa [List.flatMap_nil, List.append_nil]
  | cons t ts ih =>
    obtain ⟨ht, hts⟩ := List.forall_mem_cons.1 hts
    rw [pushAll_cons, List.flatMap_cons, ← List.append_assoc]
    exact ih (h.push ht) hts

end Ranked

/-! ### Pools that grow -/

/-- A longer pool has the same vertices at the old offsets. -/
theorem vertex_of_isPrefix {p : Pool} (hp : p.toList <+: pool.toList) {o : ℕ} (ho : o < p.size) :
    p.vertex o = pool.vertex o := by
  obtain ⟨rest, hrest⟩ := hp
  rw [Pool.vertex, Pool.vertex, ← Array.getElem?_toList, ← Array.getElem?_toList, ← hrest,
    List.getElem?_append_left (by rwa [Array.length_toList])]

theorem push_of_isPrefix {p : Pool} (hp : p.toList <+: pool.toList) {t : Triangle ℕ}
    (ht : ∀ o ∈ t.toList, o < p.size) (b : Builder) : b.push p t = b.push pool t := by
  have hplace : ∀ (b : Builder), ∀ o ∈ t.toList, b.place p o = b.place pool o := by
    intro b o ho
    rw [place, place, vertex_of_isPrefix hp (ht o ho)]
  rw [push, push, hplace b t.first (by simp [Triangle.toList])]
  simp only [hplace _ t.second (by simp [Triangle.toList]),
    hplace _ t.third (by simp [Triangle.toList])]

/-- What is pushed while the pool grows is pushed as well when it has grown. -/
theorem fill_eq_pushAll (b : Builder) {pushes : List (Pool × Triangle ℕ)}
    (h : ∀ x ∈ pushes, x.1.toList <+: pool.toList ∧ ∀ o ∈ x.2.toList, o < x.1.size) :
    b.fill pushes = b.pushAll pool (pushes.map Prod.snd) := by
  induction pushes generalizing b with
  | nil => rfl
  | cons x pushes ih =>
    obtain ⟨⟨hlonger, hrange⟩, h⟩ := List.forall_mem_cons.1 h
    show (b.push x.1 x.2).fill pushes = (b.push pool x.2).pushAll pool (pushes.map Prod.snd)
    rw [push_of_isPrefix hlonger hrange, ih _ h]

/-! ### What a builder holds -/

/-- The slots number the offsets that were used, and no others. -/
theorem Ranked.bijOn_slot (h : b.Ranked pool offsets) :
    Set.BijOn b.slot {o | o ∈ offsets} (Set.Iio b.vertices.size) := by
  have hslot : ∀ o ∈ offsets, b.slot o = offsets.eraseDups.idxOf o :=
    fun o ho ↦ slot_eq (h.getElem?_slots ho)
  refine ⟨fun o ho ↦ ?_, fun o ho o' ho' heq ↦ ?_, fun k hk ↦ ?_⟩
  · rw [Set.mem_Iio, hslot o ho, h.size_vertices]
    exact List.idxOf_lt_length_of_mem (List.mem_eraseDups.2 ho)
  · rw [hslot o ho, hslot o' ho'] at heq
    exact (List.idxOf_inj (List.mem_eraseDups.2 ho)).1 heq
  · rw [Set.mem_Iio, h.size_vertices] at hk
    have ho := List.mem_eraseDups.1 (List.getElem_mem hk)
    refine ⟨offsets.eraseDups[k], ho, ?_⟩
    rw [hslot _ ho, (nodup_eraseDups offsets).idxOf_getElem]

theorem Ranked.map_vertices (h : b.Ranked pool offsets) {β : Type} (f : Vertex → β) :
    (b.vertices.map f).toList.map some = offsets.eraseDups.map fun o ↦ pool[o]?.map f := by
  have hmapped := congrArg (List.map (Option.map f)) h.vertices
  rw [List.map_map, List.map_map] at hmapped
  rw [Array.toList_map, List.map_map]
  exact hmapped

/-- The index of a corner is the slot of its offset. -/
theorem indices_pushAll (pool : Pool) (m : Material) (signature : Signature)
    (ts : List (Triangle ℕ)) :
    ((new m signature).pushAll pool ts).indices =
      (ts.flatMap Triangle.toList).map ((new m signature).pushAll pool ts).slot := by
  rw [indices, ((keyed_new pool m signature).relabels_pushAll ts).triangles, List.flatMap_append,
    List.flatMap_map, List.map_flatMap]
  rfl

/-- **Vertices are copied at their first use.** A builder holds the vertices of the pool at the
offsets that were pushed, each once and in the order in which they were used first. The slots number
these offsets by that order. The index of a corner is the slot of its offset, so corners share a
vertex just if they have the same offset. It makes no difference that the pool grows meanwhile. -/
theorem copies_at_first_use (m : Material) (signature : Signature) (pool : Pool)
    {pushes : List (Pool × Triangle ℕ)}
    (h : ∀ x ∈ pushes, x.1.toList <+: pool.toList ∧ ∀ o ∈ x.2.toList, o < x.1.size) :
    let b := (new m signature).fill pushes
    let offsets := pushes.flatMap fun x ↦ x.2.toList
    let used := offsets.eraseDups
    ((∀ o, o ∈ used ↔ o ∈ offsets) ∧
        used.Pairwise fun o o' ↦ offsets.idxOf o < offsets.idxOf o') ∧
      (b.positions.toList.map some = used.map (fun o ↦ pool[o]?.map Vertex.position) ∧
        b.uvs.toList.map some = used.map fun o ↦ pool[o]?.map Vertex.uv) ∧
      ((∀ o k : ℕ, b.slots[o]? = some k ↔ used[k]? = some o) ∧
        Set.BijOn b.slot {o | o ∈ offsets} (Set.Iio b.positions.size)) ∧
      (b.indices = offsets.map b.slot ∧
        ∀ i j, i < offsets.length → j < offsets.length →
          (b.indices[i]? = b.indices[j]? ↔ offsets[i]? = offsets[j]?)) ∧
      b = (new m signature).pushAll pool (pushes.map Prod.snd) := by
  intro b offsets used
  have hfill : b = (new m signature).pushAll pool (pushes.map Prod.snd) := fill_eq_pushAll _ h
  have hoffsets : (pushes.map Prod.snd).flatMap Triangle.toList = offsets :=
    List.flatMap_map _ _ pushes
  have hrange : ∀ t ∈ pushes.map Prod.snd, ∀ o ∈ t.toList, o < pool.size := by
    intro t ht o ho
    obtain ⟨x, hx, rfl⟩ := List.mem_map.1 ht
    obtain ⟨hlonger, hlt⟩ := h x hx
    exact (hlt o ho).trans_le hlonger.length_le
  have hranked : b.Ranked pool offsets := by
    have hpushed := (ranked_new pool m signature).pushAll hrange
    rwa [List.nil_append, hoffsets, ← hfill] at hpushed
  have hindices : b.indices = offsets.map b.slot := by
    rw [hfill, indices_pushAll, hoffsets]
  refine ⟨⟨fun o ↦ List.mem_eraseDups, pairwise_idxOf_eraseDups offsets⟩,
    ⟨hranked.map_vertices Vertex.position, hranked.map_vertices Vertex.uv⟩, ⟨hranked.slots, ?_⟩,
    ⟨hindices, fun i j hi hj ↦ ?_⟩, hfill⟩
  · rw [positions, Array.size_map]
    exact hranked.bijOn_slot
  · have hinjective := hranked.bijOn_slot.injOn (List.getElem_mem hi) (List.getElem_mem hj)
    rw [hindices, List.getElem?_map, List.getElem?_map, List.getElem?_eq_getElem hi,
      List.getElem?_eq_getElem hj, Option.map_some, Option.map_some, Option.some.injEq,
      Option.some.injEq]
    exact ⟨hinjective, congrArg b.slot⟩

/-- Two triangles with a common edge, the second one pushed when the pool has one vertex more. -/
theorem copies_at_first_use_growing :
    let vertex : ℕ → Vertex := fun n ↦ ⟨⟨0, 0, Float32.ofBits n.toUInt32⟩, .zero⟩
    let before : Pool := #[vertex 0, vertex 1, vertex 2]
    let after : Pool := before.push (vertex 3)
    let pushes : List (Pool × Triangle ℕ) := [(before, ⟨2, 0, 1⟩), (after, ⟨1, 0, 3⟩)]
    let b := (new .initial Material.initial.signature).fill pushes
    (∀ x ∈ pushes, x.1.toList <+: after.toList ∧ ∀ o ∈ x.2.toList, o < x.1.size) ∧
      (∀ o k : ℕ, b.slots[o]? = some k ↔ [2, 0, 1, 3][k]? = some o) ∧
      b.positions.toList.map some = [2, 0, 1, 3].map fun o ↦ after[o]?.map Vertex.position := by
  intro vertex before after pushes b
  have hpushes : ∀ x ∈ pushes, x.1.toList <+: after.toList ∧ ∀ o ∈ x.2.toList, o < x.1.size := by
    have hbefore : ∀ o ∈ (⟨2, 0, 1⟩ : Triangle ℕ).toList, o < 3 := by decide
    have hafter : ∀ o ∈ (⟨1, 0, 3⟩ : Triangle ℕ).toList, o < 4 := by decide
    exact List.forall_mem_cons.2 ⟨⟨⟨[vertex 3], rfl⟩, hbefore⟩,
      List.forall_mem_singleton.2 ⟨List.prefix_rfl, hafter⟩⟩
  have hcopied := copies_at_first_use .initial Material.initial.signature after hpushes
  exact ⟨hpushes, hcopied.2.2.1.1, hcopied.2.1.1⟩

end Builder

end RwxScene
