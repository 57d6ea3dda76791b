import Mathlib
import RwxScene.Proofs.Mesh.Builder

/-!
# Slots

A builder numbers the vertices that it copies. Which offset of the pool gets which number depends on
the order of the triangles, but two offsets never get the same one, and what is copied to a number is
the vertex at its offset (`Builder.Keyed`). So the triangles of a builder are those that were pushed,
with other names for their corners (`Builder.Relabels`).
-/

namespace RwxScene

namespace Builder

/-- Different offsets have different slots, and a slot holds the vertex at its offset. -/
structure Keyed (pool : Pool) (b : Builder) : Prop where
  vertex : ∀ offset i : ℕ, b.slots[offset]? = some i → b.vertices[i]? = some (pool.vertex offset)
  injective : ∀ o o' i : ℕ, b.slots[o]? = some i → b.slots[o']? = some i → o = o'

/-- The slot of an offset that was placed. -/
def slot (b : Builder) (offset : ℕ) : ℕ := b.slots[offset]?.getD 0

variable {pool : Pool} {b c : Builder}

theorem keyed_new (pool : Pool) (m : Material) (s : Signature) : (new m s).Keyed pool where
  vertex offset i h := by simp [new] at h
  injective o o' i h := by simp [new] at h

theorem Keyed.lt (hb : b.Keyed pool) {o i : ℕ} (h : b.slots[o]? = some i) : i < b.vertices.size :=
  (Array.getElem?_eq_some_iff.1 (hb.vertex o i h)).1

/-! ### Placing a corner -/

theorem getElem?_slots_place (b : Builder) (pool : Pool) (offset : ℕ) :
    (b.place pool offset).2.slots[offset]? = some (b.place pool offset).1 := by
  rw [place]
  cases h : b.slots[offset]? with
  | some i => exact h
  | none =>
    show (b.slots.insert offset b.vertices.size)[offset]? = _
    rw [Std.TreeMap.getElem?_insert_self]

/-- A slot stays. -/
theorem getElem?_slots_place_of_some {o i : ℕ} (h : b.slots[o]? = some i) (pool : Pool)
    (offset : ℕ) : (b.place pool offset).2.slots[o]? = some i := by
  rw [place]
  cases hslot : b.slots[offset]? with
  | some j => exact h
  | none =>
    have hne : offset ≠ o := fun he ↦ by simp [he, h] at hslot
    show (b.slots.insert offset b.vertices.size)[o]? = _
    rw [Std.TreeMap.getElem?_insert, if_neg (mt Std.LawfulEqCmp.compare_eq_iff_eq.1 hne), h]

theorem Keyed.place (hb : b.Keyed pool) (offset : ℕ) : (b.place pool offset).2.Keyed pool := by
  refine ⟨fun o i h ↦ ?_, fun o o' i h h' ↦ ?_⟩
  · rcases slot_of_place h with hold | ⟨hnone, rfl, rfl⟩
    · exact (grows_place b pool offset).vertices i _ (hb.vertex o i hold)
    · rw [place_of_none hnone]
      exact Array.getElem?_push_size
  · rcases slot_of_place h with hold | ⟨-, ho, hi⟩ <;>
      rcases slot_of_place h' with hold' | ⟨-, ho', hi'⟩
    · exact hb.injective o o' i hold hold'
    -- the new slot has a number that no old one has
    · exact absurd (hi' ▸ hb.lt hold) (Nat.lt_irrefl _)
    · exact absurd (hi ▸ hb.lt hold') (Nat.lt_irrefl _)
    · exact ho.trans ho'.symm

/-! ### Pushing triangles -/

/-- From the first builder to the second one some triangles of offsets were added, whose corners are
named by their slots. -/
structure Relabels (pool : Pool) (b c : Builder) (ts : List (Triangle ℕ)) : Prop where
  keyed : c.Keyed pool
  slots : ∀ o i : ℕ, b.slots[o]? = some i → c.slots[o]? = some i
  placed : ∀ t ∈ ts, ∀ o ∈ t.toList, c.slots[o]? = some (c.slot o)
  triangles : c.triangles.toList = b.triangles.toList ++ ts.map (Triangle.map c.slot)

theorem slot_eq {o i : ℕ} (h : b.slots[o]? = some i) : b.slot o = i := by rw [slot, h, Option.getD_some]

theorem Keyed.relabels_push (hb : b.Keyed pool) (t : Triangle ℕ) :
    b.Relabels pool (b.push pool t) [t] := by
  set r₁ := b.place pool t.first with hr₁
  set r₂ := r₁.2.place pool t.second with hr₂
  set r₃ := r₂.2.place pool t.third with hr₃
  have hfirst : r₃.2.slots[t.first]? = some r₁.1 :=
    getElem?_slots_place_of_some
      (getElem?_slots_place_of_some (getElem?_slots_place b pool t.first) pool _) pool _
  have hsecond : r₃.2.slots[t.second]? = some r₂.1 :=
    getElem?_slots_place_of_some (getElem?_slots_place r₁.2 pool t.second) pool _
  have hthird : r₃.2.slots[t.third]? = some r₃.1 := getElem?_slots_place r₂.2 pool t.third
  have hkeyed : r₃.2.Keyed pool := ((hb.place t.first).place t.second).place t.third
  have htriangles : r₃.2.triangles = b.triangles :=
    (((grows_place b pool t.first).trans (grows_place r₁.2 pool t.second)).trans
      (grows_place r₂.2 pool t.third)).triangles
  refine ⟨⟨hkeyed.vertex, hkeyed.injective⟩, fun o i h ↦ ?_, fun u hu o ho ↦ ?_, ?_⟩
  · exact getElem?_slots_place_of_some
      (getElem?_slots_place_of_some (getElem?_slots_place_of_some h pool _) pool _) pool _
  · obtain rfl := List.mem_singleton.1 hu
    have hsome : ∃ i, r₃.2.slots[o]? = some i := by
      simp only [Triangle.toList, List.mem_cons, List.not_mem_nil, or_false] at ho
      rcases ho with rfl | rfl | rfl
      · exact ⟨_, hfirst⟩
      · exact ⟨_, hsecond⟩
      · exact ⟨_, hthird⟩
    obtain ⟨i, hi⟩ := hsome
    show r₃.2.slots[o]? = some (r₃.2.slot o)
    rw [slot_eq hi, hi]
  · show (r₃.2.triangles.push ⟨r₁.1, r₂.1, r₃.1⟩).toList =
      b.triangles.toList ++ [t.map r₃.2.slot]
    rw [htriangles, Array.toList_push, Triangle.map, slot_eq hfirst, slot_eq hsecond, slot_eq hthird]

/-- What is pushed is found again under the names of its slots. -/
theorem Keyed.relabels_pushAll (hb : b.Keyed pool) (ts : List (Triangle ℕ)) :
    b.Relabels pool (b.pushAll pool ts) ts := by
  induction ts generalizing b with
  | nil => exact ⟨hb, fun _ _ h ↦ h, by simp, (List.append_nil _).symm⟩
  | cons t ts ih =>
    have hfirst := hb.relabels_push t
    have hrest := ih hfirst.keyed
    rw [pushAll_cons]
    have hstays : ∀ o ∈ t.toList, ((b.push pool t).pushAll pool ts).slots[o]? =
        some ((b.push pool t).slot o) :=
      fun o ho ↦ hrest.slots o _ (hfirst.placed t List.mem_cons_self o ho)
    refine ⟨hrest.keyed, fun o i h ↦ hrest.slots o i (hfirst.slots o i h),
      List.forall_mem_cons.2 ⟨fun o ho ↦ ?_, hrest.placed⟩, ?_⟩
    · rw [slot_eq (hstays o ho), hstays o ho]
    · rw [hrest.triangles, hfirst.triangles, List.append_assoc, List.map_cons, List.map_cons,
        Triangle.map_congr fun o ho ↦ (slot_eq (hstays o ho)).symm]
      rfl

end Builder

end RwxScene
