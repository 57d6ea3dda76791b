import RwxScene.Proofs.Interpreter.Stretches
import RwxScene.Proofs.Model.Load

/-!
# Batches of a scene

What loading a text promises of the batches of its scene (`Model.covers_of_ofText`).
-/

namespace RwxScene

/-- **Batches are stretches of one signature.** The nodes of a scene are the root and the clumps of
its text in the order in which they were opened, and the batches of each are the longest stretches of
faces with one signature among the faces that the clump drew. -/
theorem Model.covers_of_ofText {text path : String} {settings : Settings} {m : Model}
    (h : ofText text path settings = .ok m) :
    m.root.walk.length = (journal settings (Action.ofText text)).opened + 1 ∧
      ∀ (k : Nat) (n : Node), m.root.walk[k]? = some n →
        n.name = nodeName k ∧
          n.batches.IsChain (·.signature ≠ ·.signature) ∧
            List.Forall₂ Batch.Covers n.batches
              (stretches (drawn (own (journal settings (Action.ofText text)).entries k))) := by
  rw [root_of_ofText h]
  obtain ⟨hlength, hnodes⟩ :=
    (clumpwise_stretched settings).tree _ fun _ ha ↦ Action.draws_of_mem_ofText ha
  refine ⟨hlength, fun k n hn ↦ ?_⟩
  obtain ⟨hname, hstretched⟩ := hnodes k n hn
  exact ⟨hname, hstretched.1, hstretched.covers⟩

/-- A clump in between and the tag in force do not end a batch, but another tag does. -/
theorem Model.covers_of_ofText_tags :
    let text :=
      "vertex 0 0 0\ntriangle 1 1 1\nclumpbegin\ntag 7\nclumpend\nquad 1 1 1 1 tag 0\nquad 1 1 1 1 tag 7"
    ∃ m, ofText text "scene" .initial = .ok m ∧
      ∀ n, m.root.walk[0]? = some n → n.batches.length = 2 := by
  intro text
  obtain ⟨m, hm⟩ : ∃ m, ofText text "scene" .initial = .ok m := exists_ofText (by decide +kernel)
  refine ⟨m, hm, fun n hn ↦ ?_⟩
  obtain ⟨-, -, hcovers⟩ := (covers_of_ofText hm).2 0 n hn
  rw [hcovers.length_eq]
  decide +kernel

end RwxScene
