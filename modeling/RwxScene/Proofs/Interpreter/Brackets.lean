import Mathlib
import RwxScene.Proofs.Interpreter.Levels

/-!
# Brackets

What is open at some place of a text, and how many vertices the innermost clump has there, can be
told from the commands alone. `Brackets` keeps this and nothing else: no geometry, and no end at
which something is closed by itself. `Brackets.trace` pairs every command with the brackets that it
is followed under, which is enough to say whether it ends something that is not open and whether it
draws a face without a vertex.

A state has the brackets of the commands that led to it (`State.brackets_follow`). So whatever a
single command adds to a count in dependence on the brackets, a run adds up along its trace
(`State.follow_eq_add_sum`).
-/

namespace RwxScene

/-- What is open at some place of a text. -/
structure Brackets where
  /-- The number of transform scopes open in the innermost clump. -/
  scopes : ℕ
  /-- The number of vertices of the innermost clump. -/
  vertices : ℕ
  /-- The same two numbers for each clump around it, from the inside out. -/
  outer : List (ℕ × ℕ)
  /-- The number of joints to go back to. -/
  joints : ℕ

/-- The command is a face. -/
def Command.isFace : Command → Bool
  | .face _ => true
  | _ => false

namespace Brackets

/-- Nothing is open. -/
def start : Brackets := ⟨0, 0, [], 0⟩

/-- What is open after a command. -/
def next (b : Brackets) : Command → Brackets
  | .vertex .. => { b with vertices := b.vertices + 1 }
  | .scope .clumpBegin => ⟨0, 0, (b.scopes, b.vertices) :: b.outer, b.joints⟩
  | .scope .clumpEnd =>
    match b.outer with
    | [] => b
    | (scopes, vertices) :: outer => ⟨scopes, vertices, outer, b.joints⟩
  | .scope .transformBegin => { b with scopes := b.scopes + 1 }
  | .scope .transformEnd => { b with scopes := b.scopes - 1 }
  | .scope .jointBegin => { b with joints := b.joints + 1 }
  | .scope .jointEnd => { b with joints := b.joints - 1 }
  | _ => b

/-- What is open after some commands. -/
def after (b : Brackets) (cs : List Command) : Brackets := cs.foldl next b

/-- The commands, each with what is open before it. -/
def trace (b : Brackets) : List Command → List (Brackets × Command)
  | [] => []
  | c :: cs => (b, c) :: (b.next c).trace cs

/-! ### What a command comes to -/

/-- The command ends a clump. -/
def endsClump : Brackets × Command → Bool
  | (b, .scope .clumpEnd) => !b.outer.isEmpty
  | _ => false

/-- The command is to end a clump while none is open, or a transform scope while none is open in the
innermost clump, or to go back to a joint while there is none. -/
def missesEnd : Brackets × Command → Bool
  | (b, .scope .clumpEnd) => b.outer.isEmpty
  | (b, .scope .transformEnd) => b.scopes == 0
  | (b, .scope .jointEnd) => b.joints == 0
  | _ => false

/-- The face that is drawn: its corners are vertices of the innermost clump. -/
def accepted? : Brackets × Command → Option Face
  | (b, .face f) => if ∀ i ∈ f.indices, 1 ≤ i ∧ i ≤ b.vertices then some f else none
  | _ => none

/-- The command is a face with a corner that is no vertex of the innermost clump. -/
def dropsFace (x : Brackets × Command) : Bool := x.2.isFace && (accepted? x).isNone

/-! ### Counting along a trace -/

@[simp] theorem map_snd_trace (b : Brackets) (cs : List Command) :
    (b.trace cs).map Prod.snd = cs := by
  induction cs generalizing b with
  | nil => rfl
  | cons c cs ih => rw [trace, List.map_cons, ih]

theorem countP_trace (b : Brackets) (cs : List Command) (p : Command → Bool) :
    (b.trace cs).countP (fun x ↦ p x.2) = cs.countP p := by
  have hmap := List.countP_map (p := p) (f := Prod.snd) (l := b.trace cs)
  rw [map_snd_trace] at hmap
  exact hmap.symm

theorem accepted?_of_not_face {x : Brackets × Command} (h : x.2.isFace = false) :
    accepted? x = none := by
  obtain ⟨b, c⟩ := x
  match c with
  | .face _ => exact absurd h (by simp [Command.isFace])
  | .vertex .. | .material _ | .transform _ | .scope _ | .rotateJoint .. => rfl

/-- A face is either dropped or accepted. -/
theorem countP_dropsFace_add_length (xs : List (Brackets × Command)) :
    xs.countP dropsFace + (xs.filterMap accepted?).length = xs.countP (·.2.isFace) := by
  induction xs with
  | nil => rfl
  | cons x xs ih =>
    rw [List.countP_cons, List.countP_cons, List.filterMap_cons, dropsFace, ← ih]
    match hface : x.2.isFace, hx : accepted? x with
    | false, _ =>
      rw [accepted?_of_not_face hface] at hx
      subst hx
      simp
    | true, some f =>
      simp only [Option.isNone_some, Bool.and_false, Bool.false_eq_true, if_false, if_true,
        List.length_cons]
      omega
    | true, none =>
      simp only [Option.isNone_none, Bool.and_true, if_true]
      omega

/-- Clumps that were opened have ended, or are open. -/
theorem count_clumpBegin_add (b : Brackets) (cs : List Command) :
    cs.count (.scope .clumpBegin) + b.outer.length =
      (b.trace cs).countP endsClump + (b.after cs).outer.length := by
  induction cs generalizing b with
  | nil => rfl
  | cons c cs ih =>
    have hstep : (if c = .scope .clumpBegin then 1 else 0) + b.outer.length =
        (if endsClump (b, c) then 1 else 0) + (b.next c).outer.length := by
      match c with
      | .scope .clumpBegin =>
        show 1 + b.outer.length = 0 + (b.outer.length + 1)
        omega
      | .scope .clumpEnd =>
        obtain ⟨scopes, vertices, - | ⟨l, outer⟩, joints⟩ := b
        · rfl
        · show 0 + (outer.length + 1) = 1 + outer.length
          omega
      | .scope .transformBegin | .scope .transformEnd | .scope .jointBegin | .scope .jointEnd
      | .scope .identityJoint | .vertex .. | .face _ | .material _ | .transform _
      | .rotateJoint .. => rfl
    have hrest := ih (b.next c)
    rw [trace, List.countP_cons, List.count_cons, after, List.foldl_cons]
    rw [after] at hrest
    simp only [beq_iff_eq]
    omega

end Brackets

namespace State

/-! ### The brackets of a state -/

/-- What is open in a state. -/
def brackets (s : State) : Brackets where
  scopes := s.level.scopes.length
  vertices := s.level.pool.size
  outer := s.outer.map fun l ↦ (l.scopes.length, l.pool.size)
  joints := s.joints.length

variable {s : State}

theorem mark_clumpEnd_of_nil (h : s.outer = []) : s.mark .clumpEnd = s.countUnmatched := by
  rw [mark, h]

theorem mark_clumpEnd_of_cons {parent : Level} {outer : List Level}
    (h : s.outer = parent :: outer) : s.mark .clumpEnd = s.leave parent outer := by
  rw [mark, h]

theorem brackets_leave (s : State) (parent : Level) (outer : List Level) :
    (s.leave parent outer).brackets = { s with level := parent, outer }.brackets := by
  obtain ⟨placement, joint, d, hleave⟩ := s.exists_leave parent outer
  rw [hleave]
  rfl

theorem brackets_addFace (s : State) (f : Face) : (s.addFace f).brackets = s.brackets := by
  rw [addFace]
  rcases s.level.pool.resolve f.indices with _ | offsets
  · rfl
  · obtain ⟨d, hdraw⟩ := s.exists_addResolved f offsets
    have hkeeps := s.level.keeps_draw s.settings f offsets
    show (s.addResolved f offsets).brackets = _
    rw [hdraw, brackets, hkeeps.scopes, hkeeps.pool]
    rfl

theorem brackets_mark (s : State) (m : ScopeMark) :
    (s.mark m).brackets = s.brackets.next (.scope m) := by
  cases m with
  | clumpBegin | transformBegin | jointBegin | identityJoint => rfl
  | clumpEnd =>
    rcases h : s.outer with _ | ⟨parent, outer⟩
    · rw [mark_clumpEnd_of_nil h]
      simp [brackets, Brackets.next, h, countUnmatched, count]
    · rw [mark_clumpEnd_of_cons h, brackets_leave]
      simp [brackets, Brackets.next, h]
  | transformEnd =>
    rw [mark]
    rcases h : s.level.scopes with _ | ⟨saved, scopes⟩
    · simp [brackets, Brackets.next, h, withMatrix, countUnmatched, count]
    · simp [brackets, Brackets.next, h, Level.withMaterial]
  | jointEnd =>
    rw [mark]
    rcases h : s.joints with _ | ⟨joint, joints⟩
    · simp [brackets, Brackets.next, h, countUnmatched, count]
    · simp [brackets, Brackets.next, h]

/-- A command does to the brackets what it says. -/
theorem brackets_apply (s : State) (c : Command) :
    (s.apply c).brackets = s.brackets.next c := by
  match c with
  | .vertex position uv => simp [apply, addVertex, brackets, Brackets.next]
  | .face f => exact s.brackets_addFace f
  | .material _ => rfl
  | .transform t => cases t <;> rfl
  | .scope m => exact s.brackets_mark m
  | .rotateJoint .. => rfl

theorem brackets_start (settings : Settings) : (start settings).brackets = .start := rfl

theorem brackets_follow (s : State) (cs : List Command) :
    (s.follow cs).brackets = s.brackets.after cs := by
  induction cs generalizing s with
  | nil => rfl
  | cons c cs ih =>
    rw [follow_cons, ih, brackets_apply, Brackets.after, Brackets.after, List.foldl_cons]

/-- A face is drawn just if the brackets say so. -/
theorem accepted?_brackets (s : State) (f : Face) :
    Brackets.accepted? (s.brackets, .face f) =
      (s.level.pool.resolve f.indices).map fun _ ↦ f := by
  rw [Brackets.accepted?]
  show (if ∀ i ∈ f.indices, 1 ≤ i ∧ i ≤ s.level.pool.size then some f else none) = _
  match h : s.level.pool.resolve f.indices with
  | some offsets => exact if_pos (Pool.resolve_eq_some_iff.1 h).1
  | none =>
    refine if_neg fun hall ↦ ?_
    rw [Pool.resolve_eq_some_iff.2 ⟨hall, rfl⟩] at h
    exact absurd h (by simp)

/-! ### Sums along a run -/

/-- What a command adds to a count in dependence on the brackets, a run adds up along its trace. -/
theorem follow_eq_add_sum {f : State → ℕ} {g : Brackets × Command → ℕ} {I : State → Prop}
    {P : Command → Prop} (hI : ∀ s c, I s → P c → I (s.apply c))
    (hf : ∀ s c, I s → P c → f (s.apply c) = f s + g (s.brackets, c)) (hs : I s)
    {cs : List Command} (hcs : ∀ c ∈ cs, P c) :
    f (s.follow cs) = f s + ((s.brackets.trace cs).map g).sum := by
  induction cs generalizing s with
  | nil => rfl
  | cons c cs ih =>
    obtain ⟨hc, hcs⟩ := List.forall_mem_cons.1 hcs
    rw [follow_cons, ih (hI s c hs hc) hcs, hf s c hs hc, brackets_apply, Brackets.trace,
      List.map_cons, List.sum_cons, Nat.add_assoc]

/-- What is counted whenever a command is of some kind is the number of such commands. -/
theorem follow_eq_add_countP {f : State → ℕ} {p : Brackets × Command → Bool}
    (hf : ∀ s c, f (s.apply c) = f s + if p (s.brackets, c) then 1 else 0) (s : State)
    (cs : List Command) : f (s.follow cs) = f s + (s.brackets.trace cs).countP p := by
  have hsum : ∀ xs : List (Brackets × Command),
      (xs.map fun x ↦ if p x then 1 else 0).sum = xs.countP p := by
    intro xs
    induction xs with
    | nil => rfl
    | cons x xs ih => rw [List.map_cons, List.sum_cons, ih, List.countP_cons, Nat.add_comm]
  rw [← hsum]
  exact follow_eq_add_sum (I := fun _ ↦ True) (P := fun _ ↦ True) (fun _ _ _ _ ↦ trivial)
    (fun s c _ _ ↦ hf s c) trivial fun _ _ ↦ trivial

/-! ### Faults -/

/-- Faces without a vertex, ends of what is not open and clumps that were closed at the end are
counted as before. -/
structure SameFaults (s t : State) : Prop where
  outOfRangeFaces : t.diagnostics.outOfRangeFaces = s.diagnostics.outOfRangeFaces
  unmatchedScopeEnds : t.diagnostics.unmatchedScopeEnds = s.diagnostics.unmatchedScopeEnds
  autoClosedClumps : t.diagnostics.autoClosedClumps = s.diagnostics.autoClosedClumps

theorem SameFaults.trans {t u : State} (h : s.SameFaults t) (h' : t.SameFaults u) :
    s.SameFaults u where
  outOfRangeFaces := h'.outOfRangeFaces.trans h.outOfRangeFaces
  unmatchedScopeEnds := h'.unmatchedScopeEnds.trans h.unmatchedScopeEnds
  autoClosedClumps := h'.autoClosedClumps.trans h.autoClosedClumps

theorem sameFaults_flush (s : State) : s.SameFaults s.flush := by
  rw [flush]
  split
  · exact ⟨rfl, rfl, rfl⟩
  · dsimp only
    split
    · exact ⟨rfl, rfl, rfl⟩
    · exact ⟨rfl, rfl, rfl⟩

theorem sameFaults_leave (s : State) (parent : Level) (outer : List Level) :
    s.SameFaults (s.leave parent outer) := by
  have hplace : s.flush.SameFaults s.flush.place := by
    rw [place]
    split
    · exact ⟨rfl, rfl, rfl⟩
    · exact ⟨rfl, rfl, rfl⟩
  exact s.sameFaults_flush.trans (hplace.trans ⟨rfl, rfl, rfl⟩)

theorem sameFaults_extend (s : State) (signature : Signature) (m : Material)
    (ts : List (Triangle ℕ)) :
    s.SameFaults ((s.flushUnless signature).extend m signature ts) := by
  have hflush : s.SameFaults (s.flushUnless signature) := by
    rw [flushUnless]
    split
    · exact ⟨rfl, rfl, rfl⟩
    · split
      · exact ⟨rfl, rfl, rfl⟩
      · exact s.sameFaults_flush
  exact hflush.trans ⟨rfl, rfl, rfl⟩

theorem sameFaults_addResolved (s : State) (f : Face) (offsets : List ℕ) :
    s.SameFaults (s.addResolved f offsets) := by
  rw [addResolved]
  dsimp only
  split
  · exact s.sameFaults_extend _ _ _
  · have hremember : s.SameFaults { s with level := s.level.remember } := ⟨rfl, rfl, rfl⟩
    exact hremember.trans (sameFaults_extend _ _ _ _)

/-- What a command adds to the counts of faults is told by the brackets. -/
structure AddsFaults (s : State) (c : Command) (t : State) : Prop where
  outOfRangeFaces : t.diagnostics.outOfRangeFaces =
    s.diagnostics.outOfRangeFaces + if Brackets.dropsFace (s.brackets, c) then 1 else 0
  unmatchedScopeEnds : t.diagnostics.unmatchedScopeEnds =
    s.diagnostics.unmatchedScopeEnds + if Brackets.missesEnd (s.brackets, c) then 1 else 0
  autoClosedClumps : t.diagnostics.autoClosedClumps = s.diagnostics.autoClosedClumps

theorem SameFaults.adds {c : Command} {t : State} (h : s.SameFaults t)
    (hdrops : Brackets.dropsFace (s.brackets, c) = false)
    (hmisses : Brackets.missesEnd (s.brackets, c) = false) : s.AddsFaults c t where
  outOfRangeFaces := by simp [h.outOfRangeFaces, hdrops]
  unmatchedScopeEnds := by simp [h.unmatchedScopeEnds, hmisses]
  autoClosedClumps := h.autoClosedClumps

/-- An end of what is not open is counted, whatever else it does. -/
theorem addsFaults_countUnmatched {m : ScopeMark} {t : State} (h : s.SameFaults t)
    (hmisses : Brackets.missesEnd (s.brackets, .scope m) = true) :
    s.AddsFaults (.scope m) t.countUnmatched where
  outOfRangeFaces := h.outOfRangeFaces
  unmatchedScopeEnds := by
    rw [if_pos hmisses, ← h.unmatchedScopeEnds]
    rfl
  autoClosedClumps := h.autoClosedClumps

theorem addsFaults_addFace (s : State) (f : Face) : s.AddsFaults (.face f) (s.addFace f) := by
  have hdrops : Brackets.dropsFace (s.brackets, .face f) =
      (s.level.pool.resolve f.indices).isNone := by
    rw [Brackets.dropsFace, accepted?_brackets, Option.isNone_map]
    rfl
  rw [addFace]
  rcases h : s.level.pool.resolve f.indices with _ | offsets
  · exact ⟨by rw [hdrops, h]; rfl, rfl, rfl⟩
  · exact (s.sameFaults_addResolved f offsets).adds (by rw [hdrops, h]; rfl) rfl

theorem addsFaults_mark (s : State) (m : ScopeMark) : s.AddsFaults (.scope m) (s.mark m) := by
  cases m with
  | clumpBegin | transformBegin | jointBegin | identityJoint =>
    exact SameFaults.adds ⟨rfl, rfl, rfl⟩ rfl rfl
  | clumpEnd =>
    rcases h : s.outer with _ | ⟨parent, outer⟩
    · rw [mark_clumpEnd_of_nil h]
      exact addsFaults_countUnmatched ⟨rfl, rfl, rfl⟩ (by simp [Brackets.missesEnd, brackets, h])
    · rw [mark_clumpEnd_of_cons h]
      exact (s.sameFaults_leave parent outer).adds rfl (by simp [Brackets.missesEnd, brackets, h])
  | transformEnd =>
    rw [mark]
    rcases h : s.level.scopes with _ | ⟨saved, scopes⟩
    · exact addsFaults_countUnmatched (m := .transformEnd) (t := s.withMatrix .identity)
        ⟨rfl, rfl, rfl⟩ (by simp [Brackets.missesEnd, brackets, h])
    · exact SameFaults.adds ⟨rfl, rfl, rfl⟩ rfl (by simp [Brackets.missesEnd, brackets, h])
  | jointEnd =>
    rw [mark]
    rcases h : s.joints with _ | ⟨joint, joints⟩
    · let t : State := { s with joint := .identity, joints := [] }
      have hsame : s.SameFaults t := ⟨rfl, rfl, rfl⟩
      exact addsFaults_countUnmatched hsame (by simp [Brackets.missesEnd, brackets, h])
    · exact SameFaults.adds ⟨rfl, rfl, rfl⟩ rfl (by simp [Brackets.missesEnd, brackets, h])

theorem addsFaults_apply (s : State) (c : Command) : s.AddsFaults c (s.apply c) := by
  match c with
  | .face f => exact s.addsFaults_addFace f
  | .scope m => exact s.addsFaults_mark m
  | .vertex .. | .material _ | .rotateJoint .. => exact SameFaults.adds ⟨rfl, rfl, rfl⟩ rfl rfl
  | .transform t => exact SameFaults.adds (by cases t <;> exact ⟨rfl, rfl, rfl⟩) rfl rfl

/-- The counts of faults behind some commands. -/
theorem faults_follow (s : State) (cs : List Command) :
    let d := (s.follow cs).diagnostics
    d.outOfRangeFaces =
        s.diagnostics.outOfRangeFaces + (s.brackets.trace cs).countP Brackets.dropsFace ∧
      d.unmatchedScopeEnds =
        s.diagnostics.unmatchedScopeEnds + (s.brackets.trace cs).countP Brackets.missesEnd ∧
      d.autoClosedClumps = s.diagnostics.autoClosedClumps := by
  refine ⟨follow_eq_add_countP (f := fun s ↦ s.diagnostics.outOfRangeFaces)
      (fun s c ↦ (s.addsFaults_apply c).outOfRangeFaces) s cs,
    follow_eq_add_countP (f := fun s ↦ s.diagnostics.unmatchedScopeEnds)
      (fun s c ↦ (s.addsFaults_apply c).unmatchedScopeEnds) s cs, ?_⟩
  have hclosed := follow_eq_add_countP (f := fun s ↦ s.diagnostics.autoClosedClumps)
    (p := fun _ ↦ false) (fun s c ↦ (s.addsFaults_apply c).autoClosedClumps) s cs
  rw [List.countP_false] at hclosed
  exact hclosed

/-! ### The end -/

/-- Every clump that is open at the end is counted, and nothing else is. -/
theorem faults_closeAll (s : State) {outer : List Level} (h : s.outer = outer) :
    let d := (s.closeAll outer).diagnostics
    d.outOfRangeFaces = s.diagnostics.outOfRangeFaces ∧
      d.unmatchedScopeEnds = s.diagnostics.unmatchedScopeEnds ∧
      d.autoClosedClumps = s.diagnostics.autoClosedClumps + outer.length := by
  induction outer generalizing s with
  | nil => exact ⟨rfl, rfl, rfl⟩
  | cons parent outer ih =>
    set t := s.count fun d ↦ { d with autoClosedClumps := d.autoClosedClumps + 1 } with ht
    obtain ⟨placement, joint, d, hleave⟩ := t.exists_leave parent outer
    have hsame := t.sameFaults_leave parent outer
    obtain ⟨hdropped, hmissed, hclosed⟩ := ih (t.leave parent outer) (by rw [hleave])
    refine ⟨hdropped.trans hsame.outOfRangeFaces, hmissed.trans hsame.unmatchedScopeEnds, ?_⟩
    have hone : t.diagnostics.autoClosedClumps = s.diagnostics.autoClosedClumps + 1 := rfl
    show ((t.leave parent outer).closeAll outer).diagnostics.autoClosedClumps = _
    rw [hclosed, hsame.autoClosedClumps, hone, List.length_cons]
    omega

/-- The counts of faults of a finished tree. -/
theorem faults_finish (settings : Settings) (cs : List Command) :
    let trace := Brackets.start.trace cs
    let d := ((start settings).follow cs).finish.2
    d.outOfRangeFaces = trace.countP Brackets.dropsFace ∧
      d.unmatchedScopeEnds = trace.countP Brackets.missesEnd ∧
      cs.count (.scope .clumpBegin) = trace.countP Brackets.endsClump + d.autoClosedClumps := by
  intro trace d
  set s := (start settings).follow cs with hs
  obtain ⟨hdropped, hmissed, hclosed⟩ := faults_follow (start settings) cs
  obtain ⟨hdropped', hmissed', hclosed'⟩ := s.faults_closeAll rfl
  have hflush := (s.closeAll s.outer).sameFaults_flush
  have hopen : s.outer.length = (Brackets.start.after cs).outer.length := by
    rw [← brackets_start settings, ← brackets_follow, ← hs, brackets, List.length_map]
  refine ⟨(hflush.outOfRangeFaces.trans hdropped').trans (hdropped.trans (Nat.zero_add _)),
    (hflush.unmatchedScopeEnds.trans hmissed').trans (hmissed.trans (Nat.zero_add _)), ?_⟩
  calc cs.count (.scope .clumpBegin)
      = trace.countP Brackets.endsClump + (Brackets.start.after cs).outer.length :=
        Brackets.start.count_clumpBegin_add cs
    _ = trace.countP Brackets.endsClump + d.autoClosedClumps := by
        have hd : d.autoClosedClumps = s.diagnostics.autoClosedClumps + s.outer.length :=
          hflush.autoClosedClumps.trans hclosed'
        rw [hd, hclosed, hopen]
        exact congrArg _ (Nat.zero_add _).symm

end State

end RwxScene
