import Mathlib.Data.List.Infix
import RwxScene.Proofs.Interpreter.Levels

/-!
# Scopes restore what is around them

Commands that open and end clumps in pairs cannot reach below the level at which they began: a clump
around them gets one more child and is otherwise as it was, whatever transform scopes were left open
or ended too often inside. If the transform scopes of the block's own level are paired too, a
transform scope around the block gives back matrix, material and open scopes.

Both follow from one induction along the block (`levels_follow`). It keeps the levels below the
block's own in sight, and the scopes of the block's own level as long as these are paired; how deep
the block is inside further clumps is the number `d`.
-/

namespace RwxScene

/-! ### Brackets -/

/-- Every prefix has at most as many closing as opening brackets, and the totals are equal. -/
structure Balanced (opening closing : Command) (cs : List Command) : Prop where
  count_le : ∀ p, p <+: cs → p.count closing ≤ p.count opening
  count_eq : cs.count closing = cs.count opening

instance (opening closing : Command) (cs : List Command) :
    Decidable (Balanced opening closing cs) :=
  decidable_of_iff ((∀ p ∈ cs.inits, p.count closing ≤ p.count opening) ∧
      cs.count closing = cs.count opening)
    ⟨fun h ↦ ⟨fun p hp ↦ h.1 p ((List.mem_inits p cs).2 hp), h.2⟩,
      fun h ↦ ⟨fun p hp ↦ h.count_le p ((List.mem_inits p cs).1 hp), h.count_eq⟩⟩

/-- The rest of a balanced list behind a prefix that left `d` brackets open. -/
structure Closes (opening closing : Command) (d : Nat) (cs : List Command) : Prop where
  count_le : ∀ p, p <+: cs → p.count closing ≤ p.count opening + d
  count_eq : cs.count closing = cs.count opening + d

theorem Balanced.closes {opening closing : Command} {cs : List Command}
    (h : Balanced opening closing cs) : Closes opening closing 0 cs :=
  ⟨h.count_le, h.count_eq⟩

namespace Closes

variable {opening closing c : Command} {d : Nat} {cs : List Command}

theorem eq_zero (h : Closes opening closing d []) : d = 0 := by
  have := h.count_eq
  simp at this
  omega

/-- Past an opening bracket one more is open. -/
theorem open_cons (hne : opening ≠ closing) (h : Closes opening closing d (opening :: cs)) :
    Closes opening closing (d + 1) cs := by
  refine ⟨fun p hp ↦ ?_, ?_⟩
  · have := h.count_le (opening :: p) ((List.prefix_cons_inj _).2 hp)
    rw [List.count_cons_of_ne hne, List.count_cons_self] at this
    omega
  · have := h.count_eq
    rw [List.count_cons_of_ne hne, List.count_cons_self] at this
    omega

/-- A closing bracket closes one that is open. -/
theorem close_cons (hne : opening ≠ closing) (h : Closes opening closing d (closing :: cs)) :
    ∃ e, d = e + 1 ∧ Closes opening closing e cs := by
  have hpos := h.count_le [closing] (by simp)
  rw [List.count_cons_self, List.count_cons_of_ne hne.symm] at hpos
  obtain ⟨e, rfl⟩ : ∃ e, d = e + 1 := ⟨d - 1, by simp at hpos; omega⟩
  refine ⟨e, rfl, fun p hp ↦ ?_, ?_⟩
  · have := h.count_le (closing :: p) ((List.prefix_cons_inj _).2 hp)
    rw [List.count_cons_of_ne hne.symm, List.count_cons_self] at this
    omega
  · have := h.count_eq
    rw [List.count_cons_of_ne hne.symm, List.count_cons_self] at this
    omega

/-- Other commands do not matter. -/
theorem of_cons (ho : c ≠ opening) (hc : c ≠ closing) (h : Closes opening closing d (c :: cs)) :
    Closes opening closing d cs := by
  refine ⟨fun p hp ↦ ?_, ?_⟩
  · have := h.count_le (c :: p) ((List.prefix_cons_inj _).2 hp)
    rwa [List.count_cons_of_ne ho, List.count_cons_of_ne hc] at this
  · have := h.count_eq
    rwa [List.count_cons_of_ne ho, List.count_cons_of_ne hc] at this

end Closes

/-- Clumps are opened and ended in pairs. -/
abbrev ClumpsPaired : List Command → Prop := Balanced (.scope .clumpBegin) (.scope .clumpEnd)

/-- The commands that are not inside a clump of the block, when `d` of its clumps are open. -/
def ownLevel : Nat → List Command → List Command
  | _, [] => []
  | d, c :: cs =>
    if c = .scope .clumpBegin then ownLevel (d + 1) cs
    else if c = .scope .clumpEnd then ownLevel (d - 1) cs
    else if d = 0 then c :: ownLevel d cs
    else ownLevel d cs

/-- Transform scopes of the block's own level are opened and ended in pairs. -/
abbrev OwnScopesPaired (cs : List Command) : Prop :=
  Balanced (.scope .transformBegin) (.scope .transformEnd) (ownLevel 0 cs)

namespace State

/-! ### Levels along a step -/

theorem levels_clumpBegin (s : State) :
    (s.apply (.scope .clumpBegin)).levels =
      .opened (clumpName (s.clumps + 1)) s.level.matrix s.level.material s.level.memo :: s.levels :=
  rfl

theorem levels_clumpEnd {s : State} {l parent : Level} {rest : List Level}
    (h : s.levels = l :: parent :: rest) :
    ∃ child, (s.apply (.scope .clumpEnd)).levels = parent.adopt child :: rest := by
  have houter : s.outer = parent :: rest := (List.cons.inj h).2
  obtain ⟨placement, joint, d, hleave⟩ := s.exists_leave parent rest
  refine ⟨{ (s.level.settled s.settings).node with placement, joint }, ?_⟩
  rw [apply, mark, houter]
  show (s.leave parent rest).levels = _
  rw [hleave]
  rfl

/-- Any other command stays on its level, and of the scopes it touches at most the innermost. -/
theorem levels_apply (s : State) {c : Command} (hb : c ≠ .scope .clumpBegin)
    (he : c ≠ .scope .clumpEnd) :
    ∃ l, (s.apply c).levels = l :: s.outer ∧ l.scopes = s.level.scopesAfter c := by
  have heffect := s.effect_apply c
  generalize s.apply c = t at heffect ⊢
  cases heffect with
  | vertex position uv => exact ⟨_, rfl, rfl⟩
  | dropped f d h => exact ⟨_, rfl, rfl⟩
  | drawn f offsets d h => exact ⟨_, rfl, (Level.keeps_draw _ _ _ _).scopes⟩
  | entered => exact absurd rfl hb
  | unmatched d h => exact absurd rfl he
  | left parent outer placement joint d h => exact absurd rfl he
  | quiet _ matrix material memo joint joints d hc hmemo => exact ⟨_, rfl, rfl⟩

/-! ### Levels along a block -/

/-- The levels behind a block: `rest` is around the block's own level, of which `scopes` were open. If
the scopes that the block has still to end are the innermost of these, the others are left. -/
def Restored (scopes : List Saved) (rest : List Level) (d : Nat) (cs : List Command)
    (ls : List Level) : Prop :=
  ∃ m, ls = m :: rest ∧
    ∀ own kept, scopes = own ++ kept →
      Closes (.scope .transformBegin) (.scope .transformEnd) own.length (ownLevel d cs) →
        m.scopes = kept

namespace Restored

variable {scopes : List Saved} {rest : List Level} {d : Nat} {c : Command} {cs : List Command}
  {ls : List Level}

theorem nil {l : Level} : Restored l.scopes rest d [] (l :: rest) := by
  refine ⟨l, rfl, fun own kept hscopes hown ↦ ?_⟩
  rw [ownLevel] at hown
  rw [hscopes, List.length_eq_zero_iff.1 hown.eq_zero, List.nil_append]

theorem clumpBegin (h : Restored scopes rest (d + 1) cs ls) :
    Restored scopes rest d (.scope .clumpBegin :: cs) ls := by
  obtain ⟨m, hm, hkept⟩ := h
  refine ⟨m, hm, fun own kept hscopes hown ↦ hkept own kept hscopes ?_⟩
  rwa [ownLevel, if_pos rfl] at hown

theorem clumpEnd (h : Restored scopes rest d cs ls) :
    Restored scopes rest (d + 1) (.scope .clumpEnd :: cs) ls := by
  obtain ⟨m, hm, hkept⟩ := h
  refine ⟨m, hm, fun own kept hscopes hown ↦ hkept own kept hscopes ?_⟩
  rwa [ownLevel, if_neg (by decide), if_pos rfl] at hown

/-- What happens inside a further clump does not touch the scopes. -/
theorem inner (hb : c ≠ .scope .clumpBegin) (he : c ≠ .scope .clumpEnd) (hd : d ≠ 0)
    (h : Restored scopes rest d cs ls) : Restored scopes rest d (c :: cs) ls := by
  obtain ⟨m, hm, hkept⟩ := h
  refine ⟨m, hm, fun own kept hscopes hown ↦ hkept own kept hscopes ?_⟩
  rwa [ownLevel, if_neg hb, if_neg he, if_neg hd] at hown

/-- What happens at the block's own level opens a scope, ends one of its own, or neither. -/
theorem outer {l : Level} (hb : c ≠ .scope .clumpBegin) (he : c ≠ .scope .clumpEnd)
    (h : Restored (l.scopesAfter c) rest 0 cs ls) : Restored l.scopes rest 0 (c :: cs) ls := by
  obtain ⟨m, hm, hkept⟩ := h
  refine ⟨m, hm, fun own kept hscopes hown ↦ ?_⟩
  rw [ownLevel, if_neg hb, if_neg he, if_pos rfl] at hown
  by_cases hb' : c = .scope .transformBegin
  · subst hb'
    refine hkept (_ :: own) kept (by rw [Level.scopesAfter, hscopes]; rfl) ?_
    exact hown.open_cons (by decide)
  by_cases he' : c = .scope .transformEnd
  · subst he'
    obtain ⟨e, hlen, hown⟩ := hown.close_cons (by decide)
    obtain - | ⟨saved, own⟩ := own
    · exact absurd hlen (by simp)
    · refine hkept own kept (by rw [Level.scopesAfter, hscopes]; rfl) ?_
      rwa [Nat.succ.inj hlen]
  refine hkept own kept ?_ (hown.of_cons hb' he')
  rw [← hscopes, Level.scopesAfter]
  · exact hb'
  · exact he'

end Restored

/-- A block that ends the clumps it opens, and of whose clumps `inner` are open, keeps the levels
around its own level, and the scopes of that as far as its own are paired. -/
theorem levels_follow {cs : List Command} {d : Nat}
    (hcs : Closes (.scope .clumpBegin) (.scope .clumpEnd) d cs) {s : State}
    (inner : List Level) {rest : List Level} {l : Level} (hs : s.levels = inner ++ l :: rest)
    (hd : inner.length = d) : Restored l.scopes rest d cs (s.follow cs).levels := by
  induction cs generalizing d s inner l with
  | nil =>
    obtain rfl : inner = [] := List.length_eq_zero_iff.1 (hd.trans hcs.eq_zero)
    rw [follow_nil, hs]
    exact .nil
  | cons c cs ih =>
    rw [follow_cons]
    by_cases hb : c = .scope .clumpBegin
    · subst hb
      refine (ih (hcs.open_cons (by decide)) ((s.apply (.scope .clumpBegin)).level :: inner) ?_
        ?_).clumpBegin
      · rw [levels_clumpBegin, hs]
        rfl
      · rw [List.length_cons, hd]
    by_cases he : c = .scope .clumpEnd
    · subst he
      obtain ⟨e, rfl, hcs'⟩ := hcs.close_cons (by decide)
      -- the clump that ends is one of the block's own, so the level around it is one of these
      obtain - | ⟨i, - | ⟨p, inner⟩⟩ := inner
      · exact absurd hd (by simp)
      · obtain ⟨child, hchild⟩ := levels_clumpEnd hs
        exact (ih hcs' [] hchild (Nat.succ.inj hd)).clumpEnd
      · obtain ⟨child, hchild⟩ := levels_clumpEnd hs
        exact (ih hcs' (p.adopt child :: inner) hchild (Nat.succ.inj hd)).clumpEnd
    obtain ⟨k, hk, hscopes⟩ := s.levels_apply hb he
    have hcs' := hcs.of_cons hb he
    cases inner with
    | cons i inner =>
      -- the command happens inside a further clump
      obtain ⟨-, houter⟩ := List.cons.inj hs
      have hd0 : d ≠ 0 := by
        rw [← hd]
        simp
      refine (ih hcs' (k :: inner) ?_ hd).inner hb he hd0
      rw [hk, houter]
      rfl
    | nil =>
      -- the command happens at the block's own level
      obtain ⟨rfl, rfl⟩ := List.cons.inj hs
      obtain rfl : d = 0 := hd.symm
      refine Restored.outer hb he ?_
      rw [← hscopes]
      exact ih hcs' [] hk rfl

/-! ### Around a block -/

/-- A clump gives back the levels around it, the innermost with one more child. -/
theorem clump_restores (s : State) {cs : List Command} (h : ClumpsPaired cs) :
    ∃ child, (s.follow (.scope .clumpBegin :: (cs ++ [.scope .clumpEnd]))).levels =
      s.level.adopt child :: s.outer := by
  obtain ⟨m, hm, -⟩ := levels_follow h.closes (s := s.apply (.scope .clumpBegin)) []
    s.levels_clumpBegin rfl
  rw [follow_cons, follow_append]
  exact levels_clumpEnd hm

/-- A transform scope gives back matrix, material and open scopes, and leaves the rest as the block
has left it. -/
theorem transform_restores (s : State) {cs : List Command} (h : ClumpsPaired cs)
    (hown : OwnScopesPaired cs) :
    (s.follow (.scope .transformBegin :: cs)).outer = s.outer ∧
      s.follow (.scope .transformBegin :: (cs ++ [.scope .transformEnd])) =
        { s.follow (.scope .transformBegin :: cs) with
          level := { (s.follow (.scope .transformBegin :: cs)).level with
            matrix := s.level.matrix
            material := s.level.material
            memo := none
            scopes := s.level.scopes } } := by
  obtain ⟨m, hm, hkept⟩ := levels_follow h.closes (s := s.apply (.scope .transformBegin))
    [] (l := { s.level with scopes := ⟨s.level.matrix, s.level.material⟩ :: s.level.scopes })
    rfl rfl
  have hscopes := hkept [] _ rfl hown.closes
  rw [← List.cons_append, follow_append]
  simp only [follow_cons, follow_nil]
  set u := (s.apply (.scope .transformBegin)).follow cs
  obtain ⟨hlevel, houter⟩ := List.cons.inj hm
  refine ⟨houter, ?_⟩
  rw [apply, mark, hlevel, hscopes]
  rfl

/-- **Scopes restore what is around them**, whatever happens inside. -/
theorem scopes_restore (s : State) {cs : List Command} (h : ClumpsPaired cs) :
    (∃ child,
      let t := s.follow (.scope .clumpBegin :: (cs ++ [.scope .clumpEnd]))
      t.level = { s.level with node :=
        { s.level.node with children := s.level.node.children ++ [child] } } ∧
      t.outer = s.outer) ∧
    (OwnScopesPaired cs →
      let u := s.follow (.scope .transformBegin :: cs)
      let t := s.follow (.scope .transformBegin :: (cs ++ [.scope .transformEnd]))
      (t.level.matrix = s.level.matrix ∧ t.level.material = s.level.material ∧
        t.level.scopes = s.level.scopes ∧ t.outer = s.outer) ∧
      t.level.pool = u.level.pool ∧ t.level.batch = u.level.batch ∧
        t.level.node = u.level.node ∧ t.outer = u.outer) := by
  constructor
  · obtain ⟨child, hlevels⟩ := s.clump_restores h
    obtain ⟨hlevel, houter⟩ := List.cons.inj hlevels
    exact ⟨child, hlevel, houter⟩
  · intro hown u t
    obtain ⟨houter, ht⟩ := s.transform_restores h hown
    have htu : t = _ := ht
    rw [htu]
    exact ⟨⟨rfl, rfl, rfl, houter⟩, rfl, rfl, rfl, rfl⟩

/-- A clump that leaves a transform scope open and another one that ends one too often, inside a
transform scope of the block. -/
theorem scopes_restore_nested :
    let cs : List Command := [.scope .transformBegin, .transform (.translate ⟨1, 0, 0⟩),
      .scope .clumpBegin, .scope .transformBegin, .material (.opacity 0), .scope .clumpEnd,
      .scope .clumpBegin, .scope .transformEnd, .scope .clumpEnd, .scope .transformEnd]
    let s := State.start .initial
    ∃ child, (s.follow (.scope .clumpBegin :: (cs ++ [.scope .clumpEnd]))).level.node.children =
        s.level.node.children ++ [child] ∧
      (s.follow (.scope .transformBegin :: (cs ++ [.scope .transformEnd]))).level.matrix =
        s.level.matrix := by
  intro cs s
  obtain ⟨⟨child, hchild, -⟩, htransform⟩ := scopes_restore s (show ClumpsPaired cs by decide)
  exact ⟨child, by rw [hchild], (htransform (by decide)).1.1⟩

end State

end RwxScene
