import Mathlib.Data.List.Basic
import Std.Data.String.ToNat
import RwxScene.Proofs.Interpreter.Clumpwise

/-!
# The tree has the shape of the brackets

Clumps are numbered as they are opened, and a journal has the number of the innermost clump beside
every bracket. So the brackets of a run say which clumps were opened in which (`openings`), and with
that which children every clump has (`childrenOf`): the clumps opened directly inside it, in order.

A node gets into the list of its parent when its clump ends, long after it was opened and with
everything opened inside it. The invariant is therefore about the rows of a tree under way
(`State.rows`), which count an open clump among the children of the one around it already. Only the
begin of a clump changes them; its end moves a node into another one and leaves the rows alone.
-/

namespace RwxScene

/-! ### Who was opened where -/

/-- The clumps in which clumps were opened: the `k`-th entry is where the clump after the `k`-th one
began. -/
def openings (es : List Entry) : List Nat :=
  (es.filter (·.command = .scope .clumpBegin)).map Entry.clump

/-- The clumps that were opened directly inside a clump, in order. -/
def childrenOf (ps : List Nat) (k : Nat) : List Nat :=
  (ps.zipIdx 1).filterMap fun x ↦ if x.1 = k then some x.2 else none

/-- The name of every clump with the names of its children. -/
def table (ps : List Nat) : List (String × List String) :=
  (List.range (ps.length + 1)).map fun k ↦ (nodeName k, (childrenOf ps k).map nodeName)

section Openings

variable {es : List Entry} {e : Entry} {ps : List Nat} {p k : Nat}

theorem openings_concat (h : e.command = .scope .clumpBegin) :
    openings (es ++ [e]) = openings es ++ [e.clump] := by
  rw [openings, List.filter_append, List.map_append, List.filter_singleton, h]
  rfl

theorem openings_concat_of_ne (h : e.command ≠ .scope .clumpBegin) :
    openings (es ++ [e]) = openings es := by
  rw [openings, List.filter_append, List.filter_singleton, decide_eq_false h]
  exact congrArg _ (List.append_nil _)

theorem childrenOf_concat (ps : List Nat) (p k : Nat) :
    childrenOf (ps ++ [p]) k = childrenOf ps k ++ if p = k then [ps.length + 1] else [] := by
  rw [childrenOf, List.zipIdx_append, List.filterMap_append, Nat.add_comm ps.length]
  by_cases h : p = k
  · simp [childrenOf, h]
  · simp [childrenOf, h]

/-- Nothing is opened in a clump that has not been opened. -/
theorem childrenOf_eq_nil (h : ∀ p ∈ ps, p < k) : childrenOf ps k = [] := by
  refine List.filterMap_eq_nil_iff.2 fun x hx ↦ if_neg ?_
  exact Nat.ne_of_lt (h x.1 (List.fst_mem_of_mem_zipIdx hx))

theorem length_table (ps : List Nat) : (table ps).length = ps.length + 1 := by
  rw [table, List.length_map, List.length_range]

/-- A clump that is opened gets a row, and is the last child of the clump it is opened in. -/
theorem table_concat (hps : ∀ q ∈ ps, q ≤ ps.length) (hp : p ≤ ps.length) :
    table (ps ++ [p]) =
      (table ps).modify p (fun x ↦ (x.1, x.2 ++ [nodeName (ps.length + 1)])) ++
        [(nodeName (ps.length + 1), [])] := by
  have hnew : childrenOf (ps ++ [p]) (ps.length + 1) = [] := by
    refine childrenOf_eq_nil fun q hq ↦ Nat.lt_succ_of_le ?_
    rcases List.mem_append.1 hq with hq | hq
    · exact hps q hq
    · rwa [List.mem_singleton.1 hq]
  rw [table, List.length_append, List.length_singleton, List.range_succ, List.map_append,
    List.map_singleton, hnew]
  refine congrArg (· ++ _) (List.ext_getElem? fun k ↦ ?_)
  rw [table, List.getElem?_modify, List.getElem?_map, List.getElem?_map]
  rcases Nat.lt_or_ge k (ps.length + 1) with hk | hk
  · rw [List.getElem?_range hk, Option.map_some, Option.map_some, Option.map_eq_map,
      Option.map_some, childrenOf_concat, List.map_append]
    by_cases h : p = k
    · rw [if_pos h, if_pos h, List.map_singleton]
    · rw [if_neg h, if_neg h, List.map_nil, List.append_nil]
  · rw [List.getElem?_eq_none (by rwa [List.length_range])]
    rfl

end Openings

/-- The journal takes down the commands of the run. -/
theorem map_command_entries (s : State) (j : Journal) (as : List Action) :
    (s.journal j as).entries.map Entry.command =
      j.entries.map Entry.command ++ as.filterMap Action.command? := by
  induction as generalizing s j with
  | nil => exact (List.append_nil _).symm
  | cons a as ih =>
    rw [State.journal, ih, Journal.record]
    cases hc : a.command? with
    | some c =>
      rw [List.filterMap_cons_some hc, List.map_append, List.append_assoc]
      rfl
    | none =>
      rw [List.filterMap_cons_none hc]
      refine congrArg (· ++ _) (congrArg _ ?_)
      cases a <;> rfl

/-- A clump is opened for every begin of a clump. -/
theorem length_openings_journal (settings : Settings) (as : List Action) :
    (openings (journal settings as).entries).length =
      (as.filterMap Action.command?).count (.scope .clumpBegin) := by
  have hcommands := map_command_entries (.start settings) .empty as
  rw [← List.nil_append (as.filterMap _)]
  refine Eq.trans ?_ (congrArg (List.count _) hcommands)
  rw [openings, List.length_map, List.count_eq_countP, List.countP_map, List.countP_eq_length_filter]
  exact congrArg List.length (List.filter_congr fun _ _ ↦ rfl)

/-! ### Rows of a tree under way -/

namespace Node

/-- The name of a node with the names of its children. -/
def row (n : Node) : String × List String := (n.name, n.children.map Node.name)

end Node

namespace Level

/-- The rows of levels, the innermost of which comes first. A level is a child of the one around it,
which is why the names of what is open inside are handed outward. -/
def rows (inner : List String) : List Level → List (String × List String)
  | [] => []
  | l :: ls =>
    rows [l.node.name] ls ++ (l.node.name, l.node.children.map Node.name ++ inner) ::
      (Node.visit l.node.children).map Node.row

theorem length_rows (settings : Settings) (inner : List String) (ls : List Level) :
    (rows inner ls).length = (contents settings ls).length := by
  induction ls generalizing inner with
  | nil => rfl
  | cons l ls ih => simp only [rows, contents, content, List.length_append, ih, List.length_cons,
      List.length_map]

/-- The rows depend on the names and children of the levels only. -/
theorem rows_congr {l m : Level} (hname : m.node.name = l.node.name)
    (hchildren : m.node.children = l.node.children) (inner : List String) (ls : List Level) :
    rows inner (m :: ls) = rows inner (l :: ls) := by
  rw [rows, rows, hname, hchildren]

/-- What is open inside is a child of the innermost level. -/
theorem rows_inner (name : String) (l : Level) (ls : List Level) :
    rows [name] (l :: ls) =
      (rows [] (l :: ls)).modify (rows [l.node.name] ls).length fun x ↦ (x.1, x.2 ++ [name]) := by
  rw [rows, rows, List.append_nil, List.modify, ← Nat.add_zero (rows _ ls).length,
    List.modifyTailIdx_add]
  rfl

end Level

namespace State

/-- The rows of the tree as far as it is known. -/
def rows (s : State) : List (String × List String) := Level.rows [] s.levels

/-- Ending a clump moves rows without changing them. -/
theorem rows_leave (settings : Settings) (l parent : Level) (outer : List Level)
    (placement : Placement) (joint : Option Mat4) :
    Level.rows [] (parent.adopt { (l.settled settings).node with placement, joint } :: outer) =
      Level.rows [] (l :: parent :: outer) := by
  -- the name that the level around handed outward is now that of a child
  rw [Level.rows, Level.rows, Level.rows, List.append_nil, List.append_nil, List.append_assoc]
  show _ ++ (parent.node.name, (parent.node.children ++ [_]).map Node.name) ::
    (Node.visit (parent.node.children ++ [_])).map Node.row = _
  rw [Node.visit_append, List.map_append, List.map_append, Node.visit_singleton]
  rfl

theorem rows_closeAll (s : State) {outer : List Level} (h : s.outer = outer) :
    (s.closeAll outer).rows = s.rows := by
  induction outer generalizing s with
  | nil => rfl
  | cons parent outer ih =>
    obtain ⟨placement, joint, d, hleave⟩ :=
      (s.count fun d ↦ { d with autoClosedClumps := d.autoClosedClumps + 1 }).exists_leave parent
        outer
    rw [closeAll, ih _ (by rw [hleave]), hleave, rows, rows, levels, levels, h]
    exact rows_leave s.settings s.level parent outer placement joint

/-- The finished tree has the rows of the last state. -/
theorem rows_finish (s : State) : s.finish.1.walk.map Node.row = s.rows := by
  rw [← s.rows_closeAll rfl]
  have houter := s.outer_closeAll rfl
  show (State.level _).node.walk.map Node.row = _
  generalize s.closeAll s.outer = t at houter
  obtain ⟨d, hflush⟩ := t.exists_flush
  rw [hflush, rows, levels, houter, Node.walk_eq, Level.rows, List.append_nil]
  rfl

end State

/-! ### The rows follow the brackets -/

/-- The rows of the state are those of the brackets on record. -/
structure Nested (s : State) (j : Journal) : Prop where
  opened : j.opened = (openings j.entries).length
  rows : s.rows = table (openings j.entries)

namespace Nested

variable {R : List Batch → List Entry → Prop} {s t : State} {j : Journal}

theorem start (settings : Settings) : Nested (.start settings) .empty := by
  refine ⟨rfl, ?_⟩
  show (nodeName 0, []) :: (Node.visit []).map Node.row = _
  rw [Node.visit_nil]
  rfl

theorem opened_nest {c : Command} (hc : c ≠ .scope .clumpBegin) : (j.nest c).opened = j.opened := by
  cases c with
  | scope m =>
    cases m with
    | clumpBegin => exact absurd rfl hc
    | clumpEnd =>
      rw [Journal.nest]
      split <;> rfl
    | _ => rfl
  | _ => rfl

/-- A command that begins no clump and keeps the rows. -/
theorem skip (h : Nested s j) {c : Command} (hc : c ≠ .scope .clumpBegin) (m : Material)
    (hrows : t.rows = s.rows) :
    Nested t { j.nest c with entries := j.entries ++ [j.entry m c] } := by
  refine ⟨?_, ?_⟩
  · show (j.nest c).opened = _
    rw [openings_concat_of_ne hc, opened_nest hc, h.opened]
  · rw [openings_concat_of_ne hc, hrows, h.rows]

/-- A clump that begins gets a row, and a place among the children of the innermost clump. -/
theorem entered (h : Nested s j) (ht : Tracks R s j) (m : Material) :
    Nested s.enter { j.nest (.scope .clumpBegin) with
      entries := j.entries ++ [j.entry m (.scope .clumpBegin)] } := by
  have hle : ∀ q ∈ openings j.entries, q ≤ (openings j.entries).length := by
    intro q hq
    obtain ⟨e, he, rfl⟩ := List.mem_map.1 hq
    rw [← h.opened]
    exact ht.clump_le e (List.mem_filter.1 he).1
  have hinnermost : j.innermost = (Level.rows [s.level.node.name] s.outer).length := by
    rw [ht.innermost_eq, Level.length_rows s.settings]
  refine ⟨?_, ?_⟩
  · show j.opened + 1 = _
    rw [openings_concat rfl, List.length_append, h.opened]
    rfl
  · rw [openings_concat rfl, table_concat hle (h.opened ▸ ht.innermost_le), ← h.rows]
    show Level.rows [nodeName (s.clumps + 1)] (s.level :: s.outer) ++
      (nodeName (s.clumps + 1), []) :: (Node.visit []).map Node.row = _
    rw [Node.visit_nil, Level.rows_inner, ← hinnermost, ht.clumps, h.opened]
    rfl

theorem effect (h : Nested s j) (ht : Tracks R s j) {c : Command} (m : Material)
    (hc : s.Effect c t) :
    Nested t { j.nest c with entries := j.entries ++ [j.entry m c] } := by
  cases hc with
  | vertex position uv => exact h.skip (by simp) m rfl
  | dropped f d hf => exact h.skip (by simp) m rfl
  | drawn f offsets d hf =>
    have hkeeps := s.level.keeps_draw s.settings f offsets
    exact h.skip (by simp) m (Level.rows_congr hkeeps.name hkeeps.children [] s.outer)
  | entered => exact h.entered ht m
  | unmatched d ho => exact h.skip (by simp) m rfl
  | left parent outer placement joint d ho =>
    refine h.skip (by simp) m ?_
    rw [State.rows, State.rows, State.levels, State.levels, ho]
    exact State.rows_leave s.settings s.level parent outer placement joint
  | quiet _ matrix material memo joint joints d hquiet hmemo =>
    refine h.skip ?_ m rfl
    rintro rfl
    exact hquiet

theorem act (h : Nested s j) (ht : Tracks R s j) (a : Action) :
    Nested (s.act a) (j.record s.level.material a) := by
  rw [Journal.record]
  cases hc : a.command? with
  | some c =>
    rw [State.act_of_command hc]
    exact h.effect ht s.level.material (s.effect_apply c)
  | none =>
    obtain ⟨_, _, _, hact⟩ := State.act_of_no_command hc s
    rw [hact]
    cases a <;> exact ⟨h.opened, h.rows⟩

/-- The rows follow the brackets along a run. -/
theorem run {P : Face → Prop} {Q : Level → Prop} (h : Nested s j) (ht : Tracks R s j)
    (hR : Clumpwise s.settings P Q R) (hs : ∀ l ∈ s.levels, Q l) {as : List Action}
    (has : ∀ a ∈ as, a.Draws P) : Nested (s.run as) (s.journal j as) := by
  induction as generalizing s j with
  | nil => exact h
  | cons a as ih =>
    obtain ⟨ha, has⟩ := List.forall_mem_cons.1 has
    exact ih (h.act ht a) (ht.act hR hs ha) (s.settings_act a ▸ hR) (hR.stable.act ha hs) has

end Nested

/-! ### The root -/

/-- The level has neither place nor joint yet; a clump gets both when it ends. -/
def Level.Unplaced (l : Level) : Prop := l.node.placement = .identity ∧ l.node.joint = none

namespace Level

theorem Unplaced.join {l : Level} (h : l.Unplaced) (settings : Settings) (material : Material)
    (signature : Signature) (ts : List (Triangle Nat)) :
    (l.join settings material signature ts).Unplaced := by
  cases hb : l.batch with
  | none =>
    rw [join_of_none settings material ts hb]
    exact h
  | some b =>
    by_cases hsig : b.signature = signature
    · rw [join_of_eq settings material ts hb hsig]
      exact h
    · rw [join_of_ne settings material ts hb hsig]
      exact h

theorem stable_unplaced (settings : Settings) : Stable settings (fun _ ↦ True) Unplaced where
  start := ⟨rfl, rfl⟩
  vertex _ _ h := h
  draw l f offsets _ _ h := by
    rw [draw]
    split
    · exact h.join settings _ _ _
    · exact Unplaced.join (l := l.remember) h settings _ _ _
  enter _ _ _ := ⟨rfl, rfl⟩
  adopt _ _ h := h
  quiet _ _ _ _ _ _ h := h

/-- Ending all clumps keeps what is stable. -/
theorem Stable.closeAll {settings : Settings} {P : Face → Prop} {Q : Level → Prop} {s : State}
    (h : Stable settings P Q) {outer : List Level} (ho : s.outer = outer)
    (hs : ∀ l ∈ s.levels, Q l) : ∀ l ∈ (s.closeAll outer).levels, Q l := by
  induction outer generalizing s with
  | nil => exact hs
  | cons parent outer ih =>
    obtain ⟨placement, joint, d, hleave⟩ :=
      (s.count fun d ↦ { d with autoClosedClumps := d.autoClosedClumps + 1 }).exists_leave parent
        outer
    obtain ⟨-, houter⟩ := List.forall_mem_cons.1 hs
    rw [ho] at houter
    obtain ⟨hparent, houter⟩ := List.forall_mem_cons.1 houter
    refine ih (by rw [hleave]) ?_
    rw [hleave]
    exact List.forall_mem_cons.2 ⟨h.adopt _ _ hparent, houter⟩

end Level

/-- The root of the finished tree has no place of its own, for it never ends. -/
theorem State.unplaced_finish (settings : Settings) (as : List Action) :
    ((State.start settings).run as).finish.1.placement = .identity ∧
      ((State.start settings).run as).finish.1.joint = none := by
  have hstable := Level.stable_unplaced settings
  have hclosed := hstable.closeAll rfl (hstable.forall_run as fun _ _ _ _ ↦ trivial)
  generalize (State.start settings).run as = s at hclosed
  obtain ⟨d, hflush⟩ := (s.closeAll s.outer).exists_flush
  have hlevel := hclosed _ List.mem_cons_self
  show (s.closeAll s.outer).flush.level.Unplaced
  rw [hflush]
  exact hlevel

/-! ### Names -/

theorem root_ne_clumpName (n : Nat) : "root" ≠ State.clumpName n := by
  intro h
  have hchars := congrArg String.toList h
  rw [State.clumpName, String.toList_append] at hchars
  simp at hchars

/-- No two clumps have the same name. -/
theorem nodeName_injective {m n : Nat} (h : nodeName m = nodeName n) : m = n := by
  cases m with
  | zero =>
    cases n with
    | zero => rfl
    | succ n => exact absurd h (root_ne_clumpName _)
  | succ m =>
    cases n with
    | zero => exact absurd h.symm (root_ne_clumpName _)
    | succ n => exact Nat.repr_injective ((String.append_right_inj _).1 h)

namespace Node

variable {root n : Node} {ps : List Nat} {k : Nat}

theorem row_of_walk (h : root.walk.map row = table ps) (hn : root.walk[k]? = some n) :
    n.name = nodeName k ∧ n.children.map name = (childrenOf ps k).map nodeName := by
  have hlt : k < ps.length + 1 := by
    rw [← length_table, ← h, List.length_map]
    exact (List.getElem?_eq_some_iff.1 hn).1
  have hrow := congrArg (·[k]?) h
  rw [List.getElem?_map, hn, table, List.getElem?_map, List.getElem?_range hlt] at hrow
  exact Prod.mk.inj (Option.some.inj hrow)

/-- The children of a clump are the clumps opened directly inside it, each the one that the walk has
at its number. -/
theorem children_of_rows (h : root.walk.map row = table ps) (hn : root.walk[k]? = some n) :
    n.children.map some = (childrenOf ps k).map (root.walk[·]?) := by
  refine List.ext_getElem? fun i ↦ ?_
  have hname := congrArg (·[i]?) (row_of_walk h hn).2
  rw [List.getElem?_map, List.getElem?_map] at hname ⊢
  cases hc : n.children[i]? with
  | none =>
    rw [hc] at hname
    rw [Option.map_eq_none_iff.1 hname.symm]
    rfl
  | some c =>
    rw [hc] at hname
    obtain ⟨k', hk', hname⟩ := Option.map_eq_some_iff.1 hname.symm
    -- the child is itself visited, and its name says where
    have hvisited : c ∈ root.walk :=
      mem_visit_of_mem_children (List.mem_of_getElem? hn) (List.mem_of_getElem? hc)
    obtain ⟨k'', hk''⟩ := List.mem_iff_getElem?.1 hvisited
    obtain rfl : k' = k'' :=
      nodeName_injective (hname.trans (row_of_walk h hk'').1)
    rw [hk', Option.map_some, Option.map_some, hk'']

/-- A name finds the clump that has it. -/
theorem find?_of_rows (h : root.walk.map row = table ps) (hn : root.walk[k]? = some n) :
    root.find? (nodeName k) = some n := by
  obtain ⟨hk, hget⟩ := List.getElem?_eq_some_iff.1 hn
  refine List.find?_eq_some_iff_getElem.2 ⟨?_, k, hk, hget, fun i hi ↦ ?_⟩
  · exact beq_iff_eq.2 (row_of_walk h hn).1
  · have hname := (row_of_walk h (List.getElem?_eq_getElem (Nat.lt_trans hi hk))).1
    rw [hname, Bool.not_eq_true', beq_eq_false_iff_ne]
    exact fun h ↦ Nat.ne_of_lt hi (nodeName_injective h)

end Node

/-! ### The tree -/

/-- What may be said of names alone holds clump by clump. -/
theorem clumpwise_true (settings : Settings) :
    Clumpwise settings (fun _ ↦ True) Level.Unplaced fun _ _ ↦ True where
  stable := Level.stable_unplaced settings
  nil := trivial
  skip _ _ _ _ _ := trivial
  draw _ _ _ _ _ _ _ _ _ _ _ := trivial

/-- The rows of the finished tree are those of the brackets. -/
theorem map_row_walk (settings : Settings) (as : List Action) :
    ((State.start settings).run as).finish.1.walk.map Node.row =
      table (openings (journal settings as).entries) := by
  have hR := clumpwise_true settings
  rw [State.rows_finish]
  exact ((Nested.start settings).run (.start hR) hR hR.stable.forall_start fun _ _ _ _ ↦ trivial).rows

/-- **The tree has the shape of the brackets**, be they paired or not. The nodes are the root and the
clumps in the order in which they were opened; the children of each are the clumps opened directly
inside it, in order; the root stays where it is; and a name finds its clump. -/
theorem tree_nests (settings : Settings) (as : List Action) :
    let root := ((State.start settings).run as).finish.1
    let ps := openings (journal settings as).entries
    ps.length = (as.filterMap Action.command?).count (.scope .clumpBegin) ∧
      root.walk.map Node.name = (List.range (ps.length + 1)).map nodeName ∧
      (∀ k n, root.walk[k]? = some n →
        n.children.map some = (childrenOf ps k).map (root.walk[·]?)) ∧
      (root.placement = .identity ∧ root.joint = none) ∧
      ∀ k ≤ ps.length, ∃ n, root.walk[k]? = some n ∧ root.find? (nodeName k) = some n := by
  intro root ps
  have hrows : root.walk.map Node.row = table ps := map_row_walk settings as
  have hlength := congrArg List.length hrows
  rw [List.length_map, length_table] at hlength
  refine ⟨length_openings_journal settings as, ?_, fun k n ↦ Node.children_of_rows hrows,
    State.unplaced_finish settings as, fun k hk ↦ ?_⟩
  · have hnames := congrArg (List.map Prod.fst) hrows
    rw [List.map_map, table, List.map_map] at hnames
    exact hnames
  · obtain ⟨n, hn⟩ : ∃ n, root.walk[k]? = some n :=
      ⟨_, List.getElem?_eq_getElem (by rw [hlength]; exact Nat.lt_succ_of_le hk)⟩
    exact ⟨n, hn, Node.find?_of_rows hrows hn⟩

end RwxScene
