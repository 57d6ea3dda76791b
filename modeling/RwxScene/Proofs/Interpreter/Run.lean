import RwxScene.Interpreter.Step

/-!
# Runs

What can happen to an interpretation from outside is an `Action`: a line is read, a command is
followed, or the host sets something. A run is any list of actions; whatever can be reached is
reached by a run from `State.start`.

An action either follows a command or leaves everything alone but the three things that a host may
set (`act_of_command`, `act_of_no_command`), so a statement about runs is a statement about commands.
-/

namespace RwxScene

/-- What can happen to an interpretation. -/
inductive Action where
  | line (l : Line)
  | command (c : Command)
  | markBaked
  | setPrototypeOpen (isOpen : Bool)
  | setInstanceTransform (m : Option Mat4)

/-- The command that is followed, if one is. -/
def Action.command? : Action → Option Command
  | .line l => l.command?
  | .command c => some c
  | _ => none

namespace State

/-- The state after an action. -/
def act (s : State) : Action → State
  | .line l => s.step l
  | .command c => s.apply c
  | .markBaked => s.markBaked
  | .setPrototypeOpen isOpen => s.setPrototypeOpen isOpen
  | .setInstanceTransform m => s.setInstanceTransform m

/-- The state after some actions. -/
def run (s : State) (as : List Action) : State := as.foldl act s

@[simp] theorem run_nil (s : State) : s.run [] = s := rfl

@[simp] theorem run_cons (s : State) (a : Action) (as : List Action) :
    s.run (a :: as) = (s.act a).run as := rfl

/-- The state after some commands. -/
def follow (s : State) (cs : List Command) : State := cs.foldl apply s

@[simp] theorem follow_nil (s : State) : s.follow [] = s := rfl

@[simp] theorem follow_cons (s : State) (c : Command) (cs : List Command) :
    s.follow (c :: cs) = (s.apply c).follow cs := rfl

theorem follow_append (s : State) (cs ds : List Command) :
    s.follow (cs ++ ds) = (s.follow cs).follow ds :=
  List.foldl_append

/-- Following commands is a run. -/
theorem run_map_command (s : State) (cs : List Command) : s.run (cs.map .command) = s.follow cs :=
  List.foldl_map

/-! ### Actions and commands -/

/-- An action with a command follows it. -/
theorem act_of_command {a : Action} {c : Command} (h : a.command? = some c) (s : State) :
    s.act a = s.apply c := by
  cases a with
  | line l =>
    cases l with
    | command d =>
      obtain rfl : d = c := Option.some.inj h
      rfl
    | blank => exact absurd h (by simp [Action.command?, Line.command?])
    | rejected r => exact absurd h (by simp [Action.command?, Line.command?])
  | command d =>
    obtain rfl : d = c := Option.some.inj h
    rfl
  | _ => exact absurd h (by simp [Action.command?])

/-- An action without a command reaches only what a host may set. -/
theorem act_of_no_command {a : Action} (h : a.command? = none) (s : State) :
    ∃ baked prototypeOpen instanceTransform,
      s.act a = { s with baked, prototypeOpen, instanceTransform } := by
  cases a with
  | line l =>
    cases l with
    | command d => exact absurd h (by simp [Action.command?, Line.command?])
    | blank => exact ⟨s.baked, s.prototypeOpen, s.instanceTransform, rfl⟩
    | rejected r => exact ⟨s.baked, s.prototypeOpen, s.instanceTransform, rfl⟩
  | command d => exact absurd h (by simp [Action.command?])
  | markBaked => exact ⟨true, s.prototypeOpen, s.instanceTransform, rfl⟩
  | setPrototypeOpen isOpen => exact ⟨s.baked, isOpen, s.instanceTransform, rfl⟩
  | setInstanceTransform m => exact ⟨s.baked, s.prototypeOpen, m, rfl⟩

end State

end RwxScene
