import ChipEight.Proofs.Background
import ChipEight.Proofs.Cycle

namespace ChipEight.Machine

def ahead (k : Nat) (m : Machine) : Machine :=
  { m with drawn := k + m.drawn }

end ChipEight.Machine

namespace ChipEight

def Outcome.ahead {α : Type} (k : Nat) (o : Outcome α) : Outcome α :=
  ⟨o.machine.ahead k, o.notices, o.answer⟩

namespace Machine

variable {k : Nat} {m : Machine} {a : Action}

theorem execute_ahead (random : Nat → Int) (k : Nat) (now : Int) (m : Machine) (i : Instruction) :
    (m.ahead k).execute random now i =
      mapResult (ahead k) (m.execute (fun j ↦ random (k + j)) now i) := by
  by_cases hi : i.UsesBackground
  · obtain rfl | ⟨nnn, rfl⟩ | ⟨x, nn, rfl⟩ | ⟨x, rfl | rfl | rfl⟩ := hi.cases
    · simp only [execute, executePlain, ahead]
      cases m.stack.pop <;> rfl
    · simp only [execute, executeAddress, ahead]
      cases m.stack.push m.pc <;> rfl
    all_goals rfl
  · exact execute_mapBackground _ _ now now m (fun b ↦ { b with drawn := k + b.drawn }) hi

theorem cycle_ahead (random : Nat → Int) (k : Nat) (t : Moment) (m : Machine) :
    (m.ahead k).cycle random t = (m.cycle (fun j ↦ random (k + j)) t).ahead k := by
  cases hw : m.waiting with
  | true =>
    rw [cycle_of_waiting hw, cycle_of_waiting (m := m.ahead k) hw]
    rfl
  | false =>
    by_cases hp : m.pc ≤ 4094
    · have hx := execute_ahead random k t.execute m.advanced m.upcoming
      cases he : m.advanced.execute (fun j ↦ random (k + j)) t.execute m.upcoming with
      | error e =>
        rw [he] at hx
        rw [cycle_of_execute_error hw hp he, cycle_of_execute_error (m := m.ahead k) hw hp hx]
        rfl
      | ok r =>
        obtain ⟨n, notices⟩ := r
        rw [he] at hx
        rw [cycle_of_execute_ok hw hp he, cycle_of_execute_ok (m := m.ahead k) hw hp hx]
        rfl
    · have hp : 4094 < m.pc := Nat.not_le.mp hp
      rw [cycle_of_lt hw hp, cycle_of_lt (m := m.ahead k) hw hp]
      rfl

/-- Every part of a machine is given a new value by a reset, its position in the random sequence
apart. -/
theorem reset_eq (m n : Machine) (now : Int) :
    m.reset now = { n.reset now with drawn := m.drawn } := by
  have hmemory : m.memory.clear = n.memory.clear := rfl
  have hscreen : m.screen.clear = n.screen.clear := rfl
  have hkeypad : m.keypad.clear = n.keypad.clear := rfl
  have hstack : m.stack.clear = n.stack.clear := rfl
  rw [reset, reset, hmemory, hscreen, hkeypad, hstack]

theorem reset_ahead (k : Nat) (m : Machine) (now : Int) :
    (m.ahead k).reset now = (m.reset now).ahead k := by
  rw [(m.ahead k).reset_eq m, ahead, ahead, reset]

theorem perform_ahead (random : Nat → Int) (k : Nat) (m : Machine) (a : Action) :
    (m.ahead k).perform random a = (m.perform (fun j ↦ random (k + j)) a).ahead k := by
  cases a with
  | cycle t =>
    rw [perform, cycle_ahead]
    rfl
  | poll now => rfl
  | reset now =>
    rw [perform, perform, reset_ahead]
    rfl
  | press | release | load | poke | sprite =>
    exact perform_mapBackground _ _ m (fun b ↦ { b with drawn := k + b.drawn }) trivial (by simp)

theorem outcomes_ahead (random : Nat → Int) (k : Nat) (m : Machine) (actions : List Action) :
    (m.ahead k).outcomes random actions =
      (m.outcomes (fun j ↦ random (k + j)) actions).map (.ahead k) := by
  induction actions generalizing m with
  | nil => rfl
  | cons a actions ih =>
    rw [outcomes, outcomes, perform_ahead, List.map_cons]
    exact congrArg _ (ih _)

/-- A reset leaves nothing of a machine but its position in the random sequence, and so nothing
that is done with the machine later tells it from a new one that is given the rest of the
sequence. -/
theorem reset_forgets_history (random : Nat → Int) (m : Machine) (now : Int) :
    m.reset now = { fresh now with drawn := m.drawn } ∧
    ∀ later : List Action,
      (m.reset now).outcomes random later =
        ((fresh now).outcomes (fun k ↦ random (m.drawn + k)) later).map fun o ↦
          ⟨{ o.machine with drawn := m.drawn + o.machine.drawn }, o.notices, o.answer⟩ := by
  have hreset : m.reset now = { fresh now with drawn := m.drawn } := m.reset_eq blank now
  have hahead : m.reset now = (fresh now).ahead m.drawn := hreset
  refine ⟨hreset, ?_⟩
  intro later
  rw [hahead]
  exact outcomes_ahead random m.drawn (fresh now) later

end Machine

end ChipEight
