import ChipEight.Instruction.Encoding
import ChipEight.Machine.Execute

namespace ChipEight

/-- The clock readings of one cycle, at the execution and at the poll of the timers. -/
structure Moment where
  execute : Int
  poll : Int
  deriving DecidableEq

def Moment.still (now : Int) : Moment :=
  ⟨now, now⟩

namespace Machine

def fetch (m : Machine) : Except Memory.Fault Instruction :=
  (m.memory.readWord m.pc).map decode

def advanced (m : Machine) : Machine :=
  { m with redraw := false, opAddress := m.pc, pc := m.pc + 2 }

def finish (m : Machine) (notices : List Notice) (now : Int) (c : Console := .off) :
    Outcome Bool :=
  let o := m.poll now c
  ⟨o.machine, notices ++ o.notices, o.answer.map fun _ ↦ m.redraw⟩

@[simp]
theorem finish_answer (m : Machine) (notices : List Notice) (now : Int) :
    (m.finish notices now).answer = .ok m.redraw := by
  rw [finish, poll_answer]
  rfl

/-- Fetches, executes and polls. After a failure `pc` is not wrapped. -/
def cycle (random : Nat → Int) (t : Moment) (m : Machine) (c : Console := .off) : Outcome Bool :=
  if m.waiting then { m with redraw := false }.finish [] t.poll c
  else
    match m.fetch with
    | .error _ =>
      ⟨{ m with redraw := false, opAddress := m.pc }, [], .error (.crash ⟨.fetch, m.pc⟩)⟩
    | .ok i =>
      match m.advanced.execute random t.execute i c with
      | .error e => ⟨e.machine, [], .error e.fault⟩
      | .ok (m, notices) => { m with pc := m.pc % 4096 }.finish notices t.poll c

end Machine

end ChipEight
