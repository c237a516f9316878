import ChipEight.Machine.Cycle

namespace ChipEight

inductive Action
  | cycle (t : Moment)
  | poll (now : Int)
  | press (k : Int)
  | release (k : Int)
  | load (rom : List Byte)
  | poke (address : Int) (data : List Int)
  | sprite (x y : Int) (rows : List Int)
  | reset (now : Int)

namespace Machine

def attempt {α β : Type} (m : Machine) (r : Except Fault α)
    (next : α → Machine × List Notice × β) : Outcome β :=
  match r with
  | .ok a => let (m, notices, b) := next a; ⟨m, notices, .ok b⟩
  | .error e => ⟨m, [], .error e⟩

def perform (random : Nat → Int) (m : Machine) (a : Action) (c : Console := .off) :
    Outcome (Option Bool) :=
  match a with
  | .cycle t =>
    let o := m.cycle random t c
    ⟨o.machine, o.notices, o.answer.map some⟩
  | .poll now =>
    let o := m.poll now c
    ⟨o.machine, o.notices, o.answer.map fun _ ↦ none⟩
  | .press k => .of (m.press k c) none
  | .release k => m.attempt (m.release k) fun m ↦ (m, [], none)
  | .load rom => m.attempt (m.load rom) fun m ↦ (m, [], none)
  | .poke address data =>
    m.attempt ((m.memory.writeRange address data).mapError .memory) fun memory ↦
      ({ m with memory }, [], none)
  | .sprite x y rows =>
    m.attempt ((m.screen.draw x y rows).mapError .screen) fun (hit, screen) ↦
      ({ m with screen }, [], some hit)
  | .reset now => ⟨m.reset now, [], .ok none⟩

/-- A failed action is followed by the next one. -/
def run (random : Nat → Int) (m : Machine) (actions : List Action) : Machine :=
  actions.foldl (fun m a ↦ (m.perform random a).machine) m

theorem run_append (random : Nat → Int) (m : Machine) (a b : List Action) :
    m.run random (a ++ b) = (m.run random a).run random b :=
  List.foldl_append

def outcomes (random : Nat → Int) (m : Machine) : List Action → List (Outcome (Option Bool))
  | [] => []
  | a :: rest => m.perform random a :: (m.perform random a).machine.outcomes random rest

end Machine

structure Report where
  machine : Machine
  answer : Except Fault (Option Bool)
  stdout : String
  stderr : String
  beeps : List Int

def Outcome.report (o : Outcome (Option Bool)) (c : Console) : Report :=
  ⟨o.machine, o.answer, c.stdout o.notices, c.stderr o.notices, c.beeps o.notices⟩

end ChipEight
