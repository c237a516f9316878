import ChipEight.Frontend.Display
import ChipEight.Frontend.Keyboard

namespace ChipEight

abbrev Layout.standard : Layout :=
  ⟨64, 32, 10⟩

/-- A machine with its window. `rates` has the rate of each tick, `frames` the cells seen after each
picture that was drawn. -/
structure Session (W : WindowSystem) where
  machine : Machine
  display : Display W .standard
  rates : List Nat
  notices : List Notice
  frames : List (List (List (Option Bool)))

namespace Session

variable {W : WindowSystem}

def speed : Nat := 500

def start (W : WindowSystem) (m : Machine) (notices : List Notice) :
    Except W.Fault (Session W) := do
  let display ← Display.create W .standard Display.lightBlue Display.blue
  return ⟨m, display, [], notices, []⟩

def tick (s : Session W) (rate : Nat) : Session W :=
  { s with rates := s.rates ++ [rate] }

def after {α : Type} (s : Session W) (o : Outcome α) : Session W :=
  { s with machine := o.machine, notices := s.notices ++ o.notices }

def render (s : Session W) : Session W :=
  let display := s.display.render s.machine.screen.levels
  { s with display, frames := s.frames ++ [display.cells] }

/-- Handles all events of a turn, also those behind one that ends the session, and tells whether
to go on. -/
def feed (c : Console) (s : Session W) : List Event → Session W × Except Fault Bool
  | [] => (s, .ok true)
  | e :: rest =>
    let o := s.machine.handle e c
    match o.answer with
    | .error f => (s.after o, .error f)
    | .ok goOn =>
      let (s, r) := (s.after o).feed c rest
      (s, r.map (goOn && ·))

def turn (c : Console) (random : Nat → Int) (t : Moment) (s : Session W) (events : List Event) :
    Session W × Except Fault Bool :=
  match (s.tick speed).feed c events with
  | (s, .error e) => (s, .error e)
  | (s, .ok goOn) =>
    let o := s.machine.cycle random t c
    let s := s.after o
    match o.answer with
    | .error e => (s, .error e)
    | .ok redraw => (if redraw then s.render else s, .ok goOn)

/-- Plays turns until one of them ends the session. When the events run out the user leaves. -/
def play (c : Console) (random : Nat → Int) (clock : Nat → Moment) (s : Session W) :
    List (List Event) → Session W × Except Fault Unit
  | [] =>
    let (s, r) := s.turn c random (clock s.rates.length) [.quit]
    (s, r.map fun _ ↦ ())
  | events :: rest =>
    match s.turn c random (clock s.rates.length) events with
    | (s, .error e) => (s, .error e)
    | (s, .ok false) => (s, .ok ())
    | (s, .ok true) => s.play c random clock rest

end Session

end ChipEight
