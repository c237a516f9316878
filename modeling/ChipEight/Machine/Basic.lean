import ChipEight.CallStack
import ChipEight.Machine.Fault
import ChipEight.Timer

namespace ChipEight

/-- The whole state. `opAddress` is where the last instruction was fetched, `drawn` the number of
random numbers used so far. -/
structure Machine where
  memory : Memory 4096
  screen : Screen 64 32
  keypad : Keypad
  stack : CallStack Nat 16
  registers : Vector Byte 16
  index : Address
  pc : Nat
  opAddress : Nat
  delay : Timer
  sound : Timer
  redraw : Bool
  waiting : Bool
  keyRegister : Nibble
  drawn : Nat

/-- What an operation leaves behind: the machine, also after a failure, what it told on the way,
and the answer it gave. -/
structure Outcome (α : Type) where
  machine : Machine
  notices : List Notice
  answer : Except Fault α

structure Raise (ε : Type) where
  machine : Machine
  fault : ε

def Outcome.of {β : Type} (r : Except (Raise Fault) (Machine × List Notice)) (b : β) :
    Outcome β :=
  match r with
  | .ok (m, notices) => ⟨m, notices, .ok b⟩
  | .error e => ⟨e.machine, [], .error e.fault⟩

namespace Machine

/-- Tells a notice to the console. Where it is refused the machine gets no further. -/
def tell (m : Machine) (n : Notice) (c : Console) :
    Except (Raise Fault) (Machine × List Notice) :=
  match c.hear n with
  | .ok () => .ok (m, [n])
  | .error e => .error ⟨m, .output e⟩

def glyphs : List Byte :=
  [0xF0, 0x90, 0x90, 0x90, 0xF0,
    0x20, 0x60, 0x20, 0x20, 0x70,
    0xF0, 0x10, 0xF0, 0x80, 0xF0,
    0xF0, 0x10, 0xF0, 0x10, 0xF0,
    0x90, 0x90, 0xF0, 0x10, 0x10,
    0xF0, 0x80, 0xF0, 0x10, 0xF0,
    0xF0, 0x80, 0xF0, 0x90, 0xF0,
    0xF0, 0x10, 0x20, 0x40, 0x40,
    0xF0, 0x90, 0xF0, 0x90, 0xF0,
    0xF0, 0x90, 0xF0, 0x10, 0xF0,
    0xF0, 0x90, 0xF0, 0x90, 0x90,
    0xE0, 0x90, 0xE0, 0x90, 0xE0,
    0xF0, 0x80, 0x80, 0x80, 0xF0,
    0xE0, 0x90, 0x90, 0x90, 0xE0,
    0xF0, 0x80, 0xF0, 0x80, 0xF0,
    0xF0, 0x80, 0xF0, 0x80, 0x80]

def glyphBase : Nat := 0x50

def glyphHeight : Nat := 5

def programStart : Nat := 0x200

/-- The number of random numbers used is all that a reset keeps. -/
def reset (m : Machine) (now : Int) : Machine where
  memory := m.memory.clear.splice glyphBase glyphs
  screen := m.screen.clear
  keypad := m.keypad.clear
  stack := m.stack.clear
  registers := Vector.replicate 16 0
  index := 0
  pc := programStart
  opAddress := programStart
  delay := .stopped now
  sound := .stopped now
  redraw := false
  waiting := false
  keyRegister := 0
  drawn := m.drawn

def blank : Machine where
  memory := .zeroed 4096
  screen := .dark 64 32
  keypad := .idle
  stack := .zeroed 16
  registers := Vector.replicate 16 0
  index := 0
  pc := 0
  opAddress := 0
  delay := .stopped 0
  sound := .stopped 0
  redraw := false
  waiting := false
  keyRegister := 0
  drawn := 0

def fresh (now : Int) : Machine :=
  blank.reset now

def register (m : Machine) (x : Nibble) : Byte :=
  m.registers.get x

def setRegister (m : Machine) (x : Nibble) (v : Byte) : Machine :=
  { m with registers := m.registers.setIfInBounds x v }

theorem register_setRegister (m : Machine) (x y : Nibble) (v : Byte) :
    (m.setRegister x v).register y = if x = y then v else m.register y := by
  change (m.registers.setIfInBounds x v)[y.val] = if x = y then v else m.registers[y.val]
  rw [Vector.getElem_setIfInBounds]
  simp only [Fin.ext_iff]

/-- The flag is written last, so that it wins when its register is also the target. -/
def setFlagged (m : Machine) (x : Nibble) (v : Byte) (flag : Bool) : Machine :=
  (m.setRegister x v).setRegister 0xF (if flag then 1 else 0)

def load (m : Machine) (rom : List Byte) : Except Fault Machine :=
  match m.memory.writeBytes programStart rom with
  | .ok memory => .ok { m with memory }
  | .error _ => .error (.crash ⟨.romTooLarge, programStart + rom.length⟩)

/-- A key that is pressed while the machine waits for one ends the wait. -/
def press (m : Machine) (k : Int) (c : Console := .off) :
    Except (Raise Fault) (Machine × List Notice) := do
  let keypad ← (m.keypad.press k).mapError fun e ↦ ⟨m, .keypad e⟩
  let m := { m with keypad }
  if m.waiting then
    let n := { m.setRegister m.keyRegister (.ofNat keypad.lastKey) with waiting := false }
    n.tell (.keyStored keypad.lastKey m.keyRegister) c
  else
    return (m, [])

def release (m : Machine) (k : Int) : Except Fault Machine := do
  let keypad ← (m.keypad.release k).mapError .keypad
  return { m with keypad }

def poll (m : Machine) (now : Int) (c : Console := .off) : Outcome Unit where
  machine := { m with delay := m.delay.poll now, sound := m.sound.poll now }
  notices := if m.sound.Expires now then [.beep now] else []
  answer := if m.sound.Expires now then (c.hear (.beep now)).mapError .output else .ok ()

@[simp]
theorem poll_answer (m : Machine) (now : Int) : (m.poll now).answer = .ok () := by
  rw [poll, Console.hear_off]
  exact ite_self _

end Machine

end ChipEight
