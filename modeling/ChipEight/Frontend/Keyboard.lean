import ChipEight.Machine.Run

namespace ChipEight

/-- What the window system reports. Keys of the keyboard have the code of the character they
type. -/
inductive Event
  | quit
  | other
  | keyDown (code : Int)
  | keyUp (code : Int)
  deriving DecidableEq

namespace Keyboard

def mapping : List (Char × Nibble) :=
  [('x', 0x0), ('1', 0x1), ('2', 0x2), ('3', 0x3), ('q', 0x4), ('w', 0x5), ('e', 0x6), ('a', 0x7),
    ('s', 0x8), ('d', 0x9), ('z', 0xA), ('c', 0xB), ('4', 0xC), ('r', 0xD), ('f', 0xE), ('v', 0xF)]

def key? (code : Int) : Option Nibble :=
  (mapping.find? fun (c, _) ↦ (c.toNat : Int) = code).map (·.2)

def escape : Int := 27

end Keyboard

def Event.isQuit : Event → Bool
  | .quit => true
  | .keyDown code => code = Keyboard.escape
  | _ => false

def Machine.handle (m : Machine) (e : Event) (c : Console := .off) : Outcome Bool :=
  if e.isQuit then ⟨m, [], .ok false⟩
  else
    match e with
    | .keyDown code =>
      match Keyboard.key? code with
      | some k => .of (m.press k c) true
      | none => ⟨m, [], .ok true⟩
    | .keyUp code =>
      match Keyboard.key? code with
      | some k => m.attempt (m.release k) fun m ↦ (m, [], true)
      | none => ⟨m, [], .ok true⟩
    | _ => ⟨m, [], .ok true⟩

end ChipEight
