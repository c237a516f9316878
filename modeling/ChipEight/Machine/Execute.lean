import ChipEight.Machine.Basic

namespace ChipEight.Machine

def skipIf (m : Machine) (p : Bool) : Machine :=
  if p then { m with pc := m.pc + 2 } else m

def crashed {α : Type} (m : Machine) (reason : Reason) : Except (Raise Fault) α :=
  .error ⟨m, .crash ⟨reason, m.opAddress⟩⟩

def executePlain (m : Machine) : PlainOp → Except (Raise Fault) Machine
  | .clear => .ok { m with screen := m.screen.clear, redraw := true }
  | .ret =>
    match m.stack.pop with
    | .ok (pc, stack) => .ok { m with stack, pc }
    | .error _ => m.crashed .stackUnderflow

def executeAddress (m : Machine) (nnn : Address) (op : AddressOp) (c : Console := .off) :
    Except (Raise Fault) (Machine × List Notice) :=
  match op with
  | .sys => m.tell (.ignoredCall m.opAddress nnn) c
  | .jump => .ok ({ m with pc := nnn }, [])
  | .call =>
    match m.stack.push m.pc with
    | .ok stack => .ok ({ m with stack, pc := nnn }, [])
    | .error _ => m.crashed .stackOverflow
  | .setIndex => .ok ({ m with index := nnn }, [])
  | .jumpOffset => .ok ({ m with pc := nnn + (m.register 0).toNat }, [])

def executeImmediate (random : Nat → Int) (m : Machine) (x : Nibble) (nn : Byte) :
    ImmediateOp → Machine
  | .skipEq => m.skipIf (m.register x == nn)
  | .skipNe => m.skipIf (m.register x != nn)
  | .set => m.setRegister x nn
  | .add => m.setRegister x (m.register x + nn)
  | .random =>
    { m.setRegister x (UInt8.ofInt (random m.drawn) &&& nn) with drawn := m.drawn + 1 }

def executePair (m : Machine) (x y : Nibble) (op : PairOp) : Machine :=
  let a := m.register x
  let b := m.register y
  match op with
  | .skipEq => m.skipIf (a == b)
  | .skipNe => m.skipIf (a != b)
  | .copy => m.setRegister x b
  | .or => m.setRegister x (a ||| b)
  | .and => m.setRegister x (a &&& b)
  | .xor => m.setRegister x (a ^^^ b)
  | .add => m.setFlagged x (a + b) (255 < a.toNat + b.toNat)
  | .sub => m.setFlagged x (a - b) (b ≤ a)
  | .subReverse => m.setFlagged x (b - a) (a ≤ b)

def readAtIndex (m : Machine) (count : Nat) : Except (Raise Fault) (List Byte) :=
  match m.memory.readRange m.index count with
  | .ok data => .ok data
  | .error _ => m.crashed .memoryAccess

def executeDraw (m : Machine) (x y n : Nibble) : Except (Raise Fault) Machine := do
  let rows ← m.readAtIndex n
  let (hit, screen) ← (m.screen.draw (m.register x).toNat (m.register y).toNat
    (rows.map fun row ↦ (row.toNat : Int))).mapError fun e ↦ ⟨m, .screen e⟩
  return { m.setRegister 0xF (if hit then 1 else 0) with screen, redraw := true }

/-- Writes at the index. Either all bytes fit or none is written. -/
def writeAtIndex (m : Machine) (data : List Byte) : Except (Raise Fault) Machine :=
  match m.memory.writeBytes m.index data with
  | .ok memory => .ok { m with memory }
  | .error _ => m.crashed .memoryAccess

def fillRegisters (m : Machine) (data : List Byte) : Machine :=
  { m with registers := Vector.ofFn fun i ↦ data[i.val]?.getD (m.registers.get i) }

def decimalDigits (v : Byte) : List Byte :=
  [v / 100, v / 10 % 10, v % 10]

def executeRegister (now : Int) (m : Machine) (x : Nibble) (op : RegisterOp)
    (c : Console := .off) : Except (Raise Fault) (Machine × List Notice) :=
  match op with
  | .shiftRight => .ok (m.setFlagged x (m.register x / 2) (m.register x % 2 == 1), [])
  | .shiftLeft => .ok (m.setFlagged x (m.register x * 2) (128 ≤ m.register x), [])
  | .skipKey => do
    let held ← (m.keypad.isHeld ((m.register x).toNat % 16)).mapError fun e ↦ ⟨m, .keypad e⟩
    return (m.skipIf held, [])
  | .skipNotKey => do
    let held ← (m.keypad.isHeld ((m.register x).toNat % 16)).mapError fun e ↦ ⟨m, .keypad e⟩
    return (m.skipIf !held, [])
  | .getDelay => .ok (m.setRegister x m.delay.count, [])
  | .awaitKey => { m with waiting := true, keyRegister := x }.tell (.awaitingKey m.opAddress) c
  | .setDelay => .ok ({ m with delay := .start (m.register x) now }, [])
  | .setSound => .ok ({ m with sound := .start (m.register x) now }, [])
  | .addIndex => .ok ({ m with index := Address.ofNat (m.index + (m.register x).toNat) }, [])
  | .glyph =>
    .ok ({ m with
      index := Address.ofNat (glyphBase + (m.register x).toNat % 16 * glyphHeight) }, [])
  | .storeDigits => do return (← m.writeAtIndex (decimalDigits (m.register x)), [])
  | .saveRegisters => do return (← m.writeAtIndex (m.registers.toList.take (x + 1)), [])
  | .loadRegisters => do return (m.fillRegisters (← m.readAtIndex (x + 1)), [])

/-- Executes an instruction that has been fetched: `pc` is already past it. -/
def execute (random : Nat → Int) (now : Int) (m : Machine) (i : Instruction)
    (c : Console := .off) : Except (Raise Fault) (Machine × List Notice) :=
  match i with
  | .plain op => do return (← m.executePlain op, [])
  | .address op nnn => m.executeAddress nnn op c
  | .register op x => executeRegister now m x op c
  | .immediate op x nn => .ok (executeImmediate random m x nn op, [])
  | .pair op x y => .ok (m.executePair x y op, [])
  | .draw x y n => do return (← m.executeDraw x y n, [])
  | .unknown word => m.tell (.unknownWord word m.opAddress) c

end ChipEight.Machine
