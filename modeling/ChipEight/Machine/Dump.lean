import ChipEight.Machine.Basic

namespace ChipEight.Machine

def truth (b : Bool) : String :=
  if b then "True" else "False"

def dump (m : Machine) : String :=
  "PC_REGISTER:0x" ++ Text.hex 3 m.pc ++ " | IDX_REGISTER:0x" ++ Text.hex 3 m.index ++
    " | VARIABLE_REGISTERS:" ++ Text.bracketed (m.registers.toList.map fun v ↦ (v.toNat : Int)) ++
    "\nDELAY_TIMER:" ++ Text.decimal m.delay.count.toNat ++
    " | SOUND_TIMER:" ++ Text.decimal m.sound.count.toNat ++
    "\nSTACK:" ++ Text.bracketed (m.stack.used.map fun (a : Nat) ↦ (a : Int)) ++
    "\nDRAW:" ++ truth m.redraw ++ " | WAITING_FOR_KEY:" ++ truth m.waiting ++
    " (V" ++ Text.hexCapital m.keyRegister ++ ")" ++
    "\nKEYPAD:\n" ++ m.keypad.text

end ChipEight.Machine
