import ChipEight.Word

namespace ChipEight

inductive PlainOp
  | clear | ret
  deriving DecidableEq

inductive AddressOp
  | sys | jump | call | setIndex | jumpOffset
  deriving DecidableEq

inductive RegisterOp
  | shiftRight | shiftLeft | skipKey | skipNotKey | getDelay | awaitKey | setDelay | setSound
  | addIndex | glyph | storeDigits | saveRegisters | loadRegisters
  deriving DecidableEq

inductive ImmediateOp
  | skipEq | skipNe | set | add | random
  deriving DecidableEq

inductive PairOp
  | skipEq | copy | or | and | xor | add | sub | subReverse | skipNe
  deriving DecidableEq

inductive Opcode
  | plain (op : PlainOp)
  | address (op : AddressOp)
  | register (op : RegisterOp)
  | immediate (op : ImmediateOp)
  | pair (op : PairOp)
  | draw
  deriving DecidableEq

inductive Instruction
  | plain (op : PlainOp)
  | address (op : AddressOp) (nnn : Address)
  | register (op : RegisterOp) (x : Nibble)
  | immediate (op : ImmediateOp) (x : Nibble) (nn : Byte)
  | pair (op : PairOp) (x y : Nibble)
  | draw (x y n : Nibble)
  | unknown (word : Word)
  deriving DecidableEq

/-- The operands that an opcode takes from a word, whatever the other bits are. -/
def Opcode.read (w : Word) : Opcode → Instruction
  | .plain op => .plain op
  | .address op => .address op w.nnn
  | .register op => .register op w.x
  | .immediate op => .immediate op w.x w.nn
  | .pair op => .pair op w.x w.y
  | .draw => .draw w.x w.y w.n

def Instruction.opcode? : Instruction → Option Opcode
  | .plain op => some (.plain op)
  | .address op _ => some (.address op)
  | .register op _ => some (.register op)
  | .immediate op _ _ => some (.immediate op)
  | .pair op _ _ => some (.pair op)
  | .draw _ _ _ => some .draw
  | .unknown _ => none

end ChipEight
