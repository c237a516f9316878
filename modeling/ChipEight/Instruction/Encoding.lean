import ChipEight.Instruction.Basic

namespace ChipEight

/-- The hexadecimal digits that an opcode fixes in its words; operands fill the others. -/
structure Template where
  kind : Nibble
  x : Option Nibble
  y : Option Nibble
  n : Option Nibble
  deriving DecidableEq

namespace Template

def admits (slot : Option Nibble) (digit : Nibble) : Bool :=
  slot.all (· == digit)

def accepts (t : Template) (w : Word) : Bool :=
  t.kind == w.kind && admits t.x w.x && admits t.y w.y && admits t.n w.n

def fill (t : Template) (x y n : Nibble) : Word :=
  .ofNibbles t.kind (t.x.getD x) (t.y.getD y) (t.n.getD n)

end Template

namespace Opcode

def template : Opcode → Template
  | .plain .clear => ⟨0x0, some 0x0, some 0xE, some 0x0⟩
  | .plain .ret => ⟨0x0, some 0x0, some 0xE, some 0xE⟩
  | .address .sys => ⟨0x0, none, none, none⟩
  | .address .jump => ⟨0x1, none, none, none⟩
  | .address .call => ⟨0x2, none, none, none⟩
  | .immediate .skipEq => ⟨0x3, none, none, none⟩
  | .immediate .skipNe => ⟨0x4, none, none, none⟩
  | .pair .skipEq => ⟨0x5, none, none, some 0x0⟩
  | .immediate .set => ⟨0x6, none, none, none⟩
  | .immediate .add => ⟨0x7, none, none, none⟩
  | .pair .copy => ⟨0x8, none, none, some 0x0⟩
  | .pair .or => ⟨0x8, none, none, some 0x1⟩
  | .pair .and => ⟨0x8, none, none, some 0x2⟩
  | .pair .xor => ⟨0x8, none, none, some 0x3⟩
  | .pair .add => ⟨0x8, none, none, some 0x4⟩
  | .pair .sub => ⟨0x8, none, none, some 0x5⟩
  | .register .shiftRight => ⟨0x8, none, none, some 0x6⟩
  | .pair .subReverse => ⟨0x8, none, none, some 0x7⟩
  | .register .shiftLeft => ⟨0x8, none, none, some 0xE⟩
  | .pair .skipNe => ⟨0x9, none, none, some 0x0⟩
  | .address .setIndex => ⟨0xA, none, none, none⟩
  | .address .jumpOffset => ⟨0xB, none, none, none⟩
  | .immediate .random => ⟨0xC, none, none, none⟩
  | .draw => ⟨0xD, none, none, none⟩
  | .register .skipKey => ⟨0xE, none, some 0x9, some 0xE⟩
  | .register .skipNotKey => ⟨0xE, none, some 0xA, some 0x1⟩
  | .register .getDelay => ⟨0xF, none, some 0x0, some 0x7⟩
  | .register .awaitKey => ⟨0xF, none, some 0x0, some 0xA⟩
  | .register .setDelay => ⟨0xF, none, some 0x1, some 0x5⟩
  | .register .setSound => ⟨0xF, none, some 0x1, some 0x8⟩
  | .register .addIndex => ⟨0xF, none, some 0x1, some 0xE⟩
  | .register .glyph => ⟨0xF, none, some 0x2, some 0x9⟩
  | .register .storeDigits => ⟨0xF, none, some 0x3, some 0x3⟩
  | .register .saveRegisters => ⟨0xF, none, some 0x5, some 0x5⟩
  | .register .loadRegisters => ⟨0xF, none, some 0x6, some 0x5⟩

/-- Every opcode once. The templates of `clear` and `ret` lie inside the one of `sys`, so these
two come before it. -/
def table : List Opcode :=
  [.plain .clear, .plain .ret, .address .sys, .address .jump, .address .call,
    .immediate .skipEq, .immediate .skipNe, .pair .skipEq, .immediate .set, .immediate .add,
    .pair .copy, .pair .or, .pair .and, .pair .xor, .pair .add, .pair .sub,
    .register .shiftRight, .pair .subReverse, .register .shiftLeft, .pair .skipNe,
    .address .setIndex, .address .jumpOffset, .immediate .random, .draw,
    .register .skipKey, .register .skipNotKey, .register .getDelay, .register .awaitKey,
    .register .setDelay, .register .setSound, .register .addIndex, .register .glyph,
    .register .storeDigits, .register .saveRegisters, .register .loadRegisters]

theorem mem_table (op : Opcode) : op ∈ table := by
  cases op <;> (try rename_i op; cases op) <;> decide

end Opcode

def decodeWith (table : List Opcode) (w : Word) : Instruction :=
  match table.find? (·.template.accepts w) with
  | some op => op.read w
  | none => .unknown w

def decode (w : Word) : Instruction :=
  decodeWith Opcode.table w

namespace Instruction

/-- The word of an instruction; digits that neither the template nor an operand gives are zero. -/
def encode : Instruction → Word
  | .plain op => (Opcode.plain op).template.fill 0 0 0
  | .address op nnn =>
    (Opcode.address op).template.fill (Nibble.ofNat (nnn / 256))
      (Nibble.ofNat (nnn / 16)) (Nibble.ofNat nnn)
  | .register op x => (Opcode.register op).template.fill x 0 0
  | .immediate op x nn =>
    (Opcode.immediate op).template.fill x (Nibble.ofNat (nn.toNat / 16)) (Nibble.ofNat nn.toNat)
  | .pair op x y => (Opcode.pair op).template.fill x y 0
  | .draw x y n => Opcode.draw.template.fill x y n
  | .unknown w => w

end Instruction

end ChipEight
