import ChipEight.Instruction.Basic
import ChipEight.Text.Numeral

namespace ChipEight

inductive Operand
  | register (x : Int)
  | address (nnn : Int)
  | value (n : Int)
  | byte (nn : Int)
  | word (w : Int)
  | index | indirect | delay | sound | key | glyph | digits
  deriving DecidableEq

namespace Operand

def text : Operand → String
  | .register x => "V" ++ Text.hexCapital x
  | .address nnn => "0x" ++ Text.hex 3 nnn
  | .value n => Text.decimal n
  | .byte nn => "0x" ++ Text.hex 2 nn
  | .word w => "0x" ++ Text.hex 4 w
  | .index => "I"
  | .indirect => "[I]"
  | .delay => "DT"
  | .sound => "ST"
  | .key => "K"
  | .glyph => "F"
  | .digits => "B"

end Operand

structure Statement where
  mnemonic : String
  operands : List Operand
  deriving DecidableEq

namespace Statement

def text (s : Statement) : String :=
  match s.operands with
  | [] => s.mnemonic
  | operands => s.mnemonic ++ " " ++ ", ".intercalate (operands.map Operand.text)

def blank : Statement :=
  ⟨"???", []⟩

def unknown (w : Int) : Statement :=
  ⟨"???", [.word w]⟩

def draw (x y n : Int) : Statement :=
  ⟨"DRW", [.register x, .register y, .value n]⟩

end Statement

def PlainOp.statement : PlainOp → Statement
  | .clear => ⟨"CLS", []⟩
  | .ret => ⟨"RET", []⟩

def AddressOp.statement (nnn : Int) : AddressOp → Statement
  | .sys => ⟨"SYS", [.address nnn]⟩
  | .jump => ⟨"JP", [.address nnn]⟩
  | .call => ⟨"CALL", [.address nnn]⟩
  | .setIndex => ⟨"LD", [.index, .address nnn]⟩
  | .jumpOffset => ⟨"JP", [.register 0, .address nnn]⟩

def RegisterOp.statement (x : Int) : RegisterOp → Statement
  | .shiftRight => ⟨"SHR", [.register x]⟩
  | .shiftLeft => ⟨"SHL", [.register x]⟩
  | .skipKey => ⟨"SKP", [.register x]⟩
  | .skipNotKey => ⟨"SKNP", [.register x]⟩
  | .getDelay => ⟨"LD", [.register x, .delay]⟩
  | .awaitKey => ⟨"LD", [.register x, .key]⟩
  | .setDelay => ⟨"LD", [.delay, .register x]⟩
  | .setSound => ⟨"LD", [.sound, .register x]⟩
  | .addIndex => ⟨"ADD", [.index, .register x]⟩
  | .glyph => ⟨"LD", [.glyph, .register x]⟩
  | .storeDigits => ⟨"LD", [.digits, .register x]⟩
  | .saveRegisters => ⟨"LD", [.indirect, .register x]⟩
  | .loadRegisters => ⟨"LD", [.register x, .indirect]⟩

def ImmediateOp.statement (x nn : Int) : ImmediateOp → Statement
  | .skipEq => ⟨"SE", [.register x, .value nn]⟩
  | .skipNe => ⟨"SNE", [.register x, .value nn]⟩
  | .set => ⟨"LD", [.register x, .value nn]⟩
  | .add => ⟨"ADD", [.register x, .value nn]⟩
  | .random => ⟨"RND", [.register x, .byte nn]⟩

def PairOp.mnemonic : PairOp → String
  | .skipEq => "SE"
  | .copy => "LD"
  | .or => "OR"
  | .and => "AND"
  | .xor => "XOR"
  | .add => "ADD"
  | .sub => "SUB"
  | .subReverse => "SUBN"
  | .skipNe => "SNE"

def PairOp.statement (x y : Int) (op : PairOp) : Statement :=
  ⟨op.mnemonic, [.register x, .register y]⟩

namespace Instruction

def statement : Instruction → Statement
  | .plain op => op.statement
  | .address op nnn => op.statement nnn
  | .register op x => op.statement x
  | .immediate op x nn => op.statement x nn.toNat
  | .pair op x y => op.statement x y
  | .draw x y n => .draw x y n
  | .unknown w => .unknown w.toNat

def text (i : Instruction) : String :=
  i.statement.text

end Instruction

end ChipEight
