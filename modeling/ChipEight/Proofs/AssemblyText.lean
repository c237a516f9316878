import ChipEight.Instruction.Assembly
import ChipEight.Instruction.Encoding
import ChipEight.Proofs.Listings
import Mathlib.Data.List.Nodup

namespace ChipEight

namespace Operand

/-- The operands that an instruction can have: no negative numbers, and none too wide for their
digits. -/
inductive InRange : Operand → Prop
  | register (d : Nibble) : InRange (.register d)
  | address (a : Address) : InRange (.address a)
  | value (n : Nat) : InRange (.value n)
  | byte (b : Byte) : InRange (.byte b.toNat)
  | word (w : Word) : InRange (.word w.toNat)
  | index : InRange .index
  | indirect : InRange .indirect
  | delay : InRange .delay
  | sound : InRange .sound
  | key : InRange .key
  | glyph : InRange .glyph
  | digits : InRange .digits

attribute [simp] InRange.register InRange.address InRange.value InRange.byte InRange.word
  InRange.index InRange.indirect InRange.delay InRange.sound InRange.key InRange.glyph
  InRange.digits

/-- Hexadecimal operands are told apart by the number of their digits. -/
def ofDigits (count : Nat) (n : Int) : Operand :=
  match count with
  | 2 => .byte n
  | 3 => .address n
  | _ => .word n

def read : List Char → Operand
  | 'V' :: cs => .register (Text.valueOf 16 cs)
  | '0' :: 'x' :: cs => ofDigits cs.length (Text.valueOf 16 cs)
  | ['I'] => .index
  | ['[', 'I', ']'] => .indirect
  | ['D', 'T'] => .delay
  | ['S', 'T'] => .sound
  | ['K'] => .key
  | ['F'] => .glyph
  | ['B'] => .digits
  | cs => .value (Text.valueOf 10 cs)

theorem toList_text_register (d : Nibble) :
    (register d).text.toList = ['V', (Nat.digitChar d).toUpper] := by
  rw [text, String.toList_append, Text.toList_hexCapital d.isLt]
  rfl

theorem toList_hex (width : Nat) (n : Int) :
    ("0x" ++ Text.hex width n).toList = '0' :: 'x' :: Text.numeral 16 width n := by
  simp only [Text.hex, String.toList_append, String.toList_ofList]
  rfl

theorem read_hex {width n : Nat} (hw : 0 < width) (h : n < 16 ^ width) :
    read ("0x" ++ Text.hex width n).toList = ofDigits width n := by
  rw [toList_hex, read, Text.length_numeral (by decide) hw h,
    Text.valueOf_numeral (by decide) (by decide)]

theorem read_decimal (n : Nat) : read (Text.numeral 10 0 n) = .value n := by
  have hdigit : ∀ c ∈ Text.numeral 10 0 n, c.isDigit := fun c ↦ Text.isDigit_of_mem_numeral
  have hvalue : Text.valueOf 10 (Text.numeral 10 0 n) = n :=
    Text.valueOf_numeral (by decide) (by decide) 0 n
  generalize Text.numeral 10 0 n = cs at hdigit hvalue
  -- Every other form has a character that is no digit.
  unfold read
  split
  case h_10 => rw [hvalue]
  all_goals exact absurd hdigit (by simp)

theorem read_text {o : Operand} (h : o.InRange) : read o.text.toList = o := by
  cases h with
  | register d =>
    rw [toList_text_register, read, Text.valueOf_singleton, Text.digitValue_toUpper d.isLt]
  | address a => exact read_hex (by decide) a.isLt
  | value n => rw [text, Text.toList_decimal, read_decimal]
  | byte b => exact read_hex (by decide) b.toNat_lt
  | word w => exact read_hex (by decide) w.toNat_lt
  | _ => decide

theorem not_mem_hex (width : Nat) (n : Nat) {c : Char} (hx : c ≠ 'x')
    (hc : ∀ d : Fin 16, c ≠ Nat.digitChar d) : c ∉ ("0x" ++ Text.hex width n).toList := by
  rw [toList_hex, List.mem_cons, List.mem_cons]
  rintro (h | h | h)
  · exact hc 0 h
  · exact hx h
  · exact Text.not_mem_numeral (by decide) (by decide) hc h

/-- The texts of operands hold neither the comma nor the blank that stand between them. -/
theorem not_mem_text {o : Operand} (h : o.InRange) {c : Char} (hc : c = ',' ∨ c = ' ') :
    c ∉ o.text.toList := by
  have hx : c ≠ 'x' := by
    rcases hc with rfl | rfl <;> decide
  have hd : ∀ d : Fin 16, c ≠ Nat.digitChar d := by
    rcases hc with rfl | rfl <;> decide
  cases h with
  | register d =>
    rw [toList_text_register]
    rcases hc with rfl | rfl <;> revert d <;> decide
  | address a => exact not_mem_hex 3 a hx hd
  | value n =>
    rw [text, Text.toList_decimal]
    exact Text.not_mem_numeral (by decide) (by decide) hd
  | byte b => exact not_mem_hex 2 b.toNat hx hd
  | word w => exact not_mem_hex 4 w.toNat hx hd
  | _ => rcases hc with rfl | rfl <;> decide

def form : Operand → Operand
  | .register _ => .register 0
  | .address _ => .address 0
  | .value _ => .value 0
  | .byte _ => .byte 0
  | .word _ => .word 0
  | o => o

end Operand

namespace Statement

structure Readable (s : Statement) : Prop where
  mnemonic : ',' ∉ s.mnemonic.toList ∧ ' ' ∉ s.mnemonic.toList
  operands : ∀ o ∈ s.operands, o.InRange

def read (cs : List Char) : Statement :=
  match (cs.filter (· ≠ ',')).splitOn ' ' with
  | [] => blank
  | word :: words => ⟨.ofList word, words.map Operand.read⟩

theorem filter_text (s : Statement) :
    s.text.toList.filter (· ≠ ',') =
      [' '].intercalate (s.mnemonic.toList.filter (· ≠ ',') ::
        s.operands.map fun o ↦ o.text.toList.filter (· ≠ ',')) := by
  obtain ⟨m, os⟩ := s
  cases os with
  | nil => simp only [text, List.map_nil, List.intercalate_singleton]
  | cons o os =>
    simp only [text, String.toList_append, String.toList_intercalate, List.filter_append,
      Text.filter_intercalate, List.map_map, List.map_cons, List.intercalate_cons_cons]
    rfl

variable {s : Statement}

theorem filter_of_not_mem {cs : List Char} (h : ',' ∉ cs) : cs.filter (· ≠ ',') = cs := by
  apply List.filter_eq_self.mpr
  intro c hc
  exact decide_eq_true (ne_of_mem_of_not_mem hc h)

theorem splitOn_text (h : s.Readable) :
    (s.text.toList.filter (· ≠ ',')).splitOn ' ' =
      s.mnemonic.toList :: s.operands.map (·.text.toList) := by
  have ho : ∀ o ∈ s.operands, o.text.toList.filter (· ≠ ',') = o.text.toList := by
    intro o hmem
    exact filter_of_not_mem (Operand.not_mem_text (h.operands o hmem) (.inl rfl))
  rw [filter_text, filter_of_not_mem h.mnemonic.1, List.map_congr_left ho]
  apply List.splitOn_intercalate
  · intro l hl
    rcases List.mem_cons.mp hl with rfl | hl
    · exact h.mnemonic.2
    · obtain ⟨o, hmem, rfl⟩ := List.mem_map.mp hl
      exact Operand.not_mem_text (h.operands o hmem) (.inr rfl)
  · exact List.cons_ne_nil _ _

theorem read_text (h : s.Readable) : read s.text.toList = s := by
  have hread : s.operands.map (fun o ↦ Operand.read o.text.toList) = s.operands := by
    rw [List.map_congr_left fun o hmem ↦ Operand.read_text (h.operands o hmem), List.map_id']
  rw [read, splitOn_text h]
  simp only [List.map_map, Function.comp_def, String.ofList_toList, hread]

def form (s : Statement) : Statement :=
  { s with operands := s.operands.map Operand.form }

end Statement

namespace Instruction

def kinds : List (Option Opcode) :=
  none :: Opcode.table.map some

theorem opcode_mem_kinds (i : Instruction) : i.opcode? ∈ kinds := by
  cases i.opcode? with
  | none => exact List.mem_cons_self
  | some op => exact List.mem_cons_of_mem _ (List.mem_map_of_mem (Opcode.mem_table op))

def sample : Option Opcode → Instruction
  | some op => op.read 0
  | none => .unknown 0

theorem form_statement (i : Instruction) :
    i.statement.form = (sample i.opcode?).statement.form := by
  cases i with
  | plain op => rfl
  | address op nnn => cases op <;> rfl
  | register op x => cases op <;> rfl
  | immediate op x nn => cases op <;> rfl
  | pair op x y => rfl
  | draw x y n => rfl
  | unknown w => rfl

theorem mnemonic_sample (i : Instruction) :
    (sample i.opcode?).statement.mnemonic = i.statement.mnemonic := by
  have h := congrArg Statement.mnemonic i.form_statement
  exact h.symm

theorem inRange_operands (i : Instruction) : ∀ o ∈ i.statement.operands, o.InRange := by
  cases i with
  | plain op => cases op <;> simp [statement, PlainOp.statement]
  | address op nnn =>
    have h0 : (Operand.register 0).InRange := .register 0
    cases op <;> simp [statement, AddressOp.statement, h0]
  | register op x => cases op <;> simp [statement, RegisterOp.statement]
  | immediate op x nn => cases op <;> simp [statement, ImmediateOp.statement]
  | pair op x y => simp [statement, PairOp.statement]
  | draw x y n => simp [statement, Statement.draw]
  | unknown w => simp [statement, Statement.unknown]

theorem readable_statement (i : Instruction) : i.statement.Readable := by
  have hkinds : ∀ k ∈ kinds, ',' ∉ (sample k).statement.mnemonic.toList ∧
      ' ' ∉ (sample k).statement.mnemonic.toList := by
    decide +kernel
  refine ⟨?_, i.inRange_operands⟩
  rw [← mnemonic_sample]
  exact hkinds _ i.opcode_mem_kinds

/-- Shared mnemonics are told apart by their operands. -/
theorem nodup_forms : (kinds.map fun k ↦ (sample k).statement.form).Nodup := by
  decide +kernel

theorem opcode_eq_of_statement_eq {i j : Instruction} (h : i.statement = j.statement) :
    i.opcode? = j.opcode? := by
  apply List.inj_on_of_nodup_map nodup_forms i.opcode_mem_kinds j.opcode_mem_kinds
  rw [← form_statement, ← form_statement, h]

theorem statement_injective : Function.Injective statement := by
  intro i j h
  have ho := opcode_eq_of_statement_eq h
  cases i <;> cases j <;> cases ho
  case plain => rfl
  case address op a a' =>
    cases op <;> simpa [statement, AddressOp.statement, Int.natCast_inj, Fin.val_inj] using h
  case register op x x' =>
    cases op <;> simpa [statement, RegisterOp.statement, Int.natCast_inj, Fin.val_inj] using h
  case immediate op x nn x' nn' =>
    cases op <;> simpa [statement, ImmediateOp.statement, Int.natCast_inj, Fin.val_inj,
      UInt8.toNat_inj] using h
  case pair op x y x' y' =>
    simpa [statement, PairOp.statement, Int.natCast_inj, Fin.val_inj] using h
  case draw x y n x' y' n' =>
    simpa [statement, Statement.draw, Int.natCast_inj, Fin.val_inj] using h
  case unknown w w' =>
    simpa [statement, Statement.unknown, Int.natCast_inj, UInt16.toNat_inj] using h

theorem text_injective : Function.Injective text := by
  intro i j h
  apply statement_injective
  rw [← Statement.read_text i.readable_statement, ← Statement.read_text j.readable_statement]
  exact congrArg (Statement.read ·.toList) h

def kindsNamed (mnemonic : String) : List (Option Opcode) :=
  kinds.filter fun k ↦ (sample k).statement.mnemonic == mnemonic

theorem mem_kindsNamed {i : Instruction} {m : String} :
    i.opcode? ∈ kindsNamed m ↔ i.statement.mnemonic = m := by
  rw [kindsNamed, List.mem_filter, beq_iff_eq, mnemonic_sample]
  exact and_iff_right i.opcode_mem_kinds

/-- No two instructions have the same text, though kinds share mnemonics: words have the same text
only if they decode to the same instruction. -/
theorem text_identifies_instruction :
    Function.Injective text ∧
      (∀ a b : Int, (decode (.ofInt a)).text = (decode (.ofInt b)).text ↔
        decode (.ofInt a) = decode (.ofInt b)) ∧
      kinds.length = 36 ∧
      (∀ i : Instruction, ∀ m, i.opcode? ∈ kindsNamed m ↔ i.statement.mnemonic = m) ∧
      (kindsNamed "LD").length = 11 ∧ (kindsNamed "ADD").length = 3 ∧
      (kindsNamed "SE").length = 2 ∧ (kindsNamed "SNE").length = 2 ∧
      (kindsNamed "JP").length = 2 := by
  refine ⟨text_injective, fun a b ↦ text_injective.eq_iff, by decide,
    fun i m ↦ mem_kindsNamed, ?_⟩
  decide +kernel

example : Statement.read "LD V1, [I]".toList = (register .loadRegisters 1).statement := by
  decide +kernel

end Instruction

end ChipEight
