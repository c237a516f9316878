import ChipEight.Machine.Run
import ChipEight.Proofs.Cycle
import ChipEight.Proofs.Decoding

namespace ChipEight

section

variable {op : Opcode} {w : Word}

/-- Only the templates inside the one of the system calls come before another that accepts. -/
theorem decode_of_accepts (h : op.template.accepts w) (hop : op ≠ .address .sys) :
    decode w = op.read w := by
  refine Opcode.decodeWith_of_prevails Opcode.orderly_table ⟨h, fun other _ hother ↦ ?_⟩
  exact hop hother.1

theorem decode_pair (op : PairOp) (x y : Nibble) :
    decode ((Opcode.pair op).template.fill x y 0) = .pair op x y := by
  obtain ⟨k, n', ht⟩ := Opcode.template_pair op
  have hop : Opcode.pair op ≠ .address .sys := by simp
  rw [decode_of_accepts (Template.accepts_fill ..) hop, ht, Opcode.read, Template.fill,
    Word.x_ofNibbles, Word.y_ofNibbles]
  rfl

theorem decode_register (op : RegisterOp) (x y : Nibble) :
    decode ((Opcode.register op).template.fill x y 0) = .register op x := by
  obtain ⟨k, y', n', ht⟩ := Opcode.template_register op
  have hop : Opcode.register op ≠ .address .sys := by simp
  rw [decode_of_accepts (Template.accepts_fill ..) hop, ht, Opcode.read, Template.fill,
    Word.x_ofNibbles]
  rfl

theorem decode_immediate (op : ImmediateOp) (x h l : Nibble) :
    decode ((Opcode.immediate op).template.fill x h l) = .immediate op x (.ofNat (16 * h + l)) := by
  obtain ⟨k, ht⟩ := Opcode.template_immediate op
  have hop : Opcode.immediate op ≠ .address .sys := by simp
  have hnn : (Word.ofNibbles k x h l).nn = .ofNat (16 * h + l) := by
    apply UInt8.toNat_inj.mp
    rw [Word.nn_ofNibbles, UInt8.toNat_ofNat', Nat.mod_eq_of_lt (by omega)]
  rw [decode_of_accepts (Template.accepts_fill ..) hop, ht, Opcode.read, Template.fill]
  simp only [Option.getD_none, Word.x_ofNibbles, hnn]

end

namespace Machine

def Fetches (m : Machine) (w : Word) : Prop :=
  m.waiting = false ∧ m.memory.readWord m.pc = .ok w

/-- What a cycle does that only computes. It gives a register its value and, if there is a flag, the
last register the flag; where both are the same register, it holds the flag in the end. -/
structure Computes (m : Machine) (now : Int) (x : Nibble) (v : Nat) (flag : Option Nat)
    (o : Outcome Bool) : Prop where
  answer : o.answer = .ok false
  value : flag = none ∨ x ≠ 0xF → (o.machine.register x).toNat = v
  flagged : ∀ f ∈ flag, (o.machine.register 0xF).toNat = f
  others : ∀ z, z ≠ x → flag = none ∨ z ≠ 0xF → o.machine.register z = m.register z
  rest : o.machine = { m with
    registers := o.machine.registers
    pc := (m.pc + 2) % 4096
    opAddress := m.pc
    redraw := false
    delay := m.delay.poll now
    sound := m.sound.poll now }

variable {random : Nat → Int} {t : Moment} {m : Machine} {w : Word} {i : Instruction}
  {x : Nibble} {v : Byte} {flag : Bool} {value f : Nat}

theorem fetches_of_le (hw : m.waiting = false) (hp : m.pc ≤ 4094) :
    m.Fetches (.ofBytes (m.memory.byteAt m.pc) (m.memory.byteAt (m.pc + 1))) := by
  have hb := (Memory.inBounds_natCast_iff 4096 m.pc 2).mpr (by omega)
  exact ⟨hw, m.memory.readWord_of_inBounds hb⟩

theorem Fetches.begins (h : m.Fetches w) : m.Begins (decode w) := by
  obtain ⟨hw, hr⟩ := h
  refine begins_of_fetch hw ?_
  rw [fetch, hr]
  rfl

theorem Fetches.begins_pair (op : PairOp) {y : Nibble}
    (h : m.Fetches ((Opcode.pair op).template.fill x y 0)) : m.Begins (.pair op x y) :=
  decode_pair op x y ▸ h.begins

theorem Fetches.begins_register (op : RegisterOp) {y : Nibble}
    (h : m.Fetches ((Opcode.register op).template.fill x y 0)) : m.Begins (.register op x) :=
  decode_register op x y ▸ h.begins

theorem Fetches.begins_immediate (op : ImmediateOp) {k l : Nibble}
    (h : m.Fetches ((Opcode.immediate op).template.fill x k l)) :
    m.Begins (.immediate op x (.ofNat (16 * k + l))) :=
  decode_immediate op x k l ▸ h.begins

theorem computes_of_setRegister (h : m.Begins i)
    (he : m.advanced.execute random t.execute i = .ok (m.advanced.setRegister x v, []))
    (hv : v.toNat = value) : m.Computes t.poll x value none (m.cycle random t) := by
  obtain ⟨hw, hp, rfl⟩ := h
  rw [cycle_of_execute_ok hw hp he]
  have hregister := m.advanced.register_setRegister x
  refine ⟨finish_answer .., fun _ ↦ ?_, by simp, fun z hz _ ↦ ?_, rfl⟩
  · rw [← hv]
    exact congrArg UInt8.toNat ((hregister x v).trans (if_pos rfl))
  · exact (hregister z v).trans (if_neg (Ne.symm hz))

theorem computes_of_setFlagged (h : m.Begins i)
    (he : m.advanced.execute random t.execute i = .ok (m.advanced.setFlagged x v flag, []))
    (hv : v.toNat = value) (hf : flag.toNat = f) :
    m.Computes t.poll x value (some f) (m.cycle random t) := by
  obtain ⟨hw, hp, rfl⟩ := h
  rw [cycle_of_execute_ok hw hp he]
  have hflagged (z : Nibble) : (m.advanced.setFlagged x v flag).register z =
      if 0xF = z then if flag then 1 else 0 else if x = z then v else m.register z := by
    rw [setFlagged, register_setRegister, register_setRegister]
    rfl
  refine ⟨finish_answer .., ?_, ?_, ?_, rfl⟩
  · intro hx
    have hx : x ≠ 0xF := hx.resolve_left (by simp)
    rw [← hv]
    refine congrArg UInt8.toNat ((hflagged x).trans ?_)
    rw [if_neg (Ne.symm hx), if_pos rfl]
  · intro f' hf'
    cases hf'
    rw [← hf]
    refine (congrArg UInt8.toNat ((hflagged 0xF).trans (if_pos rfl))).trans ?_
    cases flag <;> rfl
  · intro z hx hz
    have hz : z ≠ 0xF := hz.resolve_left (by simp)
    refine (hflagged z).trans ?_
    rw [if_neg (Ne.symm hz), if_neg (Ne.symm hx)]

/-- Every instruction that computes, on all pairs of registers. Differences are taken modulo 256
like sums, and shifts do not look at the second register. -/
theorem arithmetic_exact (random : Nat → Int) (t : Moment) (m : Machine) (x y h l : Nibble) :
    let o := m.cycle random t
    let a := (m.register x).toNat
    let b := (m.register y).toNat
    (m.Fetches (.ofNibbles 0x8 x y 0x0) → m.Computes t.poll x b none o) ∧
    (m.Fetches (.ofNibbles 0x8 x y 0x1) → m.Computes t.poll x (a ||| b) none o) ∧
    (m.Fetches (.ofNibbles 0x8 x y 0x2) → m.Computes t.poll x (a &&& b) none o) ∧
    (m.Fetches (.ofNibbles 0x8 x y 0x3) → m.Computes t.poll x (a ^^^ b) none o) ∧
    (m.Fetches (.ofNibbles 0x8 x y 0x4) →
      m.Computes t.poll x ((a + b) % 256) (some (if 255 < a + b then 1 else 0)) o) ∧
    (m.Fetches (.ofNibbles 0x8 x y 0x5) →
      m.Computes t.poll x (((a : Int) - b) % 256).toNat (some (if b ≤ a then 1 else 0)) o) ∧
    (m.Fetches (.ofNibbles 0x8 x y 0x6) → m.Computes t.poll x (a / 2) (some (a % 2)) o) ∧
    (m.Fetches (.ofNibbles 0x8 x y 0x7) →
      m.Computes t.poll x (((b : Int) - a) % 256).toNat (some (if a ≤ b then 1 else 0)) o) ∧
    (m.Fetches (.ofNibbles 0x8 x y 0xE) →
      m.Computes t.poll x (2 * a % 256) (some (a / 128)) o) ∧
    (m.Fetches (.ofNibbles 0x6 x h l) → m.Computes t.poll x (16 * h + l) none o) ∧
    (m.Fetches (.ofNibbles 0x7 x h l) →
      m.Computes t.poll x ((a + (16 * h + l)) % 256) none o) := by
  intro o a b
  have ha : a < 256 := (m.register x).toNat_lt
  have hb : b < 256 := (m.register y).toNat_lt
  have hnn : (UInt8.ofNat (16 * h + l)).toNat = 16 * h + l := by
    rw [UInt8.toNat_ofNat', Nat.mod_eq_of_lt (by omega)]
  refine ⟨?_, ?_, ?_, ?_, ?_, ?_, ?_, ?_, ?_, ?_, ?_⟩
  · intro hw
    exact computes_of_setRegister (hw.begins_pair .copy) rfl rfl
  · intro hw
    exact computes_of_setRegister (hw.begins_pair .or) rfl (UInt8.toNat_or ..)
  · intro hw
    exact computes_of_setRegister (hw.begins_pair .and) rfl (UInt8.toNat_and ..)
  · intro hw
    exact computes_of_setRegister (hw.begins_pair .xor) rfl (UInt8.toNat_xor ..)
  · intro hw
    refine computes_of_setFlagged (hw.begins_pair .add) rfl (UInt8.toNat_add ..) ?_
    exact Bool.cond_decide ..
  · intro hw
    refine computes_of_setFlagged (hw.begins_pair .sub) rfl ?_ (Bool.cond_decide ..)
    refine (UInt8.toNat_sub ..).trans ?_
    change (2 ^ 8 - b + a) % 2 ^ 8 = _
    omega
  · intro hw
    refine computes_of_setFlagged (hw.begins_register .shiftRight) rfl (UInt8.toNat_div ..) ?_
    have hodd : m.register x % 2 = 1 ↔ a % 2 = 1 := by
      rw [← UInt8.toNat_inj, UInt8.toNat_mod]
      rfl
    change (decide (m.register x % 2 = 1)).toNat = a % 2
    refine (Bool.cond_decide ..).trans ?_
    simp only [hodd]
    split <;> omega
  · intro hw
    refine computes_of_setFlagged (hw.begins_pair .subReverse) rfl ?_ (Bool.cond_decide ..)
    refine (UInt8.toNat_sub ..).trans ?_
    change (2 ^ 8 - a + b) % 2 ^ 8 = _
    omega
  · intro hw
    refine computes_of_setFlagged (hw.begins_register .shiftLeft) rfl ?_ ?_
    · refine (UInt8.toNat_mul ..).trans ?_
      change a * 2 % 2 ^ 8 = _
      omega
    · refine (Bool.cond_decide ..).trans ?_
      change (if 128 ≤ a then 1 else 0) = a / 128
      split <;> omega
  · intro hw
    exact computes_of_setRegister (hw.begins_immediate .set) rfl hnn
  · intro hw
    refine computes_of_setRegister (hw.begins_immediate .add) rfl ?_
    refine (UInt8.toNat_add ..).trans ?_
    rw [hnn]
    rfl

theorem arithmetic_exact_flag_target :
    let m := (fresh 0).run (fun _ ↦ 0) [.load [0x6F, 0xC8, 0x8F, 0xF4], .cycle (.still 0)]
    let o := m.cycle (fun _ ↦ 0) (.still 0)
    m.Fetches (.ofNibbles 0x8 0xF 0xF 0x4) ∧ (m.register 0xF).toNat = 200 ∧
      o.answer = .ok false ∧ (o.machine.register 0xF).toNat = 1 := by
  intro m o
  obtain ⟨hwaiting, hp, hword, hv⟩ :
      m.waiting = false ∧ m.pc ≤ 4094 ∧
        Word.ofBytes (m.memory.byteAt m.pc) (m.memory.byteAt (m.pc + 1)) =
          .ofNibbles 0x8 0xF 0xF 0x4 ∧
        (m.register 0xF).toNat = 200 := by
    decide +kernel
  have hw : m.Fetches (.ofNibbles 0x8 0xF 0xF 0x4) := hword ▸ fetches_of_le hwaiting hp
  obtain ⟨-, -, -, -, hadd, -⟩ := arithmetic_exact (fun _ ↦ 0) (.still 0) m 0xF 0xF 0 0
  have hcomputes := hadd hw
  refine ⟨hw, hv, hcomputes.answer, ?_⟩
  rw [hv] at hcomputes
  exact hcomputes.flagged 1 rfl

end Machine

end ChipEight
