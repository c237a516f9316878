import ChipEight.Proofs.Templates

namespace ChipEight

namespace Word

variable {w : Word}

theorem toNat_ofInt (n : Int) : ((ofInt n).toNat : Int) = n % 65536 := by
  rw [ofInt, UInt16.ofInt, UInt16.toNat_ofNat']
  omega

theorem nnn_ofNibbles (k x y n : Nibble) :
    (ofNibbles k x y n).nnn.val = 256 * x + 16 * y + n := by
  simp only [nnn, toNat_ofNibbles]
  omega

theorem nn_ofNibbles (k x y n : Nibble) : (ofNibbles k x y n).nn.toNat = 16 * y + n := by
  rw [nn, UInt8.toNat_ofNat', toNat_ofNibbles]
  omega

theorem digits_nnn (w : Word) :
    Nibble.ofNat (w.nnn / 256) = w.x ∧ Nibble.ofNat (w.nnn / 16) = w.y ∧
      Nibble.ofNat w.nnn = w.n := by
  refine ⟨?_, ?_, ?_⟩ <;> ext <;> simp only [Nibble.ofNat, Fin.ofNat, nnn, x, y, n] <;> omega

theorem digits_nn (w : Word) :
    Nibble.ofNat (w.nn.toNat / 16) = w.y ∧ Nibble.ofNat w.nn.toNat = w.n := by
  constructor <;> ext <;> simp only [Nibble.ofNat, Fin.ofNat, nn, UInt8.toNat_ofNat', y, n] <;>
    omega

/-- The word shifts a register: it reads `8X?6` or `8X?E`. -/
def IsShift (w : Word) : Prop :=
  w.kind = 0x8 ∧ (w.n = 0x6 ∨ w.n = 0xE)

instance (w : Word) : Decidable w.IsShift :=
  inferInstanceAs (Decidable (_ ∧ _))

def canonical (w : Word) : Word :=
  if w.IsShift then .ofNibbles w.kind w.x 0 w.n else w

theorem canonical_of_isShift (h : w.IsShift) : w.canonical = .ofNibbles w.kind w.x 0 w.n :=
  if_pos h

theorem canonical_of_not_isShift (h : ¬ w.IsShift) : w.canonical = w :=
  if_neg h

theorem digits_canonical (w : Word) :
    w.canonical.kind = w.kind ∧ w.canonical.x = w.x ∧ w.canonical.n = w.n := by
  by_cases h : w.IsShift
  · rw [canonical_of_isShift h, kind_ofNibbles, x_ofNibbles, n_ofNibbles]
    exact ⟨rfl, rfl, rfl⟩
  · rw [canonical_of_not_isShift h]
    exact ⟨rfl, rfl, rfl⟩

theorem canonical_eq_iff {a b : Word} :
    a.canonical = b.canonical ↔ a = b ∨ a.IsShift ∧ b.IsShift ∧ a.x = b.x ∧ a.n = b.n := by
  constructor
  · intro h
    obtain ⟨hk, hx, hn⟩ := a.digits_canonical
    rw [h, b.digits_canonical.1] at hk
    rw [h, b.digits_canonical.2.1] at hx
    rw [h, b.digits_canonical.2.2] at hn
    have hs : b.IsShift ↔ a.IsShift := by rw [IsShift, IsShift, hk, hn]
    by_cases ha : a.IsShift
    · exact .inr ⟨ha, hs.mpr ha, hx.symm, hn.symm⟩
    · rw [canonical_of_not_isShift ha, canonical_of_not_isShift (mt hs.mp ha)] at h
      exact .inl h
  · rintro (rfl | ⟨ha, hb, hx, hn⟩)
    · rfl
    · rw [canonical_of_isShift ha, canonical_of_isShift hb, ha.1, hb.1, hx, hn]

theorem toNat_canonical_ofInt (n : Int) :
    ((ofInt n).canonical.toNat : Int) =
      if (ofInt n).IsShift then n % 65536 - n % 256 + n % 16 else n % 65536 := by
  have hn := toNat_ofInt n
  by_cases h : (ofInt n).IsShift
  · rw [canonical_of_isShift h, if_pos h, toNat_ofNibbles]
    simp only [kind, Word.x, Word.n]
    omega
  · rw [canonical_of_not_isShift h, if_neg h, hn]

theorem ofInt_eq_iff {a b : Int} : ofInt a = ofInt b ↔ a % 65536 = b % 65536 := by
  rw [← UInt16.toNat_inj, ← Int.natCast_inj, toNat_ofInt, toNat_ofInt]

theorem IsShift.documented (h : w.IsShift) : w.Documented := by
  refine .inr (.inr (.inl ⟨h.1, ?_⟩))
  rcases h.2 with hn | hn <;> rw [hn] <;> decide

end Word

namespace Opcode

variable {op : Opcode} {w : Word}

def pattern (op : Opcode) : Nat :=
  (op.template.fill 0 0 0).toNat

def IsShift (op : Opcode) : Prop :=
  op = .register .shiftRight ∨ op = .register .shiftLeft

instance (op : Opcode) : Decidable op.IsShift :=
  inferInstanceAs (Decidable (_ ∨ _))

theorem eq_register_of_accepts {r : RegisterOp} (h : op.template.accepts w)
    (hr : (Opcode.register r).template.accepts w) : op = .register r := by
  rcases eq_or_refines h hr with rfl | ⟨hs, -⟩ | ⟨-, hs | hs⟩
  · rfl
  all_goals cases hs

theorem isShift_iff (h : op.template.accepts w) : op.IsShift ↔ w.IsShift := by
  constructor
  · rintro (rfl | rfl)
    · obtain ⟨hk, -, -, hn⟩ := Template.accepts_iff.mp h
      exact ⟨hk, .inl (Template.admits_some_iff.mp hn)⟩
    · obtain ⟨hk, -, -, hn⟩ := Template.accepts_iff.mp h
      exact ⟨hk, .inr (Template.admits_some_iff.mp hn)⟩
  · rintro ⟨hk, hn | hn⟩
    · exact .inl (eq_register_of_accepts h (by simp [Template.accepts_iff, template, hk, hn]))
    · exact .inr (eq_register_of_accepts h (by simp [Template.accepts_iff, template, hk, hn]))

/-- Encoding what is read from a word gives its digits back, but for the one a shift ignores. -/
theorem encode_read (op : Opcode) (w : Word) :
    (op.read w).encode = op.template.fill w.x (if op.IsShift then 0 else w.y) w.n := by
  cases op with
  | plain op | register op | pair op => cases op <;> rfl
  | address op =>
    obtain ⟨hx, hy, hn⟩ := w.digits_nnn
    rw [read, Instruction.encode, hx, hy, hn]
    rfl
  | immediate op =>
    obtain ⟨hy, hn⟩ := w.digits_nn
    rw [read, Instruction.encode, hy, hn]
    rfl
  | draw => rfl

theorem fill_of_isShift (h : op.template.accepts w) (hs : op.IsShift) (y : Nibble) :
    op.template.fill w.x y w.n = .ofNibbles w.kind w.x y w.n := by
  obtain ⟨hk, -, -, hn⟩ := Template.accepts_iff.mp h
  rw [Template.fill, ← hk, Template.getD_of_admits hn]
  rcases hs with rfl | rfl <;> rfl

theorem template_address (op : AddressOp) :
    ∃ k, (address op).template = ⟨k, none, none, none⟩ := by
  cases op <;> exact ⟨_, rfl⟩

theorem template_register (op : RegisterOp) :
    ∃ k y n, (register op).template = ⟨k, none, y, some n⟩ := by
  cases op <;> exact ⟨_, _, _, rfl⟩

theorem template_immediate (op : ImmediateOp) :
    ∃ k, (immediate op).template = ⟨k, none, none, none⟩ := by
  cases op <;> exact ⟨_, rfl⟩

theorem template_pair (op : PairOp) :
    ∃ k n, (pair op).template = ⟨k, none, none, some n⟩ := by
  cases op <;> exact ⟨_, _, rfl⟩

end Opcode

namespace Instruction

variable {i : Instruction} {op : Opcode} {w : Word}

def operandBits : Instruction → Nat
  | .plain _ => 0
  | .address _ nnn => nnn
  | .register _ x => 256 * x
  | .immediate _ x nn => 256 * x + nn.toNat
  | .pair _ x y => 256 * x + 16 * y
  | .draw x y n => 256 * x + 16 * y + n
  | .unknown w => w.toNat

def pattern (i : Instruction) : Nat :=
  i.opcode?.elim 0 Opcode.pattern

theorem pattern_of_opcode (h : i.opcode? = some op) : i.pattern = op.pattern := by
  rw [pattern, h, Option.elim_some]

theorem toNat_encode (i : Instruction) : i.encode.toNat = i.pattern + i.operandBits := by
  cases i with
  | plain op => rfl
  | address op nnn =>
    obtain ⟨k, ht⟩ := Opcode.template_address op
    rw [pattern_of_opcode rfl, encode, Opcode.pattern, ht, operandBits]
    simp only [Template.fill, Word.toNat_ofNibbles, Option.getD_none, Nibble.ofNat, Fin.ofNat]
    omega
  | register op x =>
    obtain ⟨k, y, n, ht⟩ := Opcode.template_register op
    rw [pattern_of_opcode rfl, encode, Opcode.pattern, ht, operandBits]
    simp only [Template.fill, Word.toNat_ofNibbles, Option.getD_none, Option.getD_some]
    omega
  | immediate op x nn =>
    have := nn.toNat_lt
    obtain ⟨k, ht⟩ := Opcode.template_immediate op
    rw [pattern_of_opcode rfl, encode, Opcode.pattern, ht, operandBits]
    simp only [Template.fill, Word.toNat_ofNibbles, Option.getD_none, Nibble.ofNat, Fin.ofNat]
    omega
  | pair op x y =>
    obtain ⟨k, n, ht⟩ := Opcode.template_pair op
    rw [pattern_of_opcode rfl, encode, Opcode.pattern, ht, operandBits]
    simp only [Template.fill, Word.toNat_ofNibbles, Option.getD_none, Option.getD_some]
    omega
  | draw x y n =>
    rw [pattern_of_opcode rfl, encode, Opcode.pattern, operandBits]
    simp only [Template.fill, Opcode.template, Word.toNat_ofNibbles, Option.getD_none]
    omega
  | unknown w => exact (Nat.zero_add _).symm

theorem accepts_encode (h : i.opcode? = some op) : op.template.accepts i.encode := by
  cases i <;> cases h <;> exact Template.accepts_fill _ _ _ _

theorem read_encode (h : i.opcode? = some op) : op.read i.encode = i := by
  cases i with
  | plain op => cases h; rfl
  | address op nnn =>
    cases h
    obtain ⟨k, ht⟩ := Opcode.template_address op
    have hnnn : (encode (.address op nnn)).nnn = nnn := by
      ext
      simp only [encode, ht, Template.fill, Option.getD_none, Word.nnn_ofNibbles, Nibble.ofNat,
        Fin.ofNat]
      omega
    rw [Opcode.read, hnnn]
  | register op x =>
    cases h
    obtain ⟨k, y, n, ht⟩ := Opcode.template_register op
    rw [Opcode.read, encode, ht, Template.fill, Word.x_ofNibbles]
    rfl
  | immediate op x nn =>
    cases h
    obtain ⟨k, ht⟩ := Opcode.template_immediate op
    have hnn : (encode (.immediate op x nn)).nn = nn := by
      have := nn.toNat_lt
      apply UInt8.toNat_inj.mp
      simp only [encode, ht, Template.fill, Option.getD_none, Word.nn_ofNibbles, Nibble.ofNat,
        Fin.ofNat]
      omega
    have hx : (encode (.immediate op x nn)).x = x := by
      rw [encode, ht, Template.fill, Word.x_ofNibbles]
      rfl
    rw [Opcode.read, hnn, hx]
  | pair op x y =>
    cases h
    obtain ⟨k, n, ht⟩ := Opcode.template_pair op
    rw [Opcode.read, encode, ht, Template.fill, Word.x_ofNibbles, Word.y_ofNibbles]
    rfl
  | draw x y n =>
    cases h
    rw [Opcode.read, encode, Template.fill, Word.x_ofNibbles, Word.y_ofNibbles, Word.n_ofNibbles]
    rfl
  | unknown w => cases h

/-- The words of the system calls `0E0` and `0EE` stand for other instructions, and a documented
word is not unknown. All other instructions own their words. -/
def OwnsWord : Instruction → Prop
  | .address .sys nnn => nnn ≠ 0x0E0 ∧ nnn ≠ 0x0EE
  | .unknown w => ¬ w.Documented
  | _ => True

theorem encode_sys (nnn : Address) : (encode (.address .sys nnn)).toNat = nnn := by
  rw [toNat_encode]
  exact Nat.zero_add _

theorem prevails_encode (hi : i.OwnsWord) (h : i.opcode? = some op) : op.Prevails i.encode := by
  refine ⟨accepts_encode h, fun other hother ho ↦ ?_⟩
  obtain ⟨rfl, ho⟩ := ho
  obtain ⟨nnn, rfl⟩ : ∃ nnn, i = .address .sys nnn := by
    cases i <;> cases h
    exact ⟨_, rfl⟩
  have hw : ∀ w, encode (.address .sys nnn) = w → nnn.val = w.toNat := by
    rintro w rfl
    exact (encode_sys nnn).symm
  rcases ho with rfl | rfl
  · exact hi.1 (Fin.ext (hw _ (Template.accepts_fixed_iff.mp hother)))
  · exact hi.2 (Fin.ext (hw _ (Template.accepts_fixed_iff.mp hother)))

theorem decode_encode (h : i.OwnsWord) : decode i.encode = i := by
  cases ho : i.opcode? with
  | none =>
    obtain ⟨w, rfl⟩ : ∃ w, i = .unknown w := by
      cases i <;> cases ho
      exact ⟨_, rfl⟩
    refine Opcode.decodeWith_of_not_accepts fun op _ hop ↦ h ?_
    exact Opcode.documented_of_accepts hop
  | some op =>
    have hd := Opcode.decodeWith_of_prevails Opcode.orderly_table (prevails_encode h ho)
    exact hd.trans (read_encode ho)

end Instruction

section

variable {w : Word} {op : Opcode}

theorem Opcode.Prevails.ownsWord (h : op.Prevails w) : (op.read w).OwnsWord := by
  obtain ⟨hw, hmin⟩ := h
  cases op with
  | address op =>
    cases op with
    | sys =>
      have hfill : Instruction.encode (.address .sys w.nnn) = w :=
        (encode_read (.address .sys) w).trans (Template.fill_of_accepts hw)
      constructor
      · intro hn
        refine hmin (.plain .clear) ?_ ⟨rfl, .inl rfl⟩
        refine Template.accepts_fixed_iff.mpr ?_
        rw [← hfill, hn]
        rfl
      · intro hn
        refine hmin (.plain .ret) ?_ ⟨rfl, .inr rfl⟩
        refine Template.accepts_fixed_iff.mpr ?_
        rw [← hfill, hn]
        rfl
    | _ => trivial
  | _ => trivial

theorem ownsWord_decode (w : Word) : (decode w).OwnsWord := by
  rcases decode_cases w with ⟨op, h, hd⟩ | ⟨h, hd⟩
  · rw [hd]
    exact h.ownsWord
  · rw [hd]
    exact h

theorem encode_decode (w : Word) : (decode w).encode = w.canonical := by
  rcases decode_cases w with ⟨op, h, hd⟩ | ⟨h, hd⟩
  · rw [hd, Opcode.encode_read, Word.canonical]
    by_cases hs : op.IsShift
    · rw [if_pos hs, if_pos ((Opcode.isShift_iff h.1).mp hs), Opcode.fill_of_isShift h.1 hs]
    · rw [if_neg hs, if_neg (mt (Opcode.isShift_iff h.1).mpr hs), Template.fill_of_accepts h.1]
  · rw [hd, Word.canonical, if_neg (mt Word.IsShift.documented h)]
    rfl

theorem decode_canonical (w : Word) : decode w.canonical = decode w := by
  rw [← encode_decode, Instruction.decode_encode (ownsWord_decode w)]

theorem decode_eq_iff {a b : Word} : decode a = decode b ↔ a.canonical = b.canonical := by
  constructor
  · intro h
    rw [← encode_decode, ← encode_decode, h]
  · intro h
    rw [← decode_canonical a, ← decode_canonical b, h]

theorem decode_eq_unknown_iff {v : Word} : decode w = .unknown v ↔ ¬ w.Documented ∧ v = w := by
  rcases decode_cases w with ⟨op, h, hd⟩ | ⟨h, hd⟩
  · have hw : w.Documented := Opcode.documented_of_accepts h.1
    have hne : op.read w ≠ .unknown v := by cases op <;> simp [Opcode.read]
    rw [hd]
    exact iff_of_false hne fun hv ↦ hv.1 hw
  · rw [hd, Instruction.unknown.injEq, and_iff_right h, eq_comm]

end

/-- Decoding and encoding are inverse to each other, but for the digit that the shifts ignore. -/
theorem decode_inverts_encode :
    (∀ i : Instruction, i.encode.toNat = i.pattern + i.operandBits) ∧
    (∀ i : Instruction, decode i.encode = i ↔ i.OwnsWord) ∧
    (∀ n : Int, ((decode (.ofInt n)).encode.toNat : Int) =
      if (Word.ofInt n).IsShift then n % 65536 - n % 256 + n % 16 else n % 65536) ∧
    (∀ (n : Int) (w : Word), decode (.ofInt n) = .unknown w ↔
      ¬ (Word.ofInt n).Documented ∧ (w.toNat : Int) = n % 65536) ∧
    ∀ a b : Int, decode (.ofInt a) = decode (.ofInt b) ↔
      a % 65536 = b % 65536 ∨
        (Word.ofInt a).IsShift ∧ (Word.ofInt b).IsShift ∧ (Word.ofInt a).x = (Word.ofInt b).x ∧
          (Word.ofInt a).n = (Word.ofInt b).n := by
  refine ⟨Instruction.toNat_encode, ?_, ?_, ?_, ?_⟩
  · intro i
    constructor
    · intro h
      rw [← h]
      exact ownsWord_decode _
    · exact Instruction.decode_encode
  · intro n
    rw [encode_decode, Word.toNat_canonical_ofInt]
  · intro n w
    rw [decode_eq_unknown_iff, ← Word.toNat_ofInt, Int.natCast_inj, UInt16.toNat_inj]
  · intro a b
    rw [decode_eq_iff, Word.canonical_eq_iff, Word.ofInt_eq_iff]

-- The shifts ignore the third digit.
example : (decode 0x8A36).encode = 0x8A06 := by
  decide

end ChipEight
