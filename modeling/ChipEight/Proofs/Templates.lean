import ChipEight.Instruction.Encoding

namespace ChipEight

namespace Template

variable {t u : Template} {w : Word}

def slotsMeet : Option Nibble → Option Nibble → Bool
  | some a, some b => a == b
  | _, _ => true

/-- The templates fix no digit differently. -/
def meets (t u : Template) : Bool :=
  t.kind == u.kind && slotsMeet t.x u.x && slotsMeet t.y u.y && slotsMeet t.n u.n

theorem accepts_iff :
    t.accepts w = true ↔ w.kind = t.kind ∧ admits t.x w.x ∧ admits t.y w.y ∧ admits t.n w.n := by
  simp only [accepts, Bool.and_eq_true, beq_iff_eq, and_assoc, eq_comm (a := w.kind)]

@[simp]
theorem admits_none (digit : Nibble) : admits none digit :=
  rfl

@[simp]
theorem admits_some_iff {d digit : Nibble} : admits (some d) digit = true ↔ digit = d :=
  beq_iff_eq.trans eq_comm

theorem getD_of_admits {slot : Option Nibble} {digit : Nibble} (h : admits slot digit) :
    slot.getD digit = digit := by
  cases slot with
  | none => rfl
  | some d => exact (admits_some_iff.mp h).symm

theorem admits_getD (slot : Option Nibble) (digit : Nibble) : admits slot (slot.getD digit) := by
  cases slot with
  | none => exact admits_none digit
  | some d => exact admits_some_iff.mpr rfl

theorem slotsMeet_of_admits {slot other : Option Nibble} {digit : Nibble}
    (h : admits slot digit) (h' : admits other digit) : slotsMeet slot other := by
  cases slot with
  | none => rfl
  | some d =>
    cases other with
    | none => rfl
    | some d' => exact beq_iff_eq.mpr ((admits_some_iff.mp h).symm.trans (admits_some_iff.mp h'))

theorem fill_of_accepts (h : t.accepts w) : t.fill w.x w.y w.n = w := by
  obtain ⟨hk, hx, hy, hn⟩ := accepts_iff.mp h
  rw [fill, ← hk, getD_of_admits hx, getD_of_admits hy, getD_of_admits hn, Word.ofNibbles_digits]

theorem accepts_fill (t : Template) (x y n : Nibble) : t.accepts (t.fill x y n) := by
  rw [accepts_iff, fill, Word.kind_ofNibbles, Word.x_ofNibbles, Word.y_ofNibbles, Word.n_ofNibbles]
  exact ⟨rfl, admits_getD _ _, admits_getD _ _, admits_getD _ _⟩

theorem accepts_fixed_iff {k x y n : Nibble} :
    accepts ⟨k, some x, some y, some n⟩ w = true ↔ w = .ofNibbles k x y n := by
  rw [accepts_iff, admits_some_iff, admits_some_iff, admits_some_iff]
  constructor
  · rintro ⟨hk, rfl, rfl, rfl⟩
    change w.kind = k at hk
    rw [← hk, Word.ofNibbles_digits]
  · rintro rfl
    exact ⟨Word.kind_ofNibbles .., Word.x_ofNibbles .., Word.y_ofNibbles .., Word.n_ofNibbles ..⟩

theorem meets_of_accepts (ht : t.accepts w) (hu : u.accepts w) : t.meets u := by
  obtain ⟨hk, hx, hy, hn⟩ := accepts_iff.mp ht
  obtain ⟨hk', hx', hy', hn'⟩ := accepts_iff.mp hu
  simp only [meets, ← hk, ← hk', slotsMeet_of_admits hx hx', slotsMeet_of_admits hy hy',
    slotsMeet_of_admits hn hn', beq_self_eq_true, Bool.and_self]

end Template

namespace Opcode

variable {op other : Opcode} {w : Word} {table : List Opcode}

def Refines (op other : Opcode) : Prop :=
  other = .address .sys ∧ (op = .plain .clear ∨ op = .plain .ret)

instance (op other : Opcode) : Decidable (op.Refines other) :=
  inferInstanceAs (Decidable (_ ∧ _))

/-- Different templates have a word in common only where one lies inside the other. -/
theorem eq_or_refines_of_meets (h : op.template.meets other.template) :
    op = other ∨ op.Refines other ∨ other.Refines op := by
  have hall : ∀ op ∈ Opcode.table, ∀ other ∈ Opcode.table, op.template.meets other.template →
      op = other ∨ op.Refines other ∨ other.Refines op := by
    decide +kernel
  exact hall op op.mem_table other other.mem_table h

theorem eq_or_refines (h : op.template.accepts w) (h' : other.template.accepts w) :
    op = other ∨ op.Refines other ∨ other.Refines op :=
  eq_or_refines_of_meets (Template.meets_of_accepts h h')

/-- Of the opcodes that accept the word, this is the one with the narrowest template. -/
def Prevails (op : Opcode) (w : Word) : Prop :=
  op.template.accepts w ∧ ∀ other : Opcode, other.template.accepts w → ¬ other.Refines op

theorem Refines.prevails (h : op.Refines other) (hw : op.template.accepts w) : op.Prevails w := by
  refine ⟨hw, ?_⟩
  rintro third - ⟨hsys, -⟩
  obtain ⟨-, rfl | rfl⟩ := h <;> cases hsys

theorem exists_prevails (h : op.template.accepts w) : ∃ op : Opcode, op.Prevails w := by
  by_cases hr : ∃ other : Opcode, other.template.accepts w ∧ other.Refines op
  · obtain ⟨other, hw, ho⟩ := hr
    exact ⟨other, ho.prevails hw⟩
  · exact ⟨op, h, fun other hw ho ↦ hr ⟨other, hw, ho⟩⟩

/-- The table has every opcode, and before each one those with a narrower template. -/
structure Orderly (table : List Opcode) : Prop where
  complete : ∀ op, op ∈ table
  narrower : ∀ before op after, table = before ++ op :: after →
    ∀ other : Opcode, other.Refines op → other ∈ before

theorem orderly_table : Orderly Opcode.table where
  complete := mem_table
  narrower before op after h other ho := by
    obtain ⟨rfl, ho⟩ := ho
    match before, h with
    | [], h | [_], h => cases h
    | first :: second :: before, h =>
      obtain ⟨hfirst, h⟩ := List.cons.inj h
      obtain ⟨hsecond, -⟩ := List.cons.inj h
      rcases ho with rfl | rfl
      · exact List.mem_cons.mpr (.inl hfirst)
      · exact List.mem_cons_of_mem _ (List.mem_cons.mpr (.inl hsecond))

theorem decodeWith_of_prevails (ht : Orderly table) (h : op.Prevails w) :
    decodeWith table w = op.read w := by
  rw [decodeWith]
  cases hf : table.find? (·.template.accepts w) with
  | none => exact absurd h.1 (List.find?_eq_none.mp hf op (ht.complete op))
  | some first =>
    obtain ⟨hw, before, after, hsplit, hbefore⟩ := List.find?_eq_some_iff_append.mp hf
    rcases eq_or_refines h.1 hw with rfl | ho | ho
    · rfl
    · have hop := hbefore op (ht.narrower before first after hsplit op ho)
      rw [h.1] at hop
      cases hop
    · exact absurd ho (h.2 first hw)

theorem decodeWith_of_not_accepts (h : ∀ op ∈ table, ¬ op.template.accepts w) :
    decodeWith table w = .unknown w := by
  rw [decodeWith, List.find?_eq_none.mpr h]

end Opcode

namespace Word

def fullKinds : List Nibble :=
  [0x0, 0x1, 0x2, 0x3, 0x4, 0x6, 0x7, 0xA, 0xB, 0xC, 0xD]

def arithmeticForms : List Nibble :=
  [0x0, 0x1, 0x2, 0x3, 0x4, 0x5, 0x6, 0x7, 0xE]

def keyForms : List (Nibble × Nibble) :=
  [(0x9, 0xE), (0xA, 0x1)]

def registerForms : List (Nibble × Nibble) :=
  [(0x0, 0x7), (0x0, 0xA), (0x1, 0x5), (0x1, 0x8), (0x1, 0xE), (0x2, 0x9), (0x3, 0x3),
    (0x5, 0x5), (0x6, 0x5)]

def Documented (w : Word) : Prop :=
  w.kind ∈ fullKinds ∨
  w.kind ∈ [0x5, 0x9] ∧ w.n = 0x0 ∨
  w.kind = 0x8 ∧ w.n ∈ arithmeticForms ∨
  w.kind = 0xE ∧ (w.y, w.n) ∈ keyForms ∨
  w.kind = 0xF ∧ (w.y, w.n) ∈ registerForms

end Word

namespace Opcode

variable {op : Opcode} {w : Word}

theorem documented_of_accepts (h : op.template.accepts w) : w.Documented := by
  obtain ⟨hk, -, hy, hn⟩ := Template.accepts_iff.mp h
  cases op with
  | plain op | address op | register op | immediate op | pair op =>
    cases op <;> simp_all [template, Word.Documented, Word.fullKinds, Word.arithmeticForms,
      Word.keyForms, Word.registerForms]
  | draw => simp_all [template, Word.Documented, Word.fullKinds]

theorem exists_accepts_of_eq {t : Template} (h : ∃ op ∈ table, op.template = t)
    (ht : t.accepts w) : ∃ op : Opcode, op.template.accepts w := by
  obtain ⟨op, -, rfl⟩ := h
  exact ⟨op, ht⟩

theorem exists_accepts (h : w.Documented) : ∃ op : Opcode, op.template.accepts w := by
  rcases h with hk | ⟨hk, hn⟩ | ⟨hk, hn⟩ | ⟨hk, hyn⟩ | ⟨hk, hyn⟩
  · have hall : ∀ k ∈ Word.fullKinds, ∃ op ∈ table, op.template = ⟨k, none, none, none⟩ := by
      decide
    exact exists_accepts_of_eq (hall _ hk) (by simp [Template.accepts_iff])
  · have hall : ∀ k ∈ [0x5, 0x9], ∃ op ∈ table, op.template = ⟨k, none, none, some 0x0⟩ := by
      decide
    exact exists_accepts_of_eq (hall _ hk) (by simp [Template.accepts_iff, hn])
  · have hall : ∀ n ∈ Word.arithmeticForms,
        ∃ op ∈ table, op.template = ⟨0x8, none, none, some n⟩ := by
      decide
    exact exists_accepts_of_eq (hall _ hn) (by simp [Template.accepts_iff, hk])
  · have hall : ∀ yn ∈ Word.keyForms,
        ∃ op ∈ table, op.template = ⟨0xE, none, some yn.1, some yn.2⟩ := by
      decide +kernel
    exact exists_accepts_of_eq (hall _ hyn) (by simp [Template.accepts_iff, hk])
  · have hall : ∀ yn ∈ Word.registerForms,
        ∃ op ∈ table, op.template = ⟨0xF, none, some yn.1, some yn.2⟩ := by
      decide +kernel
    exact exists_accepts_of_eq (hall _ hyn) (by simp [Template.accepts_iff, hk])

end Opcode

/-- A documented word is read by the narrowest opcode that accepts it, any other is unknown. -/
theorem decode_cases (w : Word) :
    (∃ op : Opcode, op.Prevails w ∧ decode w = op.read w) ∨
      ¬ w.Documented ∧ decode w = .unknown w := by
  by_cases h : w.Documented
  · obtain ⟨op, h⟩ := Opcode.exists_accepts h
    obtain ⟨op, h⟩ := Opcode.exists_prevails h
    exact .inl ⟨op, h, Opcode.decodeWith_of_prevails Opcode.orderly_table h⟩
  · refine .inr ⟨h, Opcode.decodeWith_of_not_accepts fun op _ hop ↦ h ?_⟩
    exact Opcode.documented_of_accepts hop

end ChipEight
