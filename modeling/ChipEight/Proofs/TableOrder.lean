import ChipEight.Proofs.Decoding
import Mathlib.Data.List.Basic

namespace ChipEight

theorem Word.ofInt_surjective : Function.Surjective Word.ofInt := by
  intro w
  have hlt := w.toNat_lt
  have hw := Word.toNat_ofInt w.toNat
  exact ⟨w.toNat, UInt16.toNat_inj.mp (by omega)⟩

namespace Opcode

variable {op other : Opcode} {w : Word} {table : List Opcode}

def Precedes (table : List Opcode) (op other : Opcode) : Prop :=
  table.idxOf op < table.idxOf other

instance (table : List Opcode) (op other : Opcode) : Decidable (Precedes table op other) :=
  inferInstanceAs (Decidable (_ < _))

theorem idxOf_append_cons_le (before : List Opcode) (op : Opcode) (after : List Opcode) :
    (before ++ op :: after).idxOf op ≤ before.length := by
  by_cases h : op ∈ before
  · rw [List.idxOf_append_of_mem h]
    exact Nat.le_of_lt (List.idxOf_lt_length_of_mem h)
  · rw [List.idxOf_append_of_notMem h, List.idxOf_cons_self]
    exact Nat.le_refl _

theorem mem_of_precedes_append {before after : List Opcode}
    (h : Precedes (before ++ other :: after) op other) : op ∈ before := by
  by_contra hop
  have hother := idxOf_append_cons_le before other after
  rw [Precedes, List.idxOf_append_of_notMem hop] at h
  omega

theorem precedes_append {before : List Opcode} (h : other ∉ before) (hne : other ≠ op)
    (after : List Opcode) : Precedes (before ++ op :: after) op other := by
  have hop := idxOf_append_cons_le before op after
  rw [Precedes, List.idxOf_append_of_notMem h, List.idxOf_cons_ne _ hne.symm]
  omega

theorem orderly_of_precedes (hc : ∀ op, op ∈ table)
    (h : ∀ op other : Opcode, op.Refines other → Precedes table op other) : Orderly table where
  complete := hc
  narrower := by
    rintro before op after rfl other ho
    exact mem_of_precedes_append (h other op ho)

theorem forall_refines_iff {P : Opcode → Opcode → Prop} :
    (∀ op other : Opcode, op.Refines other → P op other) ↔
      P (.plain .clear) (.address .sys) ∧ P (.plain .ret) (.address .sys) := by
  constructor
  · intro h
    exact ⟨h _ _ ⟨rfl, .inl rfl⟩, h _ _ ⟨rfl, .inr rfl⟩⟩
  · rintro ⟨hclear, hret⟩ op other ⟨rfl, rfl | rfl⟩
    · exact hclear
    · exact hret

theorem Refines.accepts (h : op.Refines other) (hw : op.template.accepts w) :
    other.template.accepts w := by
  obtain ⟨rfl, rfl | rfl⟩ := h <;> exact Template.accepts_iff.mpr
    ⟨(Template.accepts_iff.mp hw).1, rfl, rfl, rfl⟩

/-- A word that a narrower template shares with a wider one. -/
theorem Refines.exists_accepts (h : op.Refines other) :
    ∃ w, op.template.accepts w ∧ other.template.accepts w := by
  have hw := op.template.accepts_fill 0 0 0
  exact ⟨_, hw, h.accepts hw⟩

theorem opcode?_read (op : Opcode) (w : Word) : (op.read w).opcode? = some op := by
  cases op <;> rfl

theorem read_injective {a b : Word} (h : op.read a = other.read b) : op = other := by
  have ho := congrArg Instruction.opcode? h
  rw [opcode?_read, opcode?_read] at ho
  exact Option.some.inj ho

/-- Two orderly tables decode alike: in both a word goes to the narrowest template. -/
theorem decodeWith_eq_decode (ht : Orderly table) (w : Word) :
    decodeWith table w = decode w := by
  rcases decode_cases w with ⟨op, h, hd⟩ | ⟨h, hd⟩
  · rw [hd, decodeWith_of_prevails ht h]
  · rw [hd, decodeWith_of_not_accepts fun op _ hw ↦ h (documented_of_accepts hw)]

/-- Where a wider template comes first, it takes the words that the two have in common. -/
theorem precedes_of_decodeWith_eq (h : op.Refines other) (hw : op.template.accepts w)
    (hd : decodeWith table w = decode w) : Precedes table op other := by
  have hread : decode w = op.read w := decodeWith_of_prevails orderly_table (h.prevails hw)
  rw [hread, decodeWith] at hd
  cases hf : table.find? (·.template.accepts w) with
  | none =>
    rw [hf] at hd
    have ho := congrArg Instruction.opcode? hd
    rw [opcode?_read] at ho
    cases ho
  | some first =>
    rw [hf] at hd
    obtain rfl := read_injective hd
    obtain ⟨-, before, after, rfl, hbefore⟩ := List.find?_eq_some_iff_append.mp hf
    apply precedes_append
    · intro hmem
      have hother := hbefore other hmem
      rw [h.accepts hw] at hother
      cases hother
    · obtain ⟨rfl, rfl | rfl⟩ := h <;> decide

theorem decodeWith_eq_decode_iff (hc : ∀ op, op ∈ table) :
    (∀ w, decodeWith table w = decode w) ↔
      ∀ op other : Opcode, op.Refines other → Precedes table op other := by
  constructor
  · intro h op other ho
    obtain ⟨w, hw, -⟩ := ho.exists_accepts
    exact precedes_of_decodeWith_eq ho hw (h w)
  · intro h
    exact decodeWith_eq_decode (orderly_of_precedes hc h)

theorem exists_accepts_both_iff (hne : op ≠ other) :
    (∃ w, op.template.accepts w ∧ other.template.accepts w) ↔
      op.Refines other ∨ other.Refines op := by
  constructor
  · rintro ⟨w, hop, hother⟩
    exact (eq_or_refines hop hother).resolve_left hne
  · rintro (h | h)
    · exact h.exists_accepts
    · obtain ⟨w, hother, hop⟩ := h.exists_accepts
      exact ⟨w, hop, hother⟩

/-- The order of the table matters in one respect only. With `clear` and `ret` before `sys` every
rearrangement of the table decodes all words as the table does, and without it some word is
decoded differently. No other two opcodes have a word in common. -/
theorem order_matters_for_sys_only (h : table.Perm Opcode.table) :
    (table.Nodup ∧ table.length = 35) ∧
    (Precedes table (.plain .clear) (.address .sys) ∧ Precedes table (.plain .ret) (.address .sys) →
      ∀ n : Int, decodeWith table (.ofInt n) = decode (.ofInt n)) ∧
    (¬ (Precedes table (.plain .clear) (.address .sys) ∧
        Precedes table (.plain .ret) (.address .sys)) →
      ∃ n : Int, decodeWith table (.ofInt n) ≠ decode (.ofInt n)) ∧
    ∀ op ∈ table, ∀ other ∈ table, op ≠ other →
      ((∃ n : Int, op.template.accepts (.ofInt n) ∧ other.template.accepts (.ofInt n)) ↔
        other = .address .sys ∧ (op = .plain .clear ∨ op = .plain .ret) ∨
        op = .address .sys ∧ (other = .plain .clear ∨ other = .plain .ret)) := by
  have hc : ∀ op, op ∈ table := fun op ↦ h.mem_iff.mpr op.mem_table
  have hdecode := decodeWith_eq_decode_iff hc
  rw [forall_refines_iff, Word.ofInt_surjective.forall] at hdecode
  have hnodup : Opcode.table.Nodup := by decide +kernel
  refine ⟨⟨h.nodup_iff.mpr hnodup, h.length_eq⟩, hdecode.mpr, ?_, ?_⟩
  · intro hn
    by_contra hall
    exact hn (hdecode.mp (by simpa using hall))
  · intro op _ other _ hne
    exact Word.ofInt_surjective.exists.symm.trans (exists_accepts_both_iff hne)

/-- From the last entry to the first, and so once more with the two narrow ones in front. -/
theorem order_matters_for_sys_only_reversed :
    let turned := Opcode.table.reverse
    let mended := .plain .ret :: .plain .clear :: (Opcode.table.drop 2).reverse
    (turned.Perm Opcode.table ∧ ¬ Precedes turned (.plain .ret) (.address .sys) ∧
      ∃ n : Int, decodeWith turned (.ofInt n) ≠ decode (.ofInt n)) ∧
    mended.Perm Opcode.table ∧ Precedes mended (.plain .clear) (.address .sys) ∧
      Precedes mended (.plain .ret) (.address .sys) ∧
      ∀ n : Int, decodeWith mended (.ofInt n) = decode (.ofInt n) := by
  intro turned mended
  have hturned : turned.Perm Opcode.table := List.reverse_perm _
  have hlate : ¬ Precedes turned (.plain .ret) (.address .sys) := by decide +kernel
  have hmended : mended.Perm Opcode.table := by decide +kernel
  have hclear : Precedes mended (.plain .clear) (.address .sys) := by decide +kernel
  have hret : Precedes mended (.plain .ret) (.address .sys) := by decide +kernel
  have hdiffers := (order_matters_for_sys_only hturned).2.2.1 fun h ↦ hlate h.2
  exact ⟨⟨hturned, hlate, hdiffers⟩, hmended, hclear, hret,
    (order_matters_for_sys_only hmended).2.1 ⟨hclear, hret⟩⟩

end Opcode

end ChipEight
