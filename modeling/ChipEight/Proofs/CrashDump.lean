import ChipEight.Machine.Dump
import ChipEight.Proofs.Listings

namespace ChipEight

namespace Keypad

theorem mem_layout (k : Nibble) : k ∈ layout.flatten := by
  have hall : ∀ k : Nibble, k ∈ layout.flatten := by decide
  exact hall k

theorem filter_text (p : Keypad) :
    p.text.toList.filter Char.isDigit =
      layout.flatten.map fun k ↦ if p.held.get k then '1' else '0' := by
  have hkey (k : Nibble) : (if p.held.get k then "1" else "0").toList.filter Char.isDigit =
      [if p.held.get k then '1' else '0'] := by
    cases p.held.get k <;> decide
  have hblank : " ".toList.filter Char.isDigit = [] := by decide
  have hbreak : "\n".toList.filter Char.isDigit = [] := by decide
  have hrow (row : List Nibble) :
      (" ".intercalate (row.map fun k ↦ if p.held.get k then "1" else "0")).toList.filter
        Char.isDigit = row.map fun k ↦ if p.held.get k then '1' else '0' := by
    rw [String.toList_intercalate, Text.filter_intercalate_of_sep hblank, List.map_map,
      List.map_map]
    simp only [Function.comp_def, hkey]
    rw [← List.flatMap_def]
    exact List.map_eq_flatMap.symm
  rw [text, String.toList_intercalate, Text.filter_intercalate_of_sep hbreak, List.map_map,
    List.map_map, List.map_flatten]
  simp only [Function.comp_def, hrow]

theorem not_mem_text {c : Char} (hc : c ∉ ['0', '1', ' ', '\n']) (p : Keypad) :
    c ∉ p.text.toList := by
  simp only [List.mem_cons, List.not_mem_nil, or_false, not_or] at hc
  have hkey (k : Nibble) : c ∉ (if p.held.get k then "1" else "0").toList := by
    cases p.held.get k <;> simp [hc]
  rw [text, String.toList_intercalate]
  apply Text.not_mem_intercalate
  · simp [hc]
  · simp only [List.map_map, List.mem_map, Function.comp_apply, String.toList_intercalate]
    rintro l ⟨row, -, rfl⟩
    apply Text.not_mem_intercalate
    · simp [hc]
    · simp only [List.mem_map, Function.comp_apply]
      rintro l ⟨k, -, rfl⟩
      exact hkey k

theorem text_eq_iff {p q : Keypad} : p.text = q.text ↔ ∀ k, p.held.get k = q.held.get k := by
  constructor
  · intro h k
    have hfilter := p.filter_text
    rw [h, q.filter_text] at hfilter
    have hk := List.map_inj_left.mp hfilter k (mem_layout k)
    cases hp : p.held.get k <;> cases hq : q.held.get k <;> simp [hp, hq] at hk ⊢
  · intro h
    simp only [text, h]

end Keypad

namespace Machine

/-- The dump, cut at the colons that end its labels. -/
def dumpPieces (m : Machine) : List String :=
  ["PC_REGISTER",
    "0x" ++ Text.hex 3 m.pc ++ " | IDX_REGISTER",
    "0x" ++ Text.hex 3 m.index ++ " | VARIABLE_REGISTERS",
    Text.bracketed ((m.registers.toList.map UInt8.toNat).map Nat.cast) ++ "\nDELAY_TIMER",
    Text.decimal m.delay.count.toNat ++ " | SOUND_TIMER",
    Text.decimal m.sound.count.toNat ++ "\nSTACK",
    Text.bracketed (m.stack.used.map Nat.cast) ++ "\nDRAW",
    truth m.redraw ++ " | WAITING_FOR_KEY",
    truth m.waiting ++ (" (V" ++ Text.hexCapital m.keyRegister ++ ")\nKEYPAD"),
    "\n" ++ m.keypad.text]

theorem toList_dump (m : Machine) :
    m.dump.toList = [':'].intercalate (m.dumpPieces.map String.toList) := by
  unfold dump dumpPieces
  simp only [String.toList_append, List.map_cons, List.map_nil, List.intercalate_cons_cons,
    List.intercalate_singleton, List.map_map, Function.comp_def, String.reduceToList,
    List.append_assoc, List.cons_append, List.nil_append]

theorem colon_not_mem_dumpPieces (m : Machine) : ∀ s ∈ m.dumpPieces, ':' ∉ s.toList := by
  have hdigit : ∀ d : Fin 16, ':' ≠ Nat.digitChar d := by decide
  have hhex := Text.not_mem_hex hdigit 3
  have hdecimal := Text.not_mem_decimal hdigit
  have hbracketed := Text.not_mem_bracketed (by decide) hdigit
  have hcapital (d : Nibble) : ':' ∉ (Text.hexCapital d).toList := by
    rw [Text.toList_hexCapital d.isLt]
    revert d
    decide
  have htruth (b : Bool) : ':' ∉ (truth b).toList := by
    cases b <;> decide
  have hkeypad := m.keypad.not_mem_text (c := ':') (by decide)
  simp [dumpPieces, -List.map_map, hhex, hdecimal, hbracketed, hcapital, htruth, hkeypad]

theorem dumpPieces_eq_of_dump_eq {m n : Machine} (h : m.dump = n.dump) :
    m.dumpPieces = n.dumpPieces := by
  have hpieces (k : Machine) : k.dump.toList.splitOn ':' = k.dumpPieces.map String.toList := by
    rw [toList_dump, List.splitOn_intercalate]
    · intro l hl
      obtain ⟨s, hs, rfl⟩ := List.mem_map.mp hl
      exact k.colon_not_mem_dumpPieces s hs
    · exact List.cons_ne_nil _ _
  have hlists : m.dumpPieces.map String.toList = n.dumpPieces.map String.toList := by
    rw [← hpieces, ← hpieces, h]
  exact (List.map_inj_right fun _ _ ↦ String.toList_inj.mp).mp hlists

theorem truth_append_inj {a b : Bool} {s t : String} :
    truth a ++ s = truth b ++ t ↔ a = b ∧ s = t := by
  cases a <;> cases b <;> simp [truth, ← String.toList_inj]

theorem truth_inj {a b : Bool} : truth a = truth b ↔ a = b := by
  cases a <;> cases b <;> decide

structure Resembles (m n : Machine) : Prop where
  pc : m.pc = n.pc
  index : m.index = n.index
  registers : m.registers = n.registers
  delay : m.delay.count = n.delay.count
  sound : m.sound.count = n.sound.count
  used : m.stack.used = n.stack.used
  redraw : m.redraw = n.redraw
  waiting : m.waiting = n.waiting
  keyRegister : m.keyRegister = n.keyRegister
  held : ∀ k, m.keypad.held.get k = n.keypad.held.get k

/-- From its dump a machine is known up to its memory, its screen, the stale slots of its stack, its
last key, the instants of its timers, the place of its last instruction and its position in the
random sequence, and none of these shows in the dump. -/
theorem dump_identifies_state (m n : Machine) : m.dump = n.dump ↔ m.Resembles n := by
  constructor
  · intro h
    have hpieces := dumpPieces_eq_of_dump_eq h
    simp only [dumpPieces, List.cons.injEq, String.append_left_inj, String.append_right_inj,
      Text.hex_inj, Text.bracketed_inj, Text.decimal_inj, Text.hexCapital_inj, truth_inj,
      truth_append_inj, Keypad.text_eq_iff] at hpieces
    obtain ⟨-, hpc, hindex, hregisters, hdelay, hsound, hused, hredraw, ⟨hwaiting, hkey⟩, hheld,
      -⟩ := hpieces
    have htoNat := (List.map_inj_right fun _ _ ↦ UInt8.toNat_inj.mp).mp hregisters
    exact ⟨hpc, Fin.val_inj.mp hindex, Vector.toList_inj.mp htoNat, UInt8.toNat_inj.mp hdelay,
      UInt8.toNat_inj.mp hsound, hused, hredraw, hwaiting, hkey, hheld⟩
  · intro h
    have hkeypad := Keypad.text_eq_iff.mpr h.held
    unfold dump
    rw [h.pc, h.index, h.registers, h.delay, h.sound, h.used, h.redraw, h.waiting, h.keyRegister,
      hkeypad]

end Machine

end ChipEight
