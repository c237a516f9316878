import ChipEight.Machine.Run
import ChipEight.Proofs.Limits

namespace ChipEight

namespace Word

variable {ws : List Word}

def high (w : Word) : Byte :=
  .ofNat (w.toNat / 256)

def bytes (ws : List Word) : List Byte :=
  ws.flatMap fun w ↦ [w.high, w.nn]

theorem ofBytes_high_nn (w : Word) : ofBytes w.high w.nn = w := by
  have := w.toNat_lt
  apply UInt16.toNat_inj.mp
  simp only [toNat_ofBytes, high, nn, UInt8.toNat_ofNat']
  omega

theorem length_bytes (ws : List Word) : (bytes ws).length = 2 * ws.length := by
  induction ws with
  | nil => rfl
  | cons w ws ih =>
    simp only [bytes, List.flatMap_cons, List.length_append, List.length_cons] at ih ⊢
    simp only [ih, List.length_nil]
    omega

theorem getElem?_bytes (ws : List Word) (i : Nat) :
    (bytes ws)[2 * i]? = ws[i]?.map high ∧ (bytes ws)[2 * i + 1]? = ws[i]?.map nn := by
  induction ws generalizing i with
  | nil => exact ⟨rfl, rfl⟩
  | cons w ws ih =>
    cases i with
    | zero => exact ⟨rfl, rfl⟩
    | succ i => exact ih i

end Word

namespace Memory

variable {size a : Nat} {m : Memory size} {bs : List Byte}

theorem readWord_natCast (h : a + 2 ≤ size) :
    m.readWord a = .ok (.ofBytes (m.byteAt a) (m.byteAt (a + 1))) :=
  m.readWord_of_inBounds ((inBounds_natCast_iff size a 2).mpr (by omega))

theorem readWord_natCast_of_lt (h : size < a + 2) : m.readWord a = .error (.outOfBounds a 2) :=
  m.readWord_of_not_inBounds (mt (inBounds_natCast_iff size a 2).mp (by omega))

theorem readRange_of_byteAt (h : a + bs.length ≤ size)
    (hb : ∀ k b, bs[k]? = some b → m.byteAt (a + k) = b) : m.readRange a bs.length = .ok bs := by
  have hin : InBounds size a bs.length := (inBounds_natCast_iff size a bs.length).mpr (by omega)
  rw [m.readRange_of_inBounds hin]
  refine congrArg Except.ok (List.ext_getElem (by simp) ?_)
  intro k hk hk'
  simp only [List.getElem_map, List.getElem_range, Int.toNat_natCast]
  exact hb k _ (List.getElem?_eq_getElem hk')

end Memory

namespace Machine

variable {random : Nat → Int} {m : Machine} {rom : List Byte} {ws : List Word}

theorem perform_load_of_le (h : rom.length ≤ 3584) :
    m.perform random (.load rom) =
      ⟨{ m with memory := m.memory.splice programStart rom }, [], .ok none⟩ := by
  have hin := (Memory.inBounds_natCast_iff 4096 programStart rom.length).mpr
    (by rw [programStart]; omega)
  rw [perform, load, m.memory.writeBytes_of_inBounds hin]
  rfl

theorem perform_load_of_lt (h : 3584 < rom.length) :
    m.perform random (.load rom) =
      ⟨m, [], .error (.crash ⟨.romTooLarge, programStart + rom.length⟩)⟩ := by
  have hin := mt (Memory.inBounds_natCast_iff 4096 programStart rom.length).mp
    (by rw [programStart]; omega)
  rw [perform, load, m.memory.writeBytes_of_not_inBounds hin]
  rfl

theorem answer_load {e : Fault} : (m.perform random (.load rom)).answer = .error e ↔
    3584 < rom.length ∧ e = .crash ⟨.romTooLarge, programStart + rom.length⟩ := by
  rcases Nat.lt_or_ge 3584 rom.length with h | h
  · rw [perform_load_of_lt h, and_iff_right h, Except.error.injEq, eq_comm]
  · rw [perform_load_of_le h]
    exact iff_of_false (by simp) fun he ↦ absurd he.1 (Nat.not_lt.mpr h)

theorem byteAt_fresh (start : Int) {i : Nat} (h : glyphBase + glyphs.length ≤ i) :
    (fresh start).memory.byteAt i = 0 :=
  (Memory.byteAt_splice_of_outside _ (.inr h)).trans (Memory.byteAt_zeroed i)

def wordMemory (start : Int) (ws : List Word) : Memory 4096 :=
  (fresh start).memory.splice programStart (Word.bytes ws)

theorem byteAt_wordMemory (start : Int) (h : ws.length ≤ 1792) (i : Nat) :
    (wordMemory start ws).byteAt (0x200 + 2 * i) = (ws[i]?.map Word.high).getD 0 ∧
      (wordMemory start ws).byteAt (0x201 + 2 * i) = (ws[i]?.map Word.nn).getD 0 := by
  have hlength := Word.length_bytes ws
  have hbyte (k : Nat) :
      (wordMemory start ws).byteAt (0x200 + k) = (Word.bytes ws)[k]?.getD 0 := by
    have hk : glyphBase + glyphs.length ≤ 0x200 + k := by
      simp only [glyphBase, glyphs, List.length_cons, List.length_nil]
      omega
    rw [wordMemory, programStart, Memory.byteAt_splice_add _ (by omega), byteAt_fresh start hk]
  obtain ⟨heven, hodd⟩ := Word.getElem?_bytes ws i
  rw [hbyte, heven, show 0x201 + 2 * i = 0x200 + (2 * i + 1) by omega, hbyte, hodd]
  exact ⟨rfl, rfl⟩

theorem readWord_even (start : Int) (h : ws.length ≤ 1792) {i : Nat} {w : Word}
    (hw : ws[i]? = some w) : (wordMemory start ws).readWord (0x200 + 2 * i : Nat) = .ok w := by
  obtain ⟨hi, -⟩ := List.getElem?_eq_some_iff.mp hw
  obtain ⟨hhigh, hlow⟩ := byteAt_wordMemory start h i
  rw [Memory.readWord_natCast (by omega), Nat.add_right_comm, hhigh, hlow, hw]
  exact congrArg Except.ok w.ofBytes_high_nn

theorem readWord_odd (start : Int) (h : ws.length ≤ 1792) {i : Nat} {w : Word}
    (hw : ws[i]? = some w) : (wordMemory start ws).readWord (0x201 + 2 * i : Nat) =
      if i < 1791 then .ok (.ofBytes w.nn ((ws[i + 1]?.map Word.high).getD 0))
      else .error (.outOfBounds (0x201 + 2 * i : Nat) 2) := by
  obtain ⟨-, hlow⟩ := byteAt_wordMemory start h i
  obtain ⟨hhigh, -⟩ := byteAt_wordMemory start h (i + 1)
  split
  · rw [Memory.readWord_natCast (by omega), hlow, hw,
      show 0x201 + 2 * i + 1 = 0x200 + 2 * (i + 1) by omega, hhigh]
    rfl
  · rw [Memory.readWord_natCast_of_lt (by omega)]

theorem length_glyphs : glyphs.length = 80 :=
  rfl

theorem byteAt_glyphs (start : Int) (ws : List Word) {k : Nat} {b : Byte}
    (hk : glyphs[k]? = some b) : (wordMemory start ws).byteAt (0x50 + k) = b := by
  obtain ⟨hlt, -⟩ := List.getElem?_eq_some_iff.mp hk
  have hout : 0x50 + k < programStart := by
    rw [length_glyphs] at hlt
    rw [programStart]
    omega
  rw [wordMemory, Memory.byteAt_splice_of_outside _ (.inl hout)]
  exact (Memory.byteAt_splice_add _ (by decide) k).trans (by rw [hk, Option.getD_some])

/-- What is loaded can be read back, as bytes or as words, and nothing else changes. A program that
does not fit is refused and leaves the machine as it was. -/
theorem load_round_trip (random : Nat → Int) (m : Machine) (rom : List Byte) :
    let o := m.perform random (.load rom)
    (∀ e, o.answer = .error e ↔
      3584 < rom.length ∧ e = .crash ⟨.romTooLarge, 0x200 + rom.length⟩) ∧
    (3584 < rom.length → o.machine = m) ∧
    (rom.length ≤ 3584 →
      o.machine = { m with memory := o.machine.memory } ∧
      o.machine.memory.readRange 0x200 rom.length = .ok rom ∧
      ∀ a, a < 0x200 ∨ 0x200 + rom.length ≤ a →
        o.machine.memory.byteAt a = m.memory.byteAt a) ∧
    o.notices = [] ∧
    ∀ (start : Int) (ws : List Word), ws.length ≤ 1792 →
      let p := (fresh start).perform random (.load (Word.bytes ws))
      let memory := p.machine.memory
      p.answer = .ok none ∧
      (∀ i w, ws[i]? = some w → memory.readWord (0x200 + 2 * i : Nat) = .ok w) ∧
      (∀ i w, ws[i]? = some w → memory.readWord (0x201 + 2 * i : Nat) =
        if i < 1791 then .ok (.ofBytes w.nn ((ws[i + 1]?.map Word.high).getD 0))
        else .error (.outOfBounds (0x201 + 2 * i : Nat) 2)) ∧
      glyphs.length = 80 ∧ memory.readRange 0x50 80 = .ok glyphs ∧
      ∀ k b, glyphs[k]? = some b → memory.byteAt (0x50 + k) = b := by
  intro o
  have hwords : ∀ (start : Int) (ws : List Word), ws.length ≤ 1792 →
      (fresh start).perform random (.load (Word.bytes ws)) =
        ⟨{ fresh start with memory := wordMemory start ws }, [], .ok none⟩ := by
    intro start ws h
    exact perform_load_of_le (by rw [Word.length_bytes]; omega)
  refine ⟨fun e ↦ answer_load, ?_, ?_, ?_, ?_⟩
  · intro h
    exact congrArg Outcome.machine (perform_load_of_lt h)
  · intro h
    have ho : o = _ := perform_load_of_le h
    rw [ho]
    refine ⟨rfl, ?_, fun a ↦ m.memory.byteAt_splice_of_outside⟩
    have hfit : programStart + rom.length ≤ 4096 := by rw [programStart]; omega
    apply Memory.readRange_of_byteAt hfit
    intro k b hk
    rw [Memory.byteAt_splice_add _ hfit, hk, Option.getD_some]
  · rcases Nat.lt_or_ge 3584 rom.length with h | h
    · exact congrArg Outcome.notices (perform_load_of_lt h)
    · exact congrArg Outcome.notices (perform_load_of_le h)
  · intro start ws h p memory
    have hp : p = _ := hwords start ws h
    have hmemory : memory = wordMemory start ws := congrArg (·.machine.memory) hp
    rw [hmemory]
    refine ⟨congrArg Outcome.answer hp, fun _ _ ↦ readWord_even start h,
      fun _ _ ↦ readWord_odd start h, length_glyphs, ?_, fun _ _ ↦ byteAt_glyphs start ws⟩
    exact Memory.readRange_of_byteAt (by decide) fun k b ↦ byteAt_glyphs start ws

/-- The longest program ends with the last word of memory. -/
theorem load_round_trip_full :
    let ws := List.replicate 1791 0x00E0 ++ [0x1FFE]
    let p := (fresh 0).perform (fun _ ↦ 0) (.load (Word.bytes ws))
    ws.length ≤ 1792 ∧ p.answer = .ok none ∧ ws[1791]? = some 0x1FFE ∧
      p.machine.memory.readWord 0xFFE = .ok 0x1FFE ∧
      p.machine.memory.readWord 0xFFD = .ok 0xE01F ∧
      p.machine.memory.readWord 0xFFF = .error (.outOfBounds 0xFFF 2) := by
  intro ws p
  have hlength : ws.length = 1792 := by
    rw [List.length_append, List.length_replicate, List.length_singleton]
  have hlast : ws[1791]? = some 0x1FFE := by
    rw [List.getElem?_append_right (Nat.le_of_eq List.length_replicate), List.length_replicate]
    rfl
  have hbefore : ws[1790]? = some 0x00E0 := by
    rw [List.getElem?_append_left (by rw [List.length_replicate]; decide), List.getElem?_replicate,
      if_pos (by decide)]
  clear_value ws
  obtain ⟨-, -, -, -, hwords⟩ := load_round_trip (fun _ ↦ 0) (fresh 0) []
  obtain ⟨hanswer, heven, hodd, -⟩ := hwords 0 ws (Nat.le_of_eq hlength)
  refine ⟨Nat.le_of_eq hlength, hanswer, hlast, heven 1791 _ hlast, ?_, hodd 1791 _ hlast⟩
  have hread := hodd 1790 _ hbefore
  rw [if_pos (by decide), hlast] at hread
  exact hread

end Machine

end ChipEight
