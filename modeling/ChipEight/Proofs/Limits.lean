import ChipEight.CallStack
import ChipEight.Keypad
import ChipEight.Memory

namespace ChipEight

theorem exists_of_bind {ε α β : Type} {r : Except ε α} {f : α → Except ε β} {b : β}
    (h : r >>= f = .ok b) : ∃ a, r = .ok a ∧ f a = .ok b := by
  cases r with
  | error e => cases h
  | ok a => exact ⟨a, rfl, h⟩

theorem error_of_bind {ε α β : Type} {r : Except ε α} {f : α → Except ε β} {e : ε}
    (h : r >>= f = .error e) : r = .error e ∨ ∃ a, r = .ok a ∧ f a = .error e := by
  cases r with
  | error e => cases h; exact .inl rfl
  | ok a => exact .inr ⟨a, rfl, h⟩

theorem mapError_ok {ε ε' α : Type} (f : ε → ε') (a : α) :
    (Except.ok a).mapError f = .ok a :=
  rfl

theorem exists_of_mapError {ε ε' α : Type} {r : Except ε α} {f : ε → ε'} {e' : ε'}
    (h : r.mapError f = .error e') : ∃ e, r = .error e ∧ e' = f e := by
  cases r with
  | error e => cases h; exact ⟨e, rfl, rfl⟩
  | ok a => cases h

theorem eq_of_mapError {ε ε' α : Type} {r : Except ε α} {f : ε → ε'} {a : α}
    (h : r.mapError f = .ok a) : r = .ok a := by
  cases r with
  | error e => cases h
  | ok a => cases h; rfl

namespace Memory

variable {size : Nat} (m : Memory size) {address length : Int}

theorem readByte_of_inBounds (h : InBounds size address 1) :
    m.readByte address = .ok (m.byteAt address.toNat) := by
  rw [readByte, check, if_pos h]
  rfl

theorem readByte_of_not_inBounds (h : ¬ InBounds size address 1) :
    m.readByte address = .error (.outOfBounds address 1) := by
  rw [readByte, check, if_neg h]
  rfl

theorem readWord_of_inBounds (h : InBounds size address 2) :
    m.readWord address =
      .ok (.ofBytes (m.byteAt address.toNat) (m.byteAt (address.toNat + 1))) := by
  rw [readWord, check, if_pos h]
  rfl

theorem readWord_of_not_inBounds (h : ¬ InBounds size address 2) :
    m.readWord address = .error (.outOfBounds address 2) := by
  rw [readWord, check, if_neg h]
  rfl

theorem readRange_of_inBounds (h : InBounds size address length) :
    m.readRange address length =
      .ok ((List.range length.toNat).map fun i ↦ m.byteAt (address.toNat + i)) := by
  rw [readRange, check, if_pos h]
  rfl

theorem readRange_of_not_inBounds (h : ¬ InBounds size address length) :
    m.readRange address length = .error (.outOfBounds address length) := by
  rw [readRange, check, if_neg h]
  rfl

theorem writeByte_of_inBounds (value : Int) (h : InBounds size address 1) :
    m.writeByte address value = .ok (m.splice address.toNat [UInt8.ofInt value]) := by
  rw [writeByte, check, if_pos h]
  rfl

theorem writeByte_of_not_inBounds (value : Int) (h : ¬ InBounds size address 1) :
    m.writeByte address value = .error (.outOfBounds address 1) := by
  rw [writeByte, check, if_neg h]
  rfl

theorem writeBytes_of_inBounds {data : List Byte} (h : InBounds size address data.length) :
    m.writeBytes address data = .ok (m.splice address.toNat data) := by
  rw [writeBytes, check, if_pos h]
  rfl

theorem writeBytes_of_not_inBounds {data : List Byte} (h : ¬ InBounds size address data.length) :
    m.writeBytes address data = .error (.outOfBounds address data.length) := by
  rw [writeBytes, check, if_neg h]
  rfl

/-- What is spliced in stands in its place, and all bytes outside it stay. -/
theorem byteAt_splice_add {a : Nat} {bs : List Byte} (h : a + bs.length ≤ size) (k : Nat) :
    (m.splice a bs).byteAt (a + k) = bs[k]?.getD (m.byteAt (a + k)) := by
  rw [byteAt_splice, Nat.add_sub_cancel_left, List.getD_eq_getElem?_getD]
  by_cases hk : k < bs.length
  · rw [if_pos (by omega), List.getElem?_eq_getElem hk]
    rfl
  · rw [if_neg (by omega), List.getElem?_eq_none (Nat.not_lt.mp hk)]
    rfl

theorem byteAt_splice_of_outside {a i : Nat} {bs : List Byte} (h : i < a ∨ a + bs.length ≤ i) :
    (m.splice a bs).byteAt i = m.byteAt i := by
  rw [byteAt_splice, if_neg (by omega)]

def IsByte (n : Int) : Prop :=
  0 ≤ n ∧ n < 256

instance (n : Int) : Decidable (IsByte n) :=
  inferInstanceAs (Decidable (_ ∧ _))

theorem mapM_byte?_of_forall {data : List Int} (h : ∀ d ∈ data, IsByte d) :
    data.mapM byte? = .ok (data.map UInt8.ofInt) := by
  induction data with
  | nil => rfl
  | cons d data ih =>
    have hd : byte? d = .ok (UInt8.ofInt d) := if_pos (h d (List.mem_cons_self ..))
    rw [List.mapM_cons, hd, ih fun e he ↦ h e (List.mem_cons_of_mem _ he)]
    rfl

theorem mapM_byte?_of_exists {data : List Int} (h : ∃ d ∈ data, ¬ IsByte d) :
    data.mapM byte? = .error .notAByte := by
  induction data with
  | nil => obtain ⟨d, hd, -⟩ := h; cases hd
  | cons d data ih =>
    rw [List.mapM_cons]
    by_cases hd : IsByte d
    · obtain ⟨e, he, hb⟩ := h
      rcases List.mem_cons.mp he with rfl | he
      · exact absurd hd hb
      · rw [ih ⟨e, he, hb⟩, show byte? d = .ok (UInt8.ofInt d) from if_pos hd]
        rfl
    · rw [show byte? d = .error .notAByte from if_neg hd]
      rfl

theorem writeRange_of_inBounds {data : List Int} (h : InBounds size address data.length)
    (hd : ∀ d ∈ data, IsByte d) :
    m.writeRange address data = .ok (m.splice address.toNat (data.map UInt8.ofInt)) := by
  rw [writeRange, check, if_pos h, mapM_byte?_of_forall hd]
  rfl

theorem writeRange_of_not_isByte {data : List Int} (h : InBounds size address data.length)
    (hd : ∃ d ∈ data, ¬ IsByte d) : m.writeRange address data = .error .notAByte := by
  rw [writeRange, check, if_pos h, mapM_byte?_of_exists hd]
  rfl

theorem writeRange_of_not_inBounds {data : List Int} (h : ¬ InBounds size address data.length) :
    m.writeRange address data = .error (.outOfBounds address data.length) := by
  rw [writeRange, check, if_neg h]
  rfl

theorem inBounds_natCast_iff (size a n : Nat) : InBounds size a n ↔ ¬ size < a + n := by
  simp only [InBounds]
  omega

end Memory

namespace CallStack

variable {α : Type} {capacity : Nat} {s : CallStack α capacity}

theorem push_of_lt (h : s.depth < capacity) (a : α) :
    ∃ t, s.push a = .ok t ∧ t.depth = s.depth + 1 :=
  ⟨_, dif_pos h, rfl⟩

theorem push_of_full (h : s.depth = capacity) (a : α) : s.push a = .error (.full capacity) :=
  dif_neg (by omega)

theorem pop_of_pos (h : 0 < s.depth) : ∃ a t, s.pop = .ok (a, t) ∧ t.depth + 1 = s.depth :=
  ⟨_, _, dif_pos h, Nat.sub_add_cancel h⟩

theorem pop_of_empty (h : s.depth = 0) : s.pop = .error .empty :=
  dif_neg (by omega)

end CallStack

namespace Keypad

theorem isHeld_natCast (p : Keypad) (k : Nibble) : p.isHeld k = .ok (p.held.get k) := by
  rw [isHeld, key?_eq_ok_iff.mpr rfl]
  rfl

theorem isHeld_emod (p : Keypad) (v : Nat) :
    p.isHeld ((v : Int) % 16) = .ok (p.held.get (Nibble.ofNat v)) :=
  p.isHeld_natCast (Nibble.ofNat v)

end Keypad

end ChipEight
