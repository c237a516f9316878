import ChipEight.Text.Numeral
import Mathlib.Algebra.Group.Nat.Defs

namespace ChipEight.Text

/-- The value of a digit of a base up to sixteen, in small or capital letters. -/
def digitValue (c : Char) : Nat :=
  if c.isDigit then c.toNat - '0'.toNat else c.toLower.toNat - 'a'.toNat + 10

def valueOf (base : Nat) (cs : List Char) : Nat :=
  cs.foldl (fun n c ↦ base * n + digitValue c) 0

variable {base width n : Nat} {c : Char}

theorem digitValue_digitChar {d : Nat} (h : d < 16) : digitValue d.digitChar = d := by
  have hd : ∀ d : Fin 16, digitValue (Nat.digitChar d) = d := by decide
  exact hd ⟨d, h⟩

theorem digitValue_toUpper {d : Nat} (h : d < 16) : digitValue d.digitChar.toUpper = d := by
  have hd : ∀ d : Fin 16, digitValue (Nat.digitChar d).toUpper = d := by decide
  exact hd ⟨d, h⟩

theorem valueOf_snoc (base : Nat) (cs : List Char) (c : Char) :
    valueOf base (cs ++ [c]) = base * valueOf base cs + digitValue c := by
  simp only [valueOf, List.foldl_append, List.foldl_cons, List.foldl_nil]

theorem valueOf_singleton (base : Nat) (c : Char) : valueOf base [c] = digitValue c := by
  simp only [valueOf, List.foldl_cons, List.foldl_nil, Nat.mul_zero, Nat.zero_add]

theorem valueOf_toDigits (hb : 1 < base) (hb' : base ≤ 16) (n : Nat) :
    valueOf base (Nat.toDigits base n) = n := by
  induction n using Nat.strongRecOn with
  | ind n ih =>
    rw [Nat.toDigits_eq_if hb]
    split
    · rename_i h
      rw [valueOf_singleton, digitValue_digitChar (Nat.lt_of_lt_of_le h hb')]
    · rename_i h
      have hlt : n / base < n := Nat.div_lt_self (by omega) hb
      have hd : n % base < 16 := Nat.lt_of_lt_of_le (Nat.mod_lt n (by omega)) hb'
      rw [valueOf_snoc, ih _ hlt, digitValue_digitChar hd, Nat.div_add_mod]

theorem valueOf_replicate_append (k : Nat) (cs : List Char) :
    valueOf base (List.replicate k '0' ++ cs) = valueOf base cs := by
  induction k with
  | zero => rfl
  | succ k ih =>
    rw [List.replicate_succ, List.cons_append]
    exact ih

theorem numeral_natCast (base width n : Nat) :
    numeral base width n = (Nat.toDigits base n).leftpad width '0' :=
  if_neg (by omega)

theorem valueOf_numeral (hb : 1 < base) (hb' : base ≤ 16) (width n : Nat) :
    valueOf base (numeral base width n) = n := by
  rw [numeral_natCast, List.leftpad, valueOf_replicate_append, valueOf_toDigits hb hb']

theorem length_numeral (hb : 1 < base) (hw : 0 < width) (h : n < base ^ width) :
    (numeral base width n).length = width := by
  rw [numeral_natCast, List.length_leftpad]
  exact Nat.max_eq_left ((Nat.length_toDigits_le_iff hb hw).mpr h)

theorem exists_digit_of_mem_toDigits (hb : 1 < base) (h : c ∈ Nat.toDigits base n) :
    ∃ d < base, c = d.digitChar := by
  induction n using Nat.strongRecOn with
  | ind n ih =>
    rw [Nat.toDigits_eq_if hb] at h
    split at h
    · rename_i hn
      exact ⟨n, hn, List.mem_singleton.mp h⟩
    · rename_i hn
      rcases List.mem_append.mp h with h | h
      · exact ih _ (Nat.div_lt_self (by omega) hb) h
      · exact ⟨n % base, Nat.mod_lt n (by omega), List.mem_singleton.mp h⟩

theorem exists_digit_of_mem_numeral (hb : 1 < base) (h : c ∈ numeral base width n) :
    ∃ d < base, c = d.digitChar := by
  rw [numeral_natCast, List.leftpad] at h
  rcases List.mem_append.mp h with h | h
  · exact ⟨0, by omega, (List.mem_replicate.mp h).2⟩
  · exact exists_digit_of_mem_toDigits hb h

theorem isDigit_of_mem_numeral (h : c ∈ numeral 10 width n) : c.isDigit := by
  obtain ⟨d, hd, rfl⟩ := exists_digit_of_mem_numeral (by decide) h
  have hall : ∀ d : Fin 10, (Nat.digitChar d).isDigit := by decide
  exact hall ⟨d, hd⟩

theorem numeral_ne_nil (base width n : Nat) : numeral base width n ≠ [] := by
  rw [numeral_natCast, List.leftpad]
  exact List.append_ne_nil_of_right_ne_nil _ Nat.toDigits_ne_nil

theorem not_mem_numeral (hb : 1 < base) (hb' : base ≤ 16)
    (hc : ∀ d : Fin 16, c ≠ Nat.digitChar d) : c ∉ numeral base width n := by
  intro h
  obtain ⟨d, hd, rfl⟩ := exists_digit_of_mem_numeral hb h
  exact hc ⟨d, Nat.lt_of_lt_of_le hd hb'⟩ rfl

theorem toList_decimal (n : Nat) : (decimal n).toList = numeral 10 0 n :=
  String.toList_ofList

theorem not_mem_decimal (hc : ∀ d : Fin 16, c ≠ Nat.digitChar d) (n : Nat) :
    c ∉ (decimal n).toList := by
  rw [toList_decimal]
  exact not_mem_numeral (by decide) (by decide) hc

theorem not_mem_hex (hc : ∀ d : Fin 16, c ≠ Nat.digitChar d) (width n : Nat) :
    c ∉ (hex width n).toList := by
  rw [hex, String.toList_ofList]
  exact not_mem_numeral (by decide) (by decide) hc

theorem toList_hexCapital {d : Nat} (h : d < 16) :
    (hexCapital d).toList = [d.digitChar.toUpper] := by
  rw [hexCapital, String.toList_ofList, numeral_natCast, Nat.toDigits_of_lt_base h]
  rfl

theorem valueOf_decimal (n : Nat) : valueOf 10 (decimal n).toList = n := by
  rw [toList_decimal, valueOf_numeral (by decide) (by decide)]

theorem valueOf_hex (width n : Nat) : valueOf 16 (hex width n).toList = n := by
  rw [hex, String.toList_ofList, valueOf_numeral (by decide) (by decide)]

theorem valueOf_hexCapital (d : Fin 16) : valueOf 16 (hexCapital d).toList = d := by
  rw [toList_hexCapital d.isLt, valueOf_singleton, digitValue_toUpper d.isLt]

theorem decimal_inj {a b : Nat} : decimal a = decimal b ↔ a = b := by
  refine ⟨fun h ↦ ?_, fun h ↦ h ▸ rfl⟩
  rw [← valueOf_decimal a, ← valueOf_decimal b, h]

theorem hex_inj {a b : Nat} : hex width a = hex width b ↔ a = b := by
  refine ⟨fun h ↦ ?_, fun h ↦ h ▸ rfl⟩
  rw [← valueOf_hex width a, ← valueOf_hex width b, h]

theorem hexCapital_inj {a b : Fin 16} : hexCapital a = hexCapital b ↔ a = b := by
  refine ⟨fun h ↦ ?_, fun h ↦ h ▸ rfl⟩
  rw [Fin.ext_iff, ← valueOf_hexCapital a, ← valueOf_hexCapital b, h]

end ChipEight.Text
