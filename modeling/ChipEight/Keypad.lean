import ChipEight.Text.Numeral
import ChipEight.Word

namespace ChipEight

structure Keypad where
  held : Vector Bool 16
  lastKey : Nibble
  deriving DecidableEq

namespace Keypad

structure Fault where
  key : Int
  deriving DecidableEq

def Fault.message (e : Fault) : String :=
  "The CHIP-8 keypad has 16 keys, got key " ++ Text.decimal e.key

def idle : Keypad :=
  ⟨Vector.replicate 16 false, 0⟩

def clear (_ : Keypad) : Keypad :=
  idle

def key? (k : Int) : Except Fault Nibble :=
  if h : 0 ≤ k ∧ k.toNat < 16 then .ok ⟨k.toNat, h.2⟩ else .error ⟨k⟩

theorem key?_eq_ok_iff {k : Int} {n : Nibble} : key? k = .ok n ↔ k = n.val := by
  simp only [key?]
  split
  · simp [Fin.ext_iff]; omega
  · simp; omega

def press (p : Keypad) (k : Int) : Except Fault Keypad := do
  let k ← key? k
  return ⟨p.held.setIfInBounds k true, k⟩

/-- The last key stays the one that was pressed last. -/
def release (p : Keypad) (k : Int) : Except Fault Keypad := do
  let k ← key? k
  return ⟨p.held.setIfInBounds k false, p.lastKey⟩

def isHeld (p : Keypad) (k : Int) : Except Fault Bool := do
  let k ← key? k
  return p.held.get k

def layout : List (List Nibble) :=
  [[0x1, 0x2, 0x3, 0xC],
    [0x4, 0x5, 0x6, 0xD],
    [0x7, 0x8, 0x9, 0xE],
    [0xA, 0x0, 0xB, 0xF]]

def text (p : Keypad) : String :=
  "\n".intercalate (layout.map fun row ↦
    " ".intercalate (row.map fun k ↦ if p.held.get k then "1" else "0"))

end Keypad

end ChipEight
