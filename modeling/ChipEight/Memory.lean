import ChipEight.Word
import ChipEight.Text.Numeral

namespace ChipEight

/-- A store of `size` bytes. Accesses take any integer as an address; nothing wraps around. -/
structure Memory (size : Nat) where
  bytes : Vector Byte size
  deriving DecidableEq

namespace Memory

inductive Fault
  | outOfBounds (address length : Int)
  | notAByte
  deriving DecidableEq

/-- The bounds a message names are those of the machine's memory, also for a store of another
size. -/
def Fault.message : Fault → String
  | .outOfBounds address length =>
    "Memory access out of bounds: 0x" ++ Text.hex 4 address ++ " (+" ++ Text.decimal length ++
      ") with size 0x" ++ Text.hex 4 4096
  | .notAByte => "bytes must be in range(0, 256)"

variable {size : Nat}

def zeroed (size : Nat) : Memory size :=
  ⟨Vector.replicate size 0⟩

def clear (_ : Memory size) : Memory size :=
  zeroed size

/-- The byte at an address, zero past the end. -/
def byteAt (m : Memory size) (a : Nat) : Byte :=
  m.bytes[a]?.getD 0

/-- Copies bytes to consecutive addresses from `a` on, as far as these exist. -/
def splice (m : Memory size) (a : Nat) : List Byte → Memory size
  | [] => m
  | b :: bs => splice ⟨m.bytes.setIfInBounds a b⟩ (a + 1) bs

theorem byteAt_zeroed (a : Nat) : (zeroed size).byteAt a = 0 := by
  simp only [byteAt, zeroed, Vector.getElem?_replicate]
  split <;> rfl

theorem byteAt_splice (m : Memory size) (a i : Nat) (bs : List Byte) :
    (m.splice a bs).byteAt i =
      if a ≤ i ∧ i < a + bs.length ∧ i < size then bs.getD (i - a) 0 else m.byteAt i := by
  induction bs generalizing m a with
  | nil =>
    rw [splice, if_neg (by simp only [List.length_nil]; omega)]
  | cons b bs ih =>
    rw [splice, ih]
    simp only [byteAt, Vector.getElem?_setIfInBounds, List.length_cons]
    by_cases h : a = i
    · subst h
      by_cases hs : a < size
      · simp [hs, show ¬ a + 1 ≤ a by omega]
      · simp [hs]
    · by_cases hi : a + 1 ≤ i
      · obtain ⟨d, rfl⟩ : ∃ d, i = a + 1 + d := ⟨i - (a + 1), by omega⟩
        have hd : a + 1 + d - a = d + 1 := by omega
        have hle : a ≤ a + 1 + d := by omega
        have hlt : a + 1 + d < a + (bs.length + 1) ↔ a + 1 + d < a + 1 + bs.length := by omega
        simp [h, hd, hle, hlt]
      · simp [h, hi, show ¬ a ≤ i by omega]

def InBounds (size : Nat) (address length : Int) : Prop :=
  0 ≤ address ∧ 0 ≤ length ∧ address + length ≤ size

instance (size : Nat) (address length : Int) : Decidable (InBounds size address length) :=
  inferInstanceAs (Decidable (_ ∧ _))

def check (size : Nat) (address length : Int) : Except Fault Unit :=
  if InBounds size address length then .ok () else .error (.outOfBounds address length)

def readByte (m : Memory size) (address : Int) : Except Fault Byte := do
  check size address 1
  return m.byteAt address.toNat

def readWord (m : Memory size) (address : Int) : Except Fault Word := do
  check size address 2
  return .ofBytes (m.byteAt address.toNat) (m.byteAt (address.toNat + 1))

def readRange (m : Memory size) (address length : Int) : Except Fault (List Byte) := do
  check size address length
  return (List.range length.toNat).map fun i ↦ m.byteAt (address.toNat + i)

/-- Writes the low eight bits of a value. -/
def writeByte (m : Memory size) (address value : Int) : Except Fault (Memory size) := do
  check size address 1
  return m.splice address.toNat [UInt8.ofInt value]

def writeBytes (m : Memory size) (address : Int) (data : List Byte) :
    Except Fault (Memory size) := do
  check size address data.length
  return m.splice address.toNat data

def byte? (n : Int) : Except Fault Byte :=
  if 0 ≤ n ∧ n < 256 then .ok (UInt8.ofInt n) else .error .notAByte

/-- Writes numbers that have to be bytes; an access out of bounds is reported first. -/
def writeRange (m : Memory size) (address : Int) (data : List Int) :
    Except Fault (Memory size) := do
  check size address data.length
  return m.splice address.toNat (← data.mapM byte?)

inductive Access
  | reset
  | writeByte (address value : Int)
  | writeRange (address : Int) (data : List Int)
  | readByte (address : Int)
  | readWord (address : Int)
  | readRange (address length : Int)

inductive Reading
  | nothing
  | byte (b : Byte)
  | word (w : Word)
  | bytes (bs : List Byte)
  deriving DecidableEq

def written (m : Memory size) (r : Except Fault (Memory size)) :
    Memory size × Except Fault Reading :=
  match r with
  | .ok m => (m, .ok .nothing)
  | .error e => (m, .error e)

def perform (m : Memory size) : Access → Memory size × Except Fault Reading
  | .reset => (m.clear, .ok .nothing)
  | .writeByte address value => m.written (m.writeByte address value)
  | .writeRange address data => m.written (m.writeRange address data)
  | .readByte address => (m, (m.readByte address).map .byte)
  | .readWord address => (m, (m.readWord address).map .word)
  | .readRange address length => (m, (m.readRange address length).map .bytes)

end Memory

end ChipEight
