import ChipEight.Text.Numeral

namespace ChipEight

/-- A stack of return addresses in a fixed number of slots. The slots above `depth` keep what was
left there. -/
structure CallStack (α : Type) (capacity : Nat) where
  slots : Vector α capacity
  depth : Nat
  depth_le : depth ≤ capacity

namespace CallStack

inductive Fault
  | full (capacity : Nat)
  | empty
  deriving DecidableEq

def Fault.message : Fault → String
  | .full capacity =>
    "The CHIP-8 stack can contain at most " ++ Text.decimal capacity ++
      " addresses. Limit exceeded"
  | .empty => "Cannot pop from an empty CHIP-8 stack"

variable {α : Type} {capacity : Nat}

def zeroed [OfNat α 0] (capacity : Nat) : CallStack α capacity :=
  ⟨Vector.replicate capacity 0, 0, Nat.zero_le _⟩

def clear [OfNat α 0] (_ : CallStack α capacity) : CallStack α capacity :=
  zeroed capacity

def used (s : CallStack α capacity) : List α :=
  s.slots.toList.take s.depth

def push (s : CallStack α capacity) (a : α) : Except Fault (CallStack α capacity) :=
  if h : s.depth < capacity then .ok ⟨s.slots.set s.depth a, s.depth + 1, h⟩
  else .error (.full capacity)

def pop (s : CallStack α capacity) : Except Fault (α × CallStack α capacity) :=
  if h : 0 < s.depth then
    have hlt : s.depth - 1 < capacity := by have := s.depth_le; omega
    .ok (s.slots[s.depth - 1], ⟨s.slots, s.depth - 1, Nat.le_of_lt hlt⟩)
  else .error .empty

theorem used_zeroed [OfNat α 0] : (zeroed capacity : CallStack α capacity).used = [] := by
  simp [used, zeroed]

theorem length_used (s : CallStack α capacity) : s.used.length = s.depth := by
  simp [used, s.depth_le]

theorem used_of_push {s t : CallStack α capacity} {a : α} (h : s.push a = .ok t) :
    t.used = s.used ++ [a] := by
  simp only [push] at h
  split at h
  · cases h
    rw [used, used, List.take_add_one, Vector.toList_set, List.take_set_of_le (Nat.le_refl _)]
    simp [*]
  · cases h

theorem used_of_pop {s t : CallStack α capacity} {a : α} (h : s.pop = .ok (a, t)) :
    s.used = t.used ++ [a] := by
  simp only [pop] at h
  split at h
  · cases h
    have := s.depth_le
    simp only [used]
    conv => lhs; rw [show s.depth = s.depth - 1 + 1 by omega]
    rw [List.take_add_one]
    simp [show s.depth - 1 < capacity by omega]
  · cases h

inductive Operation (α : Type)
  | reset
  | push (a : α)
  | pop

def perform [OfNat α 0] (s : CallStack α capacity) :
    Operation α → CallStack α capacity × Except Fault (Option α)
  | .reset => (s.clear, .ok none)
  | .push a =>
    match s.push a with
    | .ok s => (s, .ok none)
    | .error e => (s, .error e)
  | .pop =>
    match s.pop with
    | .ok (a, s) => (s, .ok (some a))
    | .error e => (s, .error e)

end CallStack

end ChipEight
