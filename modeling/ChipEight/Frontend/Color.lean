import ChipEight.Text.Numeral

namespace ChipEight

structure Shade where
  red : UInt8
  green : UInt8
  blue : UInt8
  deriving DecidableEq

structure Color extends Shade where
  alpha : UInt8
  deriving DecidableEq

namespace Color

inductive Fault
  | invalid
  | arity (count : Nat)
  deriving DecidableEq

def Fault.message : Fault → String
  | .invalid => "invalid color argument"
  | .arity 0 => "function takes at least 1 argument (0 given)"
  | .arity n => "function takes at most 4 arguments (" ++ Text.decimal n ++ " given)"

def component (n : Int) : Except Fault UInt8 :=
  if 0 ≤ n ∧ n < 256 then .ok (UInt8.ofInt n) else .error .invalid

/-- A number of 32 bits holds a color with red in its high byte and alpha in its low one. -/
def ofPacked (n : Int) : Except Fault Color :=
  if 0 ≤ n ∧ n < 0x100000000 then
    .ok ⟨⟨UInt8.ofInt (n / 0x1000000), UInt8.ofInt (n / 0x10000), UInt8.ofInt (n / 0x100)⟩,
      UInt8.ofInt n⟩
  else .error .invalid

def ofNumbers : List Int → Except Fault Color
  | [] => .error (.arity 0)
  | [n] => ofPacked n
  | [_, _] => .error .invalid
  | [r, g, b] => do return ⟨⟨← component r, ← component g, ← component b⟩, 255⟩
  | [r, g, b, a] => do return ⟨⟨← component r, ← component g, ← component b⟩, ← component a⟩
  | ns => .error (.arity ns.length)

end Color

end ChipEight
