namespace ChipEight

namespace Size

inductive Fault
  | noIndex
  | negative
  | exhausted
  deriving DecidableEq

def Fault.message : Fault → String
  | .noIndex => "cannot fit 'int' into an index-sized integer"
  | .negative => "negative count"
  | .exhausted => ""

def IsIndex (n : Int) : Prop :=
  -0x8000000000000000 ≤ n ∧ n < 0x8000000000000000

instance (n : Int) : Decidable (IsIndex n) :=
  inferInstanceAs (Decidable (_ ∧ _))

/-- The size of a store of bytes, where `available` of them can be had. -/
def ofBytes (available : Nat) (n : Int) : Except Fault Nat :=
  if ¬ IsIndex n then .error .noIndex
  else if n < 0 then .error .negative
  else if n < available then .ok n.toNat
  else .error .exhausted

/-- The size of a store of slots with eight bytes each; a negative one is taken for zero. -/
def ofSlots (available : Nat) (n : Int) : Except Fault Nat :=
  if ¬ IsIndex n then .error .noIndex
  else if 8 * n < available then .ok n.toNat
  else .error .exhausted

end Size

end ChipEight
