import ChipEight.Word

namespace ChipEight

structure Timer where
  count : Byte
  since : Int
  deriving DecidableEq

namespace Timer

def period : Int :=
  1000000000 / 60

def stopped (now : Int) : Timer :=
  ⟨0, now⟩

def start (count : Byte) (now : Int) : Timer :=
  ⟨count, now⟩

def Due (t : Timer) (now : Int) : Prop :=
  0 < t.count ∧ period ≤ now - t.since

instance (t : Timer) (now : Int) : Decidable (t.Due now) :=
  inferInstanceAs (Decidable (_ ∧ _))

/-- One poll takes off at most one, however late it comes. -/
def poll (t : Timer) (now : Int) : Timer :=
  if t.Due now then ⟨t.count - 1, now⟩ else t

theorem not_due_poll (t : Timer) (now : Int) : ¬ (t.poll now).Due now := by
  rw [poll]
  split
  · simp [Due, period]
  · assumption

def Expires (t : Timer) (now : Int) : Prop :=
  t.Due now ∧ t.count = 1

instance (t : Timer) (now : Int) : Decidable (t.Expires now) :=
  inferInstanceAs (Decidable (_ ∧ _))

end Timer

end ChipEight
