import ChipEight.Proofs.Branching
import ChipEight.Proofs.Trace
import ChipEight.Proofs.WellFormed
import Mathlib.Algebra.Order.Ring.Abs

namespace ChipEight

namespace Machine

def target? (m : Machine) : Instruction → Option Nat
  | .address .jump nnn | .address .call nnn => some nnn
  | .address .jumpOffset nnn => some (nnn + (m.register 0).toNat)
  | _ => none

def branch? (random : Nat → Int) (m : Machine) (a : Action) : Option Nat :=
  (m.executed? random a).bind fun s ↦ m.target? s.instruction

def answer? (random : Nat → Int) (m : Machine) : Action → Option (Except Fault Bool)
  | .cycle t => some (m.cycle random t).answer
  | _ => none

def targets (random : Nat → Int) (m : Machine) (actions : List Action) : List Nat :=
  m.gather random (branch? random) actions

def answers (random : Nat → Int) (m : Machine) (actions : List Action) :
    List (Except Fault Bool) :=
  m.gather random (answer? random) actions

inductive Lands (i : Instruction) (m : Machine) : Nat → Prop
  | next : Lands i m m.pc
  | skip : Lands i m (m.pc + 2)
  | jump {p : Nat} (hp : p ∈ m.target? i) : Lands i m p
  | back {p : Nat} (hi : i = .plain .ret) (hp : p ∈ m.stack.used) : Lands i m p

structure Aligned (m : Machine) : Prop where
  pc : Even m.pc
  returns : ∀ a ∈ m.stack.used, Even a

variable {random : Nat → Int} {m n : Machine} {a : Action} {actions : List Action} {t : Moment}
  {i : Instruction} {notices : List Notice} {now : Int} {p : Nat}

theorem lands_of_goal (h : m.goal? i = some p) : Lands i m p := by
  have hnext (hi : some (if m.skips i then m.pc + 2 else m.pc) = some p) : Lands i m p := by
    cases hi
    split
    · exact .skip
    · exact .next
  cases i with
  | plain op =>
    cases op with
    | ret => exact .back rfl (List.mem_of_getLast? h)
    | clear => exact hnext h
  | address op nnn =>
    cases op with
    | jump | call | jumpOffset => exact .jump h
    | sys | setIndex => exact hnext h
  | _ => exact hnext h

theorem execute_lands (h : m.execute random now i = .ok (n, notices)) : Lands i m n.pc :=
  lands_of_goal (execute_goal h)

theorem Lands.even (h : Lands i m p) (hm : m.Aligned) (hi : ∀ q ∈ m.target? i, Even q) :
    Even p := by
  cases h with
  | next => exact hm.pc
  | skip => exact hm.pc.add even_two
  | jump hp => exact hi p hp
  | back _ hp => exact hm.returns p hp

theorem aligned_reset (m : Machine) (now : Int) : (m.reset now).Aligned where
  pc := show Even programStart by decide
  returns a ha := by
    have hs : (m.reset now).stack.used = [] := CallStack.used_zeroed
    rw [hs] at ha
    cases ha

theorem Aligned.advanced (h : m.Aligned) : m.advanced.Aligned :=
  ⟨h.pc.add even_two, h.returns⟩

theorem branch_of_begins (h : m.Begins i) (ho : m.obstacle i = none) (random : Nat → Int)
    (t : Moment) : m.branch? random (.cycle t) = m.target? i := by
  rw [branch?, executed_of_begins h ho t]
  rfl

theorem Aligned.cycle (h : m.Aligned) (ht : ∀ p ∈ m.branch? random (.cycle t), Even p) :
    (m.cycle random t).machine.Aligned := by
  have hc := m.cycle_course random t
  generalize m.cycle random t = o at hc ⊢
  cases hc with
  | wait | unfetched => exact ⟨h.pc, h.returns⟩
  | crash => exact h.advanced
  | step n notices hw hp ho he hf =>
    rw [branch_of_begins ⟨hw, hp, rfl⟩ ho] at ht
    have hpc : Even n.pc := (execute_lands he).even h.advanced ht
    refine ⟨hpc.mod_even (by decide), fun a ha ↦ ?_⟩
    rcases used_of_execute he hf a ha with ha | rfl
    · exact h.returns a ha
    · exact h.advanced.pc

theorem Aligned.outside (h : m.Aligned) (hu : Untouched m n) : n.Aligned :=
  ⟨hu.pc ▸ h.pc, hu.stack ▸ h.returns⟩

theorem Aligned.perform (ht : ∀ p ∈ m.branch? random a, Even p) (h : m.Aligned) :
    (m.perform random a).machine.Aligned := by
  cases a with
  | cycle t => exact h.cycle ht
  | reset now => exact m.aligned_reset now
  | poll | press | release | load | poke | sprite =>
    exact h.outside (perform_untouched random m trivial)

theorem pc_le_of_perform (ha : ∀ r ∈ m.answer? random a, r.isOk) (h : m.pc ≤ 4095) :
    (m.perform random a).machine.pc ≤ 4095 := by
  by_cases hout : a.Outside
  · rw [(perform_untouched random m hout).pc]
    exact h
  · cases a with
    | cycle t =>
      have hr := ha _ rfl
      rw [perform]
      have hc := m.cycle_course random t
      generalize m.cycle random t = o at hr hc ⊢
      cases hc with
      | wait => exact h
      | unfetched | crash => cases hr
      | step n => exact Nat.le_of_lt_succ (Nat.mod_lt n.pc (by decide))
    | reset now => exact show programStart ≤ 4095 by decide
    | _ => exact absurd trivial hout

theorem address_of_fetch {c : Int} (hp : m.pc ≤ 4095)
    (h : (m.cycle random t).answer = .error (.crash ⟨.fetch, c⟩)) : c = 0xFFF := by
  obtain ⟨hw, hlt⟩ := fails_fetch_iff.mp ⟨c, h⟩
  rw [cycle_of_lt hw hlt] at h
  cases h
  omega

/-- As long as no cycle fails, a program all of whose jumps and calls name even addresses runs
on even addresses, and each instruction can be fetched. Other programs fail at the last byte of
the memory only. -/
theorem aligned_programs_fetch (random : Nat → Int) (m : Machine) (now : Int)
    {actions : List Action} (hok : ∀ r ∈ (m.reset now).answers random actions, r.isOk) :
    let r := (m.reset now).run random actions
    ((∀ p ∈ (m.reset now).targets random actions, Even p) →
      Even r.pc ∧ (∀ a ∈ r.stack.used, Even a) ∧ ∀ t, ¬ (r.cycle random t).FailsWith .fetch) ∧
    ∀ t c, (r.cycle random t).answer = .error (.crash ⟨.fetch, c⟩) → c = 0xFFF := by
  intro r
  have hstart : (m.reset now).pc ≤ 4095 := show programStart ≤ 4095 by decide
  have hp : r.pc ≤ 4095 :=
    run_preserves_of_gather (P := fun m ↦ m.pc ≤ 4095) (fun _ _ ↦ pc_le_of_perform) hok hstart
  constructor
  · intro ht
    have hr : r.Aligned :=
      run_preserves_of_gather (fun _ _ ↦ Aligned.perform) ht (m.aligned_reset now)
    refine ⟨hr.pc, hr.returns, fun t hf ↦ ?_⟩
    obtain ⟨-, hlt⟩ := fails_fetch_iff.mp hf
    have hpc := Nat.even_iff.mp hr.pc
    omega
  · intro t c h
    exact address_of_fetch hp h

/-- One program calls the last two bytes of the memory, the other jumps to the last one. -/
theorem aligned_programs_fetch_last_address :
    let even : List Action := [.load [0x2F, 0xFE], .cycle (.still 0)]
    let odd : List Action := [.load [0x1F, 0xFF], .cycle (.still 0)]
    (blank.reset 0).targets (fun _ ↦ 0) even = [0xFFE] ∧
      ((blank.reset 0).run (fun _ ↦ 0) even).stack.used = [0x202] ∧
      (∀ t, ¬ (((blank.reset 0).run (fun _ ↦ 0) even).cycle (fun _ ↦ 0) t).FailsWith .fetch) ∧
      ∃ c, (((blank.reset 0).run (fun _ ↦ 0) odd).cycle (fun _ ↦ 0) (.still 0)).answer =
        .error (.crash ⟨.fetch, c⟩) ∧ c = 0xFFF := by
  intro even odd
  obtain ⟨heven, htargets, hused⟩ :
      (∀ r ∈ (blank.reset 0).answers (fun _ ↦ 0) even, r.isOk) ∧
        (blank.reset 0).targets (fun _ ↦ 0) even = [0xFFE] ∧
        ((blank.reset 0).run (fun _ ↦ 0) even).stack.used = [0x202] := by
    decide +kernel
  obtain ⟨hodd, hfetch⟩ : (∀ r ∈ (blank.reset 0).answers (fun _ ↦ 0) odd, r.isOk) ∧
      (((blank.reset 0).run (fun _ ↦ 0) odd).cycle (fun _ ↦ 0) (.still 0)).answer =
        .error (.crash ⟨.fetch, 0xFFF⟩) := by
    decide +kernel
  have haligned := (aligned_programs_fetch (fun _ ↦ 0) blank 0 heven).1
  have hlast := (aligned_programs_fetch (fun _ ↦ 0) blank 0 hodd).2
  rw [htargets] at haligned
  obtain ⟨-, -, hfetches⟩ := haligned (by decide)
  exact ⟨htargets, hused, hfetches, 0xFFF, hfetch, hlast _ _ hfetch⟩

end Machine

end ChipEight
