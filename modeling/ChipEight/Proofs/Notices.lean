import ChipEight.Proofs.Trace

namespace ChipEight

def Step.notices (s : Step) : List Notice :=
  match s.instruction with
  | .address .sys nnn => [.ignoredCall s.address nnn]
  | .register .awaitKey _ => [.awaitingKey s.address]
  | .unknown word => [.unknownWord word s.address]
  | _ => []

theorem Step.beepAt_of_mem_notices {s : Step} {note : Notice} (h : note ∈ s.notices) :
    note.beepAt? = none := by
  unfold Step.notices at h
  split at h
  · cases List.mem_singleton.mp h
    rfl
  · cases List.mem_singleton.mp h
    rfl
  · cases List.mem_singleton.mp h
    rfl
  · cases h

namespace Machine

variable {random : Nat → Int} {m n : Machine} {a : Action} {s : Step} {t : Moment} {now : Int}
  {notices : List Notice}

theorem notices_of_bind {α : Type} {r : Except (Raise Fault) α} {f : α → Machine}
    (h : (do return (f (← r), [])) = Except.ok (n, notices)) : notices = [] := by
  cases r with
  | error e => cases h
  | ok a =>
    cases h
    rfl

theorem notices_of_executeRegister {x : Nibble} {op : RegisterOp}
    (h : executeRegister now m x op = .ok (n, notices)) :
    notices = Step.notices ⟨m.opAddress, .register op x⟩ := by
  cases op with
  | skipKey | skipNotKey =>
    rw [executeRegister, Keypad.isHeld_emod] at h
    cases h
    rfl
  | storeDigits | saveRegisters | loadRegisters =>
    rw [notices_of_bind h]
    rfl
  | _ =>
    cases h
    rfl

theorem notices_of_execute {i : Instruction} (h : m.execute random now i = .ok (n, notices)) :
    notices = Step.notices ⟨m.opAddress, i⟩ := by
  cases i with
  | plain op | draw x y k =>
    rw [notices_of_bind h]
    rfl
  | address op nnn =>
    cases op with
    | call =>
      rw [execute, executeAddress] at h
      split at h
      · cases h
        rfl
      · cases h
    | _ =>
      cases h
      rfl
  | register op x => exact notices_of_executeRegister h
  | immediate op x nn | pair op x y | unknown word =>
    cases h
    rfl

/-- What a cycle tells: what the instruction tells that it executes, and what its poll tells. -/
theorem notices_cycle_of_executed (h : m.executed? random (.cycle t) = some s) :
    ∃ n : Machine, (m.cycle random t).notices = s.notices ++ (n.poll t.poll).2 := by
  obtain ⟨t, n, notices, ht, rfl, -, -, he, -, hc⟩ := exists_of_executed h
  cases ht
  rw [hc, finish, notices_of_execute he]
  exact ⟨_, rfl⟩

theorem eq_beep_of_mem_poll {note : Notice} (h : note ∈ (m.poll now).2) : note = .beep now := by
  rw [poll] at h
  split at h
  · exact List.mem_singleton.mp h
  · cases h

theorem notices_attempt {α β : Type} {r : Except Fault α} {next : α → Machine × List Notice × β}
    (h : ∀ a, (next a).2.1 = []) : (m.attempt r next).notices = [] := by
  cases r with
  | error e => rfl
  | ok a => exact h a

/-- From outside one only hears of beeps and of the keys that end a wait. -/
theorem notices_perform_of_outside (random : Nat → Int) (m : Machine) (ha : a.Outside) :
    ∀ note ∈ (m.perform random a).notices,
      (∃ now, a = .poll now ∧ note = .beep now) ∨ ∃ k x, note = .keyStored k x := by
  intro note hnote
  cases a with
  | cycle t | reset now => exact ha.elim
  | poll now => exact .inl ⟨now, rfl, eq_beep_of_mem_poll hnote⟩
  | press k =>
    by_cases hk : Keypad.IsKey k
    · obtain ⟨d, rfl⟩ := exists_nibble_of_isKey hk
      cases hw : m.waiting with
      | true =>
        rw [perform_press_of_waiting random hw] at hnote
        exact .inr ⟨d, m.keyRegister, List.mem_singleton.mp hnote⟩
      | false =>
        rw [perform, press_of_not_waiting hw] at hnote
        cases hnote
    · rw [perform, press_of_not_isKey hk] at hnote
      cases hnote
  | release k | load rom | poke address data | sprite x y rows =>
    rw [perform, notices_attempt fun _ ↦ rfl] at hnote
    cases hnote

end Machine

end ChipEight
