import ChipEight.Proofs.Beeps
import Mathlib.Data.List.NodupEquivFin

namespace ChipEight

namespace Timer

def pollAll (t : Timer) (readings : List Int) : Timer :=
  readings.foldl poll t

/-- Of two timers that have been polled up to `last`, the first has less left of its count, or as
much since an earlier change. So it will not be the later one to go down. -/
structure Ahead (last : Int) (t u : Timer) : Prop where
  count : t.count ≤ u.count
  since : t.count = u.count → t.since ≤ u.since
  seen : t.count ≠ u.count → t.since ≤ last

variable {last now : Int} {t u : Timer} {readings readings' : List Int}

theorem Ahead.refl (last : Int) (t : Timer) : Ahead last t t :=
  ⟨UInt8.le_refl _, fun _ ↦ Int.le_refl _, fun h ↦ absurd rfl h⟩

theorem poll_poll (t : Timer) (now : Int) : (t.poll now).poll now = t.poll now :=
  poll_of_not_due (not_due_poll t now)

theorem not_expires_poll (t : Timer) (now : Int) : ¬ (t.poll now).Expires now :=
  fun h ↦ not_due_poll t now h.1

theorem Ahead.poll_left (h : Ahead last t u) (hn : last ≤ now) : Ahead now (t.poll now) u := by
  by_cases hd : t.Due now
  · have hle := UInt8.le_iff_toNat_le.mp h.count
    have hdrop := toNat_count_of_due hd
    have hlt : (t.count - 1).toNat < u.count.toNat := by omega
    rw [poll_of_due hd]
    refine ⟨UInt8.le_iff_toNat_le.mpr (Nat.le_of_lt hlt), fun heq ↦ ?_, fun _ ↦ Int.le_refl now⟩
    exact absurd (congrArg UInt8.toNat heq) (Nat.ne_of_lt hlt)
  · rw [poll_of_not_due hd]
    exact ⟨h.count, h.since, fun hne ↦ Int.le_trans (h.seen hne) hn⟩

theorem Ahead.poll (h : Ahead last t u) (hn : last ≤ now) :
    Ahead now (t.poll now) (u.poll now) := by
  by_cases hu : u.Due now
  · have hle := UInt8.le_iff_toNat_le.mp h.count
    have hdrop := toNat_count_of_due hu
    rw [poll_of_due hu]
    by_cases ht : t.Due now
    · have hdrop' := toNat_count_of_due ht
      have hcount : (t.count - 1).toNat ≤ (u.count - 1).toNat := by omega
      rw [poll_of_due ht]
      exact ⟨UInt8.le_iff_toNat_le.mpr hcount, fun _ ↦ Int.le_refl now, fun _ ↦ Int.le_refl now⟩
    · -- With the same count it would be due as well, so it has gone down before.
      have hne : t.count ≠ u.count := by
        intro heq
        have hsince := h.since heq
        obtain ⟨hpos, hperiod⟩ := hu
        refine ht ⟨heq ▸ hpos, ?_⟩
        omega
      have hlt : t.count.toNat ≠ u.count.toNat := fun heq ↦ hne (UInt8.toNat_inj.mp heq)
      have hcount : t.count.toNat ≤ (u.count - 1).toNat := by omega
      have hseen : t.since ≤ now := Int.le_trans (h.seen hne) hn
      rw [poll_of_not_due ht]
      exact ⟨UInt8.le_iff_toNat_le.mpr hcount, fun _ ↦ hseen, fun _ ↦ hseen⟩
  · rw [poll_of_not_due hu]
    exact h.poll_left hn

/-- Of two timers that are polled at the same instants, the one that is polled at others too stays
ahead. -/
theorem Ahead.pollAll (h : Ahead last t u) (hs : readings.Sublist readings')
    (hm : List.IsChain (· ≤ ·) (last :: readings')) :
    ∃ now, Ahead now (t.pollAll readings') (u.pollAll readings) := by
  induction hs generalizing t u last with
  | slnil => exact ⟨last, h⟩
  | cons a _ ih =>
    rw [List.isChain_cons_cons] at hm
    exact ih (h.poll_left hm.1) hm.2
  | cons_cons a _ ih =>
    rw [List.isChain_cons_cons] at hm
    exact ih (h.poll hm.1) hm.2

theorem count_pollAll_le (t : Timer) (hs : readings.Sublist readings')
    (hm : readings'.Pairwise (· ≤ ·)) :
    (t.pollAll readings').count ≤ (t.pollAll readings).count := by
  have hchain : ∃ last, List.IsChain (· ≤ ·) (last :: readings') := by
    cases readings' with
    | nil => exact ⟨0, .singleton 0⟩
    | cons a readings' => exact ⟨a, .cons_cons (Int.le_refl a) hm.isChain⟩
  obtain ⟨last, hchain⟩ := hchain
  obtain ⟨now, h⟩ := (Ahead.refl last t).pollAll hs hchain
  exact h.count

theorem pending_le (h : t.count ≤ u.count) : t.pending ≤ u.pending := by
  by_cases hu : u.count = 0
  · have ht : t.count = 0 := UInt8.le_zero_iff.mp (hu ▸ h)
    rw [pending, pending, if_pos ht, if_pos hu]
  · rw [pending, pending, if_neg hu]
    split <;> decide

end Timer

theorem take_sublist_take {readings readings' : List Int}
    {f : Fin readings.length → Fin readings'.length} (hf : StrictMono f)
    (hr : ∀ i, readings'.get (f i) = readings.get i) (i : Fin readings.length) :
    (readings.take (i + 1)).Sublist (readings'.take (f i + 1)) := by
  let old (j : Fin (readings.take (i + 1)).length) : Fin readings.length :=
    j.castLE (List.length_take_le' ..)
  have hold (j) : old j ≤ i :=
    Nat.le_of_lt_succ (Nat.lt_of_lt_of_le j.isLt (List.length_take_le ..))
  have hlt (j) : (f (old j)).val < (readings'.take (f i + 1)).length := by
    have hle : f (old j) ≤ f i := hf.monotone (hold j)
    rw [List.length_take]
    omega
  let new (j) : Fin (readings'.take (f i + 1)).length := ⟨f (old j), hlt j⟩
  have hnew : StrictMono new := fun j k hjk ↦ hf (a := old j) (b := old k) hjk
  refine List.sublist_iff_exists_fin_orderEmbedding_get_eq.mpr ⟨.ofStrictMono new hnew, fun j ↦ ?_⟩
  simpa [new, old] using (hr (old j)).symm

namespace Machine

theorem poll_poll (m : Machine) (now : Int) :
    (m.poll now).machine.poll now = ⟨(m.poll now).machine, [], .ok ()⟩ := by
  simp [poll, Timer.poll_poll, Timer.not_expires_poll]

theorem timer_polls (random : Nat → Int) (m : Machine) (w : TimerKind) (readings : List Int) :
    (m.run random (readings.map .poll)).timer w = (m.timer w).pollAll readings := by
  induction readings generalizing m with
  | nil => rfl
  | cons now readings ih =>
    refine (ih (m.poll now).1).trans ?_
    cases w <;> rfl

theorem length_beeps_poll (m : Machine) (now : Int) :
    (Notice.beeps (m.poll now).2).length + ((m.poll now).1.timer .sound).pending =
      (m.timer .sound).pending := by
  have hpending := m.sound.pending_poll now
  rw [Timer.expires_poll] at hpending
  rw [timer, timer, ← hpending, Nat.add_comm, poll]
  by_cases he : m.sound.Expires now <;> simp [he, Notice.beeps, Notice.beepAt?]

/-- A beep uses up what the sound timer has pending. -/
theorem length_beeps_polls (random : Nat → Int) (m : Machine) (readings : List Int) :
    (m.beeps random (readings.map .poll)).length + ((m.timer .sound).pollAll readings).pending =
      (m.timer .sound).pending := by
  induction readings generalizing m with
  | nil => exact Nat.zero_add _
  | cons now readings ih =>
    have hbeeps : m.beeps random (List.map .poll (now :: readings)) =
        Notice.beeps (m.poll now).2 ++ (m.poll now).1.beeps random (readings.map .poll) := rfl
    have hleft : (m.timer .sound).pollAll (now :: readings) =
        ((m.poll now).1.timer .sound).pollAll readings := rfl
    rw [hbeeps, hleft, List.length_append, Nat.add_assoc, ih, length_beeps_poll]

/-- To poll twice at one instant is to poll once, and more polls never hold a timer up. -/
theorem extra_polls_never_delay (random : Nat → Int) (m : Machine) :
    (∀ now, m.run random [.poll now, .poll now] = m.run random [.poll now] ∧
      m.beeps random [.poll now, .poll now] = m.beeps random [.poll now]) ∧
    ∀ (readings readings' : List Int) (f : Fin readings.length → Fin readings'.length),
      readings'.Pairwise (· ≤ ·) → StrictMono f →
      (∀ i, readings'.get (f i) = readings.get i) → ∀ i : Fin readings.length,
      let few := (readings.take (i + 1)).map Action.poll
      let many := (readings'.take (f i + 1)).map Action.poll
      (∀ w, ((m.run random many).timer w).count ≤ ((m.run random few).timer w).count) ∧
        (m.beeps random few).length ≤ (m.beeps random many).length := by
  refine ⟨fun now ↦ ⟨?_, ?_⟩, ?_⟩
  · change ((m.poll now).machine.poll now).machine = (m.poll now).machine
    rw [poll_poll]
  · change Notice.beeps (m.poll now).2 ++ (Notice.beeps ((m.poll now).1.poll now).2 ++ []) = _
    rw [poll_poll]
    rfl
  · intro readings readings' f hm hf hr i few many
    have hs := take_sublist_take hf hr i
    have hcount (t : Timer) := t.count_pollAll_le hs (hm.sublist (List.take_sublist ..))
    refine ⟨fun w ↦ ?_, ?_⟩
    · rw [timer_polls, timer_polls]
      exact hcount _
    · have hfew := length_beeps_polls random m (readings.take (i + 1))
      have hmany := length_beeps_polls random m (readings'.take (f i + 1))
      have hpending := Timer.pending_le (hcount (m.timer .sound))
      simp only [few, many]
      omega

/-- An early poll brings forward the decrement after the next: the second timer has run out and
beeped when the first still has one left. -/
theorem extra_polls_never_delay_early_poll :
    let m : Machine := { fresh 0 with sound := .start 2 0 }
    let readings : List Int := [20000000, 36000000]
    let readings' : List Int := [17000000, 20000000, 36000000]
    let few := m.run (fun _ ↦ 0) (readings.map .poll)
    let many := m.run (fun _ ↦ 0) (readings'.map .poll)
    readings'.Pairwise (· ≤ ·) ∧ (∀ i : Fin 2, readings'.get i.succ = readings.get i) ∧
      few.sound.count = 1 ∧ many.sound.count = 0 ∧
      (∀ w, (many.timer w).count ≤ (few.timer w).count) ∧
      (m.beeps (fun _ ↦ 0) (readings.map .poll)).length ≤
        (m.beeps (fun _ ↦ 0) (readings'.map .poll)).length ∧
      (m.beeps (fun _ ↦ 0) (readings.map .poll)) = [] ∧
      m.beeps (fun _ ↦ 0) (readings'.map .poll) = [36000000] := by
  intro m readings readings' few many
  have hm : readings'.Pairwise (· ≤ ·) := by decide
  have hr : ∀ i : Fin 2, readings'.get i.succ = readings.get i := by decide
  have hf : StrictMono (Fin.succ : Fin 2 → Fin 3) := Fin.strictMono_succ
  obtain ⟨hcount, hbeeps⟩ :=
    (extra_polls_never_delay (fun _ ↦ 0) m).2 readings readings' Fin.succ hm hf hr 1
  exact ⟨hm, hr, by decide +kernel, by decide +kernel, hcount, hbeeps, by decide +kernel,
    by decide +kernel⟩

end Machine

end ChipEight
