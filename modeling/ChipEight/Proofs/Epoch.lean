import ChipEight.Machine.Dump
import ChipEight.Proofs.Correspondence

namespace ChipEight

def Timer.later (c : Int) (t : Timer) : Timer :=
  { t with since := t.since + c }

def Notice.later (c : Int) : Notice → Notice
  | .beep now => .beep (now + c)
  | n => n

def Machine.later (c : Int) (m : Machine) : Machine :=
  m.withTimers (m.delay.later c) (m.sound.later c)

def Outcome.later {α : Type} (c : Int) (o : Outcome α) : Outcome α :=
  ⟨o.machine.later c, o.notices.map (.later c), o.answer⟩

def Report.later (c : Int) (r : Report) : Report :=
  { r with machine := r.machine.later c, beeps := r.beeps.map (· + c) }

namespace Timer

variable {t : Timer} {now : Int}

theorem due_later (c : Int) : (t.later c).Due (now + c) ↔ t.Due now := by
  simp only [Due, later, Int.add_sub_add_right]

theorem expires_later (c : Int) : (t.later c).Expires (now + c) ↔ t.Expires now :=
  and_congr_left fun _ ↦ due_later c

theorem poll_later (c : Int) : (t.later c).poll (now + c) = (t.poll now).later c := by
  simp only [poll, due_later]
  split <;> rfl

end Timer

namespace Notice

theorem map_later_of_beeps {notices : List Notice} (h : beeps notices = []) (c : Int) :
    notices.map (.later c) = notices := by
  have hlater : ∀ n ∈ notices, n.later c = n := by
    intro n hn
    have hb : n.beepAt? = none := List.filterMap_eq_nil_iff.mp h n hn
    cases n with
    | beep now => cases hb
    | _ => rfl
  rw [List.map_congr_left hlater, List.map_id']

theorem diagnostic_later (c : Int) (n : Notice) : (n.later c).diagnostic? = n.diagnostic? := by
  cases n <;> rfl

theorem warning_later (c : Int) (n : Notice) : (n.later c).warning? = n.warning? := by
  cases n <;> rfl

theorem beepAt_later (c : Int) (n : Notice) : (n.later c).beepAt? = n.beepAt?.map (· + c) := by
  cases n <;> rfl

end Notice

def Correspondence.later (c : Int) : Correspondence where
  readings a b := b = a + c
  timers t u := u = t.later c
  notices l l' := l' = l.map (.later c)
  start v h := by rw [h]; rfl
  poll ht h := by rw [ht, h, Timer.poll_later]
  beep ht h := by
    subst ht h
    simp only [Timer.expires_later]
    split <;> rfl
  same h := (Notice.map_later_of_beeps h c).symm
  append h h' := by rw [List.map_append, h, h']

theorem Correspondence.keepsCounts_later (c : Int) : (later c).KeepsCounts := by
  rintro t u rfl
  rfl

theorem Action.corresponds_mapReadings (c : Int) (a : Action) :
    a.Corresponds (.later c) (a.mapReadings (· + c)) := by
  cases a with
  | cycle t => exact .cycle rfl rfl
  | poll now => exact .poll rfl
  | reset now => exact .reset rfl
  | press | release | load | poke | sprite => exact .untimed trivial (by simp)

theorem Outcome.Corresponds.eq_later {α : Type} {c : Int} {o p : Outcome α}
    (h : o.Corresponds (.later c) p) : p = o.later c := by
  obtain ⟨⟨d, s, rfl, rfl, hm⟩, hl, ha⟩ := h
  cases p
  cases hm
  cases hl
  cases ha
  rfl

theorem Console.diagnostics_later (console : Console) (c : Int) (n : Notice) :
    console.diagnostics (n.later c) = console.diagnostics n := by
  rw [diagnostics, Notice.diagnostic_later, diagnostics]

theorem Console.written_later (console : Console) (c : Int) (n : Notice) :
    console.written (n.later c) = console.written n := by
  have hringing : console.ringing (n.later c) = console.ringing n := by
    rw [ringing, Notice.beepAt_later, Option.isSome_map, ringing]
  rw [written, texts, diagnostics_later, hringing, written, texts]

theorem Outcome.report_later (c : Int) (o : Outcome (Option Bool)) (console : Console) :
    (o.later c).report console = (o.report console).later c := by
  have hout : console.stdout (o.notices.map (.later c)) = console.stdout o.notices := by
    simp only [Console.stdout, List.map_map, Function.comp_def, Console.written_later]
  have herr : console.stderr (o.notices.map (.later c)) = console.stderr o.notices := by
    simp only [Console.stderr, List.map_map, Function.comp_def, Notice.warning_later]
  have hbeeps : console.beeps (o.notices.map (.later c)) =
      (console.beeps o.notices).map (· + c) := by
    simp only [Console.beeps, List.filter_map, List.filterMap_map, Function.comp_def,
      Console.diagnostics_later, Notice.beepAt_later]
    split
    · rw [List.map_filterMap]
    · rfl
  rw [later, report, report, Report.later, hout, herr, hbeeps]

namespace Machine

theorem outcomes_later (random : Nat → Int) (c start : Int) (actions : List Action) :
    (fresh (start + c)).outcomes random (actions.map (.mapReadings (· + c))) =
      ((fresh start).outcomes random actions).map (.later c) := by
  have hstart : (fresh start).Corresponds (.later c) (fresh (start + c)) :=
    reset_corresponds rfl blank blank rfl
  have hactions : List.Forall₂ (Action.Corresponds (.later c)) actions
      (actions.map (.mapReadings (· + c))) :=
    List.forall₂_map_right_iff.mpr (List.forall₂_same.mpr fun a _ ↦ a.corresponds_mapReadings c)
  have h : List.Forall₂ (Outcome.Corresponds (.later c)) ((fresh start).outcomes random actions)
      ((fresh (start + c)).outcomes random (actions.map (.mapReadings (· + c)))) :=
    outcomes_correspond hstart hactions (.inl (Correspondence.keepsCounts_later c))
  have heq : List.Forall₂ Eq (((fresh start).outcomes random actions).map (.later c))
      ((fresh (start + c)).outcomes random (actions.map (.mapReadings (· + c)))) :=
    List.forall₂_map_left_iff.mpr (h.imp fun _ _ ho ↦ ho.eq_later.symm)
  rw [List.forall₂_eq_eq_eq] at heq
  exact heq.symm

/-- Where the clock has its zero makes no difference to what a machine does, answers and writes:
only the instants that it keeps and those of its beeps move along. -/
theorem epoch_irrelevant (random : Nat → Int) (c start : Int) (actions : List Action)
    (console : Console) :
    let first := (fresh start).outcomes random actions
    let second := (fresh (start + c)).outcomes random (actions.map (.mapReadings (· + c)))
    second = first.map (fun o ↦ ⟨o.machine.later c, o.notices.map (.later c), o.answer⟩) ∧
      second.map (·.report console) = first.map (fun o ↦ (o.report console).later c) ∧
      second.map (·.machine.dump) = first.map (·.machine.dump) := by
  intro first second
  have h : second = first.map (.later c) := outcomes_later random c start actions
  refine ⟨h, ?_, ?_⟩
  · rw [h, List.map_map]
    exact List.map_congr_left fun o _ ↦ o.report_later c console
  · rw [h, List.map_map]
    rfl

end Machine

end ChipEight
