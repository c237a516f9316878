import ChipEight.Files.Rom
import ChipEight.Frontend.Keyboard
import ChipEight.Proofs.Limits

namespace ChipEight

namespace Console

variable {c : Console} {n : Notice}

/-- The standard output takes all that is printed for the notices. -/
def Hears (c : Console) (notices : List Notice) : Prop :=
  ∀ n ∈ notices, ∀ text ∈ c.texts n, c.refuses text = none

def Unrefused (c : Console) : Prop :=
  ∀ n, ∀ text ∈ c.texts n, c.refuses text = none

/-- Nobody listens for beeps, or whoever does writes nothing. -/
def Quiet (c : Console) : Prop :=
  c.bell.getD [] = []

theorem Unrefused.hears (h : c.Unrefused) (notices : List Notice) : c.Hears notices :=
  fun n _ ↦ h n

theorem hear_eq_ok_iff : c.hear n = .ok () ↔ ∀ text ∈ c.texts n, c.refuses text = none := by
  rw [hear, ← List.findSome?_eq_none_iff]
  cases (c.texts n).findSome? c.refuses <;> simp

theorem unrefused_of_open (h : ∀ text, c.refuses text = none) : c.Unrefused :=
  fun _ text _ ↦ h text

theorem texts_of_silent (hv : c.verbose = false) (hq : c.Quiet) (n : Notice) : c.texts n = [] := by
  rw [texts, diagnostics, ringing, hv, hq, ite_self]
  rfl

theorem unrefused_of_silent (hv : c.verbose = false) (hq : c.Quiet) : c.Unrefused := by
  intro n
  rw [texts_of_silent hv hq]
  exact nofun

/-- Prints what an operation has told. Where that is refused the operation fails, with all the rest
of it done. -/
def deliver (c : Console) (r : Machine × List Notice) :
    Except (Raise ChipEight.Fault) (Machine × List Notice) :=
  match forM r.2 c.hear with
  | .ok _ => .ok r
  | .error e => .error ⟨r.1, .output e⟩

theorem deliver_singleton (c : Console) (m : Machine) (n : Notice) :
    c.deliver (m, [n]) = m.tell n c := by
  rw [deliver, Machine.tell, List.forM_cons]
  cases c.hear n <;> rfl

theorem deliver_of_hears {r : Machine × List Notice} (h : c.Hears r.2) : c.deliver r = .ok r := by
  obtain ⟨m, notices⟩ := r
  have hforM : forM notices c.hear = .ok () := by
    induction notices with
    | nil => rfl
    | cons n notices ih =>
      obtain ⟨hn, hrest⟩ := List.forall_mem_cons.mp h
      rw [List.forM_cons, hear_eq_ok_iff.mpr hn]
      exact ih hrest
  rw [deliver, hforM]

theorem exists_deliver_of_not_hears {r : Machine × List Notice} (h : ¬ c.Hears r.2) :
    ∃ e, c.deliver r = .error ⟨r.1, .output e⟩ := by
  obtain ⟨m, notices⟩ := r
  have hforM : ∃ e, forM notices c.hear = .error e := by
    induction notices with
    | nil => exact absurd (fun n hn ↦ (List.not_mem_nil hn).elim) h
    | cons n notices ih =>
      rw [List.forM_cons]
      cases hn : c.hear n with
      | error e => exact ⟨e, rfl⟩
      | ok _ => exact ih fun hrest ↦ h (List.forall_mem_cons.mpr ⟨hear_eq_ok_iff.mp hn, hrest⟩)
  obtain ⟨e, he⟩ := hforM
  exact ⟨e, by rw [deliver, he]⟩

end Console

namespace Machine

variable {c : Console} {random : Nat → Int} {m n : Machine} {notices : List Notice}
  {now k : Int} {t : Moment} {files : Files} {path : String}

/-- Printing comes last, and decides on nothing but whether the operation fails. -/
theorem press_eq_deliver (c : Console) (m : Machine) (k : Int) :
    m.press k c = m.press k >>= c.deliver := by
  cases hk : m.keypad.press k with
  | error e => simp only [press, hk]; rfl
  | ok keypad =>
    cases hw : m.waiting with
    | true =>
      simp only [press, hk, hw]
      exact (c.deliver_singleton _ _).symm
    | false =>
      simp only [press, hk, hw]
      rfl

theorem executeAddress_eq_deliver (c : Console) (m : Machine) (nnn : Address) (op : AddressOp) :
    m.executeAddress nnn op c = m.executeAddress nnn op >>= c.deliver := by
  cases op with
  | sys => exact (c.deliver_singleton _ _).symm
  | call => cases h : m.stack.push m.pc <;> simp only [executeAddress, h] <;> rfl
  | jump | setIndex | jumpOffset => rfl

theorem executeRegister_eq_deliver (c : Console) (now : Int) (m : Machine) (x : Nibble)
    (op : RegisterOp) :
    executeRegister now m x op c = executeRegister now m x op >>= c.deliver := by
  cases op with
  | awaitKey => exact (c.deliver_singleton _ _).symm
  | skipKey | skipNotKey =>
    simp only [executeRegister]
    cases (m.keypad.isHeld ((m.register x).toNat % 16)) <;> rfl
  | storeDigits =>
    simp only [executeRegister]
    cases m.writeAtIndex (decimalDigits (m.register x)) <;> rfl
  | saveRegisters =>
    simp only [executeRegister]
    cases m.writeAtIndex (m.registers.toList.take (x + 1)) <;> rfl
  | loadRegisters =>
    simp only [executeRegister]
    cases m.readAtIndex (x + 1) <;> rfl
  | _ => rfl

theorem execute_eq_deliver (c : Console) (random : Nat → Int) (now : Int) (m : Machine)
    (i : Instruction) :
    m.execute random now i c = m.execute random now i >>= c.deliver := by
  cases i with
  | plain op =>
    simp only [execute]
    cases m.executePlain op <;> rfl
  | address op nnn => exact executeAddress_eq_deliver c m nnn op
  | register op x => exact executeRegister_eq_deliver c now m x op
  | immediate op x nn | pair op x y => rfl
  | draw x y height =>
    simp only [execute]
    cases m.executeDraw x y height <;> rfl
  | unknown word => exact (c.deliver_singleton _ _).symm

theorem loadFile_eq_deliver (c : Console) (m : Machine) (files : Files) (path : String) :
    m.loadFile files path c =
      m.loadFile files path >>= fun r ↦
        (c.deliver r).mapError fun e ↦ ⟨e.machine, .machine e.fault⟩ := by
  simp only [loadFile]
  cases (files path).mapError fun e ↦ (⟨m, .file e⟩ : Raise RomFault) with
  | error e => rfl
  | ok rom =>
    simp only [bind, Except.bind]
    cases m.load rom with
    | error e => rfl
    | ok n =>
      exact congrArg (Except.mapError _) (c.deliver_singleton _ _).symm

theorem bind_eq_self {ε : Type} {r : Except ε (Machine × List Notice)}
    {f : Machine × List Notice → Except ε (Machine × List Notice)}
    (h : ∀ a, r = .ok a → f a = .ok a) : r >>= f = r := by
  cases r with
  | error e => rfl
  | ok a => exact h a rfl

theorem press_of_hears (h : ∀ r, m.press k = .ok r → c.Hears r.2) : m.press k c = m.press k :=
  (press_eq_deliver c m k).trans (bind_eq_self fun r hr ↦ Console.deliver_of_hears (h r hr))

theorem poll_of_hears (h : c.Hears (m.poll now).notices) : m.poll now c = m.poll now := by
  by_cases hs : m.sound.Expires now
  · have hbeep : Notice.beep now ∈ (m.poll now).notices := by
      rw [poll, if_pos hs]
      exact List.mem_singleton_self _
    have hheard : c.hear (.beep now) = .ok () := Console.hear_eq_ok_iff.mpr (h _ hbeep)
    simp only [poll, if_pos hs, hheard, Console.hear_off]
  · simp only [poll, if_neg hs]

theorem finish_of_hears (h : c.Hears (m.poll now).notices) (notices : List Notice) :
    m.finish notices now c = m.finish notices now := by
  rw [finish, poll_of_hears h]
  rfl

/-- A cycle whose notices are heard is the same at every console. -/
theorem cycle_of_hears (h : c.Hears (m.cycle random t).notices) :
    m.cycle random t c = m.cycle random t := by
  by_cases hw : m.waiting = true
  · simp only [cycle, if_pos hw] at h ⊢
    exact finish_of_hears h []
  · simp only [cycle, if_neg hw] at h ⊢
    cases hi : m.fetch with
    | error e => rfl
    | ok i =>
      simp only [hi] at h ⊢
      cases he : m.advanced.execute random t.execute i with
      | error e => rw [execute_eq_deliver, he]; rfl
      | ok r =>
        simp only [he] at h
        have hr : c.Hears r.2 := fun n hn ↦ h n (List.mem_append_left _ hn)
        have hexecute : m.advanced.execute random t.execute i c = .ok r := by
          rw [execute_eq_deliver, he]
          exact Console.deliver_of_hears hr
        rw [hexecute]
        exact finish_of_hears (fun n hn ↦ h n (List.mem_append_right _ hn)) _

theorem perform_of_hears {a : Action} (h : c.Hears (m.perform random a).notices) :
    m.perform random a c = m.perform random a := by
  cases a with
  | cycle t => simp only [perform, cycle_of_hears h]
  | poll now => simp only [perform, poll_of_hears h]
  | press k =>
    refine congrArg (Outcome.of · none) (press_of_hears fun r hr ↦ ?_)
    simp only [perform, hr] at h
    exact h
  | release | load | poke | sprite | reset => rfl

theorem loadFile_of_hears (h : ∀ r, m.loadFile files path = .ok r → c.Hears r.2) :
    m.loadFile files path c = m.loadFile files path := by
  rw [loadFile_eq_deliver]
  exact bind_eq_self fun r hr ↦ congrArg (Except.mapError _) (Console.deliver_of_hears (h r hr))

theorem machine_of_tell {note : Notice} {r : Machine × List Notice}
    (h : m.tell note c = .ok r) : r.1 = m := by
  rw [tell] at h
  split at h
  · cases h
    rfl
  · cases h

theorem exists_load_of_loadFile (h : m.loadFile files path c = .ok (n, notices)) :
    ∃ rom, m.load rom = .ok n := by
  obtain ⟨rom, -, h⟩ := exists_of_bind h
  obtain ⟨loaded, hloaded, h⟩ := exists_of_bind h
  have hn : n = loaded := machine_of_tell (eq_of_mapError h)
  rw [hn]
  exact ⟨rom, eq_of_mapError hloaded⟩

/-- Where the output refuses the line about it, a program fails to load and yet is in the memory. -/
theorem exists_loadFile_of_not_hears (h : m.loadFile files path = .ok (n, notices))
    (hr : ¬ c.Hears notices) : ∃ e, m.loadFile files path c = .error ⟨n, .machine (.output e)⟩ := by
  obtain ⟨e, he⟩ := Console.exists_deliver_of_not_hears (r := (n, notices)) hr
  refine ⟨e, ?_⟩
  rw [loadFile_eq_deliver, h]
  exact congrArg (Except.mapError _) he

theorem handle_of_unrefused (hc : c.Unrefused) (m : Machine) (e : Event) :
    m.handle e c = m.handle e := by
  have hpress (k : Int) : m.press k c = m.press k := press_of_hears fun r _ ↦ hc.hears r.2
  simp only [handle, hpress]

end Machine

end ChipEight
