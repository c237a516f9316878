import ChipEight.Proofs.Sessions
import Mathlib.Data.List.Induction

namespace ChipEight

namespace Keyboard

variable {c : Int} {d k : Nibble}

def code (k : Nibble) : Int :=
  (mapping.find? (·.2 = k)).elim 0 fun (c, _) ↦ c.toNat

theorem code_of_mem_mapping : ∀ p ∈ mapping, (p.1.toNat : Int) = code p.2 := by
  decide

theorem key?_code (k : Nibble) : key? (code k) = some k := by
  revert k
  decide

theorem key?_escape : key? escape = none := by
  decide

theorem key?_eq_some_iff : key? c = some k ↔ c = code k := by
  constructor
  · intro h
    obtain ⟨p, hp, rfl⟩ := Option.map_eq_some_iff.mp h
    have hc : (p.1.toNat : Int) = c := by simpa using List.find?_some hp
    rw [← hc, code_of_mem_mapping p (List.mem_of_find?_eq_some hp)]
  · rintro rfl
    exact key?_code k

theorem code_inj : code d = code k ↔ d = k := by
  rw [← key?_eq_some_iff, key?_code, Option.some.injEq]

theorem code_ne_escape (k : Nibble) : code k ≠ escape := by
  intro h
  have hk := key?_code k
  rw [h, key?_escape] at hk
  cases hk

end Keyboard

namespace Event

/-- Which way an event moves the key with a code; `true` is down. -/
def edge? (code : Int) : Event → Option Bool
  | .keyDown c => if c = code then some true else none
  | .keyUp c => if c = code then some false else none
  | _ => none

def pressed? : Event → Option Nibble
  | .keyDown c => Keyboard.key? c
  | _ => none

def IsForeign : Event → Prop
  | .quit | .other => True
  | .keyDown c | .keyUp c => Keyboard.key? c = none

def last? {α : Type} (see : Event → Option α) (events : List Event) : Option α :=
  events.reverse.findSome? see

theorem last?_snoc {α : Type} (see : Event → Option α) (events : List Event) (e : Event) :
    last? see (events ++ [e]) = (see e).or (last? see events) := by
  simp only [last?, List.reverse_append, List.reverse_singleton, List.singleton_append,
    List.findSome?_cons]
  cases see e <;> rfl

variable {e : Event}

theorem isForeign_or (e : Event) :
    e.IsForeign ∨ ∃ d, e = .keyDown (Keyboard.code d) ∨ e = .keyUp (Keyboard.code d) := by
  cases e with
  | quit | other => exact .inl trivial
  | keyDown c =>
    cases hc : Keyboard.key? c with
    | none => exact .inl hc
    | some d => exact .inr ⟨d, .inl (by rw [Keyboard.key?_eq_some_iff.mp hc])⟩
  | keyUp c =>
    cases hc : Keyboard.key? c with
    | none => exact .inl hc
    | some d => exact .inr ⟨d, .inr (by rw [Keyboard.key?_eq_some_iff.mp hc])⟩

theorem edge?_of_isForeign (h : e.IsForeign) (k : Nibble) :
    e.edge? (Keyboard.code k) = none := by
  have hne : ∀ c, Keyboard.key? c = none → c ≠ Keyboard.code k := by
    rintro c hc rfl
    rw [Keyboard.key?_code] at hc
    cases hc
  cases e with
  | quit | other => rfl
  | keyDown c | keyUp c => exact if_neg (hne c h)

theorem pressed?_of_isForeign (h : e.IsForeign) : e.pressed? = none := by
  cases e with
  | keyDown c => exact h
  | _ => rfl

end Event

theorem Keypad.get_idle (k : Nibble) : idle.held.get k = false :=
  Vector.getElem_replicate k.isLt

inductive Input
  | event (e : Event)
  | cycle (t : Moment)

def Input.event? : Input → Option Event
  | .event e => some e
  | .cycle _ => none

namespace Machine

def meet (random : Nat → Int) (m : Machine) : Input → Machine
  | .event e => (m.handle e).machine
  | .cycle t => (m.cycle random t).machine

def meetAll (random : Nat → Int) (m : Machine) (inputs : List Input) : Machine :=
  inputs.foldl (meet random) m

variable {random : Nat → Int} {m : Machine} {e : Event}

theorem meetAll_snoc (random : Nat → Int) (m : Machine) (inputs : List Input) (i : Input) :
    m.meetAll random (inputs ++ [i]) = (m.meetAll random inputs).meet random i := by
  simp only [meetAll, List.foldl_append, List.foldl_cons, List.foldl_nil]

theorem keypad_cycle (random : Nat → Int) (m : Machine) (t : Moment) :
    (m.cycle random t).machine.keypad = m.keypad := by
  have hc := m.cycle_course random t
  generalize m.cycle random t = o at hc ⊢
  cases hc with
  | wait | unfetched | crash => rfl
  | step n notices hw hp hr he hf => exact hf.keypad

theorem handle_of_isForeign (m : Machine) (h : e.IsForeign) :
    m.handle e = ⟨m, [], .ok (!e.isQuit)⟩ := by
  cases hq : e.isQuit with
  | true => exact if_pos hq
  | false =>
    cases e with
    | quit => cases hq
    | other => rfl
    | keyDown c | keyUp c =>
      have hc : Keyboard.key? c = none := h
      simp [handle, hq, hc]

theorem keypad_handle_keyDown (m : Machine) (d : Nibble) :
    (m.handle (.keyDown (Keyboard.code d))).machine.keypad =
      ⟨m.keypad.held.setIfInBounds d true, d⟩ := by
  have hq : ¬ (Event.keyDown (Keyboard.code d)).isQuit := by
    simpa [Event.isQuit] using Keyboard.code_ne_escape d
  simp only [handle, if_neg hq, Keyboard.key?_code]
  cases hw : m.waiting with
  | true => simp only [press_of_waiting hw, Outcome.of]
  | false => simp only [press_of_not_waiting hw, Outcome.of]

theorem keypad_handle_keyUp (m : Machine) (d : Nibble) :
    (m.handle (.keyUp (Keyboard.code d))).machine.keypad =
      ⟨m.keypad.held.setIfInBounds d false, m.keypad.lastKey⟩ := by
  have hq : ¬ (Event.keyUp (Keyboard.code d)).isQuit := by simp [Event.isQuit]
  simp only [handle, if_neg hq, Keyboard.key?_code, release_natCast, attempt]

theorem get_setIfInBounds (held : Vector Bool 16) (d k : Nibble) (b : Bool) :
    (held.setIfInBounds d b).get k = if d = k then b else held.get k := by
  change (held.setIfInBounds d b)[k.val] = if d = k then b else held[k.val]
  simp only [Vector.getElem_setIfInBounds, Fin.ext_iff]

theorem held_handle (m : Machine) (e : Event) (k : Nibble) :
    (m.handle e).machine.keypad.held.get k =
      (e.edge? (Keyboard.code k)).getD (m.keypad.held.get k) := by
  rcases e.isForeign_or with h | ⟨d, rfl | rfl⟩
  · rw [handle_of_isForeign m h, Event.edge?_of_isForeign h, Option.getD_none]
  · rw [keypad_handle_keyDown, get_setIfInBounds, Event.edge?]
    simp only [Keyboard.code_inj]
    split <;> rfl
  · rw [keypad_handle_keyUp, get_setIfInBounds, Event.edge?]
    simp only [Keyboard.code_inj]
    split <;> rfl

theorem lastKey_handle (m : Machine) (e : Event) :
    (m.handle e).machine.keypad.lastKey = e.pressed?.getD m.keypad.lastKey := by
  rcases e.isForeign_or with h | ⟨d, rfl | rfl⟩
  · rw [handle_of_isForeign m h, Event.pressed?_of_isForeign h, Option.getD_none]
  · rw [keypad_handle_keyDown, Event.pressed?, Keyboard.key?_code, Option.getD_some]
  · rw [keypad_handle_keyUp]
    rfl

/-- What each event does to a part of the keypad, and no cycle changes, is decided by the last event
in which it is seen. -/
theorem keypad_meetAll {α : Type} (part : Keypad → α) {see : Event → Option α}
    (hsee : ∀ (m : Machine) e, part (m.handle e).machine.keypad = (see e).getD (part m.keypad))
    (random : Nat → Int) (m : Machine) (inputs : List Input) :
    part (m.meetAll random inputs).keypad =
      (Event.last? see (inputs.filterMap Input.event?)).getD (part m.keypad) := by
  -- The last event in which it is seen is the newest one or the last of those before.
  induction inputs using List.reverseRecOn with
  | nil => rfl
  | append_singleton inputs i ih =>
    rw [meetAll_snoc, List.filterMap_append]
    cases i with
    | event e =>
      change part ((m.meetAll random inputs).handle e).machine.keypad =
        (Event.last? see (inputs.filterMap Input.event? ++ [e])).getD (part m.keypad)
      rw [hsee, ih, Event.last?_snoc, Option.getD_or]
    | cycle t =>
      change part ((m.meetAll random inputs).cycle random t).machine.keypad =
        (Event.last? see (inputs.filterMap Input.event? ++ [])).getD (part m.keypad)
      rw [keypad_cycle, ih, List.append_nil]

/-- However events and cycles follow each other, a key of the keypad is held if the last event of
its key on the keyboard was that it went down. Cycles leave the keypad alone, and so do events that
are about no such key. -/
theorem keypad_follows_keyboard (random : Nat → Int) (start : Int) (memory : Memory 4096)
    (inputs : List Input) :
    let m := { fresh start with memory }.meetAll random inputs
    let events := inputs.filterMap Input.event?
    (∀ c k, Keyboard.key? c = some k ↔ c = Keyboard.code k) ∧
    (∀ k : Nibble, m.keypad.isHeld k =
      .ok (decide (Event.last? (·.edge? (Keyboard.code k)) events = some true))) ∧
    m.keypad.lastKey = (Event.last? Event.pressed? events).getD 0 ∧
    (∀ e, ∃ b, (m.handle e).answer = .ok b ∧
      (b = false ↔ e = .quit ∨ e = .keyDown Keyboard.escape)) ∧
    (Event.keyDown Keyboard.escape).IsForeign ∧
    (∀ e, e.IsForeign → (m.handle e).machine = m ∧ (m.handle e).notices = []) ∧
    ∀ (n : Machine) t, (n.cycle random t).machine.keypad = n.keypad ∧
      ∀ i p notices, n.execute random t.execute i = .ok (p, notices) → p.keypad = n.keypad := by
  intro m events
  refine ⟨fun _ _ ↦ Keyboard.key?_eq_some_iff, ?_, ?_, ?_, Keyboard.key?_escape, ?_, ?_⟩
  · intro k
    have hheld : m.keypad.held.get k =
        (Event.last? (·.edge? (Keyboard.code k)) events).getD false :=
      (keypad_meetAll (·.held.get k) (fun m e ↦ held_handle m e k) random _ inputs).trans
        (congrArg _ (Keypad.get_idle k))
    rw [Keypad.isHeld_natCast, hheld]
    cases Event.last? (·.edge? (Keyboard.code k)) events with
    | none => rfl
    | some b => cases b <;> rfl
  · exact keypad_meetAll (·.lastKey) lastKey_handle random _ inputs
  · intro e
    refine ⟨!e.isQuit, m.handle_answer e, ?_⟩
    rw [Bool.not_eq_false', Event.isQuit_iff]
  · intro e h
    rw [handle_of_isForeign m h]
    exact ⟨rfl, rfl⟩
  · intro n t
    refine ⟨keypad_cycle random n t, ?_⟩
    intro i p notices h
    exact (frame_of_execute h).keypad

-- The left block of the keyboard stands for the keypad place by place.
example : ["1234", "qwer", "asdf", "zxcv"].map (·.toList.map fun c ↦ Keyboard.key? c.toNat) =
    Keypad.layout.map (·.map some) := by
  decide

end Machine

end ChipEight
