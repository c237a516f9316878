import ChipEight.Proofs.Consoles
import ChipEight.Proofs.Notices

namespace ChipEight

inductive Request
  | act (a : Action)
  | loadFile (files : Files) (path : String)

structure Reply where
  machine : Machine
  notices : List Notice
  answer : Except RomFault (Option Bool)

structure Seen where
  machine : Machine
  answer : Except RomFault (Option Bool)
  stdout : String
  stderr : String
  beeps : List Int

def Reply.seen (c : Console) (r : Reply) : Seen :=
  ⟨r.machine, r.answer, c.stdout r.notices, c.stderr r.notices, c.beeps r.notices⟩

def Step.warning? (s : Step) : Option String :=
  match s.instruction with
  | .unknown word =>
    some ("Unknown opcode 0x" ++ Text.hex 4 word.toNat ++ " at address 0x" ++
      Text.hex 3 s.address ++ ", skipping it\n")
  | _ => none

theorem Step.warning_of_ne {pc : Nat} {i : Instruction} (h : ∀ word, i ≠ .unknown word) :
    Step.warning? ⟨pc, i⟩ = none := by
  cases i with
  | unknown word => exact absurd rfl (h word)
  | _ => rfl

namespace Console

variable {c : Console} {notices : List Notice}

theorem stderr_append (c : Console) (notices more : List Notice) :
    c.stderr (notices ++ more) = c.stderr notices ++ c.stderr more := by
  rw [stderr, List.map_append, String.join_append]
  rfl

theorem stdout_append (c : Console) (notices more : List Notice) :
    c.stdout (notices ++ more) = c.stdout notices ++ c.stdout more := by
  rw [stdout, List.map_append, String.join_append]
  rfl

theorem join_map_of_forall {α : Type} {f : α → String} {l : List α} (h : ∀ a ∈ l, f a = "") :
    String.join (l.map f) = "" := by
  induction l with
  | nil => exact String.join_nil
  | cons a l ih =>
    obtain ⟨ha, hl⟩ := List.forall_mem_cons.mp h
    rw [List.map_cons, String.join_cons, ha, ih hl, String.append_empty]

theorem stderr_of_forall (h : ∀ note ∈ notices, note.warning? = none) : c.stderr notices = "" := by
  refine join_map_of_forall fun note hnote ↦ ?_
  rw [h note hnote]
  rfl

theorem written_of_texts {n : Notice} (h : c.texts n = []) : c.written n = "" := by
  rw [written, h]
  rfl

theorem stdout_of_silent (hv : c.verbose = false) (hq : c.Quiet) (notices : List Notice) :
    c.stdout notices = "" :=
  join_map_of_forall fun n _ ↦ written_of_texts (texts_of_silent hv hq n)

theorem stdout_notices (hv : c.verbose = false) (s : Step) : c.stdout s.notices = "" := by
  refine join_map_of_forall fun n hn ↦ written_of_texts ?_
  rw [texts, diagnostics, ringing, hv, Step.beepAt_of_mem_notices hn]
  rfl

theorem join_map_getD (texts : List (Option String)) :
    String.join (texts.map (·.getD "")) = String.join (texts.filterMap id) := by
  induction texts with
  | nil => rfl
  | cons text texts ih =>
    rw [List.map_cons, String.join_cons, ih]
    cases text with
    | none => exact String.empty_append
    | some text => exact String.join_cons.symm

theorem stderr_notices (c : Console) (s : Step) : c.stderr s.notices = s.warning?.getD "" := by
  obtain ⟨address, i⟩ := s
  cases i with
  | address op nnn | register op x => cases op <;> rfl
  | unknown word =>
    change String.join [line (some _)] = _
    rw [String.join_cons, String.join_nil, String.append_empty]
    exact String.append_assoc ..
  | _ => rfl

end Console

namespace Machine

def reply (c : Console) (random : Nat → Int) (m : Machine) : Request → Reply
  | .act a =>
    let o := m.perform random a c
    ⟨o.machine, o.notices, o.answer.mapError .machine⟩
  | .loadFile files path =>
    match m.loadFile files path c with
    | .ok (n, notices) => ⟨n, notices, .ok none⟩
    | .error e => ⟨e.machine, [], .error e.fault⟩

/-- A failed request is followed by the next one. -/
def replies (c : Console) (random : Nat → Int) (m : Machine) : List Request → List Reply
  | [] => []
  | r :: requests =>
    let reply := m.reply c random r
    reply :: reply.machine.replies c random requests

def session (c : Console) (random : Nat → Int) (m : Machine) (requests : List Request) :
    List Seen :=
  (m.replies c random requests).map (Reply.seen c)

/-- All that the machine has to tell, where nothing keeps it from going on. -/
def told (random : Nat → Int) (m : Machine) (requests : List Request) : List Notice :=
  (m.replies .off random requests).flatMap (·.notices)

def executing? (random : Nat → Int) (m : Machine) : Request → Option Step
  | .act a => m.executed? random a
  | .loadFile .. => none

def executions (random : Nat → Int) (m : Machine) : List Request → List (Option Step)
  | [] => []
  | r :: requests =>
    m.executing? random r :: (m.reply .off random r).machine.executions random requests

variable {random : Nat → Int} {m : Machine} {a : Action} {c c' : Console}

theorem reply_of_hears {r : Request} (h : c.Hears (m.reply .off random r).notices) :
    m.reply c random r = m.reply .off random r := by
  cases r with
  | act a => simp only [reply, perform_of_hears h]
  | loadFile files path =>
    have hload : m.loadFile files path c = m.loadFile files path := by
      refine loadFile_of_hears fun r hr ↦ ?_
      simp only [reply, hr] at h
      exact h
    simp only [reply, hload]

/-- Consoles that hear all there is to tell see the machine do the same. -/
theorem replies_of_hears {requests : List Request} (h : c.Hears (m.told random requests)) :
    m.replies c random requests = m.replies .off random requests := by
  induction requests generalizing m with
  | nil => rfl
  | cons r requests ih =>
    rw [told, replies, List.flatMap_cons] at h
    have hr := reply_of_hears fun n hn ↦ h n (List.mem_append_left _ hn)
    rw [replies, replies, hr]
    exact congrArg (_ :: ·) (ih fun n hn ↦ h n (List.mem_append_right _ hn))

theorem stderr_poll (c : Console) (m : Machine) (now : Int) : c.stderr (m.poll now).2 = "" := by
  refine Console.stderr_of_forall fun note hnote ↦ ?_
  rw [eq_beep_of_mem_poll hnote]
  rfl

theorem stderr_cycle (c : Console) (random : Nat → Int) (m : Machine) (t : Moment) :
    c.stderr (m.cycle random t).notices =
      ((m.executed? random (.cycle t)).bind Step.warning?).getD "" := by
  cases he : m.executed? random (.cycle t) with
  | some s =>
    obtain ⟨n, hn⟩ := notices_cycle_of_executed he
    rw [hn, c.stderr_append, c.stderr_notices, stderr_poll, String.append_empty]
    rfl
  | none =>
    rw [executed?] at he
    have hc := m.cycle_course random t
    generalize m.cycle random t = o at he hc ⊢
    cases hc with
    | wait => exact stderr_poll c _ t.poll
    | unfetched | crash => rfl
    | step n notices hw =>
      rw [hw, finish_answer] at he
      cases he

/-- The only thing that is ever written to the error stream is the warning about an unknown
word. -/
theorem stderr_perform (c : Console) (random : Nat → Int) (m : Machine) (a : Action) :
    c.stderr (m.perform random a).notices =
      ((m.executed? random a).bind Step.warning?).getD "" := by
  by_cases ha : a.Outside
  · have hnone : m.executed? random a = none := by
      cases a with
      | cycle t => exact ha.elim
      | _ => rfl
    rw [hnone]
    refine Console.stderr_of_forall fun note hnote ↦ ?_
    rcases notices_perform_of_outside random m ha note hnote with ⟨_, -, rfl⟩ | ⟨k, x, rfl⟩
    · rfl
    · rfl
  · cases a with
    | cycle t => exact stderr_cycle c random m t
    | reset now => rfl
    | _ => exact absurd trivial ha

theorem stderr_reply (c : Console) (random : Nat → Int) (m : Machine) (r : Request) :
    c.stderr (m.reply .off random r).notices =
      ((m.executing? random r).bind Step.warning?).getD "" := by
  cases r with
  | act a => exact stderr_perform c random m a
  | loadFile files path =>
    simp only [reply, loadFile]
    cases (files path).mapError fun e ↦ (⟨m, .file e⟩ : Raise RomFault) with
    | error e => rfl
    | ok rom =>
      simp only [bind, Except.bind]
      cases m.load rom <;> rfl

theorem stderr_replies (c : Console) (random : Nat → Int) (m : Machine)
    (requests : List Request) :
    (m.replies .off random requests).map (fun r ↦ c.stderr r.notices) =
      (m.executions random requests).map fun s ↦ (s.bind Step.warning?).getD "" := by
  induction requests generalizing m with
  | nil => rfl
  | cons r requests ih =>
    rw [replies, executions, List.map_cons, List.map_cons, ih]
    exact congrArg (· :: _) (stderr_reply c random m r)

theorem stdout_session (hv : c.verbose = false) (hq : c.Quiet) (random : Nat → Int) (m : Machine)
    (requests : List Request) : ∀ s ∈ m.session c random requests, s.stdout = "" := by
  refine List.forall_mem_map.mpr fun r _ ↦ ?_
  exact Console.stdout_of_silent hv hq r.notices

/-- Consoles whose output takes what they print there do not interfere with the machine: it goes
the same way and answers the same, and the same warnings are written, one for each unknown word that
is executed, with the word and its address, in the order of execution. With diagnostics off nothing
else is written. -/
theorem diagnostics_do_not_interfere (random : Nat → Int) (m : Machine) (requests : List Request)
    {c c' : Console} (hc : c.Hears (m.told random requests))
    (hc' : c'.Hears (m.told random requests)) :
    let seen := m.session c random requests
    let warnings := (m.executions random requests).map fun s ↦ s.bind Step.warning?
    seen.map (fun s ↦ (s.machine, s.answer, s.stderr)) =
      (m.session c' random requests).map (fun s ↦ (s.machine, s.answer, s.stderr)) ∧
    seen.map (·.stderr) = warnings.map (·.getD "") ∧
    String.join (seen.map (·.stderr)) = String.join (warnings.filterMap id) ∧
    (c.verbose = false → c.Quiet → ∀ s ∈ seen, s.stdout = "") := by
  intro seen warnings
  have hstderr : seen.map (·.stderr) = warnings.map (·.getD "") := by
    have hreplies := stderr_replies c random m requests
    rw [← replies_of_hears hc] at hreplies
    rw [List.map_map]
    exact List.map_map.trans hreplies
  refine ⟨?_, hstderr, ?_, ?_⟩
  · simp only [seen, session, replies_of_hears hc, replies_of_hears hc', List.map_map]
    rfl
  · rw [hstderr, Console.join_map_getD]
  · intro hv hq
    exact stdout_session hv hq random m requests

/-- One console is silent before an output that takes nothing, the other one shows all. -/
theorem diagnostics_do_not_interfere_unknown_word :
    let c : Console := ⟨false, some [], fun _ ↦ some (.unwritable "no output")⟩
    let c' : Console := ⟨true, none, fun _ ↦ none⟩
    let requests : List Request :=
      [.loadFile (fun _ ↦ .ok [0x00, 0x01, 0xFF, 0xFF]) "rom", .act (.cycle (.still 0)),
        .act (.press 3), .act (.cycle (.still 0))]
    (c.Hears ((fresh 0).told (fun _ ↦ 0) requests) ∧
      c'.Hears ((fresh 0).told (fun _ ↦ 0) requests) ∧ c.verbose = false ∧ c.Quiet) ∧
      ((fresh 0).session c (fun _ ↦ 0) requests).map (·.machine) =
        ((fresh 0).session c' (fun _ ↦ 0) requests).map (·.machine) ∧
      (∀ s ∈ (fresh 0).session c (fun _ ↦ 0) requests, s.stdout = "") ∧
      String.join (((fresh 0).session c (fun _ ↦ 0) requests).map (·.stderr)) =
        "Unknown opcode 0xffff at address 0x202, skipping it\n" := by
  intro c c' requests
  have hc := (Console.unrefused_of_silent (c := c) rfl rfl).hears
    ((fresh 0).told (fun _ ↦ 0) requests)
  have hc' := (Console.unrefused_of_open (c := c') fun _ ↦ rfl).hears
    ((fresh 0).told (fun _ ↦ 0) requests)
  obtain ⟨hsame, -, hjoin, hsilent⟩ :=
    diagnostics_do_not_interfere (fun _ ↦ 0) (fresh 0) requests hc hc'
  have hwarnings : (((fresh 0).executions (fun _ ↦ 0) requests).map
      fun s ↦ s.bind Step.warning?).filterMap id =
        ["Unknown opcode 0xffff at address 0x202, skipping it\n"] := by
    decide +kernel
  refine ⟨⟨hc, hc', rfl, rfl⟩, ?_, hsilent rfl rfl, ?_⟩
  · have hmachines := congrArg (List.map Prod.fst) hsame
    rw [List.map_map, List.map_map] at hmachines
    exact hmachines
  · rw [hjoin, hwarnings]
    rfl

end Machine

end ChipEight
