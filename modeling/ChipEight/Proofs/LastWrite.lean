import ChipEight.Proofs.Limits
import Mathlib.Data.List.Induction

namespace ChipEight.Memory

namespace Access

def span? : Access → Option (Int × Int)
  | .reset => none
  | .writeByte address _ | .readByte address => some (address, 1)
  | .writeRange address data => some (address, data.length)
  | .readWord address => some (address, 2)
  | .readRange address length => some (address, length)

/-- Why a store of `size` bytes refuses an access: its span reaches out of the store, or it would
write a number that is no byte. -/
def Refused (size : Nat) (access : Access) (e : Fault) : Prop :=
  (∃ address length, access.span? = some (address, length) ∧
    (address < 0 ∨ length < 0 ∨ size < address + length) ∧ e = .outOfBounds address length) ∨
  ∃ address data, access = .writeRange address data ∧ InBounds size address data.length ∧
    (∃ d ∈ data, ¬ IsByte d) ∧ e = .notAByte

/-- What an access puts at the address `i` of a store of `size` bytes, if it puts anything there. -/
def puts? (size i : Nat) : Access → Option Int
  | .reset => some 0
  | .writeByte address value =>
    if InBounds size address 1 ∧ address = i then some (value % 256) else none
  | .writeRange address data =>
    if InBounds size address data.length ∧ (∀ d ∈ data, IsByte d) ∧ address ≤ i then
      data[(i - address).toNat]?
    else none
  | _ => none

def Answers (content : Nat → Int) : Access → Reading → Prop
  | .readByte address, .byte b => b.toNat = content address.toNat
  | .readWord address, .word w =>
    w.toNat = 256 * content address.toNat + content (address.toNat + 1)
  | .readRange address length, .bytes bs =>
    bs.map (fun b ↦ (b.toNat : Int)) =
      (List.range length.toNat).map fun i ↦ content (address.toNat + i)
  | .reset, .nothing | .writeByte _ _, .nothing | .writeRange _ _, .nothing => True
  | _, _ => False

end Access

/-- What was put at an address last, and zero if nothing was. -/
def lastPut (size : Nat) (history : List Access) (i : Nat) : Int :=
  (history.reverse.findSome? (Access.puts? size i)).getD 0

variable {size : Nat}

def contents (m : Memory size) : List Int :=
  m.bytes.toList.map fun b ↦ (b.toNat : Int)

def run (m : Memory size) (history : List Access) : Memory size :=
  history.foldl (fun m a ↦ (m.perform a).1) m

theorem run_snoc (m : Memory size) (history : List Access) (a : Access) :
    m.run (history ++ [a]) = ((m.run history).perform a).1 := by
  rw [run, List.foldl_append]
  rfl

theorem lastPut_snoc (history : List Access) (a : Access) (i : Nat) :
    lastPut size (history ++ [a]) i = (a.puts? size i).getD (lastPut size history i) := by
  rw [lastPut, List.reverse_append, List.reverse_singleton, List.singleton_append,
    List.findSome?_cons]
  cases a.puts? size i <;> rfl

theorem toNat_ofInt (n : Int) : ((UInt8.ofInt n).toNat : Int) = n % 256 := by
  rw [UInt8.ofInt, UInt8.toNat_ofNat']
  omega

theorem toNat_ofInt_of_isByte {n : Int} (h : IsByte n) : ((UInt8.ofInt n).toNat : Int) = n := by
  rw [toNat_ofInt, Int.emod_eq_of_lt h.1 h.2]

theorem map_toNat_ofInt {data : List Int} (h : ∀ d ∈ data, IsByte d) :
    (data.map UInt8.ofInt).map (fun b ↦ (b.toNat : Int)) = data := by
  rw [List.map_map]
  exact List.map_congr_left (fun d hd ↦ toNat_ofInt_of_isByte (h d hd)) |>.trans (List.map_id _)

theorem contents_eq (m : Memory size) :
    m.contents = (List.range size).map fun i ↦ ((m.byteAt i).toNat : Int) := by
  apply List.ext_getElem
  · simp [contents]
  · intro i hi _
    have hi : i < size := by simpa [contents] using hi
    simp [contents, byteAt, hi]

theorem toList_splice (m : Memory size) {a : Nat} {bs : List Byte} (h : a + bs.length ≤ size) :
    (m.splice a bs).bytes.toList =
      m.bytes.toList.take a ++ bs ++ m.bytes.toList.drop (a + bs.length) := by
  induction bs generalizing m a with
  | nil => simp [splice]
  | cons b bs ih =>
    rw [List.length_cons] at h ⊢
    have ha : a < m.bytes.toList.length := by rw [Vector.length_toList]; omega
    rw [splice, ih _ (by omega), Vector.toList_setIfInBounds, List.take_add_one,
      List.take_set_of_le (Nat.le_refl a), List.getElem?_set_self ha,
      List.drop_set_of_lt (by omega), show a + 1 + bs.length = a + (bs.length + 1) by omega]
    simp

/-- After a splice of bytes, seen as numbers, an address has what came from them or what it had. -/
theorem toNat_byteAt_splice (m : Memory size) {address : Int} {bs : List Byte} {data : List Int}
    (hb : InBounds size address data.length) (hd : bs.map (fun b ↦ (b.toNat : Int)) = data)
    (i : Nat) :
    ((m.splice address.toNat bs).byteAt i).toNat =
      (if address ≤ i then data[(i - address).toNat]? else none).getD (m.byteAt i).toNat := by
  subst hd
  rw [List.length_map] at hb
  obtain ⟨ha, -, hend⟩ := hb
  rw [byteAt_splice, List.getElem?_map]
  have hsub : ((i : Int) - address).toNat = i - address.toNat := by omega
  by_cases hle : address ≤ i
  · rw [if_pos hle, hsub]
    by_cases hlt : i - address.toNat < bs.length
    · rw [if_pos (by omega), List.getD_eq_getElem?_getD, List.getElem?_eq_getElem hlt]
      rfl
    · rw [if_neg (by omega), List.getElem?_eq_none (by omega)]
      rfl
  · rw [if_neg (by omega), if_neg hle]
    rfl

theorem singleton_getElem?_sub (value address i : Int) :
    (if address ≤ i then [value][(i - address).toNat]? else none) =
      if address = i then some value else none := by
  by_cases hi : address = i
  · simp [hi]
  · rw [if_neg hi]
    split
    · exact List.getElem?_eq_none (by simp; omega)
    · rfl

theorem toNat_byteAt_perform (m : Memory size) (a : Access) (i : Nat) :
    ((m.perform a).1.byteAt i).toNat = (a.puts? size i).getD (m.byteAt i).toNat := by
  cases a with
  | reset => exact congrArg (fun b : Byte ↦ (b.toNat : Int)) (byteAt_zeroed i)
  | writeByte address value =>
    rw [perform, Access.puts?]
    -- A byte is written like a range of length one.
    by_cases hb : InBounds size address 1
    · have hd : [UInt8.ofInt value].map (fun b ↦ (b.toNat : Int)) = [value % 256] :=
        congrArg (fun n ↦ [n]) (toNat_ofInt value)
      rw [writeByte_of_inBounds _ _ hb, written, toNat_byteAt_splice m hb hd,
        singleton_getElem?_sub]
      simp only [hb, true_and]
    · rw [writeByte_of_not_inBounds _ _ hb, written, if_neg fun h ↦ hb h.1]
      rfl
  | writeRange address data =>
    rw [perform, Access.puts?]
    by_cases hb : InBounds size address data.length
    · by_cases hd : ∀ d ∈ data, IsByte d
      · rw [writeRange_of_inBounds _ hb hd, written,
          toNat_byteAt_splice m hb (map_toNat_ofInt hd)]
        simp only [eq_true hb, eq_true hd, true_and]
      · have hd' : ∃ d ∈ data, ¬ IsByte d := by simpa using hd
        rw [writeRange_of_not_isByte _ hb hd', written, if_neg fun h ↦ hd h.2.1]
        rfl
    · rw [writeRange_of_not_inBounds _ hb, written, if_neg fun h ↦ hb h.1]
      rfl
  | readByte | readWord | readRange => rfl

theorem toNat_byteAt_run (history : List Access) (i : Nat) :
    (((zeroed size).run history).byteAt i).toNat = lastPut size history i := by
  induction history using List.reverseRecOn with
  | nil => exact congrArg (fun b : Byte ↦ (b.toNat : Int)) (byteAt_zeroed i)
  | append_singleton history a ih => rw [run_snoc, lastPut_snoc, toNat_byteAt_perform _ a, ih]

theorem not_inBounds_iff {address length : Int} :
    ¬ InBounds size address length ↔ address < 0 ∨ length < 0 ∨ size < address + length := by
  simp only [InBounds]
  omega

theorem perform_of_not_inBounds (m : Memory size) {a : Access} {address length : Int}
    (hs : a.span? = some (address, length)) (hb : ¬ InBounds size address length) :
    m.perform a = (m, .error (.outOfBounds address length)) := by
  cases a with
  | reset => cases hs
  | writeByte _ value => cases hs; rw [perform, writeByte_of_not_inBounds _ _ hb, written]
  | writeRange => cases hs; rw [perform, writeRange_of_not_inBounds _ hb, written]
  | readByte => cases hs; rw [perform, readByte_of_not_inBounds _ hb]; rfl
  | readWord => cases hs; rw [perform, readWord_of_not_inBounds _ hb]; rfl
  | readRange => cases hs; rw [perform, readRange_of_not_inBounds _ hb]; rfl

theorem perform_of_not_refused (m : Memory size) {a : Access} (h : ∀ e, ¬ a.Refused size e) :
    ∃ r, (m.perform a).2 = .ok r ∧ a.Answers (fun i ↦ (m.byteAt i).toNat) r := by
  have hb : ∀ address length, a.span? = some (address, length) →
      InBounds size address length := by
    intro address length hs
    by_contra hb
    exact h _ (.inl ⟨address, length, hs, not_inBounds_iff.mp hb, rfl⟩)
  cases a with
  | reset => exact ⟨.nothing, rfl, trivial⟩
  | writeByte address value =>
    rw [perform, writeByte_of_inBounds _ _ (hb _ _ rfl)]
    exact ⟨.nothing, rfl, trivial⟩
  | writeRange address data =>
    have hb := hb _ _ rfl
    have hd : ∀ d ∈ data, IsByte d := by
      intro d hd
      by_contra hn
      exact h _ (.inr ⟨address, data, rfl, hb, ⟨d, hd, hn⟩, rfl⟩)
    rw [perform, writeRange_of_inBounds _ hb hd]
    exact ⟨.nothing, rfl, trivial⟩
  | readByte address =>
    rw [perform, readByte_of_inBounds _ (hb _ _ rfl)]
    exact ⟨.byte _, rfl, rfl⟩
  | readWord address =>
    rw [perform, readWord_of_inBounds _ (hb _ _ rfl)]
    refine ⟨.word _, rfl, ?_⟩
    rw [Access.Answers, Word.toNat_ofBytes, Int.natCast_add, Int.natCast_mul]
    rfl
  | readRange address length =>
    rw [perform, readRange_of_inBounds _ (hb _ _ rfl)]
    refine ⟨.bytes _, rfl, ?_⟩
    rw [Access.Answers, List.map_map]
    rfl

theorem perform_of_refused (m : Memory size) {a : Access} {e : Fault} (h : a.Refused size e) :
    m.perform a = (m, .error e) := by
  rcases h with ⟨address, length, hs, hb, rfl⟩ | ⟨address, data, rfl, hb, hd, rfl⟩
  · exact m.perform_of_not_inBounds hs (not_inBounds_iff.mpr hb)
  · rw [perform, writeRange_of_not_isByte _ hb hd, written]

theorem refused_of_error {m : Memory size} {a : Access} {e : Fault}
    (h : (m.perform a).2 = .error e) : a.Refused size e := by
  by_cases hr : ∃ e', a.Refused size e'
  · obtain ⟨e', hr⟩ := hr
    rw [m.perform_of_refused hr] at h
    cases h
    exact hr
  · obtain ⟨r, hok, -⟩ := m.perform_of_not_refused fun e' he ↦ hr ⟨e', he⟩
    rw [hok] at h
    cases h

theorem readWord_eq_ok_iff (m : Memory size) (address : Int) (w : Word) :
    m.readWord address = .ok w ↔
      ∃ high low, m.readByte address = .ok high ∧ m.readByte (address + 1) = .ok low ∧
        w.toNat = 256 * high.toNat + low.toNat := by
  by_cases hb : InBounds size address 2
  · have hhigh : InBounds size address 1 := by simp only [InBounds] at hb ⊢; omega
    have hlow : InBounds size (address + 1) 1 := by simp only [InBounds] at hb ⊢; omega
    have hsucc : (address + 1).toNat = address.toNat + 1 := Int.toNat_add hb.1 (by decide)
    rw [readWord_of_inBounds _ hb, readByte_of_inBounds _ hhigh, readByte_of_inBounds _ hlow, hsucc]
    constructor
    · intro h
      cases h
      exact ⟨_, _, rfl, rfl, Word.toNat_ofBytes _ _⟩
    · rintro ⟨high, low, hh, hl, hw⟩
      cases hh
      cases hl
      rw [← Word.toNat_ofBytes] at hw
      exact congrArg Except.ok (UInt16.toNat_inj.mp hw).symm
  · rw [readWord_of_not_inBounds _ hb]
    constructor
    · intro h
      cases h
    · rintro ⟨high, low, hh, hl, -⟩
      have hlow : ¬ InBounds size address 1 ∨ ¬ InBounds size (address + 1) 1 := by
        simp only [InBounds] at hb ⊢; omega
      rcases hlow with hn | hn
      · rw [readByte_of_not_inBounds _ hn] at hh
        cases hh
      · rw [readByte_of_not_inBounds _ hn] at hl
        cases hl

theorem contents_writeRange {m n : Memory size} {address : Int} {data : List Int}
    (h : m.writeRange address data = .ok n) :
    n.contents =
      m.contents.take address.toNat ++ data ++ m.contents.drop (address.toNat + data.length) := by
  by_cases hb : InBounds size address data.length
  · by_cases hd : ∀ d ∈ data, IsByte d
    · rw [writeRange_of_inBounds _ hb hd] at h
      cases h
      have hfit : address.toNat + (data.map UInt8.ofInt).length ≤ size := by
        obtain ⟨ha, -, hend⟩ := hb
        rw [List.length_map]
        omega
      simp only [contents, toList_splice m hfit, List.map_append, map_toNat_ofInt hd, List.map_take,
        List.map_drop, List.length_map]
    · rw [writeRange_of_not_isByte _ hb (by simpa using hd)] at h
      cases h
  · rw [writeRange_of_not_inBounds _ hb] at h
    cases h

/-- Whatever has been done with a store, it holds at each address what was put there last, refuses
exactly the accesses that reach out of it or would write a number that is no byte, and answers
all others from its content. -/
theorem store_keeps_last_write (size : Nat) (history : List Access) :
    let m := (zeroed size).run history
    let content := lastPut size history
    m.contents = (List.range size).map content ∧
    (∀ access e, (m.perform access).2 = .error e ↔ access.Refused size e) ∧
    (∀ access e, (m.perform access).2 = .error e → (m.perform access).1 = m) ∧
    (∀ access r, (m.perform access).2 = .ok r → access.Answers content r) ∧
    (∀ address w, m.readWord address = .ok w ↔
      ∃ high low, m.readByte address = .ok high ∧ m.readByte (address + 1) = .ok low ∧
        w.toNat = 256 * high.toNat + low.toNat) ∧
    ∀ address data n, m.writeRange address data = .ok n →
      n.contents =
        m.contents.take address.toNat ++ data ++
          m.contents.drop (address.toNat + data.length) := by
  intro m content
  have hcontent : (fun i ↦ ((m.byteAt i).toNat : Int)) = content :=
    funext (toNat_byteAt_run history)
  refine ⟨?_, ?_, ?_, ?_, m.readWord_eq_ok_iff, fun _ _ _ ↦ contents_writeRange⟩
  · rw [contents_eq, hcontent]
  · intro access e
    exact ⟨refused_of_error, fun h ↦ congrArg Prod.snd (m.perform_of_refused h)⟩
  · intro access e h
    exact congrArg Prod.fst (m.perform_of_refused (refused_of_error h))
  · intro access r h
    obtain ⟨r', hr, hanswers⟩ := m.perform_of_not_refused (a := access) fun e he ↦ by
      rw [m.perform_of_refused he] at h
      cases h
    rw [h] at hr
    cases hr
    rw [← hcontent]
    exact hanswers

end ChipEight.Memory
