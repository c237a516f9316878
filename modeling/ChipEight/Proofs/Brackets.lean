import ChipEight.Proofs.Trace
import Mathlib.Data.List.Induction

namespace ChipEight

def Step.IsCall (s : Step) : Prop :=
  ∃ nnn, s.instruction = .address .call nnn

def Step.IsReturn (s : Step) : Prop :=
  s.instruction = .plain .ret

/-- Calls are the opening brackets and returns the closing ones. -/
inductive Balanced : List Step → Prop
  | nil : Balanced []
  | other {s : Step} {rest : List Step} (hc : ¬ s.IsCall) (hr : ¬ s.IsReturn)
      (h : Balanced rest) : Balanced (s :: rest)
  | call {c r : Step} {inner rest : List Step} (hc : c.IsCall) (hi : Balanced inner)
      (hr : r.IsReturn) (h : Balanced rest) : Balanced (c :: (inner ++ r :: rest))

/-- A return among the steps matches a call right before them. -/
def Closed (steps : List Step) : Prop :=
  ∃ inner r after, steps = inner ++ r :: after ∧ Balanced inner ∧ r.IsReturn

open scoped Classical in
/-- The addresses of the calls that no later return matches, the oldest first. -/
noncomputable def unmatched : List Step → List Nat
  | [] => []
  | s :: rest =>
    if s.IsCall ∧ ¬ Closed rest then s.address :: unmatched rest else unmatched rest

variable {s c r : Step} {b rest steps : List Step}

theorem Step.IsCall.not_isReturn (h : s.IsCall) : ¬ s.IsReturn := by
  obtain ⟨nnn, h⟩ := h
  intro hr
  cases h.symm.trans hr

theorem Balanced.append (hb : Balanced b) (h : Balanced rest) : Balanced (b ++ rest) := by
  induction hb with
  | nil => exact h
  | other hc hr _ ih => exact .other hc hr ih
  | call hc hi hr _ _ ih =>
    rw [List.cons_append, List.append_assoc]
    exact .call hc hi hr ih

theorem Closed.of_return (hr : r.IsReturn) : Closed (r :: rest) :=
  ⟨[], r, rest, rfl, .nil, hr⟩

theorem not_closed_nil : ¬ Closed [] := by
  rintro ⟨inner, r, after, h, -⟩
  cases inner <;> cases h

theorem Closed.append (hb : Balanced b) (h : Closed rest) : Closed (b ++ rest) := by
  obtain ⟨inner, r, after, rfl, hi, hr⟩ := h
  exact ⟨b ++ inner, r, after, by simp, hb.append hi, hr⟩

theorem unmatched_of_not_isCall (hs : ¬ s.IsCall) : unmatched (s :: rest) = unmatched rest := by
  rw [unmatched, if_neg fun h ↦ hs h.1]

theorem unmatched_of_closed (h : Closed rest) : unmatched (s :: rest) = unmatched rest := by
  rw [unmatched, if_neg fun h' ↦ h'.2 h]

theorem unmatched_of_not_closed (hs : s.IsCall) (h : ¬ Closed rest) :
    unmatched (s :: rest) = s.address :: unmatched rest := by
  rw [unmatched, if_pos ⟨hs, h⟩]

theorem unmatched_append (hb : Balanced b) (rest : List Step) :
    unmatched (b ++ rest) = unmatched rest := by
  induction hb generalizing rest with
  | nil => rfl
  | other hc _ _ ih =>
    rw [List.cons_append, unmatched_of_not_isCall hc]
    exact ih rest
  | @call c r inner after hc hi hr _ ihi ih =>
    have hclosed : Closed (inner ++ r :: (after ++ rest)) := .append hi (.of_return hr)
    have hrc : ¬ r.IsCall := fun h ↦ h.not_isReturn hr
    rw [List.cons_append, List.append_assoc, List.cons_append, unmatched_of_closed hclosed, ihi,
      unmatched_of_not_isCall hrc, ih]

theorem unmatched_of_balanced (hb : Balanced b) : unmatched b = [] := by
  rw [← List.append_nil b, unmatched_append hb, unmatched]

/-- Without a call or a return left over, the steps are balanced. -/
theorem balanced_of_unmatched (hc : ¬ Closed steps) (hu : unmatched steps = []) :
    Balanced steps := by
  -- Behind a matched call the argument goes on after the return, more than one step further.
  induction hn : steps.length using Nat.strongRecOn generalizing steps with
  | _ n ih =>
    subst hn
    cases steps with
    | nil => exact .nil
    | cons s rest =>
      have hr : ¬ s.IsReturn := fun hr ↦ hc (.of_return hr)
      by_cases hs : s.IsCall
      · by_cases hrest : Closed rest
        · rw [unmatched_of_closed hrest] at hu
          obtain ⟨inner, r, after, rfl, hi, hr⟩ := hrest
          rw [unmatched_append hi, unmatched_of_not_isCall fun h ↦ h.not_isReturn hr] at hu
          have hafter : ¬ Closed after := fun h ↦
            hc (by simpa using Closed.append (.call hs hi hr .nil) h)
          exact .call hs hi hr (ih _ (by simp; omega) hafter hu rfl)
        · rw [unmatched_of_not_closed hs hrest] at hu
          cases hu
      · rw [unmatched_of_not_isCall hs] at hu
        have hrest : ¬ Closed rest := fun h ↦ hc (.append (.other hs hr .nil) h)
        exact .other hs hr (ih _ (by simp) hrest hu rfl)

theorem closed_snoc : Closed (steps ++ [s]) ↔ Closed steps ∨ s.IsReturn ∧ Balanced steps := by
  constructor
  · rintro ⟨inner, r, after, he, hi, hr⟩
    rcases List.eq_nil_or_concat after with rfl | ⟨after, last, rfl⟩
    · obtain ⟨rfl, rfl⟩ := List.append_singleton_inj.mp he
      exact .inr ⟨hr, hi⟩
    · rw [List.concat_eq_append, ← List.cons_append, ← List.append_assoc] at he
      obtain ⟨rfl, rfl⟩ := List.append_singleton_inj.mp he
      exact .inl ⟨inner, r, after, rfl, hi, hr⟩
  · rintro (⟨inner, r, after, rfl, hi, hr⟩ | ⟨hs, hb⟩)
    · exact ⟨inner, r, after ++ [s], by simp, hi, hr⟩
    · exact ⟨steps, s, [], rfl, hb, hs⟩

theorem unmatched_snoc (hr : ¬ s.IsReturn) :
    unmatched (steps ++ [s]) = unmatched steps ++ unmatched [s] := by
  induction steps with
  | nil => rfl
  | cons t steps ih =>
    have h : Closed (steps ++ [s]) ↔ Closed steps := by
      rw [closed_snoc, or_iff_left fun h ↦ hr h.1]
    rw [List.cons_append]
    by_cases ht : t.IsCall
    · by_cases hclosed : Closed steps
      · rw [unmatched_of_closed (h.mpr hclosed), unmatched_of_closed hclosed, ih]
      · rw [unmatched_of_not_closed ht (mt h.mp hclosed), unmatched_of_not_closed ht hclosed, ih,
          List.cons_append]
    · rw [unmatched_of_not_isCall ht, unmatched_of_not_isCall ht, ih]

theorem unmatched_snoc_other (hc : ¬ s.IsCall) (hr : ¬ s.IsReturn) :
    unmatched (steps ++ [s]) = unmatched steps := by
  rw [unmatched_snoc hr, unmatched_of_not_isCall hc, unmatched, List.append_nil]

theorem unmatched_snoc_call (hc : s.IsCall) :
    unmatched (steps ++ [s]) = unmatched steps ++ [s.address] := by
  rw [unmatched_snoc hc.not_isReturn, unmatched_of_not_closed hc not_closed_nil, unmatched]

theorem unmatched_snoc_return (hr : s.IsReturn) :
    unmatched (steps ++ [s]) = (unmatched steps).dropLast := by
  induction steps with
  | nil => exact unmatched_of_not_isCall fun h ↦ h.not_isReturn hr
  | cons t steps ih =>
    rw [List.cons_append]
    by_cases ht : t.IsCall
    · by_cases hclosed : Closed steps
      · rw [unmatched_of_closed (closed_snoc.mpr (.inl hclosed)), unmatched_of_closed hclosed, ih]
      · rw [unmatched_of_not_closed ht hclosed]
        by_cases hu : unmatched steps = []
        · have hb := balanced_of_unmatched hclosed hu
          rw [unmatched_of_closed (closed_snoc.mpr (.inr ⟨hr, hb⟩)), ih, hu]
          rfl
        · have hb : ¬ Balanced steps := mt unmatched_of_balanced hu
          have hclosed' : ¬ Closed (steps ++ [s]) := by
            rw [closed_snoc, or_iff_left fun h ↦ hb h.2]
            exact hclosed
          rw [unmatched_of_not_closed ht hclosed', ih, List.dropLast_cons_of_ne_nil hu]
    · rw [unmatched_of_not_isCall ht, unmatched_of_not_isCall ht, ih]

theorem unmatched_append_balanced (hb : Balanced b) (steps : List Step) :
    unmatched (steps ++ b) = unmatched steps := by
  induction hb generalizing steps with
  | nil => rw [List.append_nil]
  | @other s rest hc hr _ ih =>
    have h := ih (steps ++ [s])
    rw [unmatched_snoc_other hc hr, List.append_assoc] at h
    exact h
  | @call c r inner rest hc hi hr _ ihi ih =>
    have h := ih (steps ++ [c] ++ inner ++ [r])
    rw [unmatched_snoc_return hr, ihi, unmatched_snoc_call hc, List.dropLast_concat] at h
    simpa using h

/-- The steps since the call are balanced: the next return matches it. -/
def Innermost (steps : List Step) (c : Step) : Prop :=
  ∃ before inner, steps = before ++ c :: inner ∧ c.IsCall ∧ Balanced inner

theorem unmatched_of_innermost (h : Innermost steps c) :
    ∃ addresses, unmatched steps = addresses ++ [c.address] := by
  obtain ⟨before, inner, rfl, hc, hi⟩ := h
  refine ⟨unmatched before, ?_⟩
  have h := unmatched_append_balanced hi (before ++ [c])
  rw [unmatched_snoc_call hc, List.append_assoc] at h
  exact h

/-- The youngest unmatched call with the steps before it, where the older ones are unmatched. -/
theorem exists_innermost {a : Nat} {addresses : List Nat}
    (h : unmatched steps = addresses ++ [a]) :
    ∃ before c inner, steps = before ++ c :: inner ∧ c.IsCall ∧ Balanced inner ∧
      unmatched before = addresses := by
  induction hn : steps.length using Nat.strongRecOn generalizing steps a addresses with
  | _ n ih =>
    subst hn
    rcases List.eq_nil_or_concat steps with rfl | ⟨steps, s, rfl⟩
    · cases addresses <;> cases h
    · rw [List.concat_eq_append] at h ih ⊢
      by_cases hr : s.IsReturn
      · -- The return has matched a younger call, before which the sought one is the youngest.
        rw [unmatched_snoc_return hr] at h
        have hne : unmatched steps ≠ [] := by
          intro hu
          rw [hu] at h
          cases addresses <;> cases h
        have hu : unmatched steps = addresses ++ [a] ++ [(unmatched steps).getLast hne] := by
          rw [← h, List.dropLast_concat_getLast]
        obtain ⟨before', c', inner', rfl, hc', hi', hu'⟩ := ih _ (by simp) hu rfl
        obtain ⟨before, c, inner, rfl, hc, hi, hb⟩ := ih _ (by simp) hu' rfl
        exact ⟨before, c, inner ++ c' :: (inner' ++ [s]), by simp, hc,
          hi.append (.call hc' hi' hr .nil), hb⟩
      · by_cases hc : s.IsCall
        · rw [unmatched_snoc_call hc] at h
          exact ⟨steps, s, [], rfl, hc, .nil, (List.append_singleton_inj.mp h).1⟩
        · rw [unmatched_snoc_other hc hr] at h
          obtain ⟨before, c, inner, rfl, hc', hi, hb⟩ := ih _ (by simp) h rfl
          exact ⟨before, c, inner ++ [s], by simp, hc', hi.append (.other hc hr .nil), hb⟩

end ChipEight
