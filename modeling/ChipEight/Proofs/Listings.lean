import ChipEight.Proofs.Numerals

namespace ChipEight.Text

variable {c : Char} {sep : List Char} {ls : List (List Char)}

theorem filter_intercalate (p : Char → Bool) (sep : List Char) (ls : List (List Char)) :
    (sep.intercalate ls).filter p = (sep.filter p).intercalate (ls.map (List.filter p)) := by
  induction ls with
  | nil => rfl
  | cons l ls ih =>
    cases ls with
    | nil => simp only [List.intercalate_singleton, List.map_cons, List.map_nil]
    | cons l' ls =>
      rw [List.intercalate_cons_cons, List.filter_append, List.filter_append, ih]
      simp only [List.map_cons, List.intercalate_cons_cons]

theorem nil_intercalate (ls : List (List Char)) : [].intercalate ls = ls.flatten := by
  induction ls with
  | nil => rfl
  | cons l ls ih =>
    cases ls with
    | nil => rw [List.intercalate_singleton, List.flatten_singleton]
    | cons l' ls => rw [List.intercalate_cons_cons, ih, List.append_nil, ← List.flatten_cons]

theorem filter_intercalate_of_sep {p : Char → Bool} (h : sep.filter p = [])
    (ls : List (List Char)) : (sep.intercalate ls).filter p = (ls.map (List.filter p)).flatten := by
  rw [filter_intercalate, h, nil_intercalate]

theorem not_mem_intercalate (hsep : c ∉ sep) (h : ∀ l ∈ ls, c ∉ l) : c ∉ sep.intercalate ls := by
  induction ls with
  | nil => exact List.not_mem_nil
  | cons l ls ih =>
    have hl := h l List.mem_cons_self
    have hrest := ih fun l hmem ↦ h l (List.mem_cons_of_mem _ hmem)
    cases ls with
    | nil => rwa [List.intercalate_singleton]
    | cons l' ls =>
      rw [List.intercalate_cons_cons]
      simp only [List.mem_append, not_or]
      exact ⟨⟨hl, hsep⟩, hrest⟩

def isListed (c : Char) : Bool :=
  c.isDigit || c == ','

def readBracketed (cs : List Char) : List Nat :=
  (((cs.filter isListed).splitOn ',').filter (· ≠ [])).map (valueOf 10)

theorem toList_bracketed (ns : List Nat) :
    (bracketed (ns.map Nat.cast)).toList =
      '[' :: [',', ' '].intercalate (ns.map fun n ↦ numeral 10 0 (n : Nat)) ++ [']'] := by
  simp only [bracketed, String.toList_append, String.toList_intercalate, List.map_map,
    Function.comp_def, toList_decimal]
  rfl

theorem not_mem_bracketed (hc : c ∉ ['[', ',', ' ', ']']) (hd : ∀ d : Fin 16, c ≠ Nat.digitChar d)
    (ns : List Nat) : c ∉ (bracketed (ns.map Nat.cast)).toList := by
  simp only [List.mem_cons, List.not_mem_nil, or_false, not_or] at hc
  have hnumbers : c ∉ [',', ' '].intercalate (ns.map fun n ↦ numeral 10 0 (n : Nat)) := by
    apply not_mem_intercalate
    · simp [hc]
    · intro l hl
      obtain ⟨k, -, rfl⟩ := List.mem_map.mp hl
      exact not_mem_numeral (by decide) (by decide) hd
  rw [toList_bracketed]
  simp [hc, hnumbers]

theorem filter_bracketed (ns : List Nat) :
    (bracketed (ns.map Nat.cast)).toList.filter isListed =
      [','].intercalate (ns.map fun n ↦ numeral 10 0 (n : Nat)) := by
  have hnumeral (n : Nat) : (numeral 10 0 n).filter isListed = numeral 10 0 n := by
    apply List.filter_eq_self.mpr
    intro c hc
    rw [isListed, isDigit_of_mem_numeral hc, Bool.true_or]
  have hsep : [',', ' '].filter isListed = [','] := by decide
  rw [toList_bracketed, List.filter_append, List.filter_cons_of_neg (by decide),
    filter_intercalate, hsep, List.map_map]
  simp only [Function.comp_def, hnumeral]
  exact List.append_nil _

theorem readBracketed_bracketed (ns : List Nat) :
    readBracketed (bracketed (ns.map Nat.cast)).toList = ns := by
  rw [readBracketed, filter_bracketed]
  cases ns with
  -- No numbers are an empty text, not the text of one empty number.
  | nil => rfl
  | cons n ns =>
    have hread (k : Nat) : valueOf 10 (numeral 10 0 k) = k :=
      valueOf_numeral (by decide) (by decide) 0 k
    rw [List.splitOn_intercalate, List.filter_eq_self.mpr, List.map_map, Function.comp_def]
    · simp only [hread, List.map_id']
    · intro l hl
      obtain ⟨k, -, rfl⟩ := List.mem_map.mp hl
      exact decide_eq_true (numeral_ne_nil 10 0 k)
    · intro l hl
      obtain ⟨k, -, rfl⟩ := List.mem_map.mp hl
      exact not_mem_numeral (by decide) (by decide) (by decide)
    · exact List.cons_ne_nil _ _

theorem bracketed_inj {ns ms : List Nat} :
    bracketed (ns.map Nat.cast) = bracketed (ms.map Nat.cast) ↔ ns = ms := by
  refine ⟨fun h ↦ ?_, fun h ↦ h ▸ rfl⟩
  rw [← readBracketed_bracketed ns, ← readBracketed_bracketed ms, h]

end ChipEight.Text
