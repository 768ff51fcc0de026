import Mathlib.Data.List.Induction

/-!
# First occurrences

Devices stand in the order in which they first occur in some readings, and so do names in a context.
`List.eraseDups` is that order: one more item comes to the end unless it has occurred, and leaving
items out makes no difference to the order of the others. What is told of the first of several
sources that something is wrong with is told of the split that `List.exists_first` gives.
-/

namespace List

variable {α : Type*} [BEq α] [LawfulBEq α]

theorem eraseDups_concat (l : List α) (a : α) :
    (l ++ [a]).eraseDups = if a ∈ l then l.eraseDups else l.eraseDups ++ [a] := by
  rw [eraseDups_append]
  by_cases h : a ∈ l
  · have hold : [a].removeAll l = [] := by simpa [removeAll] using h
    rw [if_pos h, hold, eraseDups_nil, append_nil]
  · have hnew : [a].removeAll l = [a] := by simpa [removeAll] using h
    rw [if_neg h, hnew, eraseDups_cons]
    rfl

theorem eraseDups_filter (p : α → Bool) (l : List α) :
    (l.filter p).eraseDups = l.eraseDups.filter p := by
  induction l using List.reverseRecOn with
  | nil => rfl
  | append_singleton l a ih =>
    rw [filter_append, eraseDups_concat]
    cases hp : p a with
    | false =>
      have hleft : [a].filter p = [] := by simp [hp]
      rw [hleft, append_nil, ih]
      split <;> simp [hp]
    | true =>
      have hkept : [a].filter p = [a] := by simp [hp]
      have hmem : a ∈ l.filter p ↔ a ∈ l := by simp [hp]
      rw [hkept, eraseDups_concat, ih]
      by_cases h : a ∈ l
      · rw [if_pos (hmem.mpr h), if_pos h]
      · rw [if_neg (mt hmem.mp h), if_neg h, filter_append, hkept]

/-- Where some item has a property, one of them is the first. -/
theorem exists_first {α : Type*} {p : α → Prop} {l : List α} (h : ∃ a ∈ l, p a) :
    ∃ before a after, l = before ++ a :: after ∧ (∀ b ∈ before, ¬ p b) ∧ p a := by
  induction l with
  | nil =>
    obtain ⟨a, hmem, -⟩ := h
    cases hmem
  | cons b l ih =>
    by_cases hb : p b
    · exact ⟨[], b, l, rfl, forall_mem_nil _, hb⟩
    · obtain ⟨a, hmem, ha⟩ := h
      have hrest : a ∈ l := (mem_cons.mp hmem).resolve_left fun heq => hb (heq ▸ ha)
      obtain ⟨before, a, after, rfl, hbefore, ha⟩ := ih ⟨a, hrest, ha⟩
      exact ⟨b :: before, a, after, rfl, forall_mem_cons.mpr ⟨hb, hbefore⟩, ha⟩

end List
