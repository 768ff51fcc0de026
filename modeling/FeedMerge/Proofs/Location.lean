import FeedMerge.Fault

/-!
# Places and the messages about them

Steps that lead on from a location continue its text, whatever the location is
(`exists_text_along`). A fault is told with the text of its location in front, unless that is empty.
-/

namespace FeedMerge

namespace Location

/-- The location that some steps lead to. -/
def along (l : Location) (steps : List Step) : Location :=
  { l with steps := l.steps ++ steps }

theorem along_nil (l : Location) : l.along [] = l := by
  simp [along]

theorem along_append (l : Location) (first second : List Step) :
    (l.along first).along second = l.along (first ++ second) := by
  simp [along]

theorem along_cons (l : Location) (s : Step) (steps : List Step) :
    l.along (s :: steps) = (l.step s).along steps := by
  simp [along, step]

/-- The text of a location is continued by the texts of the steps that lead on from it. -/
theorem text_along (l : Location) (steps : List Step) :
    (l.along steps).text = steps.foldl (fun text s => text ++ s.text) l.text :=
  List.foldl_append

/-- What some steps add to a text does not depend on where they begin. -/
theorem exists_text_along (steps : List Step) :
    ∃ rest, ∀ l : Location, (l.along steps).text = l.text ++ rest := by
  induction steps with
  | nil => exact ⟨"", fun l => by rw [along_nil, String.append_empty]⟩
  | cons s steps ih =>
    obtain ⟨rest, hrest⟩ := ih
    exact ⟨s.text ++ rest, fun l => by
      rw [along_cons, hrest, text_step, String.append_assoc]⟩

theorem text_along_ne_empty {l : Location} (h : l.text ≠ "") (steps : List Step) :
    (l.along steps).text ≠ "" := by
  obtain ⟨rest, hrest⟩ := exists_text_along steps
  intro hempty
  rw [hrest, String.append_eq_empty_iff] at hempty
  exact h hempty.1

theorem text_ne_empty {l : Location} (h : l.start ≠ "") : l.text ≠ "" := by
  have hstart := text_along_ne_empty (l := ofText l.start) h l.steps
  exact hstart

theorem text_step_ne_empty (l : Location) (s : Step) : (l.step s).text ≠ "" := by
  rw [text_step]
  cases s <;> simp [Step.text, String.append_eq_empty_iff]

end Location

namespace Fault

variable {fault : Fault}

theorem message_eq_of_text_ne (h : fault.source = none) (hplace : fault.location.text ≠ "") :
    fault.message = fault.location.text ++ (": " ++ fault.cause.message) := by
  unfold message ownMessage
  rw [h]
  simp only [hplace, if_false]
  exact String.append_assoc

/-- Without a source that was worked on, a fault begins with its location. -/
theorem exists_message_eq (h : fault.source = none) :
    ∃ rest, fault.message = fault.location.text ++ rest := by
  by_cases hplace : fault.location.text = ""
  · exact ⟨fault.message, by rw [hplace, String.empty_append]⟩
  · exact ⟨_, message_eq_of_text_ne h hplace⟩

end Fault

end FeedMerge
