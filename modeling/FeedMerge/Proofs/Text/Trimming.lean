import FeedMerge.Text.Blank
import Mathlib.Data.List.DropRight

/-!
# Trimmed texts

Trimming takes the blank characters at either end and leaves everything between them, so a text that
was trimmed stays as it is, and so does one without blank characters.
-/

namespace FeedMerge

namespace Text

variable {blank : Char → Bool} {c : Char} {chars : List Char}

theorem trimChars_infix : trimChars blank chars <:+: chars :=
  (List.rdropWhile_prefix blank _).isInfix.trans (List.dropWhile_suffix blank).isInfix

/-- What is left of a text begins with no blank character, also after its end is trimmed. -/
theorem dropWhile_trimChars : (trimChars blank chars).dropWhile blank = trimChars blank chars := by
  rw [List.dropWhile_eq_self_iff]
  intro hlen hblank
  have hstart : trimChars blank chars <+: chars.dropWhile blank := List.rdropWhile_prefix blank _
  rw [hstart.getElem hlen] at hblank
  have hdropped : (chars.dropWhile blank).dropWhile blank = chars.dropWhile blank :=
    List.dropWhile_idempotent blank _
  exact List.dropWhile_eq_self_iff.mp hdropped (hlen.trans_le hstart.length_le) hblank

theorem trimChars_trimChars :
    trimChars blank (trimChars blank chars) = trimChars blank chars := by
  change List.rdropWhile blank ((trimChars blank chars).dropWhile blank) = _
  rw [dropWhile_trimChars]
  exact List.rdropWhile_idempotent blank _

theorem trimChars_cons (h : blank c = true) :
    trimChars blank (c :: chars) = trimChars blank chars := by
  rw [trimChars, List.dropWhile_cons_of_pos h, trimChars]

theorem trimChars_concat (h : blank c = true) :
    trimChars blank (chars ++ [c]) = trimChars blank chars := by
  change List.rdropWhile blank ((chars ++ [c]).dropWhile blank) =
    List.rdropWhile blank (chars.dropWhile blank)
  rw [List.dropWhile_append]
  split
  · rename_i hempty
    rw [List.isEmpty_iff.mp hempty, List.dropWhile_cons_of_pos h]
    rfl
  · exact List.rdropWhile_concat_pos blank _ c h

theorem trim_trim {text : String} : trim (trim text) = trim text := by
  rw [trim, toList_trim, trimChars_trimChars, trim]

theorem trimChars_eq_nil_iff : trimChars blank chars = [] ↔ ∀ c ∈ chars, blank c = true := by
  change List.rdropWhile blank (chars.dropWhile blank) = [] ↔ _
  rw [List.rdropWhile_eq_nil_iff]
  refine ⟨fun h => ?_, fun h c hc => h c (List.dropWhile_suffix blank |>.subset hc)⟩
  have hdropped : (chars.dropWhile blank).dropWhile blank = [] := List.dropWhile_eq_nil_iff.mpr h
  rw [List.dropWhile_idempotent blank] at hdropped
  exact List.dropWhile_eq_nil_iff.mp hdropped

/-- Nothing is left of a blank text, and of no other. -/
theorem trim_eq_empty_iff {text : String} : trim text = "" ↔ IsBlank text := by
  rw [← String.toList_eq_nil_iff, toList_trim, trimChars_eq_nil_iff, IsBlank]

theorem trim_ofList : trim (.ofList chars) = .ofList (trimChars isBlank chars) := by
  rw [trim, String.toList_ofList]

theorem trim_cons (h : isBlank c = true) : trim (.ofList (c :: chars)) = trim (.ofList chars) := by
  rw [trim_ofList, trim_ofList, trimChars_cons h]

theorem trim_concat (h : isBlank c = true) :
    trim (.ofList (chars ++ [c])) = trim (.ofList chars) := by
  rw [trim_ofList, trim_ofList, trimChars_concat h]

/-- Only what is between the blank characters at either end counts. -/
theorem trimChars_append {before after : List Char} (hbefore : ∀ c ∈ before, blank c = true)
    (hafter : ∀ c ∈ after, blank c = true) :
    trimChars blank (before ++ chars ++ after) = trimChars blank chars := by
  have hend : trimChars blank (chars ++ after) = trimChars blank chars := by
    induction after using List.reverseRecOn with
    | nil => rw [List.append_nil]
    | append_singleton after c ih =>
      rw [← List.append_assoc, trimChars_concat (hafter c (by simp))]
      exact ih fun c hc => hafter c (List.mem_append_left _ hc)
  induction before with
  | nil => exact hend
  | cons c before ih =>
    obtain ⟨hc, hbefore⟩ := List.forall_mem_cons.mp hbefore
    rw [List.cons_append, List.cons_append, trimChars_cons hc]
    exact ih hbefore

theorem trimChars_eq_self (h : ∀ c ∈ chars, blank c = false) : trimChars blank chars = chars := by
  have hstart : chars.dropWhile blank = chars := by
    rw [List.dropWhile_eq_self_iff]
    intro hlen
    rw [h _ (List.getElem_mem hlen)]
    exact Bool.false_ne_true
  change List.rdropWhile blank (chars.dropWhile blank) = chars
  rw [hstart, List.rdropWhile_eq_self_iff]
  intro hne
  rw [h _ (List.getLast_mem hne)]
  exact Bool.false_ne_true

end Text

end FeedMerge
