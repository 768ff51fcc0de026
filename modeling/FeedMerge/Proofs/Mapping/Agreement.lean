import FeedMerge.Mapping.Check
import FeedMerge.Proofs.Result

/-!
# Checking and reading mappings

A mapping is read by `Mapping.ofJson`, which stops at the first fault, and checked by
`Mapping.check`, which collects all defects. Both go through the same objects, but the check enters
an object without a look at its key. So it overlooks exactly one thing: an object that stands under
an empty key (`NestsUnnamed`). A value is a mapping if and only if its check finds no defect and
nothing is nested under an empty key, and apart from that the two agree on every value.
-/

namespace FeedMerge.Mapping

/-- Somewhere among the objects that a check enters, an object stands under an empty key. -/
inductive NestsUnnamed : Json → Prop
  | here {fields below : Fields} (hmem : ("", Json.object below) ∈ fields) :
      NestsUnnamed (.object fields)
  | inside {fields : Fields} {key : String} {value : Json} (hmem : (key, value) ∈ fields)
      (hkey : Rule.isFlagKey key = false) (hvalue : NestsUnnamed value) :
      NestsUnnamed (.object fields)

/-- An object under an empty key, or something nested under one in an object that is entered. -/
def NestsUnnamedAt (key : String) (value : Json) : Prop :=
  (key = "" ∧ value.kind = .object) ∨ (Rule.isFlagKey key = false ∧ NestsUnnamed value)

theorem not_nestsUnnamed_of_kind_ne {value : Json} (h : value.kind ≠ .object) :
    ¬ NestsUnnamed value := by
  intro hvalue
  cases hvalue <;> exact h rfl

theorem not_nestsUnnamed_nil : ¬ NestsUnnamed (.object []) := by
  intro h
  cases h with
  | here hmem => cases hmem
  | inside hmem => cases hmem

theorem nestsUnnamed_cons {key : String} {value : Json} {fields : Fields} :
    NestsUnnamed (.object ((key, value) :: fields)) ↔
      NestsUnnamedAt key value ∨ NestsUnnamed (.object fields) := by
  constructor
  · intro h
    cases h with
    | here hmem =>
      rcases List.mem_cons.mp hmem with heq | hmem
      · cases heq
        exact .inl (.inl ⟨rfl, rfl⟩)
      · exact .inr (.here hmem)
    | inside hmem hkey hvalue =>
      rcases List.mem_cons.mp hmem with heq | hmem
      · cases heq
        exact .inl (.inr ⟨hkey, hvalue⟩)
      · exact .inr (.inside hmem hkey hvalue)
  · rintro ((⟨rfl, hkind⟩ | ⟨hkey, hvalue⟩) | h)
    · cases value with
      | object below => exact .here List.mem_cons_self
      | _ => cases hkind
    · exact .inside List.mem_cons_self hkey hvalue
    · cases h with
      | here hmem => exact .here (List.mem_cons_of_mem _ hmem)
      | inside hmem hkey hvalue => exact .inside (List.mem_cons_of_mem _ hmem) hkey hvalue

/-! ### One entry -/

theorem checkRule_eq_nil {location : Location} {key : String} {value : Json} :
    checkRule location key value = [] ↔ ∃ rule, Rule.ofEntry location key value = .ok rule := by
  unfold checkRule
  cases Rule.ofEntry location key value <;> simp

theorem checkEntry_of_kind_ne (location : Location) (key : String) {value : Json}
    (h : value.kind ≠ .object) :
    checkEntry location key value = checkRule location key value := by
  cases value with
  | object fields => exact absurd rfl h
  | _ => rfl

/-- Every entry but an object is checked by reading it. -/
theorem exists_ofEntry_of_kind_ne (location : Location) (key : String) {value : Json}
    (h : value.kind ≠ .object) :
    (∃ rule, Rule.ofEntry location key value = .ok rule) ↔
      checkEntry location key value = [] ∧ ¬ NestsUnnamedAt key value := by
  have hnests : ¬ NestsUnnamedAt key value := by
    rintro (⟨-, hkind⟩ | ⟨-, hvalue⟩)
    · exact h hkind
    · exact not_nestsUnnamed_of_kind_ne h hvalue
  rw [checkEntry_of_kind_ne location key h, checkRule_eq_nil, and_iff_left hnests]

/-- An object is read if its key is right and it is a mapping itself, and the check differs only
where the key is empty. -/
theorem exists_ofEntry_object {location : Location} (key : String) {fields : Fields}
    (ih : (∃ rules, Rule.ofFields location fields = .ok rules) ↔
      checkFields location fields = [] ∧ ¬ NestsUnnamed (.object fields)) :
    (∃ rule, Rule.ofEntry location key (.object fields) = .ok rule) ↔
      checkEntry location key (.object fields) = [] ∧ ¬ NestsUnnamedAt key (.object fields) := by
  unfold Rule.ofEntry checkEntry NestsUnnamedAt
  by_cases hempty : key = ""
  · simp [hempty, Json.kind]
  · by_cases hflag : Rule.isFlagKey key = true
    · simp [hempty, hflag, checkRule, Rule.ofEntry]
    · cases hfields : fields.isEmpty with
      | true => simp [hempty, hflag]
      | false =>
        simp only [hempty, hflag, Bool.false_eq_true, if_false, false_and, false_or, true_and]
        rw [← ih, Except.exists_map_eq_ok]

/-! ### All entries -/

mutual

theorem exists_ofEntry_iff (location : Location) (key : String) : ∀ value : Json,
    (∃ rule, Rule.ofEntry location key value = .ok rule) ↔
      checkEntry location key value = [] ∧ ¬ NestsUnnamedAt key value
  | .object fields => exists_ofEntry_object key (exists_ofFields_iff location fields)
  | .null => exists_ofEntry_of_kind_ne location key (by decide)
  | .bool _ => exists_ofEntry_of_kind_ne location key (by simp [Json.kind])
  | .int _ => exists_ofEntry_of_kind_ne location key (by simp [Json.kind])
  | .float _ => exists_ofEntry_of_kind_ne location key (by simp [Json.kind])
  | .string _ => exists_ofEntry_of_kind_ne location key (by simp [Json.kind])
  | .array _ => exists_ofEntry_of_kind_ne location key (by simp [Json.kind])

theorem exists_ofFields_iff (location : Location) : ∀ fields : Fields,
    (∃ rules, Rule.ofFields location fields = .ok rules) ↔
      checkFields location fields = [] ∧ ¬ NestsUnnamed (.object fields)
  | [] => by simp [Rule.ofFields, checkFields, not_nestsUnnamed_nil]
  | (key, value) :: fields => by
    have hentry := exists_ofEntry_iff (location.field key) key value
    have hfields := exists_ofFields_iff location fields
    rw [nestsUnnamed_cons, not_or, checkFields, List.append_eq_nil_iff, and_and_and_comm, ← hentry,
      ← hfields, Rule.ofFields]
    cases Rule.ofEntry (location.field key) key value with
    | error fault => simp
    | ok rule => simp [Except.exists_map_eq_ok]

end

/-- A value is a mapping if and only if its check finds nothing and nothing in it stands under an
empty key. -/
theorem exists_ofJson_iff (location : Location) (value : Json) :
    (∃ mapping, ofJson location value = .ok mapping) ↔
      check location value = [] ∧ ¬ NestsUnnamed value := by
  cases value with
  | object fields =>
    have hfields := exists_ofFields_iff location fields
    cases hempty : fields.isEmpty with
    | true => simp [ofJson, ofFields, check, hempty]
    | false =>
      simp only [ofJson, ofFields, check, hempty, Bool.false_eq_true, if_false]
      rw [← hfields, Except.exists_map_eq_ok]
  | _ => simp [ofJson, check]

/-- A value is read if and only if it passes the check and has no object under an empty key. So
checking and reading agree on a value unless it passes although it has one. -/
theorem check_agrees_iff (location : Location) (value : Json) :
    ((∃ mapping, ofJson location value = .ok mapping) ↔
      check location value = [] ∧ ¬ NestsUnnamed value) ∧
    ((check location value = [] ↔ ∃ mapping, ofJson location value = .ok mapping) ↔
      ¬ (check location value = [] ∧ NestsUnnamed value)) := by
  have hread := exists_ofJson_iff location value
  refine ⟨hread, ?_⟩
  rw [hread, not_and]
  exact ⟨fun h hcheck => (h.mp hcheck).2, fun h => ⟨fun hcheck => ⟨hcheck, h hcheck⟩, And.left⟩⟩

/-- A mapping under an empty key passes the check and is not read. -/
theorem check_passes_unnamed_nesting :
    check .root (.object [("", .object [("a", .string "B")])]) = [] ∧
      ¬ ∃ mapping, ofJson .root (.object [("", .object [("a", .string "B")])]) = .ok mapping := by
  constructor
  · decide +kernel
  · rintro ⟨mapping, h⟩
    cases h

end FeedMerge.Mapping
