import FeedMerge.Proofs.Location
import FeedMerge.Proofs.Mapping.Agreement

/-!
# How a check lists a fault

Reading a mapping stops at its first fault, and a check goes on to the last. The fault that stops a
reader is the first of the defects that the check lists (`beginsWith_check`), unless something is
nested under an empty key. `Defect.ofFault` is the entry: a mapping without rules is listed in the
words of the check, and every other fault in its own.
-/

namespace FeedMerge

namespace Mapping

/-- The defect that a fault of a mapping is listed as. -/
def Defect.ofFault (fault : Fault) : Defect :=
  if fault.cause = .emptyMapping then .notNonEmptyObject fault.location else .badRule fault

theorem Defect.ofFault_of_cause_ne {fault : Fault} (h : fault.cause ≠ .emptyMapping) :
    ofFault fault = .badRule fault := if_neg h

/-- However it is listed, the entry of a fault begins with its location. -/
theorem Defect.exists_message_ofFault {fault : Fault} (h : fault.source = none) :
    ∃ rest, (ofFault fault).message = fault.location.text ++ rest := by
  by_cases hcause : fault.cause = .emptyMapping
  · rw [ofFault, if_pos hcause]
    exact ⟨_, rfl⟩
  · rw [ofFault_of_cause_ne hcause]
    exact Fault.exists_message_eq h

/-- The first of some defects is the entry of a fault that was found outside of any source. -/
def BeginsWith (defects : List Defect) (fault : Fault) : Prop :=
  fault.source = none ∧ defects.head? = some (Defect.ofFault fault)

theorem BeginsWith.append {defects : List Defect} {fault : Fault} (h : BeginsWith defects fault)
    (more : List Defect) : BeginsWith (defects ++ more) fault :=
  ⟨h.1, by rw [List.head?_append, h.2, Option.some_or]⟩

/-! ### One entry -/

/-- A fault that is found at a location itself, and listed in its own words. -/
structure IsOwn (location : Location) (fault : Fault) : Prop where
  source_eq : fault.source = none
  location_eq : fault.location = location
  cause_ne : fault.cause ≠ .emptyMapping

theorem IsOwn.of_predicate_error {location : Location} {text : String} {fault : Fault}
    (h : Predicate.ofText location text = .error fault) : IsOwn location fault := by
  unfold Predicate.ofText at h
  split at h
  · cases h
    exact ⟨rfl, rfl, by simp⟩
  · split at h
    · cases h
      exact ⟨rfl, rfl, by simp⟩
    · dsimp only at h
      split at h
      · cases h
        exact ⟨rfl, rfl, by simp⟩
      · cases h

/-- Only an object that is entered can be a mapping without rules, or have a fault further down. -/
theorem IsOwn.of_ofEntry_error {location : Location} {key : String} {value : Json} {fault : Fault}
    (hrule : Rule.isFlagKey key = true ∨ value.kind ≠ .object)
    (h : Rule.ofEntry location key value = .error fault) : IsOwn location fault := by
  cases value with
  | object fields =>
    have hflag : Rule.isFlagKey key = true := hrule.resolve_right (absurd rfl)
    rw [Rule.ofEntry, if_pos hflag] at h
    split at h <;> (cases h; exact ⟨rfl, rfl, by simp⟩)
  | string text =>
    unfold Rule.ofEntry at h
    split at h
    · cases h
      exact ⟨rfl, rfl, by simp⟩
    · split at h
      · exact .of_predicate_error (Except.map_eq_error.mp h)
      · split at h
        · cases h
          exact ⟨rfl, rfl, by simp⟩
        · cases h
  | _ =>
    unfold Rule.ofEntry at h
    split at h
    · cases h
      exact ⟨rfl, rfl, by simp⟩
    · split at h <;> (cases h; exact ⟨rfl, rfl, by simp⟩)

/-- A rule that is read on its own is listed with the fault that it is read with. -/
theorem beginsWith_checkRule {location : Location} {key : String} {value : Json} {fault : Fault}
    (hrule : Rule.isFlagKey key = true ∨ value.kind ≠ .object)
    (h : Rule.ofEntry location key value = .error fault) :
    BeginsWith (checkRule location key value) fault := by
  have hown := IsOwn.of_ofEntry_error hrule h
  refine ⟨hown.source_eq, ?_⟩
  rw [Defect.ofFault_of_cause_ne hown.cause_ne, checkRule, h]
  rfl

theorem beginsWith_checkEntry_of_kind_ne {location : Location} {key : String} {value : Json}
    {fault : Fault} (hkind : value.kind ≠ .object)
    (h : Rule.ofEntry location key value = .error fault) :
    BeginsWith (checkEntry location key value) fault := by
  rw [checkEntry_of_kind_ne location key hkind]
  exact beginsWith_checkRule (.inr hkind) h

/-- The fault of an object is that of its key, of its being empty, or the one found in it. -/
theorem beginsWith_checkEntry_object {location : Location} {key : String} {fields : Fields}
    {fault : Fault}
    (hnests : ¬ NestsUnnamedAt key (.object fields))
    (ih : ¬ NestsUnnamed (.object fields) → Rule.ofFields location fields = .error fault →
      BeginsWith (checkFields location fields) fault)
    (h : Rule.ofEntry location key (.object fields) = .error fault) :
    BeginsWith (checkEntry location key (.object fields)) fault := by
  by_cases hflag : Rule.isFlagKey key = true
  · rw [checkEntry, if_pos hflag]
    exact beginsWith_checkRule (.inl hflag) h
  · obtain ⟨hkey, hbelow⟩ := not_or.mp hnests
    have hkey : key ≠ "" := fun heq => hkey ⟨heq, rfl⟩
    have hbelow : ¬ NestsUnnamed (.object fields) := fun hfields =>
      hbelow ⟨by simpa using hflag, hfields⟩
    rw [Rule.ofEntry, if_neg hkey, if_neg hflag] at h
    rw [checkEntry, if_neg hflag]
    split at h
    · rename_i hempty
      cases h
      rw [if_pos hempty]
      exact ⟨rfl, rfl⟩
    · rename_i hempty
      rw [if_neg hempty]
      exact ih hbelow (Except.map_eq_error.mp h)

/-! ### All entries -/

mutual

theorem beginsWith_checkEntry (location : Location) (key : String) :
    ∀ (value : Json) (fault : Fault), ¬ NestsUnnamedAt key value →
      Rule.ofEntry location key value = .error fault →
      BeginsWith (checkEntry location key value) fault
  | .object fields, fault, hnests, h =>
    beginsWith_checkEntry_object hnests (beginsWith_checkFields location fields fault) h
  | .null, _, _, h => beginsWith_checkEntry_of_kind_ne (by decide) h
  | .bool _, _, _, h => beginsWith_checkEntry_of_kind_ne (by simp [Json.kind]) h
  | .int _, _, _, h => beginsWith_checkEntry_of_kind_ne (by simp [Json.kind]) h
  | .float _, _, _, h => beginsWith_checkEntry_of_kind_ne (by simp [Json.kind]) h
  | .string _, _, _, h => beginsWith_checkEntry_of_kind_ne (by simp [Json.kind]) h
  | .array _, _, _, h => beginsWith_checkEntry_of_kind_ne (by simp [Json.kind]) h

theorem beginsWith_checkFields (location : Location) : ∀ (fields : Fields) (fault : Fault),
    ¬ NestsUnnamed (.object fields) → Rule.ofFields location fields = .error fault →
      BeginsWith (checkFields location fields) fault
  | [], _, _, h => nomatch h
  | (key, value) :: fields, fault, hnests, h => by
    obtain ⟨hentry, hrest⟩ := not_or.mp (mt nestsUnnamed_cons.mpr hnests)
    rw [checkFields]
    rw [Rule.ofFields] at h
    split at h
    · rename_i first hfirst
      cases h
      exact (beginsWith_checkEntry _ key value _ hentry hfirst).append _
    · -- an entry that is read has no defect, so the rest begins the list
      rename_i rule hrule
      rw [((exists_ofEntry_iff _ key value).mp ⟨rule, hrule⟩).1, List.nil_append]
      exact beginsWith_checkFields location fields _ hrest (Except.map_eq_error.mp h)

end

/-- The fault that stops the reader of a mapping comes first in what its check lists. -/
theorem beginsWith_check {location : Location} {fields : Fields} {fault : Fault}
    (hnests : ¬ NestsUnnamed (.object fields)) (h : ofFields location fields = .error fault) :
    BeginsWith (check location (.object fields)) fault := by
  rw [check]
  rw [ofFields] at h
  split at h
  · rename_i hempty
    cases h
    rw [if_pos hempty]
    exact ⟨rfl, rfl⟩
  · rename_i hempty
    rw [if_neg hempty]
    exact beginsWith_checkFields location fields fault hnests (Except.map_eq_error.mp h)

end Mapping

end FeedMerge
