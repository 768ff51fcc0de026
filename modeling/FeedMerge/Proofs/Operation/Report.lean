import FeedMerge.Proofs.Operation.Agreement

/-!
# How a check reports a fault of a configuration

`Reports` ties a fault that stops the reader of a configuration to the defects that stand for it in
a check: a defect of shape to the fault of the whole descriptor, a repeated id to the same id, and
anything in a mapping to its own entry. Since reading goes through the configuration in the order in
which checking does, the fault that it stops at is always reported (`tells_check`). What a user sees
of that is in the texts: the defect begins with the path of the fault, and says the same in the same
words unless shapes or empty mappings are concerned.
-/

namespace FeedMerge

/-- Whether a cause is about the shape of a configuration, before any mapping is looked at. -/
def Cause.isOfShape : Cause → Bool
  | notOperations _ | misshapenOperation _ => true
  | _ => false

namespace Operation

/-- A defect of a check stands for the fault that stops the reader. -/
inductive Reports : Fault → Defect → Prop
  | notOperations (found : Json.Kind) : Reports ⟨.notOperations found, .root, none⟩ .notOperations
  | misshapen {defects : List ShapeDefect} {defect : ShapeDefect} (location : Location)
      (hmem : defect ∈ defects) :
      Reports ⟨.misshapenOperation defects, location, none⟩ (.misshapen location defect)
  | duplicate {location : Location} (hlocation : location.text ≠ "") (id : String) :
      Reports ⟨.duplicateTransformation id, location, none⟩ (.duplicateTransformation location id)
  | mapping {fault : Fault} (hsource : fault.source = none) :
      Reports fault (.mapping (.ofFault fault))

namespace Reports

variable {fault : Fault} {defect : Defect}

/-- What reports a fault begins with the location of the fault. -/
theorem exists_message_eq (h : Reports fault defect) :
    ∃ rest, defect.message = fault.location.text ++ rest := by
  cases h with
  | notOperations found => exact ⟨_, rfl⟩
  | @misshapen defects defect location hmem =>
    refine ⟨"." ++ defect.pathText ++ ": " ++ defect.error.message, ?_⟩
    simp only [Defect.message, String.append_assoc]
    rfl
  | @duplicate location hlocation id =>
    refine ⟨": duplicate transformation id '" ++ id ++ "'", ?_⟩
    simp only [Defect.message, String.append_assoc]
    rfl
  | mapping hsource => exact Mapping.Defect.exists_message_ofFault hsource

/-- Repeated ids and faults of rules are reported in their own words. -/
theorem message_eq (h : Reports fault defect) (hshape : fault.cause.isOfShape = false)
    (hempty : fault.cause ≠ .emptyMapping) : defect.message = fault.message := by
  cases h with
  | notOperations found => cases hshape
  | misshapen location hmem => cases hshape
  | @duplicate location hlocation id =>
    have hwords : ": duplicate transformation id '" = ": " ++ "duplicate transformation id '" := by
      decide
    have hdefect : (Defect.duplicateTransformation location id).message =
        location.text ++ ": duplicate transformation id '" ++ id ++ "'" := rfl
    have hcause : (Cause.duplicateTransformation id).message =
        "duplicate transformation id '" ++ id ++ "'" := rfl
    rw [Fault.message_eq_of_text_ne rfl hlocation, hdefect, hcause, hwords]
    simp only [String.append_assoc]
  | mapping hsource =>
    rw [Mapping.Defect.ofFault_of_cause_ne hempty]
    rfl

end Reports

/-- A fault is among those that some defects report. -/
def Tells (defects : List Defect) (fault : Fault) : Prop := ∃ defect ∈ defects, Reports fault defect

namespace Tells

variable {defects more : List Defect} {fault : Fault}

theorem append_left (h : Tells defects fault) : Tells (defects ++ more) fault := by
  obtain ⟨defect, hmem, hreports⟩ := h
  exact ⟨defect, List.mem_append_left _ hmem, hreports⟩

theorem append_right (h : Tells more fault) : Tells (defects ++ more) fault := by
  obtain ⟨defect, hmem, hreports⟩ := h
  exact ⟨defect, List.mem_append_right _ hmem, hreports⟩

theorem of_beginsWith {listed : List Mapping.Defect} (h : Mapping.BeginsWith listed fault) :
    Tells (listed.map .mapping) fault :=
  ⟨_, List.mem_map_of_mem (List.mem_of_mem_head? h.2), .mapping h.1⟩

end Tells

/-! ### The fault that stops the reader -/

theorem tells_checkTransformations {location : Location} {ts : List TransformationDescriptor}
    {known : List (String × Mapping)} {seen : List String} {i : Nat} {fault : Fault}
    (hlocation : location.start ≠ "") (hseen : ∀ id, id ∈ seen ↔ id ∈ known.map (·.1))
    (hnests : ∀ t ∈ ts, ¬ Mapping.NestsUnnamed (.object t.mapping))
    (h : readTransformations location known i ts = .error fault) :
    Tells (checkTransformations location seen i ts) fault := by
  induction ts generalizing known seen i with
  | nil => cases h
  | cons t ts ih =>
    obtain ⟨hfirst, hrest⟩ := List.forall_mem_cons.mp hnests
    unfold readTransformations at h
    unfold checkTransformations
    dsimp only at h ⊢
    split at h
    · rename_i hknown
      cases h
      have hid : t.id ∈ seen := (hseen _).mpr (by simpa using hknown)
      have hplace : ((location.field "transformations").index i).text ≠ "" :=
        Location.text_ne_empty hlocation
      refine (Tells.append_left ?_).append_left
      rw [if_pos (by simpa using hid)]
      exact ⟨_, List.mem_singleton_self _, .duplicate hplace t.id⟩
    · split at h
      · rename_i first hmapping
        cases h
        have hlisted := Tells.of_beginsWith (Mapping.beginsWith_check hfirst hmapping)
        exact hlisted.append_right.append_left
      · exact (ih (mem_seen_cons hseen t.id _) hrest h).append_right

theorem tells_checkOne {index : Nat} {value : Json} {fault : Fault}
    (hnests : ¬ NestsUnnamedIn value) (h : ofJson index value = .error fault) :
    Tells (checkOne index value) fault := by
  unfold ofJson at h
  unfold checkOne
  cases hread : Descriptor.ofJson value with
  | error defects =>
    rw [hread] at h
    cases h
    cases defects with
    | nil => exact absurd hread (isTold_descriptor value)
    | cons defect defects =>
      exact ⟨.misshapen _ defect, List.mem_cons_self, .misshapen _ List.mem_cons_self⟩
  | ok d =>
    rw [hread] at h
    have hnests : ∀ t ∈ d.transformations, ¬ Mapping.NestsUnnamed (.object t.mapping) :=
      fun t ht hn => hnests ⟨d, hread, t, ht, hn⟩
    have hstart : (locationOf index).start ≠ "" := by
      change "$" ≠ ""
      decide
    have hseen : ∀ id, id ∈ ([] : List String) ↔ id ∈ ([] : List (String × Mapping)).map (·.1) :=
      fun _ => Iff.rfl
    have htold := tells_checkTransformations hstart hseen hnests (Except.map_eq_error.mp h)
    exact htold.append_right.append_left

theorem tells_checkValues {i : Nat} {values : List Json} {fault : Fault}
    (hnests : ∀ value ∈ values, ¬ NestsUnnamedIn value) (h : ofValues i values = .error fault) :
    Tells (checkValues i values) fault := by
  induction values generalizing i with
  | nil => cases h
  | cons value values ih =>
    obtain ⟨hfirst, hrest⟩ := List.forall_mem_cons.mp hnests
    unfold ofValues at h
    split at h
    · rename_i first hvalue
      cases h
      exact (tells_checkOne hfirst hvalue).append_left
    · exact (ih hrest (Except.map_eq_error.mp h)).append_right

/-- The fault that stops the reader of a configuration is among those that its check reports. -/
theorem tells_check {raw : Json} {fault : Fault} (hnests : ¬ NestsUnnamed raw)
    (h : listOfJson raw = .error fault) : Tells (check raw) fault := by
  have hentries : ∀ value ∈ entries raw, ¬ NestsUnnamedIn value := fun value hmem hvalue =>
    hnests ⟨value, hmem, hvalue⟩
  cases raw with
  | object fields => exact tells_checkValues hentries h
  | array values => exact tells_checkValues hentries h
  | _ =>
    cases h
    exact ⟨.notOperations, List.mem_singleton_self _, .notOperations _⟩

/-- Unless a mapping nests something under an empty key, a configuration passes its check if and
only if it is read, all its operations are merges, and each of their sources has a mapping. When it
is not read, the check lists a defect that begins with the path of the fault, and that is the very
message of the fault if that is about a repeated id or a rule. -/
theorem check_sound_and_complete {raw : Json} (hnests : ¬ NestsUnnamed raw) :
    (check raw = [] ↔ ∃ ops, listOfJson raw = .ok ops ∧
      ∀ op ∈ ops, op.kind = mergeKind ∧
        ∀ source ∈ op.sources, ∃ mapping, op.mappingFor source = .ok mapping) ∧
    ∀ fault, listOfJson raw = .error fault → ∃ defect ∈ check raw,
      (∃ rest, defect.message = fault.location.text ++ rest) ∧
      (fault.cause.isOfShape = false → fault.cause ≠ .emptyMapping →
        defect.message = fault.message) := by
  constructor
  · exact (and_iff_left hnests).symm.trans (exists_runnable_iff raw).symm
  · intro fault h
    obtain ⟨defect, hmem, hreports⟩ := tells_check hnests h
    exact ⟨defect, hmem, hreports.exists_message_eq, hreports.message_eq⟩

/-- One operation whose second transformation repeats the id of the first and has a mapping without
rules inside its own. -/
def sampleConfiguration : Json :=
  let transformation (mapping : Fields) : Json :=
    .object [("id", .string "t"), ("mapping", .object mapping)]
  .object [("operation", .string "merge"), ("sources", .array []), ("transformations", .array [
    transformation [("Id", .string "DeviceId")],
    transformation [("Sensors", .object [])]]), ("destination", .string "out.json")]

/-- The repeated id stops the reader, and the check reports it before the mapping that comes with
it. -/
theorem check_reports_a_repeated_id :
    ¬ NestsUnnamed sampleConfiguration ∧
    (check sampleConfiguration = [] ↔ ∃ ops, listOfJson sampleConfiguration = .ok ops ∧
      ∀ op ∈ ops, op.kind = mergeKind ∧
        ∀ source ∈ op.sources, ∃ mapping, op.mappingFor source = .ok mapping) ∧
    ∃ fault, listOfJson sampleConfiguration = .error fault ∧
      ∃ defect ∈ check sampleConfiguration,
        (∃ rest, defect.message = fault.location.text ++ rest) ∧
        defect.message = fault.message := by
  have hnests : ¬ NestsUnnamed sampleConfiguration := by
    rintro ⟨value, hvalue, d, hd, t, ht, hnests⟩
    obtain rfl := List.mem_singleton.mp hvalue
    cases hd
    have htext : ¬ Mapping.NestsUnnamed (.string "DeviceId") :=
      Mapping.not_nestsUnnamed_of_kind_ne (by decide)
    rcases List.mem_cons.mp ht with rfl | ht
    · simp [Mapping.nestsUnnamed_cons, Mapping.NestsUnnamedAt, Mapping.not_nestsUnnamed_nil, htext,
        Json.kind] at hnests
    · obtain rfl := List.mem_singleton.mp ht
      simp [Mapping.nestsUnnamed_cons, Mapping.NestsUnnamedAt, Mapping.not_nestsUnnamed_nil]
        at hnests
  obtain ⟨hsound, htold⟩ := check_sound_and_complete hnests
  have hread : listOfJson sampleConfiguration = .error ⟨.duplicateTransformation "t",
      (((Location.root.index 0).field "transformations").index 1), none⟩ := by rfl
  obtain ⟨defect, hmem, hlocation, hmessage⟩ := htold _ hread
  exact ⟨hnests, hsound, _, hread, defect, hmem, hlocation, hmessage rfl (by simp)⟩

end Operation

end FeedMerge
