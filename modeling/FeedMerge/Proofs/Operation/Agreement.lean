import FeedMerge.Operation.Check
import FeedMerge.Proofs.Mapping.Report

/-!
# Checking and reading configurations

A configuration is read by `Operation.listOfJson`, which stops at the first fault and leaves kinds
and references to the run, and checked by `Operation.check`, which goes through everything. As far
as nothing is nested under an empty key, a configuration passes its check if and only if all its
operations are read and can be planned (`exists_runnable_iff`). The two keep different accounts of
the ids that were declared, a growing set and the table itself; the induction on the transformations
only needs that these have the same members.
-/

namespace FeedMerge

/-! ### What is refused has a defect -/

namespace Checked

variable {ε δ α β : Type}

/-- A checked value is not refused without a defect. -/
def IsTold (a : Checked ε α) : Prop := a ≠ .error []

theorem isTold_ok (x : α) : IsTold (.ok x : Checked ε α) := nofun

theorem isTold_singleton (defect : ε) : IsTold (.error [defect] : Checked ε α) := nofun

theorem IsTold.map {a : Checked ε α} (h : a.IsTold) (f : α → β) : IsTold (Except.map f a) :=
  fun hmap => h (Except.map_eq_error.mp hmap)

theorem IsTold.both {a : Checked ε α} {b : Checked ε β} (ha : a.IsTold) (hb : b.IsTold) :
    (a.both b).IsTold := by
  cases a with
  | ok x =>
    cases b with
    | ok y => exact isTold_ok _
    | error defects => exact fun h => hb (by simpa [Checked.both] using h)
  | error defects =>
    cases b with
    | ok y => exact fun h => ha (by simpa [Checked.both] using h)
    | error more =>
      intro h
      have hnil : defects ++ more = [] := by simpa [Checked.both] using h
      exact ha (by rw [(List.append_eq_nil_iff.mp hnil).1])

theorem IsTold.mapError {a : Checked ε α} (h : a.IsTold) (f : ε → δ) :
    IsTold (Except.mapError (·.map f) a) := by
  cases a with
  | ok x => exact isTold_ok x
  | error defects =>
    intro hmap
    have hnil : defects.map f = [] := by
      change (Except.error (defects.map f) : Checked δ α) = .error [] at hmap
      exact Except.error.inj hmap
    exact h (by rw [List.map_eq_nil_iff.mp hnil])

end Checked

namespace Operation

open Checked

section Shapes

variable {α : Type} {shape : Json → Shaped α}

theorem isTold_required (hshape : ∀ value, (shape value).IsTold) (fields : Fields) (name : String) :
    (required fields name shape).IsTold := by
  unfold required
  split
  · exact (hshape _).mapError _
  · exact isTold_singleton _

theorem isTold_optional (hshape : ∀ value, (shape value).IsTold) (fields : Fields) (name : String)
    (absent : α) : (optional fields name absent shape).IsTold := by
  unfold optional
  split
  · exact (hshape _).mapError _
  · exact isTold_ok _

theorem isTold_items (hshape : ∀ value, (shape value).IsTold) (i : Nat) (values : List Json) :
    (items shape i values).IsTold := by
  induction values generalizing i with
  | nil => exact isTold_ok _
  | cons value values ih => exact (((hshape value).mapError _).both (ih (i + 1))).map _

theorem isTold_list (hshape : ∀ value, (shape value).IsTold) (value : Json) :
    (list shape value).IsTold := by
  unfold list
  split
  · exact isTold_items hshape 0 _
  · exact isTold_singleton _

end Shapes

theorem isTold_text (value : Json) : (text value).IsTold := by
  unfold text
  split
  · exact isTold_ok _
  · exact isTold_singleton _

theorem isTold_nonEmptyText (value : Json) : (nonEmptyText value).IsTold := by
  unfold nonEmptyText
  split
  · split
    · exact isTold_singleton _
    · split
      · exact isTold_singleton _
      · exact isTold_ok _
  · exact isTold_singleton _

theorem isTold_object (value : Json) : (object value).IsTold := by
  unfold object
  split
  · exact isTold_ok _
  · exact isTold_singleton _

theorem isTold_source (value : Json) : (Source.ofJson value).IsTold := by
  unfold Source.ofJson
  split
  · exact ((isTold_required isTold_nonEmptyText _ _).both
      (isTold_required isTold_nonEmptyText _ _)).map _
  · exact isTold_singleton _

theorem isTold_transformation (value : Json) : (TransformationDescriptor.ofJson value).IsTold := by
  unfold TransformationDescriptor.ofJson
  split
  · exact ((isTold_required isTold_nonEmptyText _ _).both (isTold_required isTold_object _ _)).map _
  · exact isTold_singleton _

/-- A value that is no descriptor has a defect of shape. -/
theorem isTold_descriptor (value : Json) : (Descriptor.ofJson value).IsTold := by
  unfold Descriptor.ofJson
  split
  · have hkind := isTold_required isTold_text
    have hsources := isTold_required (isTold_list isTold_source)
    have htransformations := isTold_optional (isTold_list isTold_transformation)
    have hdestination := isTold_required isTold_nonEmptyText
    exact (((hkind _ _).both (hsources _ _)).both
      ((htransformations _ _ _).both (hdestination _ _))).map _
  · exact isTold_singleton _

/-! ### What a configuration may declare -/

/-- The values of a configuration that declare its operations. -/
def entries : Json → List Json
  | .object fields => [.object fields]
  | .array values => values
  | _ => []

/-- A mapping of the operation that a value declares nests an object under an empty key. -/
def NestsUnnamedIn (value : Json) : Prop :=
  ∃ d, Descriptor.ofJson value = .ok d ∧
    ∃ t ∈ d.transformations, Mapping.NestsUnnamed (.object t.mapping)

/-- Some mapping of a configuration nests an object under an empty key. -/
def NestsUnnamed (raw : Json) : Prop := ∃ value ∈ entries raw, NestsUnnamedIn value

/-- An operation of the supported kind with a mapping for each of its sources. -/
def IsRunnable (op : Operation) : Prop :=
  op.kind = mergeKind ∧ ∀ source ∈ op.sources, ∃ mapping, op.mappingFor source = .ok mapping

theorem exists_mappingFor_iff {op : Operation} {source : Source} :
    (∃ mapping, op.mappingFor source = .ok mapping) ↔ source.transformation ∈ op.ids := by
  unfold mappingFor ids
  cases hlookup : op.transformations.lookup source.transformation with
  | some mapping =>
    refine iff_of_true ⟨mapping, rfl⟩ ?_
    obtain ⟨before, after, heq, -⟩ := List.lookup_eq_some_iff.mp hlookup
    rw [heq]
    simp
  | none =>
    refine iff_of_false (by simp) fun hmem => ?_
    obtain ⟨entry, hentry, hid⟩ := List.mem_map.mp hmem
    have hne := List.lookup_eq_none_iff.mp hlookup entry hentry
    simp [hid] at hne

/-! ### Transformations -/

theorem exists_mapping_iff (location : Location) (fields : Fields) :
    (∃ mapping, Mapping.ofFields location fields = .ok mapping) ↔
      Mapping.check location (.object fields) = [] ∧ ¬ Mapping.NestsUnnamed (.object fields) :=
  Mapping.exists_ofJson_iff location (.object fields)

/-- An id is declared at the end of the table and at the front of the set. -/
theorem mem_seen_cons {seen : List String} {known : List (String × Mapping)}
    (hseen : ∀ id, id ∈ seen ↔ id ∈ known.map (·.1)) (declared : String) (mapping : Mapping)
    (id : String) :
    id ∈ declared :: seen ↔ id ∈ (known ++ [(declared, mapping)]).map (·.1) := by
  rw [List.mem_cons, hseen, List.map_append, List.mem_append, or_comm]
  simp

/-- The transformations are read if and only if their check finds nothing and nothing in them is
nested under an empty key. -/
theorem exists_readTransformations_iff {location : Location} {ts : List TransformationDescriptor}
    {known : List (String × Mapping)} {seen : List String} {i : Nat}
    (hseen : ∀ id, id ∈ seen ↔ id ∈ known.map (·.1)) :
    (∃ table, readTransformations location known i ts = .ok table) ↔
      checkTransformations location seen i ts = [] ∧
        ∀ t ∈ ts, ¬ Mapping.NestsUnnamed (.object t.mapping) := by
  induction ts generalizing known seen i with
  | nil => simp [readTransformations, checkTransformations]
  | cons t ts ih =>
    -- a repeated id ends both; otherwise the table and the set grow by the same id
    have hmapping := exists_mapping_iff
      (((location.field "transformations").index i).field "mapping") t.mapping
    rw [readTransformations, checkTransformations]
    by_cases hid : t.id ∈ seen
    · simp [hid, (hseen _).mp hid]
    · have hunknown : t.id ∉ known.map (·.1) := mt (hseen _).mpr hid
      simp only [List.contains_iff_mem, hid, hunknown, if_false, List.nil_append,
        List.append_eq_nil_iff, List.map_eq_nil_iff, List.forall_mem_cons]
      rw [and_and_and_comm, ← hmapping]
      cases Mapping.ofFields (((location.field "transformations").index i).field "mapping")
        t.mapping with
      | error fault => simp
      | ok mapping => simpa using ih (mem_seen_cons hseen t.id mapping)

/-- The ids of the table are those that were known and then those of the transformations. -/
theorem ids_of_readTransformations {location : Location} {ts : List TransformationDescriptor}
    {known table : List (String × Mapping)} {i : Nat}
    (h : readTransformations location known i ts = .ok table) :
    table.map (·.1) = known.map (·.1) ++ ts.map (·.id) := by
  induction ts generalizing known i with
  | nil =>
    cases h
    simp
  | cons t ts ih =>
    unfold readTransformations at h
    dsimp only at h
    split at h
    · cases h
    · split at h
      · cases h
      · rw [ih h]
        simp

/-! ### Operations -/

theorem checkSources_eq_nil_iff {location : Location} {ids : List String} {sources : List Source}
    {i : Nat} :
    checkSources location ids i sources = [] ↔ ∀ source ∈ sources, source.transformation ∈ ids := by
  induction sources generalizing i with
  | nil => simp [checkSources]
  | cons source sources ih =>
    rw [checkSources, List.append_eq_nil_iff, ih, List.forall_mem_cons]
    by_cases hsource : source.transformation ∈ ids <;> simp [hsource]

/-- An operation is read and can be planned if and only if its check finds nothing and nothing in it
is nested under an empty key. -/
theorem exists_ofJson_iff (index : Nat) (value : Json) :
    (∃ op, ofJson index value = .ok op ∧ op.IsRunnable) ↔
      checkOne index value = [] ∧ ¬ NestsUnnamedIn value := by
  unfold ofJson checkOne NestsUnnamedIn
  have htold := isTold_descriptor value
  cases hdescriptor : Descriptor.ofJson value with
  | error defects =>
    have hdefects : defects ≠ [] := by
      rintro rfl
      exact htold hdescriptor
    simp [hdefects]
  | ok d =>
    have hread := @exists_readTransformations_iff (locationOf index) d.transformations [] [] 0
      fun _ => Iff.rfl
    have hids {table} (h : readTransformations (locationOf index) [] 0 d.transformations =
        .ok table) : table.map (·.1) = d.transformations.map (·.id) :=
      ids_of_readTransformations h
    simp only [checkDescriptor, List.append_eq_nil_iff, checkSources_eq_nil_iff, Except.ok.injEq,
      exists_eq_left', not_exists, not_and]
    rw [and_right_comm, and_assoc (b := _ = []), ← hread]
    cases htable : readTransformations (locationOf index) [] 0 d.transformations with
    | error fault => simp [Except.map]
    | ok table =>
      simp only [Except.map, Except.ok.injEq, exists_eq_left', IsRunnable, exists_mappingFor_iff,
        ids, hids htable]
      by_cases hkind : d.kind = mergeKind <;> simp [hkind]

theorem exists_ofValues_iff (i : Nat) (values : List Json) :
    (∃ ops, ofValues i values = .ok ops ∧ ∀ op ∈ ops, op.IsRunnable) ↔
      checkValues i values = [] ∧ ∀ value ∈ values, ¬ NestsUnnamedIn value := by
  induction values generalizing i with
  | nil => simp [ofValues, checkValues]
  | cons value values ih =>
    rw [checkValues, List.append_eq_nil_iff, List.forall_mem_cons, and_and_and_comm,
      ← exists_ofJson_iff, ← ih, ofValues]
    cases ofJson i value with
    | error fault => simp
    | ok op =>
      cases ofValues (i + 1) values with
      | error fault => simp [Except.map]
      | ok ops => simp [Except.map]

/-- All operations of a configuration are read and can be planned if and only if its check finds
nothing and none of its mappings nests anything under an empty key. -/
theorem exists_runnable_iff (raw : Json) :
    (∃ ops, listOfJson raw = .ok ops ∧ ∀ op ∈ ops, op.IsRunnable) ↔
      check raw = [] ∧ ¬ NestsUnnamed raw := by
  unfold NestsUnnamed
  simp only [not_exists, not_and]
  cases raw with
  | object fields => exact exists_ofValues_iff 0 [.object fields]
  | array values => exact exists_ofValues_iff 0 values
  | _ => simp [listOfJson, check]

end Operation

end FeedMerge
