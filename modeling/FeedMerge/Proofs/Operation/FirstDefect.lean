import FeedMerge.Proofs.Mapping.Relocation
import FeedMerge.Proofs.Mapping.Stopping
import FeedMerge.Proofs.Operation.Agreement
import FeedMerge.Proofs.Operation.Shapes
import Mathlib.Data.List.Nodup

/-!
# What a configuration is read as

A configuration that is read gives one operation for each of its entries, in order, which has all
that the entry declares (`Mirrors`). One that is not read has defects, and where they stand orders
them: `FaultAt` tells each with its rank, which begins with the number of the entry, then has that
of the transformation, and a repeated id comes before what is wrong with the mapping beside it. The
fault that the reader stops with is the one of the lowest rank (`stops_listOfJson`). Both loops of
the reader are of one form, and so is what they stop at (`Stops.bind`).
-/

namespace FeedMerge.Operation

/-! ### Readers that stop at the first of several faults -/

/-- A reader goes through if there are no faults, and else stops with the one of the lowest rank. -/
structure Stops {α : Type} (result : Except Fault α) (At : List Nat → Fault → Prop) : Prop where
  none_of_ok : ∀ a, result = .ok a → ∀ rank fault, ¬ At rank fault
  first_of_error : ∀ fault, result = .error fault →
    ∃ rank, At rank fault ∧ ∀ other reason, At other reason → ¬ other < rank

namespace Stops

variable {α β : Type} {result first : Except Fault α} {next : α → Except Fault β}
  {At First Rest : List Nat → Fault → Prop}

theorem congr (h : Stops result First) (hiff : ∀ rank fault, At rank fault ↔ First rank fault) :
    Stops result At where
  none_of_ok a ha rank fault hfault := h.none_of_ok a ha rank fault ((hiff _ _).mp hfault)
  first_of_error fault hfault := by
    obtain ⟨rank, hrank, hleast⟩ := h.first_of_error fault hfault
    exact ⟨rank, (hiff _ _).mpr hrank, fun other reason hother =>
      hleast other reason ((hiff _ _).mp hother)⟩

theorem map (h : Stops result At) (f : α → β) : Stops (result.map f) At where
  none_of_ok b hb := by
    obtain ⟨a, ha, -⟩ := Except.map_eq_ok.mp hb
    exact h.none_of_ok a ha
  first_of_error fault hfault := h.first_of_error fault (Except.map_eq_error.mp hfault)

/-- What is read after something else stops at a fault of the first, or else at one of the rest. -/
theorem bind {n : Nat} (hfirst : Stops first First)
    (hnext : ∀ a, first = .ok a → Stops (next a) Rest)
    (hlater : ∀ rank fault, Rest rank fault → ∃ i below, n < i ∧ rank = i :: below) :
    Stops (first.bind next) fun rank fault =>
      (∃ below, rank = n :: below ∧ First below fault) ∨ Rest rank fault := by
  cases hresult : first with
  | error stopped =>
    refine ⟨nofun, ?_⟩
    rintro _ ⟨⟩
    obtain ⟨rank, hrank, hleast⟩ := hfirst.first_of_error stopped hresult
    refine ⟨n :: rank, .inl ⟨rank, rfl, hrank⟩, ?_⟩
    rintro other reason (⟨below, rfl, hbelow⟩ | hrest)
    · have hown := hleast below reason hbelow
      rw [List.cons_lt_cons_iff]
      rintro (hlt | ⟨-, hlt⟩)
      · exact Nat.lt_irrefl _ hlt
      · exact hown hlt
    · obtain ⟨i, below, hi, rfl⟩ := hlater other reason hrest
      rw [List.cons_lt_cons_iff]
      omega
  | ok a =>
    -- the first has no faults then, so those of the rest are all there are
    refine (hnext a hresult).congr fun rank fault => or_iff_right ?_
    rintro ⟨below, -, hbelow⟩
    exact hfirst.none_of_ok a hresult below fault hbelow

end Stops

/-- The faults of some items, the first of which has number `n`: each has the number of its item in
front. -/
def FaultAmong {α : Type} (At : Nat → α → List Nat → Fault → Prop) (n : Nat) (items : List α)
    (rank : List Nat) (fault : Fault) : Prop :=
  ∃ k item below, rank = (n + k) :: below ∧ items[k]? = some item ∧ At (n + k) item below fault

section Among

variable {α : Type} {At : Nat → α → List Nat → Fault → Prop} {n : Nat} {item : α} {items : List α}
  {rank : List Nat} {fault : Fault}

theorem not_faultAmong_nil : ¬ FaultAmong At n [] rank fault := by
  rintro ⟨k, item, below, -, hget, -⟩
  cases hget

theorem faultAmong_cons : FaultAmong At n (item :: items) rank fault ↔
    (∃ below, rank = n :: below ∧ At n item below fault) ∨
      FaultAmong At (n + 1) items rank fault := by
  constructor
  · rintro ⟨k, found, below, rfl, hget, hfault⟩
    cases k with
    | zero =>
      cases hget
      exact .inl ⟨below, rfl, hfault⟩
    | succ k =>
      rw [Nat.add_comm k, ← Nat.add_assoc] at hfault ⊢
      exact .inr ⟨k, found, below, rfl, hget, hfault⟩
  · rintro (⟨below, rfl, hfault⟩ | ⟨k, found, below, rfl, hget, hfault⟩)
    · exact ⟨0, item, below, rfl, rfl, hfault⟩
    · rw [Nat.add_assoc, Nat.add_comm 1] at hfault ⊢
      exact ⟨k + 1, found, below, rfl, hget, hfault⟩

theorem exists_lt_of_faultAmong (h : FaultAmong At (n + 1) items rank fault) :
    ∃ i below, n < i ∧ rank = i :: below := by
  obtain ⟨k, found, below, rfl, -, -⟩ := h
  exact ⟨n + 1 + k, below, by omega, rfl⟩

end Among

/-! ### Transformations -/

/-- Where a transformation of an operation stands. -/
def transformationPlace (i j : Nat) : Location := ((locationOf i).field "transformations").index j

/-- Where the mapping of a transformation stands. -/
def mappingPlace (i j : Nat) : Location := (transformationPlace i j).field "mapping"

/-- What is wrong with a transformation among those of its operation: its id is that of one before
it, or its mapping cannot be read. -/
inductive TransformationFault (i : Nat) (ts : List TransformationDescriptor) (j : Nat)
    (t : TransformationDescriptor) : List Nat → Fault → Prop
  | duplicate (hid : t.id ∈ (ts.take j).map (·.id)) :
      TransformationFault i ts j t [0]
        ⟨.duplicateTransformation t.id, transformationPlace i j, none⟩
  | mapping {fault : Fault}
      (hmapping : Mapping.ofJson (mappingPlace i j) (.object t.mapping) = .error fault) :
      TransformationFault i ts j t [1] fault

/-- One transformation by itself: its id is looked for among those before it, then its mapping is
read. -/
def readTransformation (i : Nat) (ids : List String) (j : Nat) (t : TransformationDescriptor) :
    Except Fault Mapping :=
  if ids.contains t.id then
    .error ⟨.duplicateTransformation t.id, transformationPlace i j, none⟩
  else Mapping.ofJson (mappingPlace i j) (.object t.mapping)

section Transformations

variable {i j : Nat} {t : TransformationDescriptor} {ts done : List TransformationDescriptor}
  {known table : List (String × Mapping)}

theorem readTransformations_cons : readTransformations (locationOf i) known j (t :: ts) =
    (readTransformation i (known.map (·.1)) j t).bind fun mapping =>
      readTransformations (locationOf i) (known ++ [(t.id, mapping)]) (j + 1) ts := by
  rw [readTransformations, readTransformation]
  split
  · rfl
  · have hmapping : Mapping.ofFields
        ((((locationOf i).field "transformations").index j).field "mapping") t.mapping =
          Mapping.ofJson (mappingPlace i j) (.object t.mapping) := rfl
    rw [hmapping]
    cases Mapping.ofJson (mappingPlace i j) (.object t.mapping) <;> rfl

theorem stops_readTransformation {ids : List String} (hids : ids = (ts.take j).map (·.id)) :
    Stops (readTransformation i ids j t) (TransformationFault i ts j t) := by
  subst hids
  unfold readTransformation
  split
  · rename_i hid
    rw [List.contains_iff_mem] at hid
    refine ⟨nofun, ?_⟩
    rintro _ ⟨⟩
    refine ⟨[0], .duplicate hid, ?_⟩
    rintro _ _ (_ | _) <;> decide
  · rename_i hid
    rw [List.contains_iff_mem] at hid
    constructor
    · rintro mapping hread _ _ (hdouble | hfault)
      · exact hid hdouble
      · rw [hread] at hfault
        cases hfault
    · intro fault hread
      refine ⟨[1], .mapping hread, ?_⟩
      rintro _ _ (hdouble | _)
      · exact absurd hdouble hid
      · decide

/-- Behind some transformations that were read, the others are. -/
theorem stops_readTransformations (hknown : known.map (·.1) = done.map (·.id)) :
    Stops (readTransformations (locationOf i) known done.length ts)
      (FaultAmong (TransformationFault i (done ++ ts)) done.length ts) := by
  induction ts generalizing known done with
  | nil => exact ⟨fun _ _ _ _ => not_faultAmong_nil, nofun⟩
  | cons t ts ih =>
    rw [readTransformations_cons]
    have hfirst : Stops (readTransformation i (known.map (·.1)) done.length t)
        (TransformationFault i (done ++ t :: ts) done.length t) := by
      refine stops_readTransformation ?_
      rw [hknown, List.take_left]
    refine (hfirst.bind (n := done.length) (fun mapping _ => ?_)
      fun _ _ => exists_lt_of_faultAmong).congr fun _ _ => faultAmong_cons
    have hnext := @ih (done ++ [t]) (known ++ [(t.id, mapping)]) (by simp [hknown])
    rwa [List.length_append, List.length_singleton, List.append_assoc,
      List.singleton_append] at hnext

/-- Transformations that are read are in the table in order, each under its id with the mapping that
is read at its own place. -/
theorem exists_of_readTransformations
    (h : readTransformations (locationOf i) known j ts = .ok table) :
    ∃ more, table = known ++ more ∧
      List.Forall₂ (fun p entry => entry.1 = p.1.id ∧
        Mapping.ofJson (mappingPlace i p.2) (.object p.1.mapping) = .ok entry.2)
        (ts.zipIdx j) more := by
  induction ts generalizing known j with
  | nil =>
    cases h
    exact ⟨[], (List.append_nil _).symm, .nil⟩
  | cons t ts ih =>
    rw [readTransformations_cons, readTransformation] at h
    split at h
    · cases h
    · cases hmapping : Mapping.ofJson (mappingPlace i j) (.object t.mapping) with
      | error fault =>
        rw [hmapping] at h
        cases h
      | ok mapping =>
        rw [hmapping] at h
        obtain ⟨more, rfl, hmore⟩ := ih h
        refine ⟨(t.id, mapping) :: more, List.append_assoc _ _ _, ?_⟩
        rw [List.zipIdx_cons]
        exact .cons ⟨rfl, hmapping⟩ hmore

end Transformations

/-! ### Entries -/

/-- What is wrong with an entry: its shape, or else one of its transformations. -/
inductive EntryFault (i : Nat) (value : Json) : List Nat → Fault → Prop
  | shape {defects : List ShapeDefect} (hshape : Descriptor.ofJson value = .error defects) :
      EntryFault i value [] ⟨.misshapenOperation defects, locationOf i, none⟩
  | transformation {d : Descriptor} {rank : List Nat} {fault : Fault}
      (hdeclares : Descriptor.Declares value d)
      (hfault : FaultAmong (TransformationFault i d.transformations) 0 d.transformations rank
        fault) : EntryFault i value rank fault

/-- An operation has all that an entry declares: its kind, sources and destination, and a table with
its ids in order, each with the mapping that is read at its own place. -/
structure Mirrors (i : Nat) (value : Json) (op : Operation) : Prop where
  index_eq : op.index = i
  declared : ∃ d, Descriptor.Declares value d ∧ op.kind = d.kind ∧ op.sources = d.sources ∧
    op.destination = d.destination ∧
    List.Forall₂ (fun p entry => entry.1 = p.1.id ∧
      Mapping.ofJson (mappingPlace i p.2) (.object p.1.mapping) = .ok entry.2)
      d.transformations.zipIdx op.transformations

theorem stops_ofJson (i : Nat) (value : Json) :
    Stops (ofJson i value) (EntryFault i value) := by
  rw [ofJson]
  cases hshape : Descriptor.ofJson value with
  | error defects =>
    refine ⟨nofun, ?_⟩
    rintro _ ⟨⟩
    exact ⟨[], .shape hshape, fun _ _ _ => List.not_lt_nil _⟩
  | ok d =>
    have hread := @stops_readTransformations i d.transformations [] [] rfl
    have hdeclared := Descriptor.ofJson_eq_ok.mp hshape
    refine (hread.map _).congr fun rank fault => ⟨?_, .transformation hdeclared⟩
    rintro (hmisshapen | ⟨hdeclares, hfault⟩)
    · rw [hshape] at hmisshapen
      cases hmisshapen
    · obtain rfl := hdeclares.unique hdeclared
      exact hfault

theorem mirrors_of_ofJson {i : Nat} {value : Json} {op : Operation} (h : ofJson i value = .ok op) :
    Mirrors i value op := by
  rw [ofJson] at h
  cases hshape : Descriptor.ofJson value with
  | error defects =>
    rw [hshape] at h
    cases h
  | ok d =>
    rw [hshape] at h
    obtain ⟨table, htable, rfl⟩ := Except.map_eq_ok.mp h
    obtain ⟨more, rfl, hmore⟩ := exists_of_readTransformations htable
    exact ⟨rfl, d, Descriptor.ofJson_eq_ok.mp hshape, rfl, rfl, rfl, hmore⟩

theorem ofValues_cons (i : Nat) (value : Json) (values : List Json) :
    ofValues i (value :: values) =
      (ofJson i value).bind fun op => (ofValues (i + 1) values).map (op :: ·) := by
  rw [ofValues]
  cases ofJson i value <;> rfl

theorem stops_ofValues (n : Nat) (values : List Json) :
    Stops (ofValues n values) (FaultAmong EntryFault n values) := by
  induction values generalizing n with
  | nil => exact ⟨fun _ _ _ _ => not_faultAmong_nil, nofun⟩
  | cons value values ih =>
    rw [ofValues_cons]
    exact ((stops_ofJson n value).bind (fun op _ => (ih (n + 1)).map _)
      fun _ _ => exists_lt_of_faultAmong).congr fun _ _ => faultAmong_cons

theorem mirrors_of_ofValues {n : Nat} {values : List Json} {ops : List Operation}
    (h : ofValues n values = .ok ops) :
    List.Forall₂ (fun p op => Mirrors p.2 p.1 op) (values.zipIdx n) ops := by
  induction values generalizing n ops with
  | nil =>
    cases h
    exact .nil
  | cons value values ih =>
    rw [ofValues_cons] at h
    cases hfirst : ofJson n value with
    | error fault =>
      rw [hfirst] at h
      cases h
    | ok op =>
      rw [hfirst] at h
      obtain ⟨rest, hrest, rfl⟩ := Except.map_eq_ok.mp h
      rw [List.zipIdx_cons]
      exact .cons (mirrors_of_ofJson hfirst) (ih hrest)

/-! ### Configurations -/

/-- The defects of a configuration, each with its rank: that it is none at all, the shape of an
entry, an id that is declared before in the same entry, and what a mapping stops with. -/
inductive FaultAt (raw : Json) : List Nat → Fault → Prop
  | root (hobject : raw.kind ≠ .object) (harray : raw.kind ≠ .array) :
      FaultAt raw [] ⟨.notOperations raw.kind, .root, none⟩
  | shape {i : Nat} {value : Json} {defects : List ShapeDefect}
      (hvalue : (entries raw)[i]? = some value)
      (hshape : Descriptor.ofJson value = .error defects) :
      FaultAt raw [i] ⟨.misshapenOperation defects, locationOf i, none⟩
  | duplicate {i j : Nat} {value : Json} {d : Descriptor} {t : TransformationDescriptor}
      (hvalue : (entries raw)[i]? = some value) (hdeclares : Descriptor.Declares value d)
      (ht : d.transformations[j]? = some t) (hid : t.id ∈ (d.transformations.take j).map (·.id)) :
      FaultAt raw [i, j, 0] ⟨.duplicateTransformation t.id, transformationPlace i j, none⟩
  | mapping {i j : Nat} {value : Json} {d : Descriptor} {t : TransformationDescriptor}
      {fault : Fault} (hvalue : (entries raw)[i]? = some value)
      (hdeclares : Descriptor.Declares value d) (ht : d.transformations[j]? = some t)
      (hmapping : Mapping.ofJson (mappingPlace i j) (.object t.mapping) = .error fault) :
      FaultAt raw [i, j, 1] fault

/-- What may be read: an object or an array, of which each entry declares an operation with ids of
their own and with mappings that can all be read, wherever they stand. -/
structure WellDeclared (raw : Json) : Prop where
  kind : raw.kind = .object ∨ raw.kind = .array
  entry : ∀ value ∈ entries raw, ∃ d, Descriptor.Declares value d ∧
    (d.transformations.map (·.id)).Nodup ∧
    ∀ t ∈ d.transformations, ∃ location mapping,
      Mapping.ofJson location (.object t.mapping) = .ok mapping

variable {raw : Json} {rank : List Nat} {fault : Fault}

theorem faultAt_of_among (h : FaultAmong EntryFault 0 (entries raw) rank fault) :
    FaultAt raw rank fault := by
  obtain ⟨i, value, below, rfl, hvalue, hentry⟩ := h
  rw [Nat.zero_add] at hentry ⊢
  cases hentry with
  | shape hshape => exact .shape hvalue hshape
  | transformation hdeclares hfault =>
    obtain ⟨j, t, below, rfl, ht, hfault⟩ := hfault
    rw [Nat.zero_add] at hfault ⊢
    cases hfault with
    | duplicate hid => exact .duplicate hvalue hdeclares ht hid
    | mapping hmapping => exact .mapping hvalue hdeclares ht hmapping

theorem among_of_faultAt (hkind : raw.kind = .object ∨ raw.kind = .array)
    (h : FaultAt raw rank fault) : FaultAmong EntryFault 0 (entries raw) rank fault := by
  have hnumber (i : Nat) : 0 + i = i := Nat.zero_add i
  cases h with
  | root hobject harray => exact (hkind.elim hobject harray).elim
  | @shape i value _ hvalue hshape =>
    exact ⟨i, value, [], by rw [hnumber], hvalue, by rw [hnumber]; exact .shape hshape⟩
  | @duplicate i j value d t hvalue hdeclares ht hid =>
    refine ⟨i, value, [j, 0], by rw [hnumber], hvalue, .transformation hdeclares ?_⟩
    exact ⟨j, t, [0], by rw [hnumber], ht, by rw [hnumber, hnumber]; exact .duplicate hid⟩
  | @mapping i j value d t _ hvalue hdeclares ht hmapping =>
    refine ⟨i, value, [j, 1], by rw [hnumber], hvalue, .transformation hdeclares ?_⟩
    exact ⟨j, t, [1], by rw [hnumber], ht, by rw [hnumber, hnumber]; exact .mapping hmapping⟩

theorem stops_listOfJson (raw : Json) : Stops (listOfJson raw) (FaultAt raw) := by
  have hentries (hkind : raw.kind = .object ∨ raw.kind = .array)
      (hread : listOfJson raw = ofValues 0 (entries raw)) :
      Stops (listOfJson raw) (FaultAt raw) := by
    rw [hread]
    exact (stops_ofValues 0 (entries raw)).congr fun rank fault =>
      ⟨among_of_faultAt hkind, faultAt_of_among⟩
  cases raw with
  | object fields => exact hentries (.inl rfl) rfl
  | array values => exact hentries (.inr rfl) rfl
  | _ =>
    refine ⟨nofun, ?_⟩
    rintro _ ⟨⟩
    exact ⟨[], .root nofun nofun, fun _ _ _ => List.not_lt_nil _⟩

/-- At one rank there is one defect. -/
theorem FaultAt.unique {other : Fault} (h : FaultAt raw rank fault)
    (hother : FaultAt raw rank other) : fault = other := by
  cases h with
  | root => cases hother; rfl
  | shape hvalue hshape =>
    cases hother with
    | shape hvalue' hshape' =>
      cases hvalue.symm.trans hvalue'
      cases hshape.symm.trans hshape'
      rfl
  | duplicate hvalue hdeclares ht _ =>
    cases hother with
    | duplicate hvalue' hdeclares' ht' _ =>
      cases hvalue.symm.trans hvalue'
      obtain rfl := hdeclares.unique hdeclares'
      cases ht.symm.trans ht'
      rfl
  | mapping hvalue hdeclares ht hmapping =>
    cases hother with
    | mapping hvalue' hdeclares' ht' hmapping' =>
      cases hvalue.symm.trans hvalue'
      obtain rfl := hdeclares.unique hdeclares'
      cases ht.symm.trans ht'
      cases hmapping.symm.trans hmapping'
      rfl

/-- Items have names of their own if none has the name of one before it. -/
theorem nodup_map_iff_take {α : Type} {name : α → String} {items : List α} :
    (items.map name).Nodup ↔
      ∀ j a, items[j]? = some a → name a ∉ (items.take j).map name := by
  rw [List.Nodup, List.pairwise_map, List.pairwise_iff_getElem]
  constructor
  · intro h j a ha hmem
    obtain ⟨b, hb, heq⟩ := List.mem_map.mp hmem
    obtain ⟨k, hk, rfl⟩ := List.mem_take_iff_getElem.mp hb
    obtain ⟨hj, rfl⟩ := List.getElem?_eq_some_iff.mp ha
    exact h k j (by omega) hj (by omega) heq
  · intro h k j hk hj hlt heq
    refine h j items[j] (List.getElem?_eq_getElem hj) (List.mem_map.mpr ⟨items[k], ?_, heq⟩)
    exact List.mem_take_iff_getElem.mpr ⟨k, by omega, rfl⟩

theorem not_faultAt_of_wellDeclared (h : WellDeclared raw) : ¬ FaultAt raw rank fault := by
  have hentry {i : Nat} {value : Json} {d : Descriptor} (hvalue : (entries raw)[i]? = some value)
      (hdeclares : Descriptor.Declares value d) : (d.transformations.map (·.id)).Nodup ∧
        ∀ t ∈ d.transformations, ∃ location mapping,
          Mapping.ofJson location (.object t.mapping) = .ok mapping := by
    obtain ⟨own, hown, hids, hmappings⟩ := h.entry value (List.mem_of_getElem? hvalue)
    obtain rfl := hown.unique hdeclares
    exact ⟨hids, hmappings⟩
  intro hfault
  cases hfault with
  | root hobject harray => exact h.kind.elim hobject harray
  | shape hvalue hshape =>
    obtain ⟨d, hdeclares, -⟩ := h.entry _ (List.mem_of_getElem? hvalue)
    rw [Descriptor.ofJson_eq_ok.mpr hdeclares] at hshape
    cases hshape
  | duplicate hvalue hdeclares ht hid =>
    exact nodup_map_iff_take.mp (hentry hvalue hdeclares).1 _ _ ht hid
  | mapping hvalue hdeclares ht hmapping =>
    obtain ⟨location, mapping, hread⟩ := (hentry hvalue hdeclares).2 _ (List.mem_of_getElem? ht)
    rw [Mapping.ofJson_relocate hread] at hmapping
    cases hmapping

theorem wellDeclared_of_not_faultAt (h : ∀ rank fault, ¬ FaultAt raw rank fault) :
    WellDeclared raw where
  kind := by
    by_contra hkind
    obtain ⟨hobject, harray⟩ := not_or.mp hkind
    exact h _ _ (.root hobject harray)
  entry := by
    intro value hmem
    obtain ⟨i, hvalue⟩ := List.mem_iff_getElem?.mp hmem
    cases hshape : Descriptor.ofJson value with
    | error defects => exact absurd (.shape hvalue hshape) (h _ _)
    | ok d =>
      have hdeclares := Descriptor.ofJson_eq_ok.mp hshape
      refine ⟨d, hdeclares, ?_, fun t ht => ?_⟩
      · exact nodup_map_iff_take.mpr fun j t ht hid =>
          h _ _ (.duplicate hvalue hdeclares ht hid)
      · obtain ⟨j, ht⟩ := List.mem_iff_getElem?.mp ht
        cases hmapping : Mapping.ofJson (mappingPlace i j) (.object t.mapping) with
        | error fault => exact absurd (.mapping hvalue hdeclares ht hmapping) (h _ _)
        | ok mapping => exact ⟨_, mapping, hmapping⟩

theorem exists_listOfJson_iff : (∃ ops, listOfJson raw = .ok ops) ↔ WellDeclared raw := by
  have hstops := stops_listOfJson raw
  constructor
  · rintro ⟨ops, hops⟩
    exact wellDeclared_of_not_faultAt (hstops.none_of_ok ops hops)
  · intro hdeclared
    cases hread : listOfJson raw with
    | ok ops => exact ⟨ops, rfl⟩
    | error fault =>
      obtain ⟨rank, hfault, -⟩ := hstops.first_of_error fault hread
      exact absurd hfault (not_faultAt_of_wellDeclared hdeclared)

theorem listOfJson_eq_error_iff : listOfJson raw = .error fault ↔
    ∃ rank, FaultAt raw rank fault ∧ ∀ other reason, FaultAt raw other reason → ¬ other < rank := by
  have hstops := stops_listOfJson raw
  constructor
  · exact hstops.first_of_error fault
  · rintro ⟨rank, hfault, hleast⟩
    cases hread : listOfJson raw with
    | ok ops => exact absurd hfault (hstops.none_of_ok ops hread rank fault)
    | error first =>
      obtain ⟨lowest, hfirst, hbelow⟩ := hstops.first_of_error first hread
      obtain rfl : lowest = rank :=
        List.le_antisymm (List.not_lt.mp (hbelow _ _ hfault)) (List.not_lt.mp (hleast _ _ hfirst))
      rw [hfirst.unique hfault]

theorem mirrors_of_listOfJson {ops : List Operation} (h : listOfJson raw = .ok ops) :
    List.Forall₂ (fun p op => Mirrors p.2 p.1 op) (entries raw).zipIdx ops := by
  cases raw with
  | object fields => exact mirrors_of_ofValues h
  | array values => exact mirrors_of_ofValues h
  | _ => cases h

/-! ### Paths -/

theorem text_locationOf (i : Nat) : (locationOf i).text = s!"$[{i}]" := by
  change Location.root.text ++ ("[" ++ toString i ++ "]") = "$[" ++ toString i ++ "]"
  refine String.toList_injective ?_
  simp [Location.root, Location.text]

theorem text_transformationPlace (i j : Nat) :
    (transformationPlace i j).text = s!"$[{i}].transformations[{j}]" := by
  rw [transformationPlace, Location.text_index, Location.text_field, text_locationOf]
  change "$[" ++ toString i ++ "]" ++ ("." ++ "transformations") ++ ("[" ++ toString j ++ "]") =
    "$[" ++ toString i ++ "].transformations[" ++ toString j ++ "]"
  refine String.toList_injective ?_
  simp

theorem text_mappingPlace (i j : Nat) :
    (mappingPlace i j).text = s!"$[{i}].transformations[{j}].mapping" := by
  rw [mappingPlace, Location.text_field, text_transformationPlace]
  change "$[" ++ toString i ++ "].transformations[" ++ toString j ++ "]" ++ ("." ++ "mapping") =
    "$[" ++ toString i ++ "].transformations[" ++ toString j ++ "].mapping"
  refine String.toList_injective ?_
  simp

/-- A configuration is read exactly if it is an object or an array in which every entry declares an
operation with different ids and mappings that can be read. Then there is one operation for each
entry in order, with the number of the entry and all that it declares. Any other configuration has
defects, and is refused with the one of the lowest rank: of the first entry that has some, with its
shape before its transformations, and of the first such transformation, with its id before its
mapping. The path of the defect is that of the root, of the entry, of the transformation, or of the
rule behind it at which its mapping stops. -/
theorem reads_entries_or_first_defect (raw : Json) :
    ((∃ ops, listOfJson raw = .ok ops) ↔ WellDeclared raw) ∧
    (∀ ops, listOfJson raw = .ok ops →
      List.Forall₂ (fun p op => Mirrors p.2 p.1 op) (entries raw).zipIdx ops) ∧
    (∀ fault, listOfJson raw = .error fault ↔
      ∃ rank, FaultAt raw rank fault ∧
        ∀ other reason, FaultAt raw other reason → ¬ other < rank) ∧
    Location.root.text = "$" ∧
    ∀ i j, (locationOf i).text = s!"$[{i}]" ∧
      (transformationPlace i j).text = s!"$[{i}].transformations[{j}]" ∧
      ∀ value fault, Mapping.ofJson (mappingPlace i j) value = .error fault →
        ∃ keys, Mapping.StopsAt (mappingPlace i j) value keys fault ∧
          fault.location.text = keys.foldl (fun path key => path ++ ("." ++ key))
            s!"$[{i}].transformations[{j}].mapping" := by
  refine ⟨exists_listOfJson_iff, fun ops => mirrors_of_listOfJson,
    fun fault => listOfJson_eq_error_iff, rfl, fun i j => ⟨text_locationOf i,
      text_transformationPlace i j, fun value fault h => ?_⟩⟩
  rw [← text_mappingPlace]
  exact Mapping.exists_path_of_error h

end FeedMerge.Operation
