import FeedMerge.Operation.Descriptor
import FeedMerge.Proofs.Result
import Mathlib.Data.List.Forall2

/-!
# Values that declare operations

What the shape of an operation asks of a value is told here without the defects: which fields there
must be, and of which kind. A value passes the check of its shape exactly if it declares a
descriptor, which is then the one that was read (`Descriptor.ofJson_eq_ok`).
-/

namespace FeedMerge.Operation

/-- A field of an object is a text of at least one character, and none of them is a surrogate. -/
def HasText (fields : Fields) (name text : String) : Prop :=
  fields.find? name = some (.string text) ∧ Text.isEncodable text = true ∧ text ≠ ""

/-- An object declares a source by naming a file and a transformation. -/
inductive Source.Declares : Json → Source → Prop
  | object {fields : Fields} {file transformation : String} (hfile : HasText fields "file" file)
      (htransformation : HasText fields "transformation" transformation) :
      Declares (.object fields) ⟨file, transformation⟩

/-- An object declares a transformation by its id and an object for its mapping. -/
inductive TransformationDescriptor.Declares : Json → TransformationDescriptor → Prop
  | object {fields mapping : Fields} {id : String} (hid : HasText fields "id" id)
      (hmapping : fields.find? "mapping" = some (.object mapping)) :
      Declares (.object fields) ⟨id, mapping⟩

/-- An object declares an operation by its kind, its sources, its transformations, none if these are
left out, and its destination. -/
inductive Descriptor.Declares : Json → Descriptor → Prop
  | object {fields : Fields} {sources transformations : List Json} {d : Descriptor}
      (hkind : fields.find? "operation" = some (.string d.kind))
      (hsources : fields.find? "sources" = some (.array sources))
      (hsource : List.Forall₂ Source.Declares sources d.sources)
      (htransformations : (fields.find? "transformations").getD (.array []) =
        .array transformations)
      (htransformation :
        List.Forall₂ TransformationDescriptor.Declares transformations d.transformations)
      (hdestination : HasText fields "destination" d.destination) :
      Declares (.object fields) d

section Shapes

variable {α : Type} {shape : Json → Shaped α} {fields : Fields} {name : String} {value : Json}

theorem required_eq_ok {x : α} : required fields name shape = .ok x ↔
    ∃ value, fields.find? name = some value ∧ shape value = .ok x := by
  unfold required
  cases fields.find? name with
  | none => simp
  | some value => simp [Shaped.under, Except.mapError_eq_ok]

theorem nonEmptyText_eq_ok {text : String} : nonEmptyText value = .ok text ↔
    value = .string text ∧ Text.isEncodable text = true ∧ text ≠ "" := by
  cases value with
  | string own =>
    rw [nonEmptyText]
    constructor
    · intro h
      split at h
      · cases h
      · rename_i hencodable
        split at h
        · cases h
        · rename_i hempty
          cases h
          exact ⟨rfl, by simpa using hencodable, hempty⟩
    · rintro ⟨hown, hencodable, hempty⟩
      cases hown
      rw [hencodable, if_neg (by decide), if_neg hempty]
  | _ => simp [nonEmptyText]

theorem required_nonEmptyText_eq_ok {text : String} :
    required fields name nonEmptyText = .ok text ↔ HasText fields name text := by
  simp [required_eq_ok, nonEmptyText_eq_ok, HasText]

theorem text_eq_ok {own : String} : text value = .ok own ↔ value = .string own := by
  cases value <;> simp [text]

theorem object_eq_ok {own : Fields} : object value = .ok own ↔ value = .object own := by
  cases value <;> simp [object]

variable {declares : Json → α → Prop} {xs : List α}

theorem items_eq_ok (h : ∀ value x, shape value = .ok x ↔ declares value x) {i : Nat}
    {values : List Json} : items shape i values = .ok xs ↔ List.Forall₂ declares values xs := by
  induction values generalizing i xs with
  | nil => simp [items, List.forall₂_nil_left_iff, eq_comm]
  | cons value values ih =>
    rw [items, Except.map_eq_ok]
    cases xs with
    | nil => simp
    | cons x xs => simp [Checked.both_eq_ok, Shaped.under, Except.mapError_eq_ok, h, ih]

theorem list_eq_ok (h : ∀ value x, shape value = .ok x ↔ declares value x) :
    list shape value = .ok xs ↔
      ∃ values, value = .array values ∧ List.Forall₂ declares values xs := by
  cases value with
  | array values => simp [list, items_eq_ok h]
  | _ => simp [list]

theorem optional_list_eq_ok (h : ∀ value x, shape value = .ok x ↔ declares value x) :
    optional fields name [] (list shape) = .ok xs ↔
      ∃ values, (fields.find? name).getD (.array []) = .array values ∧
        List.Forall₂ declares values xs := by
  unfold optional
  cases fields.find? name with
  | none => simp [List.forall₂_nil_left_iff, eq_comm]
  | some value => simp [Shaped.under, Except.mapError_eq_ok, list_eq_ok h]

end Shapes

theorem Source.ofJson_eq_ok {value : Json} {source : Source} :
    Source.ofJson value = .ok source ↔ Declares value source := by
  constructor
  · intro h
    unfold ofJson at h
    split at h
    · obtain ⟨⟨file, transformation⟩, hboth, rfl⟩ := Except.map_eq_ok.mp h
      obtain ⟨hfile, htransformation⟩ := Checked.both_eq_ok.mp hboth
      exact .object (required_nonEmptyText_eq_ok.mp hfile)
        (required_nonEmptyText_eq_ok.mp htransformation)
    · cases h
  · rintro ⟨hfile, htransformation⟩
    rw [ofJson, required_nonEmptyText_eq_ok.mpr hfile,
      required_nonEmptyText_eq_ok.mpr htransformation]
    rfl

theorem TransformationDescriptor.ofJson_eq_ok {value : Json} {t : TransformationDescriptor} :
    TransformationDescriptor.ofJson value = .ok t ↔ Declares value t := by
  have hobject {fields mapping : Fields} : required fields "mapping" object = .ok mapping ↔
      fields.find? "mapping" = some (.object mapping) := by
    simp [required_eq_ok, object_eq_ok]
  constructor
  · intro h
    unfold ofJson at h
    split at h
    · obtain ⟨⟨id, mapping⟩, hboth, rfl⟩ := Except.map_eq_ok.mp h
      obtain ⟨hid, hmapping⟩ := Checked.both_eq_ok.mp hboth
      exact .object (required_nonEmptyText_eq_ok.mp hid) (hobject.mp hmapping)
    · cases h
  · rintro ⟨hid, hmapping⟩
    rw [ofJson, required_nonEmptyText_eq_ok.mpr hid, hobject.mpr hmapping]
    rfl

/-- The check of a shape lets through what declares a descriptor, and reads it. -/
theorem Descriptor.ofJson_eq_ok {value : Json} {d : Descriptor} :
    Descriptor.ofJson value = .ok d ↔ Declares value d := by
  have hkind {fields : Fields} {kind : String} : required fields "operation" text = .ok kind ↔
      fields.find? "operation" = some (.string kind) := by
    simp [required_eq_ok, text_eq_ok]
  have hsources {fields : Fields} {sources : List Source} :
      required fields "sources" (list Source.ofJson) = .ok sources ↔
        ∃ values, fields.find? "sources" = some (.array values) ∧
          List.Forall₂ Source.Declares values sources := by
    simp only [required_eq_ok, list_eq_ok fun _ _ => Source.ofJson_eq_ok]
    constructor
    · rintro ⟨_, hfind, values, rfl, hvalues⟩
      exact ⟨values, hfind, hvalues⟩
    · rintro ⟨values, hfind, hvalues⟩
      exact ⟨_, hfind, values, rfl, hvalues⟩
  have htransformations {fields : Fields} {ts : List TransformationDescriptor} :
      optional fields "transformations" [] (list TransformationDescriptor.ofJson) = .ok ts ↔ _ :=
    optional_list_eq_ok fun _ _ => TransformationDescriptor.ofJson_eq_ok
  constructor
  · intro h
    unfold ofJson at h
    split at h
    · obtain ⟨⟨⟨kind, sources⟩, ts, destination⟩, hboth, rfl⟩ := Except.map_eq_ok.mp h
      obtain ⟨hfirst, hsecond⟩ := Checked.both_eq_ok.mp hboth
      obtain ⟨hown, hlist⟩ := Checked.both_eq_ok.mp hfirst
      obtain ⟨hothers, hlast⟩ := Checked.both_eq_ok.mp hsecond
      obtain ⟨values, hfind, hvalues⟩ := hsources.mp hlist
      obtain ⟨others, hget, hts⟩ := htransformations.mp hothers
      exact .object (hkind.mp hown) hfind hvalues hget hts (required_nonEmptyText_eq_ok.mp hlast)
    · cases h
  · rintro ⟨hown, hfind, hvalues, hget, hts, hlast⟩
    rw [ofJson, hkind.mpr hown, hsources.mpr ⟨_, hfind, hvalues⟩,
      htransformations.mpr ⟨_, hget, hts⟩, required_nonEmptyText_eq_ok.mpr hlast]
    rfl

/-- A value declares one descriptor at most. -/
theorem Descriptor.Declares.unique {value : Json} {d other : Descriptor} (h : Declares value d)
    (hother : Declares value other) : d = other :=
  Except.ok.inj ((ofJson_eq_ok.mpr h).symm.trans (ofJson_eq_ok.mpr hother))

end FeedMerge.Operation
