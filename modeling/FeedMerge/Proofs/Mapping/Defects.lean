import FeedMerge.Proofs.Mapping.Report

/-!
# What a check lists

The defects of a mapping are told here without a traversal: `DefectAt` says which defect there is
behind which entries, whatever is wrong with the entries beside them. A check lists each of them
once, in the order of declaration and depth first, and nothing else (`Enumerated`). Ways through
nested objects are ordered like the entries that they go through, an outer entry before those after
it at the same level.
-/

namespace FeedMerge.Mapping

/-- The entries on the way down to some entry, each by its place in its object and its key. -/
abbrev Way := List (Nat × String)

namespace Way

def places (way : Way) : List Nat := way.map (·.1)

/-- The keys on the way as steps of a location. -/
def steps (way : Way) : List Step := way.map fun entry => .field entry.2

theorem places_cons_lt_cons {i j : Nat} {key other : String} {first second : Way} :
    places ((i, key) :: first) < places ((j, other) :: second) ↔
      i < j ∨ i = j ∧ first.places < second.places := by
  simp [places, List.cons_lt_cons_iff]

end Way

/-- A defect of the entry with the given location, key and value, or further down behind it. Objects
under keys that are not those of flags are entered, and every other value is a rule by itself. -/
inductive EntryDefect : Location → String → Json → Way → Defect → Prop
  | empty {location : Location} {key : String} (hkey : Rule.isFlagKey key = false) :
      EntryDefect location key (.object []) [] (.notNonEmptyObject location)
  | rule {location : Location} {key : String} {value : Json} {fault : Fault}
      (hrule : Rule.isFlagKey key = true ∨ value.kind ≠ .object)
      (hfault : Rule.ofEntry location key value = .error fault) :
      EntryDefect location key value [] (.badRule fault)
  | inside {location : Location} {key own : String} {fields : Fields} {i : Nat} {value : Json}
      {way : Way} {defect : Defect} (hkey : Rule.isFlagKey key = false)
      (hget : fields[i]? = some (own, value))
      (hdefect : EntryDefect (location.field own) own value way defect) :
      EntryDefect location key (.object fields) ((i, own) :: way) defect

/-- A defect of a mapping: it is no object with fields at all, or some entry has a defect. -/
inductive DefectAt (location : Location) : Json → Way → Defect → Prop
  | root {value : Json} (hvalue : ∀ fields, value = .object fields → fields = []) :
      DefectAt location value [] (.notNonEmptyObject location)
  | entry {key : String} {fields : Fields} {i : Nat} {value : Json} {way : Way} {defect : Defect}
      (hget : fields[i]? = some (key, value))
      (hdefect : EntryDefect (location.field key) key value way defect) :
      DefectAt location (.object fields) ((i, key) :: way) defect

/-- Defects by the ways to them, in order, and no others than those that there are. -/
structure Finds (found : List (Way × Defect)) (At : Way → Defect → Prop) : Prop where
  sorted : found.Pairwise fun first second => first.1.places < second.1.places
  mem_iff : ∀ way defect, (way, defect) ∈ found ↔ At way defect

/-- Some defects are those that there are, each once and in order. -/
def Enumerated (defects : List Defect) (At : Way → Defect → Prop) : Prop :=
  ∃ found, defects = found.map (·.2) ∧ Finds found At

namespace Enumerated

variable {defects more : List Defect} {At First Rest : Way → Defect → Prop}

theorem congr (h : Enumerated defects First)
    (hiff : ∀ way defect, At way defect ↔ First way defect) : Enumerated defects At := by
  obtain ⟨found, rfl, hfound⟩ := h
  exact ⟨found, rfl, hfound.sorted, fun way defect =>
    (hfound.mem_iff way defect).trans (hiff way defect).symm⟩

theorem nil (h : ∀ way defect, ¬ At way defect) : Enumerated [] At :=
  ⟨[], rfl, .nil, fun way defect => iff_of_false List.not_mem_nil (h way defect)⟩

theorem singleton {only : Defect} (h : ∀ way defect, At way defect ↔ way = [] ∧ defect = only) :
    Enumerated [only] At :=
  ⟨[([], only)], rfl, List.pairwise_singleton _ _, fun way defect => by simp [h]⟩

/-- The defects of an entry, and then those of the entries after it. -/
theorem cons {n : Nat} (key : String) (hfirst : Enumerated defects First)
    (hrest : Enumerated more Rest)
    (hlater : ∀ way defect, Rest way defect → ∃ i own below, n < i ∧ way = (i, own) :: below) :
    Enumerated (defects ++ more) fun way defect =>
      (∃ below, way = (n, key) :: below ∧ First below defect) ∨ Rest way defect := by
  obtain ⟨found, rfl, hfound⟩ := hfirst
  obtain ⟨others, rfl, hothers⟩ := hrest
  refine ⟨found.map (fun entry => ((n, key) :: entry.1, entry.2)) ++ others, ?_, ?_, ?_⟩
  · rw [List.map_append, List.map_map]
    rfl
  · rw [List.pairwise_append, List.pairwise_map]
    refine ⟨hfound.sorted.imp fun h => Way.places_cons_lt_cons.mpr (.inr ⟨rfl, h⟩),
      hothers.sorted, ?_⟩
    -- every way to the entry begins with its number, and the others with a larger one
    rintro _ hentry ⟨way, defect⟩ hother
    obtain ⟨⟨below, own⟩, -, rfl⟩ := List.mem_map.mp hentry
    obtain ⟨i, key, rest, hi, rfl⟩ := hlater _ _ ((hothers.mem_iff _ _).mp hother)
    exact Way.places_cons_lt_cons.mpr (.inl hi)
  · intro way defect
    rw [List.mem_append, hothers.mem_iff, List.mem_map]
    refine or_congr_left ⟨?_, ?_⟩
    · rintro ⟨⟨below, own⟩, hentry, heq⟩
      cases heq
      exact ⟨below, rfl, (hfound.mem_iff _ _).mp hentry⟩
    · rintro ⟨below, rfl, hdefect⟩
      exact ⟨(below, defect), (hfound.mem_iff _ _).mpr hdefect, rfl⟩

end Enumerated

/-! ### One entry -/

theorem entryDefect_iff_of_rule {location : Location} {key : String} {value : Json} {way : Way}
    {defect : Defect} (hrule : Rule.isFlagKey key = true ∨ value.kind ≠ .object) :
    EntryDefect location key value way defect ↔
      way = [] ∧ ∃ fault, Rule.ofEntry location key value = .error fault ∧
        defect = .badRule fault := by
  constructor
  · intro h
    cases h with
    | rule _ hfault => exact ⟨rfl, _, hfault, rfl⟩
    | empty hkey | inside hkey =>
      rcases hrule with hflag | hkind
      · exact absurd hflag (by simp [hkey])
      · exact absurd rfl hkind
  · rintro ⟨rfl, fault, hfault, rfl⟩
    exact .rule hrule hfault

theorem enumerated_checkRule (location : Location) {key : String} {value : Json}
    (hrule : Rule.isFlagKey key = true ∨ value.kind ≠ .object) :
    Enumerated (checkRule location key value) (EntryDefect location key value) := by
  have hiff (way : Way) (defect : Defect) : EntryDefect location key value way defect ↔ _ :=
    entryDefect_iff_of_rule hrule
  unfold checkRule
  cases hentry : Rule.ofEntry location key value with
  | error fault => exact .singleton fun way defect => by simp [hiff, hentry]
  | ok rule => exact .nil fun way defect => by simp [hiff, hentry]

/-- The defects behind the entries of an object, the first of which has number `n`. -/
def DefectAmong (location : Location) (n : Nat) (fields : Fields) (way : Way) (defect : Defect) :
    Prop :=
  ∃ i key value below, way = (n + i, key) :: below ∧ fields[i]? = some (key, value) ∧
    EntryDefect (location.field key) key value below defect

theorem defectAmong_cons {location : Location} {n : Nat} {key : String} {value : Json}
    {fields : Fields} {way : Way} {defect : Defect} :
    DefectAmong location n ((key, value) :: fields) way defect ↔
      (∃ below, way = (n, key) :: below ∧
        EntryDefect (location.field key) key value below defect) ∨
      DefectAmong location (n + 1) fields way defect := by
  constructor
  · rintro ⟨i, own, found, below, rfl, hget, hdefect⟩
    cases i with
    | zero =>
      cases hget
      exact .inl ⟨below, rfl, hdefect⟩
    | succ i => exact .inr ⟨i, own, found, below, by rw [Nat.add_right_comm]; rfl, hget, hdefect⟩
  · rintro (⟨below, rfl, hdefect⟩ | ⟨i, own, found, below, rfl, hget, hdefect⟩)
    · exact ⟨0, key, value, below, rfl, rfl, hdefect⟩
    · exact ⟨i + 1, own, found, below, by rw [Nat.add_right_comm]; rfl, hget, hdefect⟩

/-- An object that is entered has its own defect if it is empty, or else those of its entries. -/
theorem enumerated_checkEntry_object {location : Location} (key : String) {fields : Fields}
    (ih : Enumerated (checkFields location fields) (DefectAmong location 0 fields)) :
    Enumerated (checkEntry location key (.object fields))
      (EntryDefect location key (.object fields)) := by
  rw [checkEntry]
  cases hflag : Rule.isFlagKey key with
  | true => exact enumerated_checkRule location (.inl hflag)
  | false =>
    cases fields with
    | nil =>
      refine .singleton fun way defect => ⟨fun h => ?_, ?_⟩
      · cases h with
        | empty _ => exact ⟨rfl, rfl⟩
        | rule hrule _ => exact absurd hrule (by simp [hflag, Json.kind])
        | inside _ hget _ => cases hget
      · rintro ⟨rfl, rfl⟩
        exact .empty hflag
    | cons entry fields =>
      refine ih.congr fun way defect => ⟨fun h => ?_, ?_⟩
      · cases h with
        | rule hrule _ => exact absurd hrule (by simp [hflag, Json.kind])
        | @inside _ _ own _ i value way _ _ hget hdefect =>
          exact ⟨i, own, value, way, by rw [Nat.zero_add], hget, hdefect⟩
      · rintro ⟨i, own, value, below, rfl, hget, hdefect⟩
        rw [Nat.zero_add]
        exact .inside hflag hget hdefect

theorem enumerated_checkEntry_of_kind_ne (location : Location) (key : String) {value : Json}
    (h : value.kind ≠ .object) :
    Enumerated (checkEntry location key value) (EntryDefect location key value) := by
  rw [checkEntry_of_kind_ne location key h]
  exact enumerated_checkRule location (.inr h)

/-! ### All entries -/

mutual

theorem enumerated_checkEntry (location : Location) (key : String) : ∀ value : Json,
    Enumerated (checkEntry location key value) (EntryDefect location key value)
  | .object fields => enumerated_checkEntry_object key (enumerated_checkFields location fields 0)
  | .null => enumerated_checkEntry_of_kind_ne location key (by decide)
  | .bool _ => enumerated_checkEntry_of_kind_ne location key (by simp [Json.kind])
  | .int _ => enumerated_checkEntry_of_kind_ne location key (by simp [Json.kind])
  | .float _ => enumerated_checkEntry_of_kind_ne location key (by simp [Json.kind])
  | .string _ => enumerated_checkEntry_of_kind_ne location key (by simp [Json.kind])
  | .array _ => enumerated_checkEntry_of_kind_ne location key (by simp [Json.kind])

theorem enumerated_checkFields (location : Location) : ∀ (fields : Fields) (n : Nat),
    Enumerated (checkFields location fields) (DefectAmong location n fields)
  | [], _ => .nil fun way defect => by rintro ⟨i, key, value, below, -, hget, -⟩; cases hget
  | (key, value) :: fields, n => by
    have hfirst := enumerated_checkEntry (location.field key) key value
    have hrest := enumerated_checkFields location fields (n + 1)
    refine (hfirst.cons (n := n) key hrest ?_).congr fun way defect => defectAmong_cons
    rintro way defect ⟨i, own, found, below, rfl, -, -⟩
    exact ⟨n + 1 + i, own, below, by omega, rfl⟩

end

theorem enumerated_check (location : Location) (value : Json) :
    Enumerated (check location value) (DefectAt location value) := by
  have hroot (hcheck : check location value = [.notNonEmptyObject location])
      (hvalue : ∀ fields, value = .object fields → fields = []) :
      Enumerated (check location value) (DefectAt location value) := by
    rw [hcheck]
    refine .singleton fun way defect => ⟨fun h => ?_, ?_⟩
    · cases h with
      | root _ => exact ⟨rfl, rfl⟩
      | entry hget _ =>
        rw [hvalue _ rfl] at hget
        cases hget
    · rintro ⟨rfl, rfl⟩
      exact .root hvalue
  cases value with
  | object fields =>
    cases fields with
    | nil => exact hroot rfl fun fields h => (Json.object.inj h).symm
    | cons entry fields =>
      refine (enumerated_checkFields location (entry :: fields) 0).congr fun way defect =>
        ⟨fun h => ?_, ?_⟩
      · cases h with
        | root hvalue => cases hvalue _ rfl
        | @entry key _ i value way _ hget hdefect =>
          exact ⟨i, key, value, way, by rw [Nat.zero_add], hget, hdefect⟩
      · rintro ⟨i, own, value, below, rfl, hget, hdefect⟩
        rw [Nat.zero_add]
        exact .entry hget hdefect
  | _ => exact hroot rfl nofun

/-! ### Where a defect is, and which comes first -/

theorem EntryDefect.located {location : Location} {key : String} {value : Json} {way : Way}
    {defect : Defect} (h : EntryDefect location key value way defect) :
    defect.location = location.along way.steps ∧
      ∀ fault, defect = .badRule fault → fault.source = none := by
  induction h with
  | empty _ => exact ⟨(Location.along_nil _).symm, fun fault hfault => Defect.noConfusion hfault⟩
  | rule hrule hfault =>
    have hown := IsOwn.of_ofEntry_error hrule hfault
    refine ⟨hown.location_eq.trans (Location.along_nil _).symm, ?_⟩
    rintro fault ⟨⟩
    exact hown.source_eq
  | inside _ _ _ ih =>
    refine ⟨ih.1.trans ?_, ih.2⟩
    exact (Location.along_cons _ _ _).symm

theorem DefectAt.location_eq {location : Location} {value : Json} {way : Way} {defect : Defect}
    (h : DefectAt location value way defect) : defect.location = location.along way.steps := by
  cases h with
  | root _ => exact (Location.along_nil _).symm
  | entry _ hdefect => exact hdefect.located.1.trans (Location.along_cons _ _ _).symm

/-- The fault of a rule is told with all keys on the way to it in front. -/
theorem DefectAt.message_eq {location : Location} {value : Json} {way : Way} {fault : Fault}
    (h : DefectAt location value way (.badRule fault)) :
    fault.message = (location.along way.steps).text ++ (": " ++ fault.cause.message) := by
  have hlocation : fault.location = location.along way.steps := h.location_eq
  cases h with
  | @entry key fields i value way _ _ hdefect =>
    have hplace : fault.location.text ≠ "" := by
      rw [hlocation]
      change (location.along (.field key :: way.steps)).text ≠ ""
      rw [Location.along_cons]
      exact Location.text_along_ne_empty (Location.text_step_ne_empty _ _) _
    rw [Fault.message_eq_of_text_ne (hdefect.located.2 _ rfl) hplace, hlocation]

theorem Defect.location_ofFault (fault : Fault) : (ofFault fault).location = fault.location := by
  unfold ofFault
  split <;> rfl

theorem Defect.eq_of_ofFault {fault own : Fault} (h : ofFault fault = .badRule own) :
    fault = own := by
  unfold ofFault at h
  split at h
  · cases h
  · exact badRule.inj h

/-- A reader stops with the fault whose entry comes first. -/
theorem exists_fault_of_check_cons {location : Location} {value : Json} {first : Defect}
    {rest : List Defect} (hnests : ¬ NestsUnnamed value)
    (h : check location value = first :: rest) :
    ∃ fault, ofJson location value = .error fault ∧ fault.location = first.location ∧
      ∀ own, first = .badRule own → fault.message = first.message := by
  cases hread : ofJson location value with
  | ok mapping =>
    rw [((exists_ofJson_iff location value).mp ⟨mapping, hread⟩).1] at h
    cases h
  | error fault =>
    refine ⟨fault, rfl, ?_⟩
    cases value with
    | object fields =>
      have hfirst := (beginsWith_check hnests hread).2
      rw [h] at hfirst
      obtain rfl := Option.some.inj hfirst
      refine ⟨(Defect.location_ofFault fault).symm, fun own hown => ?_⟩
      rw [hown, Defect.eq_of_ofFault hown]
      rfl
    | _ =>
      cases hread
      cases h
      exact ⟨rfl, fun own hown => Defect.noConfusion hown⟩

/-- The check of a value lists its defects and nothing else, each of them once, in the order of
declaration and depth first. Every defect is located by all keys on the way to it, and the message
of a faulty rule begins with them. When something is listed, and no object stands under an empty
key, reading the value stops with a fault at the place of the first entry, and with the message of
that entry if it is about a rule. -/
theorem check_lists_every_defect (location : Location) (value : Json) :
    (∃ found : List (Way × Defect), check location value = found.map (·.2) ∧
      Finds found (DefectAt location value)) ∧
    (∀ way defect, DefectAt location value way defect →
      defect.location = location.along way.steps ∧
      ∀ fault, defect = .badRule fault → defect.message =
        (location.along way.steps).text ++ (": " ++ fault.cause.message)) ∧
    (¬ NestsUnnamed value → ∀ first rest, check location value = first :: rest →
      ∃ fault, ofJson location value = .error fault ∧ fault.location = first.location ∧
        ∀ own, first = .badRule own → fault.message = first.message) := by
  refine ⟨enumerated_check location value, fun way defect h => ⟨h.location_eq, ?_⟩,
    fun hnests first rest => exists_fault_of_check_cons hnests⟩
  rintro fault rfl
  exact h.message_eq

/-- Defects of all kinds, next to rules that are right. -/
def faultyMapping : Json :=
  .object [("Id", .string "DeviceId"), ("isTemperature", .string "Kind"), ("Inner", .object []),
    ("Outer", .object [("At", .string "Dtm"), ("Name", .int 1)]), ("isHumidity", .object [])]

/-- Four defects are listed, and reading stops with the message of the first. -/
theorem check_lists_four_defects :
    (check .root faultyMapping).map (·.location.text) =
      ["$.isTemperature", "$.Inner", "$.Outer.Name", "$.isHumidity"] ∧
    ¬ NestsUnnamed faultyMapping ∧
    ∃ first rest fault, check .root faultyMapping = first :: rest ∧
      ofJson .root faultyMapping = .error fault ∧ fault.location = first.location ∧
      fault.message = first.message := by
  have htext (text : String) : ¬ NestsUnnamed (.string text) :=
    not_nestsUnnamed_of_kind_ne (by simp [Json.kind])
  have hnumber (n : Int) : ¬ NestsUnnamed (.int n) :=
    not_nestsUnnamed_of_kind_ne (by simp [Json.kind])
  have hnests : ¬ NestsUnnamed faultyMapping := by
    simp [faultyMapping, nestsUnnamed_cons, NestsUnnamedAt, not_nestsUnnamed_nil, htext, hnumber]
  have hfirst : (check .root faultyMapping).head? =
      some (.badRule ⟨.ambiguousPredicate "Kind", Location.root.field "isTemperature", none⟩) := by
    decide +kernel
  refine ⟨by decide +kernel, hnests, ?_⟩
  cases hcheck : check .root faultyMapping with
  | nil =>
    rw [hcheck] at hfirst
    cases hfirst
  | cons first rest =>
    rw [hcheck] at hfirst
    obtain ⟨fault, hread, hlocation, hmessage⟩ :=
      (check_lists_every_defect .root faultyMapping).2.2 hnests first rest hcheck
    exact ⟨first, rest, fault, rfl, hread, hlocation, hmessage _ (Option.some.inj hfirst)⟩

end FeedMerge.Mapping
