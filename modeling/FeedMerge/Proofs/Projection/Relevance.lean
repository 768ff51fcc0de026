import FeedMerge.Proofs.Projection.Emissions
import Mathlib.Data.List.Forall2

/-!
# What a projection depends on

At an object only the fields that its rules name are looked at, each by its name: a flag or a rename
looks at a scalar, or at the kind of anything else, and a nested rule looks at the objects in its
field as far as its own rules do. `Alike` relates two documents that agree in all that. It says
nothing of any other field and nothing of the order of fields, so two documents are alike if one
comes from the other by adding, removing or changing fields that the rules applied to their object do
not name, and by reordering the fields of any objects.

Documents that are alike are projected alike, up to the last word of an error
(`ofDocument_eq_of_alike`). The relation follows the rules down, and so does the induction.
-/

namespace FeedMerge

/-- Values that a flag or a rename cannot tell apart: the same scalar, or two arrays or two objects
that may hold anything. -/
def Json.Resembles (v w : Json) : Prop := v.kind = w.kind ∧ (v.isScalar = true → v = w)

namespace Rule

variable {rules : List Rule}

theorem mem_flags {target : String} {predicate : Predicate} :
    (target, predicate) ∈ flags rules ↔ flag target predicate ∈ rules := by
  unfold flags
  rw [List.mem_filterMap]
  constructor
  · rintro ⟨rule, hrule, heq⟩
    cases rule <;> cases heq
    exact hrule
  · exact fun h => ⟨_, h, rfl⟩

theorem mem_renames {source target : String} :
    (source, target) ∈ renames rules ↔ rename source target ∈ rules := by
  unfold renames
  rw [List.mem_filterMap]
  constructor
  · rintro ⟨rule, hrule, heq⟩
    cases rule <;> cases heq
    exact hrule
  · exact fun h => ⟨_, h, rfl⟩

end Rule

namespace Projection

/-- Values to which the same rules are applied: objects that are alike to the rules, or two values
that are no objects and have the same kind. -/
def AlikeValues (alike : Fields → Fields → Prop) : Json → Json → Prop
  | .object fields, .object others => alike fields others
  | v, w => v.kind = w.kind

/-- Values whose parts are alike, item by item if they are arrays. -/
def AlikeParts (alike : Fields → Fields → Prop) : Json → Json → Prop
  | .array items, .array others => List.Forall₂ (AlikeValues alike) items others
  | v, w => AlikeValues alike v w

mutual

/-- Objects that are alike to all rules of a level. -/
def AlikeFields : List Rule → Fields → Fields → Prop
  | [], _, _ => True
  | rule :: rules, fields, others => AlikeToRule rule fields others ∧ AlikeFields rules fields others

/-- Objects that have alike values in the field that a rule names, or both have none. -/
def AlikeToRule : Rule → Fields → Fields → Prop
  | .rename source _, fields, others =>
    Option.Rel Json.Resembles (fields.find? source) (others.find? source)
  | .flag _ predicate, fields, others =>
    Option.Rel Json.Resembles (fields.find? predicate.field) (others.find? predicate.field)
  | .nested source rules, fields, others =>
    Option.Rel (AlikeParts (AlikeFields rules)) (fields.find? source) (others.find? source)

end

/-- Documents that are alike to some rules. -/
def Alike (rules : List Rule) (document other : Json) : Prop :=
  AlikeParts (AlikeFields rules) document other

variable {rules : List Rule} {fields others : Fields}

theorem alikeFields_iff :
    AlikeFields rules fields others ↔ ∀ rule ∈ rules, AlikeToRule rule fields others := by
  induction rules with
  | nil => simp [AlikeFields]
  | cons rule rules ih => simp [AlikeFields, ih]

/-! ### The values of an object -/

theorem isScalar_of_resembles {v w : Json} (h : v.Resembles w) : v.isScalar = w.isScalar := by
  unfold Json.isScalar
  rw [h.1]

theorem evaluate_of_resembles {predicate : Predicate} (location : Location)
    (h : Option.Rel Json.Resembles (fields.find? predicate.field) (others.find? predicate.field)) :
    predicate.evaluate location fields = predicate.evaluate location others := by
  unfold Predicate.evaluate
  generalize fields.find? predicate.field = found at h ⊢
  generalize others.find? predicate.field = other at h ⊢
  cases h with
  | none => rfl
  | @some v w hvw =>
    dsimp only
    rw [← isScalar_of_resembles hvw, ← hvw.1]
    cases hscalar : v.isScalar with
    | true => rw [hvw.2 hscalar]
    | false => rfl

theorem resolveFlags_of_resembles (location : Location) {flags : List (String × Predicate)}
    (h : ∀ target predicate, (target, predicate) ∈ flags →
      Option.Rel Json.Resembles (fields.find? predicate.field) (others.find? predicate.field)) :
    resolveFlags location fields flags = resolveFlags location others flags := by
  induction flags with
  | nil => rfl
  | cons flag flags ih =>
    obtain ⟨target, predicate⟩ := flag
    have hrest := ih fun t p hmem => h t p (List.mem_cons_of_mem _ hmem)
    rw [resolveFlags, resolveFlags, hrest,
      evaluate_of_resembles _ (h target predicate List.mem_cons_self)]

theorem resolveRenames_of_resembles (location : Location) {renames : List (String × String)}
    (h : ∀ source target, (source, target) ∈ renames →
      Option.Rel Json.Resembles (fields.find? source) (others.find? source)) :
    resolveRenames location fields renames = resolveRenames location others renames := by
  induction renames with
  | nil => rfl
  | cons rename renames ih =>
    obtain ⟨source, target⟩ := rename
    have hrest := ih fun s t hmem => h s t (List.mem_cons_of_mem _ hmem)
    have hfirst := h source target List.mem_cons_self
    rw [resolveRenames, resolveRenames, hrest]
    unfold lookup
    generalize fields.find? source = found at hfirst ⊢
    generalize others.find? source = other at hfirst ⊢
    cases hfirst with
    | none => rfl
    | @some v w hvw =>
      dsimp only
      rw [← isScalar_of_resembles hvw, ← hvw.1]
      cases hscalar : v.isScalar with
      | true => rw [hvw.2 hscalar]
      | false => rfl

theorem resolve_of_alike (location : Location) (h : AlikeFields rules fields others) :
    resolve rules location fields = resolve rules location others := by
  have hrules := alikeFields_iff.mp h
  have hflags : resolveFlags location fields (Rule.flags rules) =
      resolveFlags location others (Rule.flags rules) := by
    refine resolveFlags_of_resembles location fun target predicate hmem => ?_
    exact hrules _ (Rule.mem_flags.mp hmem)
  have hrenames : resolveRenames location fields (Rule.renames rules) =
      resolveRenames location others (Rule.renames rules) := by
    refine resolveRenames_of_resembles location fun source target hmem => ?_
    exact hrules _ (Rule.mem_renames.mp hmem)
  rw [resolve, resolve, hflags, hrenames]

/-! ### What is visited -/

theorem visit_of_kind_ne {below : Fields → Context → Projection} {c : Context} {v : Json}
    (h : v.kind ≠ .object) :
    visit rules below c v = failed (.fault ⟨.notAnObject v.kind, c.location, none⟩) := by
  cases v with
  | object fields => exact absurd rfl h
  | _ => rfl

theorem kind_of_alikeValues {alike : Fields → Fields → Prop} {v w : Json}
    (h : AlikeValues alike v w) : v.kind = w.kind := by
  unfold AlikeValues at h
  split at h
  · rfl
  · exact h

theorem kind_of_alikeParts {alike : Fields → Fields → Prop} {v w : Json}
    (h : AlikeParts alike v w) : v.kind = w.kind := by
  unfold AlikeParts at h
  split at h
  · rfl
  · exact kind_of_alikeValues h

theorem visit_of_alike {below : Fields → Context → Projection} {v w : Json}
    (hbelow : ∀ fields others c, AlikeFields rules fields others →
      below fields c = below others c)
    (h : AlikeValues (AlikeFields rules) v w) (c : Context) :
    visit rules below c v = visit rules below c w := by
  have hkind := kind_of_alikeValues h
  by_cases hobject : v.kind = .object
  · cases v with
    | object fields =>
      cases w with
      | object others =>
        have halike : AlikeFields rules fields others := h
        rw [visit, visit, resolve_of_alike c.location halike]
        cases resolve rules c.location others with
        | error fault => rfl
        | ok values =>
          dsimp only
          rw [hbelow fields others _ halike]
      | _ => cases hkind
    | _ => cases hobject
  · rw [visit_of_kind_ne hobject, visit_of_kind_ne (hkind ▸ hobject), hkind]

theorem visitItems_of_alike {one : Context → Json → Projection} {alike : Json → Json → Prop}
    (hone : ∀ c v w, alike v w → one c v = one c w) (c : Context) (location : Location)
    {items others : List Json} (h : List.Forall₂ alike items others) (i : Nat) :
    visitItems one c location i items = visitItems one c location i others := by
  induction h generalizing i with
  | nil => rfl
  | cons hfirst _ ih => rw [visitItems, visitItems, hone _ _ _ hfirst, ih]

theorem visitField_of_alike {one : Context → Json → Projection} {alike : Fields → Fields → Prop}
    (hone : ∀ c v w, AlikeValues alike v w → one c v = one c w) (c : Context)
    (location : Location) {v w : Json} (h : AlikeParts alike v w) :
    visitField one c location v = visitField one c location w := by
  have hkind := kind_of_alikeParts h
  cases v with
  | array items =>
    cases w with
    | array others => exact visitItems_of_alike hone c location h 0
    | _ => cases hkind
  | object fields =>
    cases w with
    | object others => exact hone _ _ _ h
    | _ => cases hkind
  | _ => cases w <;> first | rfl | cases hkind

mutual

theorem descend_of_alike : ∀ (rules : List Rule) (fields others : Fields) (c : Context),
    AlikeFields rules fields others → descend rules fields c = descend rules others c
  | [], _, _, _, _ => rfl
  | rule :: rules, fields, others, c, h => by
    rw [descend, descend, descendRule_of_alike rule fields others c h.1,
      descend_of_alike rules fields others c h.2]

theorem descendRule_of_alike : ∀ (rule : Rule) (fields others : Fields) (c : Context),
    AlikeToRule rule fields others → descendRule rule fields c = descendRule rule others c
  | .nested source rules, fields, others, c, h => by
    have hone : ∀ c v w, AlikeValues (AlikeFields rules) v w →
        visit rules (descend rules) c v = visit rules (descend rules) c w :=
      fun c v w hvw => visit_of_alike (descend_of_alike rules) hvw c
    rw [AlikeToRule] at h
    rw [descendRule, descendRule, lookup, lookup]
    generalize fields.find? source = found at h ⊢
    generalize others.find? source = other at h ⊢
    cases h with
    | none => rfl
    | some hvw => exact visitField_of_alike hone c _ hvw
  | .rename .., _, _, _, _ => rfl
  | .flag .., _, _, _, _ => rfl

end

/-- Documents that are alike to the rules are projected alike: the same emissions, and the same
error if there is one. -/
theorem ofDocument_eq_of_alike {document other : Json} (h : Alike rules document other)
    (c : Context) : ofDocument rules c document = ofDocument rules c other := by
  have hone : ∀ c v w, AlikeValues (AlikeFields rules) v w →
      ofValue rules c v = ofValue rules c w :=
    fun c v w hvw => visit_of_alike (descend_of_alike rules) hvw c
  have hkind := kind_of_alikeParts h
  cases document with
  | array items =>
    cases other with
    | array others => exact visitItems_of_alike hone c c.location h 0
    | _ => cases hkind
  | object fields =>
    cases other with
    | object others => exact hone _ _ _ h
    | _ => cases hkind
  | _ => cases other <;> first | exact hone _ _ _ h | cases hkind

end Projection

namespace Session

open Projection

/-- Two documents that are alike to a mapping cannot be told apart by projecting them under it: into
the sink, on its own, or traced, from any context and in any session, they leave the same sink and
give the same records and emissions, the same error, and the same journal. -/
theorem step_eq_of_alike {location : Location} {declared document other : Json} {mapping : Mapping}
    (hmapping : Mapping.ofJson location declared = .ok mapping)
    (h : Alike mapping.rules document other) (s : Session) (context : Context) :
    s.step (.project declared document context) = s.step (.project declared other context) ∧
    s.step (.projectAlone declared document context) =
      s.step (.projectAlone declared other context) ∧
    ∀ now, s.step (.trace declared document now) = s.step (.trace declared other now) := by
  have hsame (c : Context) :
      projectDeclared declared document c = projectDeclared declared other c := by
    unfold projectDeclared
    rw [Mapping.ofJson_relocate hmapping .root, Except.map, Except.map, ofDocument_eq_of_alike h]
  refine ⟨?_, ?_, fun now => ?_⟩
  · rw [step, step, hsame]
  · rw [step, step, hsame]
  · rw [step, step, hsame]

/-- `sampleDocument` with its fields in another order, and with further ones that are named at other
levels only: a reading of the company, and identifiers and kinds of further readings. -/
def garnishedDocument : Json :=
  let sensor (id : Int) (kind name : String) (value : Int) (more : List Fields) : Json :=
    .object [("Reading", .int value), ("Name", .string name), ("Kind", .string kind),
      ("Sensors", .null), ("More", .array (more.map .object)), ("Id", .int id)]
  .array [.object [("Reading", .array [.int 1]), ("Sensors", .array
      [sensor 7 "T" "north" 20 [[("Kind", .null), ("Reading", .int 21), ("Name", .string "attic")],
        [("Name", .string "roof"), ("Id", .object []), ("Reading", .int 19)]],
      sensor 8 "H" "south" 60 []]),
    ("At", .string "2024-01-01"), ("Name", .string "Acme"), ("Id", .int 1)]]

/-- The additions and the order make no difference to the four records. -/
theorem step_eq_of_garnished :
    Mapping.ofJson .root sampleDeclaration = .ok ⟨.root, sampleRules⟩ ∧
    Alike sampleRules sampleDocument garnishedDocument ∧
    step {} (.project sampleDeclaration sampleDocument (.empty .start)) =
      step {} (.project sampleDeclaration garnishedDocument (.empty .start)) ∧
    step {} (.projectAlone sampleDeclaration sampleDocument (.empty .start)) =
      step {} (.projectAlone sampleDeclaration garnishedDocument (.empty .start)) ∧
    ∀ now, step {} (.trace sampleDeclaration sampleDocument now) =
      step {} (.trace sampleDeclaration garnishedDocument now) := by
  have hmapping : Mapping.ofJson .root sampleDeclaration = .ok ⟨.root, sampleRules⟩ := rfl
  have halike : Alike sampleRules sampleDocument garnishedDocument := by
    simp [Alike, AlikeParts, AlikeValues, AlikeFields, AlikeToRule, sampleRules, sampleDocument,
      garnishedDocument, Fields.find?, List.lookup_cons, Json.Resembles, Json.kind]
  exact ⟨hmapping, halike, step_eq_of_alike hmapping halike {} (.empty .start)⟩

end Session

end FeedMerge
