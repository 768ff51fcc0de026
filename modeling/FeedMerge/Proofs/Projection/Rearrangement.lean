import FeedMerge.Proofs.Mapping.Relocation
import FeedMerge.Proofs.Projection.Bindings
import Mathlib.Data.List.Perm.Basic

/-!
# Rules in another order

A level takes its flags first, then its renames, then its nested rules, wherever they are declared.
`Rearranged` relates two rule sets that have the same rules in another order at every level, where
only renames of one target, of which the last counts, keep theirs. Under such rule sets a document
is projected or fails alike, and the records are the same up to their order; where nested rules keep
their order too, they are the same list (`Rearranged.ofDocument`).

Which fault is found first does depend on the order, and so does the order of the values in a
context. What does not is what a context shows for each name, and that is all that a record takes
from it (`Context.Agrees`).
-/

namespace FeedMerge

/-- The same items in possibly another order, where those of one name keep theirs. -/
structure SameByName {α : Type} (name : α → String) (first second : List α) : Prop where
  perm : first.Perm second
  kept : ∀ a ∈ first, first.filter (name · = name a) = second.filter (name · = name a)

theorem SameByName.filter_eq {α : Type} {name : α → String} {first second : List α}
    (h : SameByName name first second) (n : String) :
    first.filter (name · = n) = second.filter (name · = n) := by
  by_cases hmem : ∃ a ∈ first, name a = n
  · obtain ⟨a, ha, rfl⟩ := hmem
    exact h.kept a ha
  · have hnone : ∀ a ∈ first, ¬ decide (name a = n) = true := by
      intro a ha hname
      exact hmem ⟨a, ha, of_decide_eq_true hname⟩
    rw [List.filter_eq_nil_iff.mpr hnone, eq_comm, List.filter_eq_nil_iff]
    exact fun a ha => hnone a (h.perm.mem_iff.mpr ha)

theorem filter_eq_singleton {α : Type} {name : α → String} {items : List α} {a : α}
    (ha : a ∈ items) (hnames : (items.map name).Nodup) :
    items.filter (name · = name a) = [a] := by
  induction items with
  | nil => cases ha
  | cons b items ih =>
    rw [List.map_cons, List.nodup_cons] at hnames
    obtain ⟨hb, hnames⟩ := hnames
    rcases List.mem_cons.mp ha with rfl | ha
    · have hnone : items.filter (name · = name a) = [] := by
        refine List.filter_eq_nil_iff.mpr fun c hc hname => ?_
        exact hb (of_decide_eq_true hname ▸ List.mem_map_of_mem hc)
      simp [hnone]
    · have hne : name b ≠ name a := fun h => hb (h ▸ List.mem_map_of_mem ha)
      simp [hne, ih ha hnames]

/-- Items of different names have no order to keep. -/
theorem SameByName.of_nodup {α : Type} {name : α → String} {first second : List α}
    (hperm : first.Perm second) (hnames : (first.map name).Nodup) :
    SameByName name first second := by
  refine ⟨hperm, fun a ha => ?_⟩
  rw [filter_eq_singleton ha hnames,
    filter_eq_singleton (hperm.mem_iff.mp ha) ((hperm.map name).nodup hnames)]

namespace Rule

/-- A level is keyed, so its flags have no order to keep. -/
theorem sameByName_flags {rules others : List Rule} (hkeys : (rules.map key).Nodup)
    (hperm : (flags rules).Perm (flags others)) :
    SameByName Prod.fst (flags rules) (flags others) := by
  have htargets (rules : List Rule) :
      ((flags rules).map Prod.fst).Sublist (rules.map key) := by
    induction rules with
    | nil => exact .slnil
    | cons rule rules ih =>
      cases rule with
      | flag target predicate => exact ih.cons_cons target
      | rename source target => exact ih.cons source
      | nested source below => exact ih.cons source
  exact .of_nodup hperm (hkeys.sublist (htargets rules))

end Rule

namespace Projection

/-- Rule sets that have the same rules at every level. The flags and the renames of a level may
stand in another order as long as those of one target keep theirs, which matters for renames only,
since the target of a flag is its key (`Rule.sameByName_flags`). The nested rules may do so if they
are free to, and below each of them the rules are rearranged in turn. -/
inductive Rearranged (free : Bool) : List Rule → List Rule → Prop
  | level {rules others : List Rule} {order : List (String × List Rule)}
      (hflags : SameByName Prod.fst (Rule.flags rules) (Rule.flags others))
      (hrenames : SameByName Prod.snd (Rule.renames rules) (Rule.renames others))
      (hnested : (Rule.nestings rules).Perm order)
      (hkept : free = false → order = Rule.nestings rules)
      (hsources : order.map Prod.fst = (Rule.nestings others).map Prod.fst)
      (hbelow : ∀ pair ∈ order.zip (Rule.nestings others),
        Rearranged free pair.1.2 pair.2.2) :
      Rearranged free rules others

end Projection

/-! ### Contexts that show the same -/

/-- Contexts of one location and one reading of the clock that show the same value for each name. -/
structure Context.Agrees (c d : Context) : Prop where
  location_eq : c.location = d.location
  now_eq : c.now = d.now
  get?_eq : ∀ name, c.get? name = d.get? name

namespace Context.Agrees

variable {c d : Context}

theorem refl (c : Context) : c.Agrees c := ⟨rfl, rfl, fun _ => rfl⟩

theorem descend (h : c.Agrees d) (location : Location) :
    (c.descend location).Agrees (d.descend location) :=
  ⟨rfl, h.now_eq, h.get?_eq⟩

theorem overlay (h : c.Agrees d) {first second : Fields}
    (hlast : ∀ name, first.last? name = second.last? name) :
    (c.overlay first).Agrees (d.overlay second) := by
  refine ⟨h.location_eq, h.now_eq, fun name => ?_⟩
  have hname := h.get?_eq name
  unfold Context.get? Context.overlay at *
  rw [Fields.find?_overlay, Fields.find?_overlay, hlast, hname]

/-- A record takes each of its fields from a context by name. -/
theorem build_eq (h : c.Agrees d) : Projection.build c = Projection.build d := by
  have hfind : ∀ name, c.values.find? name = d.values.find? name := h.get?_eq
  have hdraft : c.draft = d.draft := by
    unfold Context.draft Reading.Draft.ofFields
    simp only [hfind]
  unfold Projection.build
  rw [hdraft, h.location_eq, h.now_eq]

end Context.Agrees

namespace Projection

/-! ### Projections with the same readings -/

/-- Two projections that both go through, or neither; and then have the same readings, also in
order unless they are free. -/
structure SameReadings (free : Bool) (p q : Projection) : Prop where
  passes_iff : p.error = none ↔ q.error = none
  perm : p.error = none → p.readings.Perm q.readings
  eq_of_kept : free = false → p.error = none → p.readings = q.readings

namespace SameReadings

variable {free : Bool} {p p' q q' r : Projection}

theorem refl (p : Projection) : SameReadings free p p :=
  ⟨Iff.rfl, fun _ => .refl _, fun _ _ => rfl⟩

theorem trans (h : SameReadings free p q) (h' : SameReadings free q r) : SameReadings free p r where
  passes_iff := h.passes_iff.trans h'.passes_iff
  perm hp := (h.perm hp).trans (h'.perm (h.passes_iff.mp hp))
  eq_of_kept hfree hp := (h.eq_of_kept hfree hp).trans (h'.eq_of_kept hfree (h.passes_iff.mp hp))

theorem failed (error other : Error) : SameReadings free (failed error) (failed other) where
  passes_iff := ⟨nofun, nofun⟩
  perm := nofun
  eq_of_kept := nofun

theorem andThen (h : SameReadings free p p') (h' : SameReadings free q q') :
    SameReadings free (p.andThen q) (p'.andThen q') where
  passes_iff := by rw [error_andThen, error_andThen, h.passes_iff, h'.passes_iff]
  perm hpassed := by
    obtain ⟨hp, hq⟩ := error_andThen.mp hpassed
    rw [readings_andThen hp, readings_andThen (h.passes_iff.mp hp)]
    exact (h.perm hp).append (h'.perm hq)
  eq_of_kept hfree hpassed := by
    obtain ⟨hp, hq⟩ := error_andThen.mp hpassed
    rw [readings_andThen hp, readings_andThen (h.passes_iff.mp hp), h.eq_of_kept hfree hp,
      h'.eq_of_kept hfree hq]

theorem comm (p q : Projection) : SameReadings true (p.andThen q) (q.andThen p) where
  passes_iff := by rw [error_andThen, error_andThen, and_comm]
  perm hpassed := by
    obtain ⟨hp, hq⟩ := error_andThen.mp hpassed
    rw [readings_andThen hp, readings_andThen hq]
    exact List.perm_append_comm
  eq_of_kept := nofun

end SameReadings

variable {rules others : List Rule} {fields : Fields}

/-! ### What a level binds -/

theorem exists_resolveFlags_iff {location : Location} {flags : List (String × Predicate)} :
    (∃ values, resolveFlags location fields flags = .ok values) ↔
      ∀ flag ∈ flags, ∃ truth, flag.2.evaluate (location.field flag.1) fields = .ok truth := by
  induction flags with
  | nil => simp [resolveFlags]
  | cons flag flags ih =>
    obtain ⟨target, predicate⟩ := flag
    rw [List.forall_mem_cons, ← ih, resolveFlags]
    cases predicate.evaluate (location.field target) fields with
    | error fault => simp
    | ok truth => simp [Except.exists_map_eq_ok]

theorem exists_resolveRenames_iff {location : Location} {renames : List (String × String)} :
    (∃ values, resolveRenames location fields renames = .ok values) ↔
      ∀ rename ∈ renames, ∃ value, lookup location fields rename.1 = .ok value ∧
        value.isScalar = true := by
  induction renames with
  | nil => simp [resolveRenames]
  | cons rename renames ih =>
    obtain ⟨source, target⟩ := rename
    rw [List.forall_mem_cons, ← ih, resolveRenames]
    cases lookup location fields source with
    | error fault => simp
    | ok value => cases hscalar : value.isScalar <;> simp [hscalar, Except.exists_map_eq_ok]

theorem exists_resolve_iff {location : Location} :
    (∃ values, resolve rules location fields = .ok values) ↔
      (∃ values, resolveFlags location fields (Rule.flags rules) = .ok values) ∧
        ∃ values, resolveRenames location fields (Rule.renames rules) = .ok values := by
  unfold resolve
  cases resolveFlags location fields (Rule.flags rules) with
  | error fault => simp
  | ok flags => simp [Except.exists_map_eq_ok]

theorem exists_resolve_of_perm {location : Location}
    (hflags : (Rule.flags rules).Perm (Rule.flags others))
    (hrenames : (Rule.renames rules).Perm (Rule.renames others)) :
    (∃ values, resolve rules location fields = .ok values) ↔
      ∃ values, resolve others location fields = .ok values := by
  rw [exists_resolve_iff, exists_resolve_iff, exists_resolveFlags_iff, exists_resolveFlags_iff,
    exists_resolveRenames_iff, exists_resolveRenames_iff]
  exact and_congr (forall_congr' fun _ => imp_congr hflags.mem_iff Iff.rfl)
    (forall_congr' fun _ => imp_congr hrenames.mem_iff Iff.rfl)

end Projection

namespace Fields

theorem last?_append (first second : Fields) (name : String) :
    last? (first ++ second) name = (second.last? name).or (first.last? name) := by
  unfold last?
  rw [List.reverse_append, List.lookup_append]

/-- Only the bindings of a name tell its last value. -/
theorem last?_filter (bindings : Fields) (name : String) :
    last? (bindings.filter (·.1 = name)) name = bindings.last? name := by
  induction bindings with
  | nil => rfl
  | cons binding bindings ih =>
    rw [List.filter_cons, last?_cons]
    split
    · rw [last?_cons, ih]
    · rename_i hname
      have hne : name ≠ binding.1 := fun h => hname (decide_eq_true h.symm)
      rw [ih, if_neg hne, Option.or_none]

/-- Bindings that are made of named items give each name its last value by the items of that name. -/
theorem last?_filterMap_eq {α : Type} {key : α → String} {first second : List α}
    (h : SameByName key first second) {bind : α → Option (String × Json)}
    (hkey : ∀ a binding, bind a = some binding → binding.1 = key a) (name : String) :
    last? (first.filterMap bind) name = last? (second.filterMap bind) name := by
  have hfilter (items : List α) : (items.filterMap bind).filter (·.1 = name) =
      (items.filter (key · = name)).filterMap bind := by
    rw [List.filter_filterMap, List.filterMap_filter]
    congr 1
    funext a
    cases hbind : bind a with
    | none => simp
    | some binding => simp [Option.filter, hkey a binding hbind]
  rw [← last?_filter, hfilter, h.filter_eq, ← hfilter, last?_filter]

end Fields

namespace Projection

/-- The last value of each name stays the same, since the bindings of one name keep their order. -/
theorem last?_bindings_eq (fields : Fields)
    (hflags : SameByName Prod.fst (Rule.flags rules) (Rule.flags others))
    (hrenames : SameByName Prod.snd (Rule.renames rules) (Rule.renames others)) (name : String) :
    Fields.last? (Level.bindings ⟨rules, fields⟩) name =
      Fields.last? (Level.bindings ⟨others, fields⟩) name := by
  unfold Level.bindings
  rw [Fields.last?_append, Fields.last?_append, ← List.filterMap_eq_map]
  congr 1
  · refine Fields.last?_filterMap_eq hrenames ?_ name
    rintro ⟨source, target⟩ binding hbinding
    obtain ⟨value, -, rfl⟩ := Option.map_eq_some_iff.mp hbinding
    rfl
  · refine Fields.last?_filterMap_eq hflags ?_ name
    rintro ⟨target, predicate⟩ binding hbinding
    obtain rfl := Option.some.inj hbinding
    rfl

/-! ### What is visited -/

variable {free : Bool} {c d : Context}

theorem emits_eq_any_renames (rules : List Rule) :
    Rule.emits rules = (Rule.renames rules).any fun rename => rename.2 = Rule.terminalTarget := by
  unfold Rule.emits Rule.renames
  rw [List.any_filterMap]
  congr 1
  funext rule
  cases rule <;> rfl

theorem emits_eq_of_perm (h : (Rule.renames rules).Perm (Rule.renames others)) :
    Rule.emits rules = Rule.emits others := by
  rw [emits_eq_any_renames, emits_eq_any_renames, h.any_eq]

theorem emit_same (hcontext : c.Agrees d) (hemits : Rule.emits rules = Rule.emits others) :
    SameReadings free (emit rules c) (emit others d) := by
  unfold emit
  rw [hemits, hcontext.build_eq]
  split
  · cases build d with
    | ok reading => exact ⟨Iff.rfl, fun _ => .refl _, fun _ _ => rfl⟩
    | error error => exact .failed _ _
  · exact .refl _

/-- Levels with the same flags and renames, and with nested rules that give the same below. -/
theorem visit_same {below belowOther : Fields → Context → Projection}
    (hflags : SameByName Prod.fst (Rule.flags rules) (Rule.flags others))
    (hrenames : SameByName Prod.snd (Rule.renames rules) (Rule.renames others))
    (hbelow : ∀ fields {c d : Context}, c.Agrees d →
      SameReadings free (below fields c) (belowOther fields d))
    (hcontext : c.Agrees d) (value : Json) :
    SameReadings free (visit rules below c value) (visit others belowOther d value) := by
  cases value with
  | object fields =>
    have hresolve : (∃ values, resolve rules c.location fields = .ok values) ↔
        ∃ values, resolve others c.location fields = .ok values :=
      exists_resolve_of_perm hflags.perm hrenames.perm
    rw [visit, visit, ← hcontext.location_eq]
    cases hvalues : resolve rules c.location fields with
    | error fault =>
      cases hother : resolve others c.location fields with
      | error fault => exact .failed _ _
      | ok values =>
        obtain ⟨values, hvalues'⟩ := hresolve.mpr ⟨values, hother⟩
        rw [hvalues] at hvalues'
        cases hvalues'
    | ok values =>
      obtain ⟨found, hfound⟩ := hresolve.mp ⟨values, hvalues⟩
      have hagrees : (c.overlay values).Agrees (d.overlay found) := by
        refine hcontext.overlay fun name => ?_
        rw [bindings_of_resolve hvalues, bindings_of_resolve hfound]
        exact last?_bindings_eq fields hflags hrenames name
      dsimp only
      rw [hfound]
      exact (emit_same hagrees (emits_eq_of_perm hrenames.perm)).andThen (hbelow fields hagrees)
  | _ => exact .failed _ _

theorem visitItems_same {one oneOther : Context → Json → Projection}
    (hone : ∀ {c d : Context}, c.Agrees d → ∀ value,
      SameReadings free (one c value) (oneOther d value))
    (hcontext : c.Agrees d) (location : Location) (items : List Json) (i : Nat) :
    SameReadings free (visitItems one c location i items)
      (visitItems oneOther d location i items) := by
  induction items generalizing i with
  | nil => exact .refl _
  | cons item items ih => exact (hone (hcontext.descend _) item).andThen (ih (i + 1))

theorem visitField_same {one oneOther : Context → Json → Projection}
    (hone : ∀ {c d : Context}, c.Agrees d → ∀ value,
      SameReadings free (one c value) (oneOther d value))
    (hcontext : c.Agrees d) (location : Location) (value : Json) :
    SameReadings free (visitField one c location value)
      (visitField oneOther d location value) := by
  cases value with
  | array items => exact visitItems_same hone hcontext location items 0
  | object fields => exact hone (hcontext.descend location) _
  | _ => exact .failed _ _

/-- The nested rules of a level on an object, each with its source and its rules. -/
def descendAll (fields : Fields) (c : Context) : List (String × List Rule) → Projection
  | [] => nothing
  | (source, inner) :: rest =>
    (descendRule (.nested source inner) fields c).andThen (descendAll fields c rest)

theorem descend_eq_descendAll (rules : List Rule) (fields : Fields) (c : Context) :
    descend rules fields c = descendAll fields c (Rule.nestings rules) := by
  induction rules with
  | nil => rfl
  | cons rule rules ih =>
    rw [descend, ih]
    cases rule with
    | nested source inner => rfl
    | rename source target => exact nothing_andThen _
    | flag target predicate => exact nothing_andThen _

theorem descendAll_perm {first second : List (String × List Rule)} (h : first.Perm second) :
    SameReadings true (descendAll fields c first) (descendAll fields c second) := by
  induction h with
  | nil => exact .refl _
  | cons nesting _ ih => exact (SameReadings.refl _).andThen ih
  | swap a b rest =>
    rw [descendAll, descendAll, descendAll, descendAll, ← andThen_assoc, ← andThen_assoc]
    exact (SameReadings.comm _ _).andThen (.refl _)
  | trans _ _ ih ih' => exact ih.trans ih'

theorem descendAll_same {order nestings : List (String × List Rule)}
    (hsources : order.map Prod.fst = nestings.map Prod.fst)
    (hbelow : ∀ pair ∈ order.zip nestings, ∀ {c d : Context}, c.Agrees d → ∀ value,
      SameReadings free (ofValue pair.1.2 c value) (ofValue pair.2.2 d value))
    (hcontext : c.Agrees d) :
    SameReadings free (descendAll fields c order) (descendAll fields d nestings) := by
  induction order generalizing nestings with
  | nil =>
    cases nestings with
    | nil => exact .refl _
    | cons nesting nestings => cases hsources
  | cons first order ih =>
    cases nestings with
    | nil => cases hsources
    | cons nesting nestings =>
      obtain ⟨source, inner⟩ := first
      obtain ⟨other, otherInner⟩ := nesting
      obtain ⟨rfl, htail⟩ := List.cons.inj hsources
      rw [List.zip_cons_cons] at hbelow
      obtain ⟨hfirst, hrest⟩ := List.forall_mem_cons.mp hbelow
      refine SameReadings.andThen ?_ (ih htail hrest)
      rw [descendRule, descendRule, lookup, lookup, hcontext.location_eq]
      cases fields.find? source with
      | none => exact .failed _ _
      | some value => exact visitField_same hfirst hcontext _ value

/-- Rearranged rules give the same of every value, from contexts that show the same. -/
theorem Rearranged.ofValue (h : Rearranged free rules others) :
    ∀ {c d : Context}, c.Agrees d → ∀ value,
      SameReadings free (Projection.ofValue rules c value) (Projection.ofValue others d value) := by
  induction h with
  | @level rules others order hflags hrenames hnested hkept hsources _ ih =>
    intro c d hcontext value
    refine visit_same hflags hrenames (fun fields c d hcontext => ?_) hcontext value
    rw [descend_eq_descendAll, descend_eq_descendAll]
    have horder : SameReadings free (descendAll fields c (Rule.nestings rules))
        (descendAll fields c order) := by
      cases free with
      | true => exact descendAll_perm hnested
      | false =>
        rw [hkept rfl]
        exact .refl _
    exact horder.trans (descendAll_same hsources ih hcontext)

theorem Rearranged.ofDocument (h : Rearranged free rules others) (c : Context) (document : Json) :
    SameReadings free (ofDocument rules c document) (Projection.ofDocument others c document) := by
  cases document with
  | array items => exact visitItems_same h.ofValue (.refl c) c.location items 0
  | _ => exact h.ofValue (.refl c) _

/-- Under two rule sets that have the same rules in another order at every level, with only the
renames of one target in the same one, a document is projected without an error under both or under
neither, from any context. If it is, both give the same records up to their order; and the same list
of records, if the nested rules of every level keep their order as well. -/
theorem sameReadings_of_rearranged (h : Rearranged true rules others) (c : Context)
    (document : Json) :
    ((ofDocument rules c document).error = none ↔ (ofDocument others c document).error = none) ∧
    ((ofDocument rules c document).error = none →
      (ofDocument rules c document).readings.Perm (ofDocument others c document).readings) ∧
    (Rearranged false rules others → (ofDocument rules c document).error = none →
      (ofDocument rules c document).readings = (ofDocument others c document).readings) := by
  have hsame := h.ofDocument c document
  exact ⟨hsame.passes_iff, hsame.perm, fun hkept => (hkept.ofDocument c document).eq_of_kept rfl⟩

/-- A level for a device, with what was measured inside and outside. -/
def sampleRules : List Rule :=
  let measured : List Rule := [.rename "At" "Dtm", .rename "Reading" "Value"]
  [.rename "Id" "DeviceId", .flag "isTemperature" ⟨"Kind", "T"⟩, .flag "isHumidity" ⟨"Kind", "H"⟩,
    .rename "Model" "DeviceName", .rename "Name" "DeviceName", .nested "Inside" measured,
    .nested "Outside" measured]

/-- `sampleRules` in another order; the two names keep theirs, and the second one counts. -/
def shuffledRules : List Rule :=
  [.nested "Outside" [.rename "Reading" "Value", .rename "At" "Dtm"], .rename "Model" "DeviceName",
    .flag "isHumidity" ⟨"Kind", "H"⟩, .rename "Name" "DeviceName",
    .nested "Inside" [.rename "At" "Dtm", .rename "Reading" "Value"], .rename "Id" "DeviceId",
    .flag "isTemperature" ⟨"Kind", "T"⟩]

/-- A device of a company that is known beforehand. -/
def sampleContext : Context :=
  { values := [("CompanyId", .int 1), ("CompanyName", .string "Acme")], now := .start }

def sampleDevice : Json :=
  let measured (value : Int) : Json :=
    .object [("At", .string "2024-01-01"), ("Reading", .int value)]
  .object [("Id", .int 7), ("Kind", .string "T"), ("Model", .string "K2"), ("Name", .string "north"),
    ("Inside", .array [measured 20, measured 21]), ("Outside", measured 4)]

/-- Three records under both rule sets, that of the outside last under one and first under the
other. -/
theorem sameReadings_of_shuffled :
    Rearranged true sampleRules shuffledRules ∧
    (ofDocument sampleRules sampleContext sampleDevice).error = none ∧
    ((ofDocument sampleRules sampleContext sampleDevice).error = none ↔
      (ofDocument shuffledRules sampleContext sampleDevice).error = none) ∧
    ((ofDocument sampleRules sampleContext sampleDevice).error = none →
      (ofDocument sampleRules sampleContext sampleDevice).readings.Perm
        (ofDocument shuffledRules sampleContext sampleDevice).readings) ∧
    (Rearranged false sampleRules shuffledRules →
      (ofDocument sampleRules sampleContext sampleDevice).error = none →
      (ofDocument sampleRules sampleContext sampleDevice).readings =
        (ofDocument shuffledRules sampleContext sampleDevice).readings) := by
  have hrearranged : Rearranged true sampleRules shuffledRules := by
    refine .level (Rule.sameByName_flags (by decide) (by decide)) ⟨by decide, by decide⟩
      (List.Perm.swap _ _ _) nofun rfl ?_
    refine List.forall_mem_cons.mpr ⟨?_, List.forall_mem_singleton.mpr ?_⟩
    · exact .level (.of_nodup .nil .nil) (.of_nodup (List.Perm.swap _ _ _) (by decide)) .nil nofun
        rfl nofun
    · exact .level (.of_nodup .nil .nil) (.of_nodup (.refl _) (by decide)) .nil nofun rfl nofun
  exact ⟨hrearranged, by decide +kernel,
    sameReadings_of_rearranged hrearranged sampleContext sampleDevice⟩

end Projection

end FeedMerge
