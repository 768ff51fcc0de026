import FeedMerge.Proofs.Mapping.Relocation
import FeedMerge.Proofs.Projection.Explanation
import FeedMerge.Proofs.Projection.Failure
import Mathlib.Data.List.Nodup

/-!
# Paths of emissions

The path of an emission is the text of a location, so it can only be told from other paths as far as
texts can. `Location.steps?` reads the steps off a path again: it cuts the text at each character
that begins a step, and finds the steps that were written as long as no name among them has such a
character (`Location.steps?_eq_some`). As no two keys of an object are the same, no object is
visited twice by the same steps (`nodup_steps_visits`), and so the emissions of a trace have paths
of their own, which lead to the objects that the records come from.
-/

namespace FeedMerge

namespace Step

/-- The characters that a step begins with. -/
def opens (c : Char) : Bool := c = '.' || c = '['

/-- The character that a step begins with, and what is written behind it. -/
def piece : Step → Char × List Char
  | field name => ('.', name.toList)
  | index i => ('[', Nat.toDigits 10 i ++ [']'])

/-- A step of which only the beginning looks like one. -/
def IsPlain (s : Step) : Prop := ∀ c ∈ s.piece.2, opens c = false

/-- The step that is written as a piece. -/
def ofPiece? : Char × List Char → Option Step
  | ('.', name) => some (field (.ofList name))
  | ('[', behind) =>
    let step := index (Decimal.ofDigits behind.dropLast)
    if step.piece.2 = behind then some step else none
  | _ => none

theorem toList_text (s : Step) : s.text.toList = s.piece.1 :: s.piece.2 := by
  cases s with
  | field name => simp [text, piece]
  | index i => simp [text, piece, Nat.toString_eq_repr, Nat.toList_repr]

theorem opens_piece (s : Step) : opens s.piece.1 = true := by
  cases s <;> rfl

theorem ofPiece?_eq_some {p : Char × List Char} {s : Step} : ofPiece? p = some s ↔ s.piece = p := by
  constructor
  · intro h
    unfold ofPiece? at h
    split at h
    · cases h
      rw [piece, String.toList_ofList]
    · dsimp only at h
      split at h
      · rename_i behind hbehind
        cases h
        exact Prod.ext rfl hbehind
      · cases h
    · cases h
  · rintro rfl
    cases s with
    | field name => simp [piece, ofPiece?]
    | index i => simp [piece, ofPiece?, Decimal.ofDigits_toDigits]

theorem isPlain_index (i : Nat) : (index i).IsPlain := by
  intro c hc
  rcases List.mem_append.mp hc with hdigit | hend
  · have hc := Nat.isDigit_of_mem_toDigits (by decide) (by decide) hdigit
    unfold opens
    by_contra hopens
    rw [Bool.not_eq_false, Bool.or_eq_true, decide_eq_true_eq, decide_eq_true_eq] at hopens
    rcases hopens with rfl | rfl <;> cases hc
  · rw [List.mem_singleton.mp hend]
    rfl

theorem isPlain_field {name : String} (h : '.' ∉ name.toList ∧ '[' ∉ name.toList) :
    (field name).IsPlain := by
  intro c hc
  have hdot : c ≠ '.' := fun heq => h.1 (heq ▸ hc)
  have hbracket : c ≠ '[' := fun heq => h.2 (heq ▸ hc)
  simp [opens, hdot, hbracket]

end Step

namespace Location

/-! ### Reading steps off a path -/

/-- What stands in a text before the first character that begins a step, and then each such
character with what stands behind it. -/
def cut : List Char → List Char × List (Char × List Char)
  | [] => ([], [])
  | c :: rest =>
    if Step.opens c then ([], (c, (cut rest).1) :: (cut rest).2)
    else (c :: (cut rest).1, (cut rest).2)

/-- The steps from the root that are written as a path. -/
def steps? (path : String) : Option (List Step) :=
  let pieces := cut path.toList
  if pieces.1 = root.start.toList then pieces.2.mapM Step.ofPiece? else none

theorem cut_append {first : List Char} (h : ∀ c ∈ first, Step.opens c = false) (rest : List Char) :
    cut (first ++ rest) = (first ++ (cut rest).1, (cut rest).2) := by
  induction first with
  | nil => rfl
  | cons c first ih =>
    obtain ⟨hc, hfirst⟩ := List.forall_mem_cons.mp h
    rw [List.cons_append, cut, ih hfirst, hc]
    rfl

theorem cut_opens {c : Char} (h : Step.opens c = true) (rest : List Char) :
    cut (c :: rest) = ([], (c, (cut rest).1) :: (cut rest).2) := by
  rw [cut, if_pos h]

/-- Nothing is lost where a text is cut, and it is cut wherever a step may begin. -/
theorem cut_spec (chars : List Char) :
    chars = (cut chars).1 ++ (cut chars).2.flatMap (fun piece => piece.1 :: piece.2) ∧
      (∀ c ∈ (cut chars).1, Step.opens c = false) ∧
      ∀ piece ∈ (cut chars).2, ∀ c ∈ piece.2, Step.opens c = false := by
  induction chars with
  | nil => exact ⟨rfl, nofun, nofun⟩
  | cons c chars ih =>
    obtain ⟨hchars, hfirst, hpieces⟩ := ih
    cases hc : Step.opens c with
    | true =>
      rw [cut_opens hc, List.flatMap_cons, List.cons_append, ← hchars]
      exact ⟨rfl, nofun, List.forall_mem_cons.mpr ⟨hfirst, hpieces⟩⟩
    | false =>
      rw [cut, hc, if_neg Bool.false_ne_true, List.cons_append, ← hchars]
      exact ⟨rfl, List.forall_mem_cons.mpr ⟨hc, hfirst⟩, hpieces⟩

theorem toList_text_along (l : Location) (steps : List Step) :
    (l.along steps).text.toList =
      l.text.toList ++ (steps.map Step.piece).flatMap fun piece => piece.1 :: piece.2 := by
  induction steps generalizing l with
  | nil => simp [along_nil]
  | cons s steps ih => simp [along_cons, ih, text_step, Step.toList_text]

theorem cut_pieces {steps : List Step} (h : ∀ s ∈ steps, s.IsPlain) :
    cut ((steps.map Step.piece).flatMap fun piece => piece.1 :: piece.2) =
      ([], steps.map Step.piece) := by
  induction steps with
  | nil => rfl
  | cons s steps ih =>
    obtain ⟨hs, hsteps⟩ := List.forall_mem_cons.mp h
    rw [List.map_cons, List.flatMap_cons, List.cons_append, cut_opens s.opens_piece,
      cut_append hs, ih hsteps, List.append_nil]

theorem mapM_ofPiece?_eq_some {pieces : List (Char × List Char)} {steps : List Step} :
    pieces.mapM Step.ofPiece? = some steps ↔ steps.map Step.piece = pieces := by
  induction pieces generalizing steps with
  | nil => simp [eq_comm]
  | cons piece pieces ih =>
    cases steps with
    | nil => simp [Option.bind_eq_some_iff]
    | cons s steps => simp [Option.bind_eq_some_iff, Step.ofPiece?_eq_some, ih]

/-- The steps that are read off a path are those that it was written with, if only their beginnings
look like steps; and no path is read that is not written so. -/
theorem steps?_eq_some {path : String} {steps : List Step} :
    steps? path = some steps ↔ path = (root.along steps).text ∧ ∀ s ∈ steps, s.IsPlain := by
  have hroot : ∀ c ∈ root.text.toList, Step.opens c = false := by
    have htext : root.text.toList = ['$'] := by rfl
    rw [htext]
    exact List.forall_mem_singleton.mpr rfl
  constructor
  · intro h
    obtain ⟨hpath, -, hplain⟩ := cut_spec path.toList
    unfold steps? at h
    dsimp only at h
    split at h
    · rename_i hstart
      have hpieces := mapM_ofPiece?_eq_some.mp h
      rw [← hpieces] at hpath hplain
      refine ⟨String.toList_injective ?_, fun s hs => hplain _ (List.mem_map_of_mem hs)⟩
      rw [hpath, toList_text_along, hstart]
      rfl
    · cases h
  · rintro ⟨rfl, hplain⟩
    unfold steps?
    rw [toList_text_along, cut_append hroot, cut_pieces hplain, List.append_nil]
    exact (if_pos rfl).trans (mapM_ofPiece?_eq_some.mpr rfl)

end Location

/-! ### Keys that are declared once -/

namespace Json

mutual

/-- No object in a value has two fields of one name; where a text has such fields, only the last is
read. -/
def namesOnce : Json → Bool
  | .array items => itemsNameOnce items
  | .object fields => decide (Fields.names fields).Nodup && valuesNameOnce fields
  | _ => true

def itemsNameOnce : List Json → Bool
  | [] => true
  | item :: items => namesOnce item && itemsNameOnce items

def valuesNameOnce : List (String × Json) → Bool
  | [] => true
  | (_, value) :: fields => namesOnce value && valuesNameOnce fields

end

end Json

namespace Rule

/-- Something holds of the rules of a level and of those of every level below it. -/
inductive EveryLevel (P : List Rule → Prop) : List Rule → Prop
  | level {rules : List Rule} (hown : P rules)
      (hbelow : ∀ source inner, nested source inner ∈ rules → EveryLevel P inner) :
      EveryLevel P rules

/-- No two rules of one level have the same key. -/
def KeyedOnce : List Rule → Prop := EveryLevel fun rules => (rules.map key).Nodup

/-- The fields of nested rules have neither a dot nor an opening bracket in their names. -/
def NestsPlainly : List Rule → Prop :=
  EveryLevel fun rules => ∀ source inner, nested source inner ∈ rules →
    '.' ∉ source.toList ∧ '[' ∉ source.toList

mutual

theorem Declares.keyedOnce : ∀ {location : Location} {key source : String} {value : Json}
    {inner : List Rule}, Declares location key value (.nested source inner) →
      value.namesOnce = true → KeyedOnce inner
  | _, _, _, .object fields, inner, .nested _ _ _ hrules, hnames => by
    rw [Json.namesOnce, Bool.and_eq_true, decide_eq_true_eq] at hnames
    refine .level ?_ (keyedOnce_of_mem hrules hnames.2)
    rw [keys_of_ofFields hrules]
    exact hnames.1

theorem keyedOnce_of_mem : ∀ {location : Location} {fields : Fields} {rules : List Rule},
    ofFields location fields = .ok rules → Json.valuesNameOnce fields = true →
      ∀ source inner, nested source inner ∈ rules → KeyedOnce inner
  | _, [], _, h, _, _, _, hmem => by
    cases h
    cases hmem
  | _, (_, _) :: _, _, h, hnames, source, inner, hmem => by
    obtain ⟨rule, rest, hrule, hrest, rfl⟩ := ofFields_cons_eq_ok.mp h
    rw [Json.valuesNameOnce, Bool.and_eq_true] at hnames
    rcases List.mem_cons.mp hmem with rfl | hmem
    · exact hrule.keyedOnce hnames.1
    · exact keyedOnce_of_mem hrest hnames.2 source inner hmem

end

end Rule

theorem Mapping.keyedOnce {location : Location} {declared : Json} {m : Mapping}
    (h : ofJson location declared = .ok m) (hnames : declared.namesOnce = true) :
    Rule.KeyedOnce m.rules := by
  obtain ⟨fields, rfl, -, hrules, -⟩ := ofJson_eq_ok.mp h
  rw [Json.namesOnce, Bool.and_eq_true, decide_eq_true_eq] at hnames
  refine .level ?_ (Rule.keyedOnce_of_mem hrules hnames.2)
  rw [Rule.keys_of_ofFields hrules]
  exact hnames.1

namespace Projection

/-! ### No object is visited twice -/

/-- Steps that go through different parts of a value are not the same. -/
theorem pairwise_parts (value : Json) : (parts value).Pairwise fun first second =>
    ∀ more others, first.1 ++ more ≠ second.1 ++ others := by
  cases value with
  | array items =>
    have hindices : items.zipIdx.Pairwise fun first second => first.2 ≠ second.2 := by
      have hnodup : (items.zipIdx.map Prod.snd).Nodup := by
        rw [List.zipIdx_map_snd]
        exact List.nodup_range'
      exact List.pairwise_map.mp hnodup
    refine List.pairwise_map.mpr (hindices.imp fun hne more others heq => hne ?_)
    exact Step.index.inj (List.cons.inj heq).1
  | _ => exact List.pairwise_singleton _ _

theorem steps_of_mem_visitsOfRule {rule : Rule} {fields : Fields} {v : Visit}
    (h : v ∈ visitsOfRule rule fields) : ∃ more, v.steps = .field rule.key :: more := by
  cases rule with
  | nested source inner =>
    obtain ⟨child, -, u, -, rfl⟩ := mem_visitsOfRule.mp h
    exact ⟨u.steps, rfl⟩
  | _ => cases h

theorem map_steps_behind (steps : List Step) (vs : List Visit) :
    (vs.map (.behind steps)).map Visit.steps = (vs.map Visit.steps).map (steps ++ ·) := by
  rw [List.map_map, List.map_map]
  rfl

theorem map_steps_inside (level : Level) (vs : List Visit) :
    (vs.map (.inside level)).map Visit.steps = vs.map Visit.steps := by
  rw [List.map_map]
  rfl

/-- Rules with keys of their own go down from an object by different fields. -/
theorem nodup_steps_visitsBelow {rules : List Rule} (hkeys : (rules.map Rule.key).Nodup)
    (hbelow : ∀ source inner, Rule.nested source inner ∈ rules →
      ∀ child, ((visits inner child).map Visit.steps).Nodup) (fields : Fields) :
    ((visitsBelow rules fields).map Visit.steps).Nodup := by
  rw [visitsBelow_eq_flatMap, List.map_flatMap, List.nodup_flatMap]
  constructor
  · intro rule hrule
    cases rule with
    | nested source inner =>
      rw [visitsOfRule]
      cases fields.find? source with
      | none => exact List.nodup_nil
      | some child =>
        change ((visits inner child).map (.behind [.field source])).map Visit.steps |>.Nodup
        rw [map_steps_behind]
        exact (hbelow source inner hrule child).map (List.append_right_injective _)
    | _ => exact List.nodup_nil
  · refine (List.pairwise_map.mp hkeys).imp fun {rule other} hne => ?_
    intro steps hsteps hother
    obtain ⟨v, hv, rfl⟩ := List.mem_map.mp hsteps
    obtain ⟨u, hu, heq⟩ := List.mem_map.mp hother
    obtain ⟨more, hmore⟩ := steps_of_mem_visitsOfRule hv
    obtain ⟨others, hothers⟩ := steps_of_mem_visitsOfRule hu
    rw [hmore, hothers] at heq
    exact hne (Step.field.inj (List.cons.inj heq).1).symm

/-- Under rules with keys of their own, no two visits have the same steps. -/
theorem nodup_steps_visits {rules : List Rule} (h : Rule.KeyedOnce rules) (value : Json) :
    ((visits rules value).map Visit.steps).Nodup := by
  induction h generalizing value with
  | @level rules hkeys _ ih =>
    unfold visits visitsIn
    rw [List.map_flatMap, List.nodup_flatMap]
    constructor
    · rintro ⟨first, part⟩ -
      rw [map_steps_behind]
      refine List.Nodup.map (List.append_right_injective first) ?_
      cases part with
      | object fields =>
        rw [visitsFrom, List.map_cons, map_steps_inside, List.nodup_cons]
        refine ⟨fun hmem => ?_, nodup_steps_visitsBelow hkeys ih fields⟩
        -- the object itself has no steps, and what is below it has at least one
        obtain ⟨v, hv, hsteps⟩ := List.mem_map.mp hmem
        rw [visitsBelow_eq_flatMap] at hv
        obtain ⟨rule, -, hv⟩ := List.mem_flatMap.mp hv
        obtain ⟨more, hmore⟩ := steps_of_mem_visitsOfRule hv
        rw [hmore] at hsteps
        cases hsteps
      | _ => exact List.nodup_nil
    · refine (pairwise_parts value).imp fun {first second} hne steps hfirst hsecond => ?_
      dsimp only at hfirst hsecond
      rw [map_steps_behind] at hfirst hsecond
      obtain ⟨more, -, rfl⟩ := List.mem_map.mp hfirst
      obtain ⟨others, -, heq⟩ := List.mem_map.mp hsecond
      exact hne more others heq.symm

/-! ### Where steps lead, and how they are written -/

/-- The steps of a descent lead to the object of its last level. -/
theorem Descent.follow?_eq {rules : List Rule} {value : Json} {steps : List Step}
    {levels : List Level} (h : Descent rules value steps levels) :
    ∃ level, levels.getLast? = some level ∧
      value.follow? steps = some (.object level.fields) := by
  induction h with
  | here hpart => exact ⟨_, rfl, follow?_of_mem_parts hpart⟩
  | @deeper _ _ _ child _ more fields source levels hpart _ hchild _ ih =>
    obtain ⟨level, hlast, hfollow⟩ := ih
    refine ⟨level, by rw [List.getLast?_cons, hlast]; rfl, ?_⟩
    rw [Json.follow?_append, follow?_of_mem_parts hpart, Option.bind_some, Json.follow?, hchild]
    exact hfollow

theorem isPlain_of_mem_parts {value part : Json} {steps : List Step}
    (h : (steps, part) ∈ parts value) : ∀ s ∈ steps, s.IsPlain := by
  cases value with
  | array items =>
    obtain ⟨⟨item, i⟩, -, heq⟩ := List.mem_map.mp h
    cases heq
    exact List.forall_mem_singleton.mpr (Step.isPlain_index i)
  | _ =>
    cases List.mem_singleton.mp h
    nofun

theorem Descent.isPlain {rules : List Rule} {value : Json} {steps : List Step}
    {levels : List Level} (h : Descent rules value steps levels)
    (hplain : Rule.NestsPlainly rules) : ∀ s ∈ steps, s.IsPlain := by
  induction h with
  | here hpart => exact isPlain_of_mem_parts hpart
  | deeper hpart hrule _ _ ih =>
    obtain ⟨hown, hbelow⟩ := hplain
    have hsource := Step.isPlain_field (hown _ _ hrule)
    intro s hs
    rcases List.mem_append.mp hs with hs | hs
    · exact isPlain_of_mem_parts hpart s hs
    · exact List.forall_mem_cons.mpr ⟨hsource, ih (hbelow _ _ hrule)⟩ s hs

end Projection

namespace Interpreter

open Projection

/-- The emissions of a trace under a mapping whose objects have no name twice and whose nested
fields have plain names are at paths of their own. The steps that are read off a path are those of
the visit that the emission comes from, and lead in the document to the object of this visit. -/
theorem paths_lead_to_emitters (i : Interpreter) {location : Location} {declared document : Json}
    {mapping : Mapping} {now : Timestamp}
    (hmapping : Mapping.ofJson location declared = .ok mapping)
    (hnames : declared.namesOnce = true) (hplain : Rule.NestsPlainly mapping.rules)
    (h : (i.trace mapping.rules document now).1.error = none) :
    ((i.trace mapping.rules document now).2.map (·.context.location.text)).Nodup ∧
    List.Forall₂ (fun v e => Explains now mapping.rules document v e ∧
        Location.steps? e.context.location.text = some v.steps ∧
        document.follow? v.steps = some (.object v.own.fields))
      ((visits mapping.rules document).filter Visit.emits)
      (i.trace mapping.rules document now).2 := by
  rw [trace_eq] at h ⊢
  have hexplained := forall₂_explains h
  have hread {v : Visit} {e : Emission} (he : Explains now mapping.rules document v e) :
      Location.steps? e.context.location.text = some v.steps := by
    refine Location.steps?_eq_some.mpr ⟨?_, he.descends.isPlain hplain⟩
    rw [he.context_eq]
    rfl
  constructor
  · -- what is read off the paths is all different, so they are
    refine List.Nodup.of_map Location.steps? ?_
    have hsteps : ((ofDocument mapping.rules (.empty now) document).emissions.map
        (·.context.location.text)).map Location.steps? =
          (((visits mapping.rules document).filter Visit.emits).map Visit.steps).map some := by
      rw [← List.forall₂_eq_eq_eq, List.forall₂_map_left_iff, List.forall₂_map_left_iff,
        List.forall₂_map_right_iff, List.forall₂_map_right_iff]
      exact (hexplained.imp fun v e he => hread he).flip
    rw [hsteps]
    refine List.Nodup.map (fun _ _ => Option.some.inj) ?_
    have hvisits := nodup_steps_visits (Mapping.keyedOnce hmapping hnames) document
    exact hvisits.sublist (List.filter_sublist.map _)
  · refine hexplained.imp fun v e he => ⟨he, hread he, ?_⟩
    obtain ⟨level, hlast, hfollow⟩ := he.descends.follow?_eq
    rw [Visit.levels, List.getLast?_concat] at hlast
    cases hlast
    exact hfollow

/-- The further readings of a sensor are told apart by their places in an array. -/
theorem paths_lead_to_inner_emitters :
    Mapping.ofJson .root Session.sampleDeclaration = .ok ⟨.root, Session.sampleRules⟩ ∧
    Session.sampleDeclaration.namesOnce = true ∧ Rule.NestsPlainly Session.sampleRules ∧
    (trace {} Session.sampleRules Session.sampleDocument .start).1.error = none ∧
    (trace {} Session.sampleRules Session.sampleDocument .start).2.map (·.context.location.text) =
      ["$[0].Sensors[0]", "$[0].Sensors[0].More[0]", "$[0].Sensors[0].More[1]",
        "$[0].Sensors[1]"] ∧
    ((trace {} Session.sampleRules Session.sampleDocument .start).2.map
      (·.context.location.text)).Nodup ∧
    List.Forall₂ (fun v e => Explains .start Session.sampleRules Session.sampleDocument v e ∧
        Location.steps? e.context.location.text = some v.steps ∧
        Session.sampleDocument.follow? v.steps = some (.object v.own.fields))
      ((visits Session.sampleRules Session.sampleDocument).filter Visit.emits)
      (trace {} Session.sampleRules Session.sampleDocument .start).2 := by
  have hmapping : Mapping.ofJson .root Session.sampleDeclaration =
      .ok ⟨.root, Session.sampleRules⟩ := by
    rfl
  have hnames : Session.sampleDeclaration.namesOnce = true := by decide +kernel
  have hplain : Rule.NestsPlainly Session.sampleRules := by
    refine .level (by simp [Session.sampleRules]) fun source inner hinner => ?_
    obtain ⟨-, rfl⟩ : source = "Sensors" ∧ inner = _ := by simpa [Session.sampleRules] using hinner
    refine .level (by simp) fun source inner hinner => ?_
    obtain ⟨-, rfl⟩ : source = "More" ∧ inner = _ := by simpa using hinner
    exact .level (by simp) (by simp)
  have herror : (trace {} Session.sampleRules Session.sampleDocument .start).1.error = none :=
    Option.isNone_iff_eq_none.mp (by decide +kernel)
  exact ⟨hmapping, hnames, hplain, herror, by decide +kernel,
    paths_lead_to_emitters {} hmapping hnames hplain herror⟩

end Interpreter

end FeedMerge
