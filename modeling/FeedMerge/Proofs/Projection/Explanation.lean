import FeedMerge.Proofs.FirstOccurrence
import FeedMerge.Proofs.Projection.Emissions
import FeedMerge.Proofs.Workbench.Isolation
import Mathlib.Data.List.Forall2

/-!
# What the emissions of a trace explain

A trace lists each record with the context that it was built from. Every name in that context is one
that a level on the way down to the record gives a value to, and all of these names are there, in
the order of their first assignment (`names_context`): no level on the way can have been passed
without its flags and renames being resolved (`resolved_of_descent`), and binding a name again keeps
its place. So what a context can hold is known from the rules alone, and where records are emitted,
the levels on the way have all names that a record needs between them.
-/

namespace FeedMerge

namespace Fields

theorem names_bind (fields : Fields) (name : String) (value : Json) :
    (fields.bind name value).names =
      if name ∈ fields.names then fields.names else fields.names ++ [name] := by
  induction fields with
  | nil => simp [bind, names]
  | cons field rest ih =>
    obtain ⟨key, old⟩ := field
    unfold names at ih ⊢
    by_cases h : key = name
    · simp [bind, h]
    · rw [bind, if_neg h, List.map_cons, ih]
      by_cases hmem : name ∈ rest.map (·.1) <;> simp [hmem, Ne.symm h]

/-- Bindings add the names that are new, in the order in which they are bound first. -/
theorem names_overlay {fields : Fields} {known : List String} (h : fields.names = known.eraseDups)
    (updates : Fields) :
    (fields.overlay updates).names = (known ++ updates.names).eraseDups := by
  -- `known` is general, since each binding makes it longer
  induction updates generalizing fields known with
  | nil =>
    have hnone : names [] = [] := rfl
    rw [hnone, List.append_nil]
    exact h
  | cons binding updates ih =>
    obtain ⟨name, value⟩ := binding
    have hbind : (fields.bind name value).names = (known ++ [name]).eraseDups := by
      rw [names_bind, List.eraseDups_concat, h]
      simp only [List.mem_eraseDups]
    have hrest := ih hbind
    rw [List.append_assoc] at hrest
    exact hrest

theorem mem_names_of_find? {fields : Fields} {name : String} {value : Json}
    (h : fields.find? name = some value) : name ∈ fields.names := by
  by_contra hmem
  have hnone : fields.find? name = none := by
    refine List.lookup_eq_none_iff.mpr fun field hfield => ?_
    have hne : name ≠ field.1 := fun heq => hmem (heq ▸ List.mem_map_of_mem hfield)
    simpa using hne
  rw [hnone] at h
  cases h

end Fields

namespace Projection

/-! ### Names that are bound -/

/-- The names that the levels on a way give values to, level by level. -/
def chainTargets (levels : List Level) : List String :=
  levels.flatMap fun level => Rule.levelTargets level.rules

theorem names_of_resolveFlags {location : Location} {fields values : Fields}
    {flags : List (String × Predicate)} (h : resolveFlags location fields flags = .ok values) :
    values.names = flags.map (·.1) := by
  rw [eq_map_of_resolveFlags h, Fields.names, List.map_map]
  rfl

theorem names_of_resolveRenames {location : Location} {fields values : Fields}
    {renames : List (String × String)} (h : resolveRenames location fields renames = .ok values) :
    values.names = renames.map (·.2) := by
  induction renames generalizing values with
  | nil =>
    cases h
    rfl
  | cons rename rest ih =>
    obtain ⟨source, target⟩ := rename
    unfold resolveRenames at h
    split at h
    · cases h
    · split at h
      · obtain ⟨more, hrest, rfl⟩ := Except.map_eq_ok.mp h
        rw [List.map_cons, ← ih hrest]
        rfl
      · cases h

/-- A level that is resolved binds all its targets, flags before renames. -/
theorem names_of_resolve {rules : List Rule} {location : Location} {fields values : Fields}
    (h : resolve rules location fields = .ok values) : values.names = Rule.levelTargets rules := by
  unfold resolve at h
  split at h
  · cases h
  · rename_i flags hflags
    obtain ⟨renames, hrenames, rfl⟩ := Except.map_eq_ok.mp h
    rw [Rule.levelTargets, ← names_of_resolveFlags hflags, ← names_of_resolveRenames hrenames]
    exact List.map_append

/-! ### Levels that are passed -/

/-- From some context the rules go through each part of a value. -/
def Passes (rules : List Rule) (value : Json) : Prop :=
  ∀ steps part, (steps, part) ∈ parts value → ∃ c, (ofValue rules c part).error = none

theorem passes_visitItems {rules : List Rule} {c : Context} {location : Location}
    {items : List Json} {i : Nat}
    (h : (visitItems (ofValue rules) c location i items).error = none) :
    Passes rules (.array items) := by
  have hitems : ∀ item ∈ items, ∃ c, (ofValue rules c item).error = none := by
    induction items generalizing i with
    | nil => nofun
    | cons item items ih =>
      obtain ⟨hitem, hrest⟩ := error_andThen.mp h
      exact List.forall_mem_cons.mpr ⟨⟨_, hitem⟩, ih hrest⟩
  intro steps part hpart
  obtain ⟨⟨item, j⟩, hmem, heq⟩ := List.mem_map.mp hpart
  cases heq
  exact hitems _ (List.fst_mem_of_mem_zipIdx hmem)

theorem passes_of_kind_ne {rules : List Rule} {c : Context} {value : Json}
    (hkind : value.kind ≠ .array) (h : (ofValue rules c value).error = none) :
    Passes rules value := by
  intro steps part hpart
  cases value with
  | array items => exact absurd rfl hkind
  | _ =>
    cases List.mem_singleton.mp hpart
    exact ⟨c, h⟩

theorem passes_visitField {rules : List Rule} {c : Context} {location : Location} {value : Json}
    (h : (visitField (ofValue rules) c location value).error = none) : Passes rules value := by
  cases value with
  | array items => exact passes_visitItems h
  | object fields => exact passes_of_kind_ne (by simp [Json.kind]) h
  | _ => cases h

theorem passes_ofDocument {rules : List Rule} {c : Context} {document : Json}
    (h : (ofDocument rules c document).error = none) : Passes rules document := by
  cases document with
  | array items => exact passes_visitItems h
  | _ => exact passes_of_kind_ne (by simp [Json.kind]) h

/-- An object that is passed has been resolved, and so has what is below it. -/
theorem resolved_of_passed {rules : List Rule} {c : Context} {fields : Fields}
    (h : (ofValue rules c (.object fields)).error = none) :
    (∃ values, resolve rules c.location fields = .ok values) ∧
      ∃ c, (descend rules fields c).error = none := by
  unfold ofValue visit at h
  dsimp only at h
  cases hresolve : resolve rules c.location fields with
  | error fault =>
    rw [hresolve] at h
    cases h
  | ok values =>
    rw [hresolve] at h
    exact ⟨⟨values, rfl⟩, _, (error_andThen.mp h).2⟩

theorem passes_of_descend {rules inner : List Rule} {fields : Fields} {c : Context}
    {source : String} {child : Json} (h : (descend rules fields c).error = none)
    (hrule : Rule.nested source inner ∈ rules) (hchild : fields.find? source = some child) :
    Passes inner child := by
  induction rules with
  | nil => cases hrule
  | cons rule rules ih =>
    rw [descend] at h
    obtain ⟨hfirst, hrest⟩ := error_andThen.mp h
    rcases List.mem_cons.mp hrule with rfl | hrule
    · rw [descendRule, lookup, hchild] at hfirst
      exact passes_visitField hfirst
    · exact ih hrest hrule

/-- On the way down through what is passed, every level has been resolved. -/
theorem resolved_of_descent {rules : List Rule} {value : Json} {steps : List Step}
    {levels : List Level} (h : Descent rules value steps levels) (hpasses : Passes rules value) :
    ∀ level ∈ levels, ∃ location values,
      resolve level.rules location level.fields = .ok values := by
  -- the context that a part is entered from changes on the way, and no level depends on which it is
  induction h with
  | here hpart =>
    obtain ⟨c, hc⟩ := hpasses _ _ hpart
    obtain ⟨hresolved, -⟩ := resolved_of_passed hc
    exact List.forall_mem_singleton.mpr ⟨_, hresolved⟩
  | deeper hpart hrule hchild _ ih =>
    obtain ⟨c, hc⟩ := hpasses _ _ hpart
    obtain ⟨hresolved, below, hbelow⟩ := resolved_of_passed hc
    exact List.forall_mem_cons.mpr
      ⟨⟨_, hresolved⟩, ih (passes_of_descend hbelow hrule hchild)⟩

/-- At an object that is reached in what is passed, the context has the names of all levels down to
it, in the order of their first assignment. -/
theorem names_context {rules : List Rule} {value : Json} {v : Visit}
    (h : Descent rules value v.steps v.levels) (hpasses : Passes rules value) (now : Timestamp) :
    (v.context (.empty now)).values.names = (chainTargets v.levels).eraseDups := by
  have hbindings : ∀ level ∈ v.levels, level.bindings.names = Rule.levelTargets level.rules := by
    intro level hlevel
    obtain ⟨location, values, hvalues⟩ := resolved_of_descent h hpasses level hlevel
    rw [← bindings_of_resolve hvalues, names_of_resolve hvalues]
  have hnames : Fields.names (v.levels.flatMap Level.bindings) = chainTargets v.levels := by
    rw [Fields.names, List.map_flatMap, chainTargets]
    exact List.flatMap_congr hbindings
  have hempty : Fields.names (Context.empty now).values = ([] : List String).eraseDups := rfl
  rw [values_context, Fields.names_overlay hempty, List.nil_append, hnames]

/-! ### Names that are declared -/

theorem mem_targetsBelow {rules inner : List Rule} {source name : String}
    (hrule : Rule.nested source inner ∈ rules) (hname : name ∈ Rule.targets inner) :
    name ∈ Rule.targetsBelow rules := by
  induction rules with
  | nil => cases hrule
  | cons rule rules ih =>
    rw [Rule.targetsBelow, List.mem_append]
    rcases List.mem_cons.mp hrule with rfl | hrule
    · exact .inl hname
    · exact .inr (ih hrule)

/-- All names that the levels on a way give values to are declared by the rules. -/
theorem mem_targets_of_descent {rules : List Rule} {value : Json} {steps : List Step}
    {levels : List Level} (h : Descent rules value steps levels) {name : String}
    (hname : name ∈ chainTargets levels) : name ∈ Rule.targets rules := by
  induction h with
  | here _ =>
    rw [chainTargets, List.flatMap_singleton] at hname
    exact List.mem_append_left _ hname
  | deeper _ hrule _ _ ih =>
    rw [chainTargets, List.flatMap_cons, List.mem_append] at hname
    exact List.mem_append.mpr (hname.imp_right fun hbelow => mem_targetsBelow hrule (ih hbelow))

/-! ### Records -/

theorem build_eq_ok {c : Context} {reading : Reading} :
    build c = .ok reading ↔ c.draft.missing = [] ∧ c.draft.read c.now = .ok reading := by
  unfold build
  dsimp only
  cases hmissing : c.draft.missing with
  | cons field fields => simp
  | nil =>
    cases hread : c.draft.read c.now with
    | ok own => simp
    | error failure => cases failure <;> simp

/-- Where nothing is missing, every field of a record has its name among the values. -/
theorem name_mem_of_missing {fields : Fields} (h : (Reading.Draft.ofFields fields).missing = [])
    (field : Reading.Field) : field.name ∈ fields.names := by
  cases hfind : fields.find? field.name with
  | some value => exact Fields.mem_names_of_find? hfind
  | none =>
    unfold Reading.Draft.missing Reading.Draft.ofFields at h
    cases field <;> simp [hfind, Reading.Draft.isUnset, Reading.Draft.isSourceUnset] at h

/-- The context of a visit explains an emission at a reading of the clock: the visit is of an object
whose level emits, its context is that of the emission, and the values in it make up the record by
themselves. They have the names of all levels on the way, in the order of their first assignment;
all of these are declared by the rules, and those of a record are among them. -/
structure Explains (now : Timestamp) (rules : List Rule) (document : Json) (v : Visit)
    (e : Emission) : Prop where
  descends : Descent rules document v.steps v.levels
  emits : v.emits = true
  context_eq : e.context = v.context (.empty now)
  build_eq : ∀ location, build ⟨e.context.values, location, now⟩ = .ok e.reading
  names_eq : e.context.values.names = (chainTargets v.levels).eraseDups
  declared : ∀ name ∈ e.context.values.names, name ∈ Rule.targets rules
  complete : ∀ field : Reading.Field, field.name ∈ chainTargets v.levels

theorem explains_of_mem {now : Timestamp} {rules : List Rule} {document : Json}
    (h : (ofDocument rules (.empty now) document).error = none) {v : Visit} {e : Emission}
    (hv : v ∈ visits rules document) (hemits : v.emits = true)
    (hcontext : e.context = v.context (.empty now)) (hbuild : build e.context = .ok e.reading) :
    Explains now rules document v e := by
  have hdescent : Descent rules document v.steps v.levels :=
    exists_mem_visits_iff.mp ⟨v, hv, rfl, rfl⟩
  obtain ⟨hmissing, hread⟩ := build_eq_ok.mp hbuild
  have hnow : e.context.now = now := by
    rw [hcontext]
    rfl
  rw [hnow] at hread
  have hnames : e.context.values.names = (chainTargets v.levels).eraseDups := by
    rw [hcontext]
    exact names_context hdescent (passes_ofDocument h) now
  have hmem (name : String) : name ∈ e.context.values.names ↔ name ∈ chainTargets v.levels := by
    rw [hnames, List.mem_eraseDups]
  exact {
    descends := hdescent
    emits := hemits
    context_eq := hcontext
    build_eq := fun _ => build_eq_ok.mpr ⟨hmissing, hread⟩
    names_eq := hnames
    declared := fun name hname => mem_targets_of_descent hdescent ((hmem name).mp hname)
    complete := fun field => (hmem _).mp (name_mem_of_missing hmissing field) }

/-- The emissions of a projection that goes through are explained by the visits that emit, one by
one and in their order. -/
theorem forall₂_explains {now : Timestamp} {rules : List Rule} {document : Json}
    (h : (ofDocument rules (.empty now) document).error = none) :
    List.Forall₂ (Explains now rules document) ((visits rules document).filter Visit.emits)
      (ofDocument rules (.empty now) document).emissions := by
  obtain ⟨hcontexts, hreadings⟩ := madeFrom_ofDocument rules (.empty now) document h
  have hbuild : ∀ e ∈ (ofDocument rules (.empty now) document).emissions,
      build e.context = .ok e.reading := by
    rw [← hcontexts, readings, List.map_map, List.map_map] at hreadings
    exact fun e he => (List.map_inj_left.mp hreadings e he).symm
  have hpaired : List.Forall₂ (fun v e => e.context = v.context (.empty now))
      ((visits rules document).filter Visit.emits)
      (ofDocument rules (.empty now) document).emissions := by
    rw [emittingContexts, ← List.forall₂_eq_eq_eq, List.forall₂_map_left_iff,
      List.forall₂_map_right_iff] at hcontexts
    exact hcontexts.flip
  obtain ⟨hlength, hpair⟩ := List.forall₂_iff_zip.mp hpaired
  refine List.forall₂_iff_zip.mpr ⟨hlength, fun {v e} hmem => ?_⟩
  obtain ⟨hv, he⟩ := List.of_mem_zip hmem
  obtain ⟨hv, hemits⟩ := List.mem_filter.mp hv
  exact explains_of_mem h hv hemits (hpair hmem) (hbuild e he)

end Projection

namespace Interpreter

open Projection

/-- When a document is traced without an error, it is projected without one into any sink, which is
continued by the records of the emissions in order, as many as the trace counts; and the visits that
emit explain the emissions one by one and in their order. -/
theorem trace_explains_records (i j : Interpreter) {rules : List Rule} {document : Json}
    {now : Timestamp} (h : (i.trace rules document now).1.error = none) (sink : List Reading) :
    (i.trace rules document now).1.sink.length = (i.trace rules document now).2.length ∧
    (j.project rules document (.empty now) sink).error = none ∧
    (j.project rules document (.empty now) sink).sink =
      sink ++ (i.trace rules document now).2.map (·.reading) ∧
    List.Forall₂ (Explains now rules document) ((visits rules document).filter Visit.emits)
      (i.trace rules document now).2 := by
  rw [trace_eq] at h ⊢
  rw [project_eq]
  exact ⟨List.length_map _, h, rfl, forall₂_explains h⟩

/-- The four records of two sensors come from two levels or from three. -/
theorem trace_explains_inner_records :
    ∃ mapping, Mapping.ofJson .root Session.sampleDeclaration = .ok mapping ∧
      (trace {} mapping.rules Session.sampleDocument .start).1.error = none ∧
      (trace {} mapping.rules Session.sampleDocument .start).2.length = 4 ∧
      (trace {} mapping.rules Session.sampleDocument .start).1.sink.length =
        (trace {} mapping.rules Session.sampleDocument .start).2.length ∧
      (project {} mapping.rules Session.sampleDocument (.empty .start) []).error = none ∧
      (project {} mapping.rules Session.sampleDocument (.empty .start) []).sink =
        [] ++ (trace {} mapping.rules Session.sampleDocument .start).2.map (·.reading) ∧
      List.Forall₂ (Explains .start mapping.rules Session.sampleDocument)
        ((visits mapping.rules Session.sampleDocument).filter Visit.emits)
        (trace {} mapping.rules Session.sampleDocument .start).2 := by
  have hrun : (Mapping.ofJson .root Session.sampleDeclaration).toOption.any (fun mapping =>
      (trace {} mapping.rules Session.sampleDocument .start).1.error.isNone &&
        (trace {} mapping.rules Session.sampleDocument .start).2.length == 4) = true := by
    decide +kernel
  cases hmapping : Mapping.ofJson .root Session.sampleDeclaration with
  | error fault =>
    rw [hmapping] at hrun
    cases hrun
  | ok mapping =>
    rw [hmapping] at hrun
    obtain ⟨herror, hlength⟩ := Bool.and_eq_true_iff.mp hrun
    have hpassed := Option.isNone_iff_eq_none.mp herror
    exact ⟨mapping, rfl, hpassed, by simpa using hlength,
      trace_explains_records {} {} hpassed []⟩

end Interpreter

end FeedMerge
