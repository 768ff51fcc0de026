import FeedMerge.Proofs.Projection.Visits

/-!
# The checks of a projection

A projection may end at any of the things that it checks on its way: that a value is an object, that
a flag can be compared, that the field of a rename is there and is a scalar, that a record can be
built, that the field of a nested rule is there and can be entered. `checks` lists them all in the
order in which a document is gone through, as if none could fail, and nothing is carried from one to
the next: a check only knows the steps that lead to its object and the levels above it. What the
interpreter does, which hands contexts down and stops early, is to run this list
(`ofDocument_eq_runChecks`). So its error is that of the first check that fails, and its emissions
are those of the checks before it (`runChecks_of_failure`).
-/

namespace FeedMerge

namespace Projection

/-- What can go wrong at an object, with what it is looked up in. -/
inductive Test where
  | isObject (value : Json)
  | flag (fields : Fields) (target : String) (predicate : Predicate)
  | present (fields : Fields) (source : String)
  | scalar (fields : Fields) (source target : String)
  | record (own : Level)
  | entered (fields : Fields) (source : String)

namespace Test

/-- The value that is tested, or whose field is. -/
def subject : Test → Json
  | isObject value => value
  | flag fields _ _ | present fields _ | scalar fields _ _ | entered fields _ => .object fields
  | record own => .object own.fields

/-- The step from the tested object to what a fault of the test is located at. -/
def place : Test → List Step
  | flag _ target _ => [.field target]
  | scalar _ source _ | entered _ source => [.field source]
  | isObject _ | present _ _ | record _ => []

/-- What is wrong, if anything; whether a record can be built depends on more than the object. -/
def cause? : Test → Option Cause
  | isObject value => if value.kind = .object then none else some (.notAnObject value.kind)
  | flag fields _ predicate =>
    match fields.find? predicate.field with
    | none => some (.missingField predicate.field)
    | some value =>
      if value.isScalar then none else some (.comparedStructure predicate.field value.kind)
  | present fields source =>
    if (fields.find? source).isSome then none else some (.missingField source)
  | scalar fields source target =>
    match fields.find? source with
    | none => none
    | some value =>
      if value.isScalar then none else some (.copiedStructure source target value.kind)
  | record _ => none
  | entered fields source =>
    match fields.find? source with
    | none => none
    | some value =>
      if value.kind = .array ∨ value.kind = .object then none else some (.notNested value.kind)

end Test

/-- A test, the steps to the object that it is made at, and the levels above the tested one. -/
structure Check where
  steps : List Step
  above : List Level
  test : Test

namespace Check

/-- A test at the object that a traversal begins at. -/
def here (test : Test) : Check := ⟨[], [], test⟩

/-- The check as seen from a level above it. -/
def inside (level : Level) (k : Check) : Check := { k with above := level :: k.above }

/-- The check as seen from where some steps begin. -/
def behind (steps : List Step) (k : Check) : Check := { k with steps := steps ++ k.steps }

/-- The steps to what a fault of the check is located at. -/
def place (k : Check) : List Step := k.steps ++ k.test.place

/-- The context that the object is reached with. -/
def context (k : Check) (c : Context) : Context where
  values := k.above.foldl (fun values level => values.overlay level.bindings) c.values
  location := c.location.along k.steps
  now := c.now

/-- The context that a record is built from, if that is what is checked. -/
def recordContext? (c : Context) (k : Check) : Option Context :=
  match k.test with
  | .record own => some ((k.context c).overlay own.bindings)
  | _ => none

/-- The error of the check, if it fails. -/
def failure? (c : Context) (k : Check) : Option Error :=
  match k.recordContext? c with
  | some recorded =>
    match build recorded with
    | .ok _ => none
    | .error error => some error
  | none => k.test.cause?.map fun cause => .fault ⟨cause, c.location.along k.place, none⟩

/-- What is emitted if the check passes. -/
def emission? (c : Context) (k : Check) : Option Emission :=
  match k.recordContext? c with
  | some recorded =>
    match build recorded with
    | .ok reading => some ⟨recorded, reading⟩
    | .error _ => none
  | none => none

/-- The check as a projection of its own. -/
def run (c : Context) (k : Check) : Projection :=
  match k.failure? c with
  | some error => failed error
  | none => ⟨(k.emission? c).toList, none⟩

end Check

/-! ### The order of the checks -/

/-- The checks in all parts of a value, part by part. -/
def checksIn (checksOf : Json → List Check) (value : Json) : List Check :=
  (parts value).flatMap fun (steps, part) => (checksOf part).map (.behind steps)

/-- The check of a flag of a level. -/
def flagCheck (fields : Fields) : String × Predicate → Check
  | (target, predicate) => .here (.flag fields target predicate)

/-- The checks of the renames of a level: each field first for being there, then for its value. -/
def renameChecks (fields : Fields) : String × String → List Check
  | (source, target) => [.here (.present fields source), .here (.scalar fields source target)]

/-- The checks at an object: that it is one, its flags, its renames, its record, and what is below
it. -/
def checksFrom (rules : List Rule) (below : Fields → List Check) : Json → List Check
  | .object fields =>
    .here (.isObject (.object fields)) ::
      (Rule.flags rules).map (flagCheck fields) ++
      (Rule.renames rules).flatMap (renameChecks fields) ++
      (if Rule.emits rules then [.here (.record ⟨rules, fields⟩)] else []) ++
      (below fields).map (.inside ⟨rules, fields⟩)
  | value => [.here (.isObject value)]

mutual

/-- The checks of the nested rules of a level, rule by rule. -/
def checksBelow : List Rule → Fields → List Check
  | [], _ => []
  | rule :: rules, fields => checksOfRule rule fields ++ checksBelow rules fields

/-- The checks of one rule of a level: its field first for being there, then for being an array or
an object, and then whatever is checked inside. -/
def checksOfRule : Rule → Fields → List Check
  | .nested source rules, fields =>
    .here (.present fields source) :: .here (.entered fields source) ::
      match fields.find? source with
      | some value =>
        (checksIn (checksFrom rules (checksBelow rules)) value).map (.behind [.field source])
      | none => []
  | _, _ => []

end

/-- All checks of a document under some rules, in the order in which it is gone through. -/
def checks (rules : List Rule) (document : Json) : List Check :=
  checksIn (checksFrom rules (checksBelow rules)) document

/-! ### Running checks -/

/-- The checks one after another, up to the first that fails. -/
def runChecks (c : Context) : List Check → Projection
  | [] => nothing
  | k :: ks => (k.run c).andThen (runChecks c ks)

variable {c : Context}

theorem runChecks_append (first second : List Check) :
    runChecks c (first ++ second) = (runChecks c first).andThen (runChecks c second) := by
  induction first with
  | nil => rfl
  | cons k first ih => rw [List.cons_append, runChecks, runChecks, ih, andThen_assoc]

theorem failed_andThen (error : Error) (p : Projection) :
    (failed error).andThen p = failed error := rfl

/-- Up to the first check that fails, every check emits what it emits; that check gives the error,
and the checks behind it do not count. -/
theorem runChecks_of_failure {before after : List Check} {k : Check} {error : Error}
    (hbefore : ∀ passed ∈ before, passed.failure? c = none) (hk : k.failure? c = some error) :
    runChecks c (before ++ k :: after) = ⟨before.filterMap (Check.emission? c), some error⟩ := by
  induction before with
  | nil =>
    rw [List.nil_append, runChecks, Check.run, hk]
    rfl
  | cons first before ih =>
    obtain ⟨hfirst, hrest⟩ := List.forall_mem_cons.mp hbefore
    rw [List.cons_append, runChecks, Check.run, hfirst, ih hrest]
    cases hemission : first.emission? c <;> simp [andThen, hemission]

theorem runChecks_of_pass {ks : List Check} (h : ∀ k ∈ ks, k.failure? c = none) :
    (runChecks c ks).error = none := by
  induction ks with
  | nil => rfl
  | cons k ks ih =>
    obtain ⟨hk, hrest⟩ := List.forall_mem_cons.mp h
    rw [runChecks, Check.run, hk]
    exact ih hrest

/-- Where a run of checks fails, one of them is the first to fail. -/
theorem exists_first_failure {ks : List Check} {error : Error}
    (h : (runChecks c ks).error = some error) :
    ∃ before k after, ks = before ++ k :: after ∧
      (∀ passed ∈ before, passed.failure? c = none) ∧ k.failure? c = some error := by
  cases hfirst : ks.findSome? (Check.failure? c) with
  | none =>
    rw [runChecks_of_pass (List.findSome?_eq_none_iff.mp hfirst)] at h
    cases h
  | some found =>
    obtain ⟨before, k, after, rfl, hk, hbefore⟩ := List.findSome?_eq_some_iff.mp hfirst
    rw [runChecks_of_failure hbefore hk] at h
    obtain rfl := Option.some.inj h
    exact ⟨before, k, after, rfl, hbefore, hk⟩

/-! ### Moving checks -/

theorem Check.recordContext?_behind (steps : List Step) (k : Check) :
    (k.behind steps).recordContext? c = k.recordContext? (c.descend (c.location.along steps)) := by
  have hcontext : (k.behind steps).context c = k.context (c.descend (c.location.along steps)) := by
    simp [context, behind, Context.descend, Location.along_append]
  unfold recordContext?
  rw [hcontext]
  rfl

theorem Check.run_behind (steps : List Step) (k : Check) :
    (k.behind steps).run c = k.run (c.descend (c.location.along steps)) := by
  have hplace : c.location.along (k.behind steps).place =
      (c.location.along steps).along k.place := by
    simp [Check.place, Check.behind, Location.along_append, List.append_assoc]
  unfold run failure? emission?
  rw [Check.recordContext?_behind, hplace]
  rfl

theorem Check.run_inside (level : Level) (k : Check) :
    (k.inside level).run c = k.run (c.overlay level.bindings) := rfl

theorem runChecks_behind (steps : List Step) (ks : List Check) :
    runChecks c (ks.map (.behind steps)) = runChecks (c.descend (c.location.along steps)) ks := by
  induction ks with
  | nil => rfl
  | cons k ks ih => rw [List.map_cons, runChecks, runChecks, Check.run_behind, ih]

theorem runChecks_inside (level : Level) (ks : List Check) :
    runChecks c (ks.map (.inside level)) = runChecks (c.overlay level.bindings) ks := by
  induction ks with
  | nil => rfl
  | cons k ks ih => rw [List.map_cons, runChecks, runChecks, Check.run_inside, ih]

/-! ### The interpreter runs the checks -/

/-- Whether something was found without a fault, as a projection. -/
def ofResult {α : Type} : Except Fault α → Projection
  | .ok _ => nothing
  | .error fault => failed (.fault fault)

theorem ofResult_map {α β : Type} (f : α → β) (result : Except Fault α) :
    ofResult (Except.map f result) = ofResult result := by
  cases result <;> rfl

/-- What is wrong, if anything, as a projection. -/
def ofCause (location : Location) : Option Cause → Projection
  | none => nothing
  | some cause => failed (.fault ⟨cause, location, none⟩)

theorem run_here {test : Test} (hrecord : ∀ own, test ≠ .record own) :
    (Check.here test).run c = ofCause (c.location.along test.place) test.cause? := by
  cases test with
  | record own => exact absurd rfl (hrecord own)
  | _ =>
    unfold Check.run Check.failure? Check.emission? Check.recordContext? Check.here
    dsimp only
    generalize Test.cause? _ = cause
    cases cause <;> rfl

theorem run_flag (fields : Fields) (target : String) (predicate : Predicate) :
    (Check.here (.flag fields target predicate)).run c =
      ofResult (predicate.evaluate (c.location.field target) fields) := by
  rw [run_here (fun _ => Test.noConfusion), Test.cause?, Predicate.evaluate]
  cases fields.find? predicate.field with
  | none => rfl
  | some value =>
    dsimp only
    cases value.isScalar <;> rfl

theorem runChecks_flags (fields : Fields) (flags : List (String × Predicate)) :
    runChecks c (flags.map (flagCheck fields)) =
      ofResult (resolveFlags c.location fields flags) := by
  induction flags with
  | nil => rfl
  | cons flag flags ih =>
    obtain ⟨target, predicate⟩ := flag
    rw [List.map_cons, flagCheck, runChecks, run_flag, ih, resolveFlags]
    cases predicate.evaluate (c.location.field target) fields with
    | error fault => rfl
    | ok truth =>
      rw [ofResult_map]
      exact nothing_andThen _

theorem run_present (fields : Fields) (source : String) :
    (Check.here (.present fields source)).run c = ofResult (lookup c.location fields source) := by
  rw [run_here (fun _ => Test.noConfusion), Test.place, Location.along_nil, Test.cause?, lookup]
  cases fields.find? source <;> rfl

theorem run_scalar {fields : Fields} {source : String} {value : Json}
    (h : fields.find? source = some value) (target : String) :
    (Check.here (.scalar fields source target)).run c =
      if value.isScalar then nothing
      else failed (.fault ⟨.copiedStructure source target value.kind, c.location.field source,
        none⟩) := by
  rw [run_here (fun _ => Test.noConfusion), Test.cause?, h]
  dsimp only
  cases value.isScalar <;> rfl

theorem runChecks_renames (fields : Fields) (renames : List (String × String)) :
    runChecks c (renames.flatMap (renameChecks fields)) =
      ofResult (resolveRenames c.location fields renames) := by
  induction renames with
  | nil => rfl
  | cons rename renames ih =>
    obtain ⟨source, target⟩ := rename
    rw [List.flatMap_cons, runChecks_append, ih, resolveRenames, renameChecks, runChecks, runChecks,
      runChecks, andThen_nothing, run_present]
    cases hvalue : lookup c.location fields source with
    | error fault => rfl
    | ok value =>
      rw [run_scalar (find?_of_lookup hvalue), ofResult, nothing_andThen]
      cases hscalar : value.isScalar with
      | true => simp [hscalar, nothing_andThen, ofResult_map]
      | false => simp [hscalar, ofResult, failed_andThen]

theorem runChecks_resolve (rules : List Rule) (fields : Fields) :
    runChecks c ((Rule.flags rules).map (flagCheck fields) ++
      (Rule.renames rules).flatMap (renameChecks fields)) =
      ofResult (resolve rules c.location fields) := by
  rw [runChecks_append, runChecks_flags, runChecks_renames, resolve]
  cases resolveFlags c.location fields (Rule.flags rules) with
  | error fault => rfl
  | ok flags => rw [ofResult_map, ofResult, nothing_andThen]

theorem runChecks_record (rules : List Rule) (fields : Fields) :
    runChecks c (if Rule.emits rules then [.here (.record ⟨rules, fields⟩)] else []) =
      emit rules (c.overlay (Level.bindings ⟨rules, fields⟩)) := by
  unfold emit
  cases hemits : Rule.emits rules with
  | false => rfl
  | true =>
    have hcontext : (Check.here (.record ⟨rules, fields⟩)).recordContext? c =
        some (c.overlay (Level.bindings ⟨rules, fields⟩)) := by
      simp [Check.recordContext?, Check.here, Check.context, Location.along_nil]
    rw [if_pos rfl, if_pos rfl, runChecks, runChecks, andThen_nothing, Check.run, Check.failure?,
      Check.emission?, hcontext]
    dsimp only
    cases build (c.overlay (Level.bindings ⟨rules, fields⟩)) <;> rfl

theorem visit_eq_runChecks {rules : List Rule} {below : Fields → Context → Projection}
    {checksBelow : Fields → List Check}
    (hbelow : ∀ fields c, below fields c = runChecks c (checksBelow fields)) (c : Context)
    (value : Json) :
    visit rules below c value = runChecks c (checksFrom rules checksBelow value) := by
  cases value with
  | object fields =>
    -- the checks of flags and renames run to what `resolve` gives, and the values that it finds are
    -- those that the level binds for all checks behind
    rw [visit, checksFrom, List.cons_append, List.cons_append, List.cons_append, runChecks,
      run_here (fun _ => Test.noConfusion), runChecks_append, runChecks_append, runChecks_resolve,
      runChecks_record, runChecks_inside, andThen_assoc]
    cases hresolve : resolve rules c.location fields with
    | error fault => rfl
    | ok values =>
      rw [bindings_of_resolve hresolve, ← hbelow]
      rfl
  | _ =>
    rw [checksFrom, runChecks, runChecks, andThen_nothing, run_here (fun _ => Test.noConfusion),
      Test.place, Location.along_nil]
    · rfl
    · intro fields h
      cases h

theorem checksIn_array (checksOf : Json → List Check) (items : List Json) :
    checksIn checksOf (.array items) =
      items.zipIdx.flatMap fun (item, i) => (checksOf item).map (.behind [.index i]) := by
  simp [checksIn, parts, List.flatMap_map]

theorem checksIn_of_kind_ne (checksOf : Json → List Check) {value : Json}
    (h : value.kind ≠ .array) : checksIn checksOf value = checksOf value := by
  have hbehind : Check.behind [] = id := rfl
  cases value with
  | array items => exact absurd rfl h
  | _ => simp [checksIn, parts, hbehind]

theorem visitItems_eq_runChecks {one : Context → Json → Projection} {checksOf : Json → List Check}
    (hone : ∀ c value, one c value = runChecks c (checksOf value)) (c : Context)
    (location : Location) (items : List Json) (i : Nat) :
    visitItems one c location i items =
      runChecks (c.descend location) ((items.zipIdx i).flatMap fun (item, i) =>
        (checksOf item).map (.behind [.index i])) := by
  induction items generalizing i with
  | nil => rfl
  | cons item items ih =>
    rw [visitItems, ih, hone, List.zipIdx_cons, List.flatMap_cons, runChecks_append,
      runChecks_behind]
    rfl

theorem visitField_eq_runChecks {one : Context → Json → Projection} {checksOf : Json → List Check}
    (hone : ∀ c value, one c value = runChecks c (checksOf value)) {fields : Fields}
    {source : String} {value : Json} (h : fields.find? source = some value) (c : Context) :
    visitField one c (c.location.field source) value =
      runChecks c (.here (.entered fields source) ::
        (checksIn checksOf value).map (.behind [.field source])) := by
  rw [runChecks, run_here (fun _ => Test.noConfusion), Test.cause?, h, runChecks_behind]
  cases value with
  | array items =>
    rw [checksIn_array]
    exact visitItems_eq_runChecks hone c _ items 0
  | object below =>
    rw [checksIn_of_kind_ne checksOf (by simp [Json.kind])]
    exact hone _ _
  | _ => rfl

mutual

theorem descend_eq_runChecks : ∀ (rules : List Rule) (fields : Fields) (c : Context),
    descend rules fields c = runChecks c (checksBelow rules fields)
  | [], _, _ => rfl
  | rule :: rules, fields, c => by
    rw [descend, checksBelow, runChecks_append, descendRule_eq_runChecks rule fields c,
      descend_eq_runChecks rules fields c]

theorem descendRule_eq_runChecks : ∀ (rule : Rule) (fields : Fields) (c : Context),
    descendRule rule fields c = runChecks c (checksOfRule rule fields)
  | .nested source rules, fields, c => by
    rw [descendRule, checksOfRule, runChecks, run_present]
    cases hvalue : lookup c.location fields source with
    | error fault => rfl
    | ok value =>
      have hfind := find?_of_lookup hvalue
      have hone : ∀ c value, visit rules (descend rules) c value =
          runChecks c (checksFrom rules (checksBelow rules) value) :=
        visit_eq_runChecks (descend_eq_runChecks rules)
      rw [hfind]
      exact visitField_eq_runChecks hone hfind c
  | .rename .., _, _ => rfl
  | .flag .., _, _ => rfl

end

theorem ofValue_eq_runChecks (rules : List Rule) (c : Context) (value : Json) :
    ofValue rules c value = runChecks c (checksFrom rules (checksBelow rules) value) :=
  visit_eq_runChecks (descend_eq_runChecks rules) c value

/-- Projecting a document is running its checks. -/
theorem ofDocument_eq_runChecks (rules : List Rule) (c : Context) (document : Json) :
    ofDocument rules c document = runChecks c (checks rules document) := by
  unfold checks
  cases document with
  | array items =>
    rw [checksIn_array]
    exact visitItems_eq_runChecks (ofValue_eq_runChecks rules) c c.location items 0
  | _ =>
    rw [checksIn_of_kind_ne _ (by simp [Json.kind])]
    exact ofValue_eq_runChecks rules c _

end Projection

end FeedMerge
