import FeedMerge.Proofs.Projection.Checks
import FeedMerge.Proofs.Workbench.Isolation

/-!
# Arrays in two parts

The items of an array are projected one after the other, each from the same context, so an array can
be split anywhere (`visitItems_append`). What differs is only where the items of the second part are
said to be. A location is where a context stands; it goes into no record, and into an error only as
the place to start from (`moved_runChecks`). So the second part, as the end of the array, has the
records that it has as an array of its own, and its error with a larger index.
-/

namespace FeedMerge

namespace Projection

/-! ### Errors at another place -/

/-- The same error, told from one location and from another. -/
inductive Error.Moved (l m : Location) : Error → Error → Prop
  | fault (cause : Cause) (steps : List Step) :
    Moved l m (.fault ⟨cause, l.along steps, none⟩) (.fault ⟨cause, m.along steps, none⟩)
  | timestamp (error : Timestamp.RangeError) : Moved l m (.timestamp error) (.timestamp error)

/-- The location is the beginning of the message of a fault, and the rest is the same. -/
theorem Error.Moved.message_eq {l m : Location} {e f : Error} (h : Moved l m e f)
    (hl : l.text ≠ "") (hm : m.text ≠ "") :
    (∃ error, e = .timestamp error ∧ f = .timestamp error) ∨
      ∃ rest, e.message = l.text ++ rest ∧ f.message = m.text ++ rest := by
  cases h with
  | fault cause steps =>
    obtain ⟨rest, hrest⟩ := Location.exists_text_along steps
    have hmessage {k : Location} (hk : k.text ≠ "") :
        Error.message (.fault ⟨cause, k.along steps, none⟩) =
          k.text ++ (rest ++ (": " ++ cause.message)) := by
      have hplace := Location.text_along_ne_empty hk steps
      rw [message, Fault.message_eq_of_text_ne rfl hplace, hrest, String.append_assoc]
    exact .inr ⟨_, hmessage hl, hmessage hm⟩
  | timestamp error => exact .inl ⟨error, rfl, rfl⟩

theorem Error.Moved.of_along {l m : Location} {steps : List Step} {e f : Error}
    (h : Moved (l.along steps) (m.along steps) e f) : Moved l m e f := by
  cases h with
  | fault cause more =>
    rw [Location.along_append, Location.along_append]
    exact .fault cause (steps ++ more)
  | timestamp error => exact .timestamp error

/-- Two projections with the same readings, and errors that are related. -/
structure SameUpTo (r : Error → Error → Prop) (p q : Projection) : Prop where
  readings_eq : p.readings = q.readings
  error : Option.Rel r p.error q.error

namespace SameUpTo

variable {r s : Error → Error → Prop} {p p' q q' : Projection}

theorem nothing : SameUpTo r nothing nothing := ⟨rfl, .none⟩

theorem mono (h : SameUpTo r p q) (hrs : ∀ e f, r e f → s e f) : SameUpTo s p q := by
  obtain ⟨emissions, error⟩ := p
  obtain ⟨others, other⟩ := q
  refine ⟨h.readings_eq, ?_⟩
  cases h.error with
  | some hef => exact .some (hrs _ _ hef)
  | none => exact .none

theorem passes_iff (h : SameUpTo r p q) : q.error = none ↔ p.error = none := by
  have herror := h.error
  cases hp : p.error <;> cases hq : q.error <;> simp_all

theorem exists_error (h : SameUpTo r p q) {e : Error} (hp : p.error = some e) :
    ∃ f, q.error = some f ∧ r e f := by
  have herror := h.error
  rw [hp] at herror
  cases hq : q.error with
  | none =>
    rw [hq] at herror
    cases herror
  | some f =>
    rw [hq, Option.rel_some_some] at herror
    exact ⟨f, rfl, herror⟩

theorem andThen (h : SameUpTo r p q) (h' : SameUpTo r p' q') :
    SameUpTo r (p.andThen p') (q.andThen q') := by
  obtain ⟨emissions, error⟩ := p
  obtain ⟨others, other⟩ := q
  cases h.error with
  | some hef => exact ⟨h.readings_eq, .some hef⟩
  | none =>
    refine ⟨?_, h'.error⟩
    have hfirst : emissions.map (·.reading) = others.map (·.reading) := h.readings_eq
    have hsecond : p'.emissions.map (·.reading) = q'.emissions.map (·.reading) := h'.readings_eq
    change (emissions ++ p'.emissions).map (·.reading) = (others ++ q'.emissions).map (·.reading)
    rw [List.map_append, List.map_append, hfirst, hsecond]

end SameUpTo

variable {c d : Context}

theorem build_of_values_eq (h : c.values = d.values) (hnow : c.now = d.now) :
    (∃ reading, build c = .ok reading ∧ build d = .ok reading) ∨
      ∃ e f, build c = .error e ∧ build d = .error f ∧ Error.Moved c.location d.location e f := by
  have hdraft : c.draft = d.draft := congrArg Reading.Draft.ofFields h
  have hfault (cause : Cause) : Error.Moved c.location d.location (.fault ⟨cause, c.location, none⟩)
      (.fault ⟨cause, d.location, none⟩) := by
    have hhere := @Error.Moved.fault c.location d.location cause []
    rwa [Location.along_nil, Location.along_nil] at hhere
  unfold build
  rw [hdraft, hnow]
  dsimp only
  cases d.draft.missing.isEmpty with
  | false => exact .inr ⟨_, _, rfl, rfl, hfault _⟩
  | true =>
    cases d.draft.read d.now with
    | ok reading => exact .inl ⟨reading, rfl, rfl⟩
    | error failure =>
      cases failure with
      | rejected rejections => exact .inr ⟨_, _, rfl, rfl, hfault _⟩
      | outOfRange error => exact .inr ⟨_, _, rfl, rfl, .timestamp error⟩

/-- The contexts of a record differ only in where they are. -/
theorem recordContext?_of_values_eq (h : c.values = d.values) (hnow : c.now = d.now) (k : Check) :
    Option.Rel (fun recorded other => recorded.values = other.values ∧ recorded.now = other.now ∧
        recorded.location = c.location.along k.steps ∧ other.location = d.location.along k.steps)
      (k.recordContext? c) (k.recordContext? d) := by
  unfold Check.recordContext? Check.context
  rw [h, hnow]
  cases k.test with
  | record own => exact .some ⟨rfl, rfl, rfl, rfl⟩
  | _ => exact .none

theorem moved_run (h : c.values = d.values) (hnow : c.now = d.now) (k : Check) :
    SameUpTo (Error.Moved c.location d.location) (k.run c) (k.run d) := by
  -- a record is built from the same values, and any other check does not look at the context
  have hrecord := recordContext?_of_values_eq h hnow k
  unfold Check.run Check.failure? Check.emission?
  generalize k.recordContext? c = recorded? at hrecord ⊢
  generalize k.recordContext? d = other? at hrecord ⊢
  cases hrecord with
  | none =>
    cases k.test.cause? with
    | none => exact .nothing
    | some cause => exact ⟨rfl, .some (.fault cause k.place)⟩
  | @some recorded other hsame =>
    obtain ⟨hvalues, hclock, hlocation, hother⟩ := hsame
    rcases build_of_values_eq hvalues hclock with ⟨reading, hbuild, hbuildOther⟩ |
      ⟨e, f, hbuild, hbuildOther, hmoved⟩
    · dsimp only
      rw [hbuild, hbuildOther]
      exact ⟨rfl, .none⟩
    · dsimp only
      rw [hbuild, hbuildOther]
      rw [hlocation, hother] at hmoved
      exact ⟨rfl, .some hmoved.of_along⟩

theorem moved_runChecks (h : c.values = d.values) (hnow : c.now = d.now) (ks : List Check) :
    SameUpTo (Error.Moved c.location d.location) (runChecks c ks) (runChecks d ks) := by
  induction ks with
  | nil => exact .nothing
  | cons k ks ih => exact (moved_run h hnow k).andThen ih

/-- A value from two contexts that differ only in where they are. -/
theorem moved_ofValue (rules : List Rule) (h : c.values = d.values) (hnow : c.now = d.now)
    (value : Json) : SameUpTo (Error.Moved c.location d.location) (ofValue rules c value)
      (ofValue rules d value) := by
  rw [ofValue_eq_runChecks, ofValue_eq_runChecks]
  exact moved_runChecks h hnow _

/-! ### Items of an array -/

theorem visitItems_append (one : Context → Json → Projection) (c : Context) (location : Location)
    (first second : List Json) (i : Nat) :
    visitItems one c location i (first ++ second) =
      (visitItems one c location i first).andThen
        (visitItems one c location (i + first.length) second) := by
  induction first generalizing i with
  | nil => exact (nothing_andThen _).symm
  | cons item first ih =>
    rw [List.cons_append, visitItems, visitItems, ih, andThen_assoc, List.length_cons,
      Nat.add_right_comm, Nat.add_assoc]

/-- The same error, told of an item and of one that is `n` places further in the same array. -/
def Error.Raised (n : Nat) (l : Location) (bound : Nat) (e f : Error) : Prop :=
  ∃ i < bound, Error.Moved (l.index i) (l.index (n + i)) e f

theorem raised_visitItems (rules : List Rule) (n : Nat) (c : Context) (location : Location)
    (items : List Json) (i : Nat) :
    SameUpTo (Error.Raised n location (i + items.length))
      (visitItems (ofValue rules) c location i items)
      (visitItems (ofValue rules) c location (n + i) items) := by
  induction items generalizing i with
  | nil => exact .nothing
  | cons item items ih =>
    have hitem := @moved_ofValue (c.descend (location.index i)) (c.descend (location.index (n + i)))
      rules rfl rfl item
    have hlength : i + (item :: items).length = i + 1 + items.length := by simp; omega
    rw [hlength, visitItems, visitItems, Nat.add_assoc n i 1]
    exact (hitem.mono fun e f h => ⟨i, by omega, h⟩).andThen (ih (i + 1))

/-- Two arrays as one: the items of the first as they are, those of the second further on. -/
theorem ofDocument_append (rules : List Rule) (c : Context) (xs ys : List Json) :
    ∃ q, ofDocument rules c (.array (xs ++ ys)) = (ofDocument rules c (.array xs)).andThen q ∧
      SameUpTo (Error.Raised xs.length c.location ys.length)
        (ofDocument rules c (.array ys)) q := by
  have hraised := raised_visitItems rules xs.length c c.location ys 0
  rw [Nat.zero_add, Nat.add_zero] at hraised
  refine ⟨visitItems (ofValue rules) c c.location xs.length ys, ?_, hraised⟩
  have happend := visitItems_append (ofValue rules) c c.location xs ys 0
  rwa [Nat.zero_add] at happend

end Projection

namespace Interpreter

open Projection

variable {i : Interpreter} {rules : List Rule} {document : Json} {c : Context}
  {s : List Reading}

theorem error_project : (i.project rules document c s).error =
    (ofDocument rules c document).error := by
  rw [project_eq]

theorem sink_project : (i.project rules document c s).sink =
    s ++ (ofDocument rules c document).readings := by
  rw [project_eq]

theorem metrics_project : (i.project rules document c s).journal.metrics =
    if (ofDocument rules c document).error.isNone then
      [.recordsProjected (ofDocument rules c document).readings.length] else [] := by
  rw [project_eq, Merge.projectionJournal, Projection.readings, List.length_map]

/-- What projecting a whole array into a sink leaves, by what projecting its two parts leaves, the
second into the sink that the first has continued: `n` is the length of the first part and `bound`
that of the second, and the start is at `l`. -/
structure Joins (n : Nat) (l : Location) (bound : Nat) (first second whole : Projected) :
    Prop where
  succeeds_iff : whole.error = none ↔ first.error = none ∧ second.error = none
  sink_eq : first.error = none → whole.sink = second.sink
  counts : whole.error = none → ∃ j k,
    first.journal.metrics = [.recordsProjected j] ∧
    second.journal.metrics = [.recordsProjected k] ∧
    whole.journal.metrics = [.recordsProjected (j + k)]
  stops : ∀ e, first.error = some e → whole.error = some e ∧ whole.sink = first.sink ∧
    whole.journal.metrics = []
  raises : first.error = none → ∀ e, second.error = some e →
    ∃ f, whole.error = some f ∧ whole.journal.metrics = [] ∧
      ∃ i < bound, Error.Moved (l.index i) (l.index (n + i)) e f ∧
        ((∃ error, e = .timestamp error ∧ f = .timestamp error) ∨
          ∃ rest, e.message = (l.index i).text ++ rest ∧ f.message = (l.index (n + i)).text ++ rest)

/-- An array can be projected in two parts, the second into the sink that the first has continued:
this succeeds if and only if the whole array can be projected, and gives the same sink and as many
records in all. If the first part fails, so does the whole array, with the same error and sink. If
only the second part fails, the whole array fails with its error at the same item, whose index is
larger by the length of the first part, in the location as in the message. The error of the second
part does not depend on the sink. -/
theorem project_append (i j k : Interpreter) (rules : List Rule) (xs ys : List Json) (c : Context)
    (s t : List Reading) :
    Joins xs.length c.location ys.length (i.project rules (.array xs) c s)
      (j.project rules (.array ys) c (i.project rules (.array xs) c s).sink)
      (k.project rules (.array (xs ++ ys)) c s) ∧
    (j.project rules (.array ys) c t).error =
      (j.project rules (.array ys) c (i.project rules (.array xs) c s).sink).error := by
  obtain ⟨q, hwhole, hsame⟩ := ofDocument_append rules c xs ys
  refine ⟨⟨?_, ?_, ?_, ?_, ?_⟩, by rw [error_project, error_project]⟩
  all_goals simp only [error_project, sink_project, metrics_project, hwhole]
  · rw [error_andThen, hsame.passes_iff]
  · intro hfirst
    rw [readings_andThen hfirst, ← hsame.readings_eq, List.append_assoc]
  · intro hboth
    obtain ⟨hfirst, hq⟩ := error_andThen.mp hboth
    rw [hboth, hfirst, hsame.passes_iff.mp hq, readings_andThen hfirst, ← hsame.readings_eq,
      List.length_append]
    exact ⟨_, _, rfl, rfl, rfl⟩
  · intro e hfirst
    rw [andThen_of_error hfirst, hfirst]
    exact ⟨rfl, rfl, rfl⟩
  · intro hfirst e hsecond
    obtain ⟨f, hq, i, hi, hmoved⟩ := hsame.exists_error hsecond
    have herror : ((ofDocument rules c (.array xs)).andThen q).error = some f := by
      rw [andThen, hfirst, hq]
    refine ⟨f, herror, by rw [herror]; rfl, i, hi, hmoved, ?_⟩
    exact hmoved.message_eq (Location.text_step_ne_empty _ _) (Location.text_step_ne_empty _ _)

/-- The item that is at fault comes first by itself, and behind two others as the third. -/
example :
    let good : Json := .object [("Id", .int 1)]
    let message (items : List Json) : Option String :=
      (project {} [.rename "Id" "DeviceId"] (.array items) (.empty .start) []).error.map
        Error.message
    message [.object []] = some "$[0]: source field 'Id' not found" ∧
      message ([good, good] ++ [.object []]) = some "$[2]: source field 'Id' not found" := by
  decide +kernel

end Interpreter

end FeedMerge
