import FeedMerge.Workbench
import Mathlib.Data.List.DropRight
import Mathlib.Data.List.Induction

/-!
# Steps at one workbench

All that a workbench carries from step to step are its sink and its traces. No trace is under way
between two steps, so the interpreter notes nothing of a later step in an earlier trace, and what a
step gives is what `Session.step` says, which knows of no interpreter (`step_eq`). The sink is
only ever continued or cleared, and the traces that were begun stay as they are (`Continues`).
-/

namespace FeedMerge

namespace Interpreter

variable {i : Interpreter}

/-! ### What an interpreter notes -/

theorem foldl_emit (es : List Emission) (i : Interpreter) (sink : List Reading) :
    es.foldl emit (i, sink) = (es.foldl note i, sink ++ es.map (·.reading)) := by
  induction es generalizing i sink with
  | nil => simp
  | cons e es ih => simp [emit, ih]

theorem foldl_note_of_idle (h : i.underWay = none) (es : List Emission) :
    es.foldl note i = i := by
  have hnote (e : Emission) : i.note e = i := by
    unfold note
    rw [h]
  induction es with
  | nil => rfl
  | cons e es ih => rw [List.foldl_cons, hnote, ih]

/-- A new trace takes the emissions, and the traces before it stay as they are. -/
theorem foldl_note_beginTrace (i : Interpreter) (es : List Emission) :
    es.foldl note i.beginTrace = { i.beginTrace with traces := i.traces ++ [es] } := by
  induction es using List.reverseRecOn with
  | nil => rfl
  | append_singleton es e ih =>
    rw [List.foldl_append, ih]
    simp [note, beginTrace, List.modify_eq_take_drop]

theorem Projected.result_mk (i : Interpreter) (sink : List Reading) (journal : Journal)
    (p : Projection) (answer : Session.Answer) :
    Projected.result ⟨i, sink, journal, p.error⟩ answer = Session.resultOf p answer := by
  unfold result Session.resultOf
  cases p.error <;> rfl

/-- What a projection leaves depends on the interpreter only in what is noted. -/
theorem project_eq (i : Interpreter) (rules : List Rule) (document : Json) (context : Context)
    (sink : List Reading) :
    i.project rules document context sink =
      { interpreter := (Projection.ofDocument rules context document).emissions.foldl note i
        sink := sink ++ (Projection.ofDocument rules context document).readings
        journal := Merge.projectionJournal i.verbose (Projection.ofDocument rules context document)
        error := (Projection.ofDocument rules context document).error } := by
  unfold project
  dsimp only
  rw [foldl_emit]
  simp [Merge.projectionJournal, Projection.readings]

theorem trace_eq (i : Interpreter) (rules : List Rule) (document : Json) (now : Timestamp) :
    i.trace rules document now =
      ({ interpreter := { i with
            traces := i.traces ++ [(Projection.ofDocument rules (.empty now) document).emissions]
            underWay := none }
         sink := (Projection.ofDocument rules (.empty now) document).readings
         journal := Merge.projectionJournal i.verbose
            (Projection.ofDocument rules (.empty now) document)
         error := (Projection.ofDocument rules (.empty now) document).error },
        (Projection.ofDocument rules (.empty now) document).emissions) := by
  unfold trace
  rw [project_eq, foldl_note_beginTrace]
  simp [beginTrace, endTrace, currentTrace]

end Interpreter

namespace Workbench

variable {w : Workbench}

/-! ### One step -/

/-- The session that has the sink of a workbench. -/
def session (w : Workbench) : Session := ⟨w.interpreter.verbose, w.sink⟩

/-- The projection that a step runs, if it runs one. -/
def projectionOf : Session.Step → Option Projection
  | .project declared document context | .projectAlone declared document context =>
    (Session.projectDeclared declared document context).toOption
  | .trace declared document now =>
    (Session.projectDeclared declared document (.empty now)).toOption
  | .aggregate | .clear => none

/-- The readings that a step emits, whatever is at the workbench. -/
def readingsOf (s : Session.Step) : List Reading := (projectionOf s).elim [] (·.readings)

/-- The trace that a step begins, if it begins one, with all that is noted in it. -/
def traceOf (s : Session.Step) : List (List Emission) :=
  match s with
  | .trace .. => (projectionOf s).elim [] fun p => [p.emissions]
  | _ => []

/-- Everything that a step does while no trace is under way: it gives what it gives in a session with
the same sink, and the interpreter keeps nothing of it but the trace that it asked for. -/
theorem step_eq (h : w.interpreter.underWay = none) (s : Session.Step) :
    w.step s =
      (⟨{ w.interpreter with traces := w.interpreter.traces ++ traceOf s },
          (w.session.step s).1.sink⟩,
        ⟨(w.session.step s).2, readingsOf s⟩) := by
  cases s with
  | project declared document context | projectAlone declared document context =>
    rw [step, Session.step, readingsOf, projectionOf, Session.projectDeclared]
    cases Mapping.ofJson .root declared with
    | error fault =>
      simp [traceOf, refuse, Session.stepProjection, session, Except.map, Except.toOption]
    | ok mapping =>
      dsimp only [Except.map]
      rw [Interpreter.project_eq, Interpreter.foldl_note_of_idle h]
      simp [traceOf, Session.stepProjection, session, Except.toOption,
        Interpreter.Projected.result_mk]
  | trace declared document =>
    rw [step, Session.step, readingsOf, traceOf, projectionOf, Session.projectDeclared]
    cases Mapping.ofJson .root declared with
    | error fault => simp [refuse, Session.stepProjection, session, Except.map, Except.toOption]
    | ok mapping =>
      -- whether or not the projection fails, the trace has been ended
      dsimp only [Except.map]
      rw [Interpreter.trace_eq]
      simp [Session.stepProjection, session, Except.toOption, Interpreter.Projected.result_mk, h]
  | aggregate =>
    simp [step, Session.step, Session.summarise, session, readingsOf, traceOf, projectionOf]
  | clear => simp [step, Session.step, session, readingsOf, traceOf, projectionOf]

/-- Steps that empty the sink. -/
def isClear : Session.Step → Bool
  | .clear => true
  | _ => false

/-- Steps that project into the sink. -/
def isProject : Session.Step → Bool
  | .project .. => true
  | _ => false

theorem sink_step (h : w.interpreter.underWay = none) (s : Session.Step) :
    (w.step s).1.sink =
      if isClear s then [] else w.sink ++ if isProject s then readingsOf s else [] := by
  rw [step_eq h]
  cases s with
  | project declared document context =>
    rw [Session.step, readingsOf, projectionOf]
    cases Session.projectDeclared declared document context with
    | error fault => simp [isClear, Session.stepProjection, session, Except.toOption]
    | ok p => simp [isClear, isProject, Session.stepProjection, session, Except.toOption]
  | projectAlone declared document context | trace declared document =>
    rw [Session.step]
    cases Session.projectDeclared declared document _ with
    | error fault => simp [isClear, isProject, Session.stepProjection, session]
    | ok p => simp [isClear, isProject, Session.stepProjection, session]
  | aggregate => simp [isClear, isProject, Session.step, session]
  | clear => rfl

/-- Of what is in the sink only a summary depends, and the length that a projection answers with. -/
theorem step_of_sinks (verbose : Bool) (sink₁ sink₂ : List Reading) (s : Session.Step) :
    (Session.step ⟨verbose, sink₁⟩ s).2.journal = (Session.step ⟨verbose, sink₂⟩ s).2.journal ∧
    (s ≠ .aggregate → ∀ error,
      (Session.step ⟨verbose, sink₁⟩ s).2.result = .error error →
      (Session.step ⟨verbose, sink₂⟩ s).2.result = .error error) := by
  have hprojection (keeps : Bool) (projected : Except Fault Projection)
      (answer₁ answer₂ : Projection → Session.Answer) :
      (Session.stepProjection ⟨verbose, sink₁⟩ keeps projected answer₁).2.journal =
        (Session.stepProjection ⟨verbose, sink₂⟩ keeps projected answer₂).2.journal ∧
      ∀ error,
        (Session.stepProjection ⟨verbose, sink₁⟩ keeps projected answer₁).2.result = .error error →
        (Session.stepProjection ⟨verbose, sink₂⟩ keeps projected answer₂).2.result =
          .error error := by
    cases projected with
    | error fault => exact ⟨rfl, fun _ h => h⟩
    | ok p =>
      refine ⟨rfl, fun error h => ?_⟩
      simp only [Session.stepProjection, Session.resultOf] at h ⊢
      cases herror : p.error with
      | none => simp [herror] at h
      | some cause => simpa [herror] using h
  cases s with
  | project | projectAlone | trace => exact ⟨(hprojection ..).1, fun _ => (hprojection ..).2⟩
  | aggregate => exact ⟨rfl, fun h => absurd rfl h⟩
  | clear => exact ⟨rfl, fun _ _ h => h⟩

/-- A trace that is handed out is the one that was begun. -/
theorem traceOf_of_emissions {declared document : Json} {now : Timestamp} {es : List Emission}
    (session : Session)
    (h : (session.step (.trace declared document now)).2.result = .ok (.emissions es)) :
    traceOf (.trace declared document now) = [es] := by
  rw [Session.step] at h
  rw [traceOf, projectionOf]
  cases hprojected : Session.projectDeclared declared document (.empty now) with
  | error fault => simp [hprojected, Session.stepProjection] at h
  | ok p =>
    simp only [hprojected, Session.stepProjection, Session.resultOf] at h
    cases herror : p.error with
    | some error => simp [herror] at h
    | none =>
      have hes : p.emissions = es := by simpa [herror] using h
      simp [hes, Except.toOption]

/-! ### Many steps -/

/-- A workbench and what it has become: no trace is under way, and the traces that were begun are as
they were. -/
structure Continues (w next : Workbench) : Prop where
  verbose_eq : next.interpreter.verbose = w.interpreter.verbose
  idle : next.interpreter.underWay = none
  kept : w.interpreter.traces <+: next.interpreter.traces

theorem continues_step (h : w.interpreter.underWay = none) (s : Session.Step) :
    w.Continues (w.step s).1 := by
  rw [step_eq h]
  exact ⟨rfl, h, List.prefix_append _ _⟩

theorem continues_after (h : w.interpreter.underWay = none) (steps : List Session.Step) :
    w.Continues (w.after steps) := by
  induction steps generalizing w with
  | nil => exact ⟨rfl, h, List.prefix_rfl⟩
  | cons s steps ih =>
    have hstep := continues_step h s
    have hrest := ih hstep.idle
    exact ⟨hrest.verbose_eq.trans hstep.verbose_eq, hrest.idle, hstep.kept.trans hrest.kept⟩

theorem after_append (w : Workbench) (first second : List Session.Step) :
    w.after (first ++ second) = (w.after first).after second :=
  List.foldl_append

/-- The workbench that some steps lead to from one that nothing was done at. -/
def reached (verbose : Bool) (steps : List Session.Step) : Workbench := (fresh verbose).after steps

/-- What a step gives at a workbench that nothing was done at. -/
def alone (verbose : Bool) (s : Session.Step) : Outcome := ((fresh verbose).step s).2

theorem reached_concat (verbose : Bool) (steps : List Session.Step) (s : Session.Step) :
    reached verbose (steps ++ [s]) = ((reached verbose steps).step s).1 :=
  after_append _ _ _

theorem continues_fresh (verbose : Bool) (steps : List Session.Step) :
    (fresh verbose).Continues (reached verbose steps) :=
  continues_after rfl steps

theorem emitted_alone (verbose : Bool) (s : Session.Step) :
    (alone verbose s).emitted = readingsOf s := by
  rw [alone, step_eq rfl]

/-- Since it was cleared last the sink has been continued by every projection into it, and by nothing
else. -/
theorem sink_reached (verbose : Bool) (steps : List Session.Step) :
    (reached verbose steps).sink =
      ((steps.rtakeWhile (!isClear ·)).filter isProject).flatMap readingsOf := by
  induction steps using List.reverseRecOn with
  | nil => rfl
  | append_singleton steps s ih =>
    rw [reached_concat, sink_step (continues_fresh verbose steps).idle, ih]
    -- clearing ends the run of steps that count from the back, any other step makes it longer
    cases hclear : isClear s with
    | true => simp [List.rtakeWhile_concat_neg, hclear]
    | false =>
      rw [List.rtakeWhile_concat_pos _ _ _ (by simp [hclear])]
      cases hproject : isProject s <;> simp [hproject]

/-- At one workbench every step of a history gives what it gives with an interpreter that is new, on
the same sink; the readings that it emits, its journal and, unless it summarises, its error do not
even depend on the sink. The sink holds, since it was cleared last, the readings of the projections
into it in order, also of those that failed, and no step but clearing it touches what it holds. A
step begins the traces that it begins with a new interpreter, and between steps none is under way,
also after a trace that failed; so a trace that was begun holds for good what it held after its step,
and what is handed out is that trace. -/
theorem steps_are_isolated (verbose : Bool) (before later : List Session.Step)
    (s : Session.Step) :
    ((reached verbose before).step s).2 =
      ({ fresh verbose with sink := (reached verbose before).sink }.step s).2 ∧
    ((reached verbose before).step s).2.emitted = (alone verbose s).emitted ∧
    ((reached verbose before).step s).2.journal = (alone verbose s).journal ∧
    (s ≠ .aggregate → ∀ error, ((reached verbose before).step s).2.result = .error error ↔
      (alone verbose s).result = .error error) ∧
    (reached verbose before).sink = ((before.rtakeWhile (!isClear ·)).filter isProject).flatMap
      (fun t => (alone verbose t).emitted) ∧
    (isClear s = false →
      (reached verbose before).sink <+: (reached verbose (before ++ [s])).sink) ∧
    (reached verbose before).interpreter.underWay = none ∧
    (reached verbose (before ++ [s])).interpreter.traces =
      (reached verbose before).interpreter.traces ++
        ((fresh verbose).step s).1.interpreter.traces ∧
    (reached verbose before).interpreter.traces <+:
      (reached verbose (before ++ later)).interpreter.traces ∧
    ∀ declared document now es, s = .trace declared document now →
      ((reached verbose before).step s).2.result = .ok (.emissions es) →
      (reached verbose (before ++ [s])).interpreter.traces =
        (reached verbose before).interpreter.traces ++ [es] := by
  have hbefore := continues_fresh verbose before
  have hidle : (reached verbose before).interpreter.underWay = none := hbefore.idle
  have hsession : (reached verbose before).session = ⟨verbose, (reached verbose before).sink⟩ := by
    rw [session, hbefore.verbose_eq]
    rfl
  have hsinks := step_of_sinks verbose
  refine ⟨?_, ?_, ?_, ?_, ?_, ?_, hidle, ?_, ?_, ?_⟩
  · rw [step_eq hidle, step_eq rfl, hsession]
    rfl
  · rw [emitted_alone, step_eq hidle]
  · rw [alone, step_eq hidle, step_eq rfl, hsession]
    exact (hsinks _ _ s).1
  · intro hs error
    rw [alone, step_eq hidle, step_eq rfl, hsession]
    exact ⟨(hsinks _ _ s).2 hs error, (hsinks _ _ s).2 hs error⟩
  · simp only [emitted_alone]
    exact sink_reached verbose before
  · intro hclear
    rw [reached_concat, sink_step hidle, hclear]
    exact List.prefix_append _ _
  · rw [reached_concat, step_eq hidle, step_eq rfl]
    rfl
  · rw [reached, reached, after_append]
    exact (continues_after hidle later).kept
  · rintro declared document now es rfl hresult
    rw [step_eq hidle] at hresult
    rw [reached_concat, step_eq hidle, traceOf_of_emissions _ hresult]

end Workbench

end FeedMerge
