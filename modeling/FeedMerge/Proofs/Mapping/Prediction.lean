import FeedMerge.Engine
import FeedMerge.Mapping.DryRun
import FeedMerge.Proofs.Mapping.Relocation
import FeedMerge.Proofs.Workbench.Isolation

/-!
# What a dry run predicts

A dry run has an interpreter of its own trace the sample. It counts the records in the sink that the
interpreter emitted them into and lists the emissions that were noted (`Interpreter.dryRun`), and it
reports what `Mapping.dryRun` says, which knows of no interpreter. An engine that reads the sample
from the file of a source projects it untraced, into a sink that other sources may have begun. The
report tells beforehand whether the engine goes through, with how many records, or which fault ends
it (`dry_run_predicts`).
-/

namespace FeedMerge

open Mapping Merge

/-! ### The dry run of an interpreter -/

/-- What an interpreter reports of a mapping and a sample at a reading of the clock. -/
def Interpreter.dryRun (i : Interpreter) (now : Timestamp) (mapping sample : Json) :
    Except Timestamp.RangeError Json :=
  match Mapping.ofJson .root mapping with
  | .error fault => .ok (DryRun.badStructure fault).toJson
  | .ok m =>
    let (p, trace) := i.trace m.rules sample now
    match p.error with
    | some (.fault fault) => .ok (DryRun.badProjection fault).toJson
    | some (.timestamp error) => .error error
    | none =>
      .ok (.object [("ok", .bool true), ("records", .int p.sink.length), ("mapping", m.toJson),
        ("fields", .array (m.targetNames.map .string)),
        ("trace", .array (trace.map emissionJson))])

theorem Interpreter.dryRun_eq (i : Interpreter) (now : Timestamp) (mapping sample : Json) :
    i.dryRun now mapping sample = (Mapping.dryRun now mapping sample).1.map DryRun.toJson := by
  unfold dryRun Mapping.dryRun
  cases Mapping.ofJson .root mapping with
  | error fault => rfl
  | ok m =>
    dsimp only
    rw [trace_eq, Mapping.project]
    cases (Projection.ofDocument m.rules (.empty now) sample).error with
    | none => simp [Except.map, DryRun.toJson, Projection.readings]
    | some error => cases error <;> rfl

namespace Mapping

variable {now : Timestamp} {mapping sample : Json} {m : Mapping} {fault : Fault}

/-! ### What a report says -/

/-- The report of a dry run, which has an interpreter of its own. -/
def report (now : Timestamp) (mapping sample : Json) : Except Timestamp.RangeError Json :=
  Interpreter.dryRun { verbose := true } now mapping sample

theorem report_eq_ok {r : Json} :
    report now mapping sample = .ok r ↔
      ∃ d, (dryRun now mapping sample).1 = .ok d ∧ d.toJson = r := by
  rw [report, Interpreter.dryRun_eq, Except.map_eq_ok]

/-- What a report holds under a name. -/
def entry? (report : Json) (name : String) : Option Json :=
  match report with
  | .object fields => Fields.find? fields name
  | _ => none

/-- A report that the sample was projected, with `n` records. -/
structure Passed (report : Json) (n : Nat) : Prop where
  ok : entry? report "ok" = some (.bool true)
  records : entry? report "records" = some (.int n)

/-- A report that a stage failed with a text. -/
structure Stopped (report : Json) (stage text : String) : Prop where
  ok : entry? report "ok" = some (.bool false)
  stage : entry? report "stage" = some (.string stage)
  error : entry? report "error" = some (.string text)

theorem passed_toJson {d : DryRun} {n : Nat} :
    Passed d.toJson n ↔ ∃ m emissions, d = .passed m emissions ∧ emissions.length = n := by
  constructor
  · rintro ⟨hok, hrecords⟩
    cases d with
    | passed m emissions =>
      refine ⟨m, emissions, rfl, ?_⟩
      change some (Json.int emissions.length) = some (.int n) at hrecords
      simpa only [Option.some.injEq, Json.int.injEq, Int.natCast_inj] using hrecords
    | _ =>
      change some (Json.bool false) = some (.bool true) at hok
      simp at hok
  · rintro ⟨m, emissions, rfl, rfl⟩
    exact ⟨rfl, rfl⟩

theorem stopped_toJson {d : DryRun} {stage t : String} :
    Stopped d.toJson stage t ↔
      ∃ fault, fault.message = t ∧ (stage = "structure" ∧ d = .badStructure fault ∨
        stage = "projection" ∧ d = .badProjection fault) := by
  constructor
  · rintro ⟨hok, hstage, herror⟩
    cases d with
    | badStructure fault =>
      change some (Json.string "structure") = some (.string stage) at hstage
      change some (Json.string fault.message) = some (.string t) at herror
      exact ⟨fault, by simpa using herror, .inl ⟨by simpa [eq_comm] using hstage, rfl⟩⟩
    | badProjection fault =>
      change some (Json.string "projection") = some (.string stage) at hstage
      change some (Json.string fault.message) = some (.string t) at herror
      exact ⟨fault, by simpa using herror, .inr ⟨by simpa [eq_comm] using hstage, rfl⟩⟩
    | passed m emissions =>
      change some (Json.bool true) = some (.bool false) at hok
      simp at hok
  · rintro ⟨fault, rfl, ⟨rfl, rfl⟩ | ⟨rfl, rfl⟩⟩ <;> exact ⟨rfl, rfl, rfl⟩

/-! ### How a dry run ends -/

theorem dryRun_eq_badStructure :
    (dryRun now mapping sample).1 = .ok (.badStructure fault) ↔
      ofJson .root mapping = .error fault := by
  unfold dryRun
  cases ofJson .root mapping with
  | error other => simp
  | ok m =>
    cases herror : (m.project (.empty now) sample).error with
    | none => simp [herror]
    | some error => cases error <;> simp [herror]

theorem dryRun_eq_badProjection :
    (dryRun now mapping sample).1 = .ok (.badProjection fault) ↔
      ∃ m, ofJson .root mapping = .ok m ∧
        (m.project (.empty now) sample).error = some (.fault fault) := by
  unfold dryRun
  cases ofJson .root mapping with
  | error other => simp
  | ok m =>
    cases herror : (m.project (.empty now) sample).error with
    | none => simp [herror]
    | some error => cases error <;> simp [herror]

theorem dryRun_eq_passed {emissions : List Emission} :
    (dryRun now mapping sample).1 = .ok (.passed m emissions) ↔
      ofJson .root mapping = .ok m ∧ (m.project (.empty now) sample).error = none ∧
        (m.project (.empty now) sample).emissions = emissions := by
  unfold dryRun
  cases ofJson .root mapping with
  | error other => simp
  | ok own =>
    cases herror : (own.project (.empty now) sample).error with
    | none =>
      simp only [herror, Except.ok.injEq, DryRun.passed.injEq]
      constructor
      · rintro ⟨rfl, rfl⟩
        exact ⟨rfl, herror, rfl⟩
      · rintro ⟨rfl, -, rfl⟩
        exact ⟨rfl, rfl⟩
    | some error =>
      have hne : ¬ (own = m ∧ (m.project (.empty now) sample).error = none ∧
          (m.project (.empty now) sample).emissions = emissions) := by
        rintro ⟨rfl, hnone, -⟩
        simp [hnone] at herror
      cases error <;> simpa [herror] using hne

end Mapping

/-! ### What an engine does -/

namespace Engine

variable {e : Engine} {now : Timestamp} {tree : FileTree} {op : Operation}
  {source : Operation.Source} {m : Mapping}
  {sample : Json} {sink : List Reading}

/-- An engine that reads a sample from the file of a source continues the sink if the projection of
the sample has no error, -/
theorem runSource_eq_ok {after : List Reading}
    (h : load tree (e.settings.resolve (.ofText source.file)) = .ok sample) :
    (e.runSource now tree op sink source m).2.2 = .ok after ↔
      (e.project now m.rules sample sink).error = none ∧
        (e.project now m.rules sample sink).sink = after := by
  unfold runSource
  rw [h]
  dsimp only
  cases (e.project now m.rules sample sink).error <;> simp

/-- and fails with its error otherwise, which then tells what was being worked on. -/
theorem runSource_eq_error {error : Error}
    (h : load tree (e.settings.resolve (.ofText source.file)) = .ok sample) :
    (e.runSource now tree op sink source m).2.2 = .error error ↔
      ∃ own, (e.project now m.rules sample sink).error = some own ∧
        (Error.ofProjection own).during ⟨op.label, source.file, source.transformation⟩ = error := by
  unfold runSource
  rw [h]
  dsimp only
  cases (e.project now m.rules sample sink).error <;> simp

end Engine

namespace Mapping

variable (now : Timestamp) (mapping sample : Json) (place : Location) (e : Engine)
  (sink : List Reading)

theorem report_passed_iff (n : Nat) :
    (∃ r, report now mapping sample = .ok r ∧ Passed r n) ↔
      ∃ m, ofJson place mapping = .ok m ∧ (e.project now m.rules sample sink).error = none ∧
        (e.project now m.rules sample sink).sink.length = sink.length + n := by
  have hcount (m : Mapping) : (e.project now m.rules sample sink).sink.length =
      sink.length + (m.project (.empty now) sample).emissions.length := by
    simp [Engine.project, Projection.readings, Mapping.project]
  constructor
  · rintro ⟨r, hr, hpassed⟩
    obtain ⟨d, hd, rfl⟩ := report_eq_ok.mp hr
    obtain ⟨m, emissions, rfl, hlength⟩ := passed_toJson.mp hpassed
    obtain ⟨hm, herror, rfl⟩ := dryRun_eq_passed.mp hd
    exact ⟨⟨place, m.rules⟩, ofJson_relocate hm place, herror, by rw [hcount, ← hlength]; rfl⟩
  · rintro ⟨m, hm, herror, hlength⟩
    have hroot := ofJson_relocate hm .root
    refine ⟨_, report_eq_ok.mpr ⟨_, dryRun_eq_passed.mpr ⟨hroot, herror, rfl⟩, rfl⟩, ?_⟩
    rw [hcount] at hlength
    exact passed_toJson.mpr ⟨_, _, rfl, Nat.add_left_cancel hlength⟩

theorem trace_of_report_passed {r : Json} {n : Nat} (hr : report now mapping sample = .ok r)
    (h : Passed r n) : ∃ trace, entry? r "trace" = some (.array trace) ∧ trace.length = n := by
  obtain ⟨d, -, rfl⟩ := report_eq_ok.mp hr
  obtain ⟨m, emissions, rfl, hlength⟩ := passed_toJson.mp h
  exact ⟨emissions.map emissionJson, rfl, by rw [List.length_map, hlength]⟩

theorem report_stopped_structure_iff (t : String) :
    (∃ r, report now mapping sample = .ok r ∧ Stopped r "structure" t) ↔
      ∃ fault, ofJson .root mapping = .error fault ∧ fault.message = t := by
  constructor
  · rintro ⟨r, hr, hstopped⟩
    obtain ⟨d, hd, rfl⟩ := report_eq_ok.mp hr
    obtain ⟨fault, hmessage, ⟨-, rfl⟩ | ⟨hstage, -⟩⟩ := stopped_toJson.mp hstopped
    · exact ⟨fault, dryRun_eq_badStructure.mp hd, hmessage⟩
    · simp at hstage
  · rintro ⟨fault, hfault, hmessage⟩
    refine ⟨_, report_eq_ok.mpr ⟨_, dryRun_eq_badStructure.mpr hfault, rfl⟩, ?_⟩
    exact stopped_toJson.mpr ⟨fault, hmessage, .inl ⟨rfl, rfl⟩⟩

theorem report_stopped_projection_iff (t : String) :
    (∃ r, report now mapping sample = .ok r ∧ Stopped r "projection" t) ↔
      ∃ m, ofJson place mapping = .ok m ∧ ∃ fault,
        (e.project now m.rules sample sink).error = some (.fault fault) ∧ fault.message = t := by
  constructor
  · rintro ⟨r, hr, hstopped⟩
    obtain ⟨d, hd, rfl⟩ := report_eq_ok.mp hr
    obtain ⟨fault, hmessage, ⟨hstage, -⟩ | ⟨-, rfl⟩⟩ := stopped_toJson.mp hstopped
    · simp at hstage
    · obtain ⟨m, hm, herror⟩ := dryRun_eq_badProjection.mp hd
      exact ⟨⟨place, m.rules⟩, ofJson_relocate hm place, fault, herror, hmessage⟩
  · rintro ⟨m, hm, fault, herror, hmessage⟩
    have hroot := ofJson_relocate hm .root
    refine ⟨_, report_eq_ok.mpr ⟨_, dryRun_eq_badProjection.mpr ⟨_, hroot, herror⟩, rfl⟩, ?_⟩
    exact stopped_toJson.mpr ⟨fault, hmessage, .inr ⟨rfl, rfl⟩⟩

/-- The report of a dry run tells what an engine makes of the sample under the mapping at the same
reading of the clock, wherever it is declared, and whatever the engine has done before and has
collected already. It is `ok` with `n` records if and only if the engine adds `n` records and has no
error, and it lists as many emissions. It stops at the structure if and only if the mapping cannot
be read, with the text of that fault, and at the projection if and only if a fault ends the
projection, with the text of that one. An engine that reads the sample from the file of a source
goes through with the source or fails as its projection does. -/
theorem dry_run_predicts :
    (∀ n, (∃ r, report now mapping sample = .ok r ∧ Passed r n) ↔
      ∃ m, ofJson place mapping = .ok m ∧ (e.project now m.rules sample sink).error = none ∧
        (e.project now m.rules sample sink).sink.length = sink.length + n) ∧
    (∀ r n, report now mapping sample = .ok r → Passed r n →
      ∃ trace, entry? r "trace" = some (.array trace) ∧ trace.length = n) ∧
    (∀ t, (∃ r, report now mapping sample = .ok r ∧ Stopped r "structure" t) ↔
      ∃ fault, ofJson .root mapping = .error fault ∧ fault.message = t) ∧
    (∀ t, (∃ r, report now mapping sample = .ok r ∧ Stopped r "projection" t) ↔
      ∃ m, ofJson place mapping = .ok m ∧ ∃ fault,
        (e.project now m.rules sample sink).error = some (.fault fault) ∧ fault.message = t) ∧
    ∀ (tree : FileTree) (op : Operation) (source : Operation.Source) (m : Mapping),
      load tree (e.settings.resolve (.ofText source.file)) = .ok sample →
        (∀ after, (e.runSource now tree op sink source m).2.2 = .ok after ↔
          (e.project now m.rules sample sink).error = none ∧
            (e.project now m.rules sample sink).sink = after) ∧
        ∀ error, (e.runSource now tree op sink source m).2.2 = .error error ↔
          ∃ own, (e.project now m.rules sample sink).error = some own ∧
            (Error.ofProjection own).during ⟨op.label, source.file, source.transformation⟩ =
              error := by
  refine ⟨report_passed_iff now mapping sample place e sink, ?_,
    report_stopped_structure_iff now mapping sample,
    report_stopped_projection_iff now mapping sample place e sink, ?_⟩
  · intro r n
    exact trace_of_report_passed now mapping sample
  · intro tree op source m hload
    exact ⟨fun after => Engine.runSource_eq_ok hload, fun error => Engine.runSource_eq_error hload⟩

/-- A working directory with a document that has no fields. -/
def bareTree : FileTree :=
  (FileTree.withWorkingDirectory ["work"]).plant ["work", "bare"] (.file "\x7b\x7d".toUTF8)

/-- An operation on that document. -/
def bareOperation : Operation where
  kind := Operation.mergeKind
  sources := [⟨"bare", "copy"⟩]
  transformations := [("copy", ⟨.root, [.rename "a" "B"]⟩)]
  destination := "out"
  index := 0

/-- A field that is not there is reported beforehand, and then found missing. -/
theorem dry_run_predicts_missing_field :
    (∃ r, report .start (.object [("a", .string "B")]) (.object []) = .ok r ∧
      Stopped r "projection" "$: source field 'a' not found") ∧
    ((Engine.start {}).runSource .start bareTree bareOperation [] ⟨"bare", "copy"⟩
        ⟨.root, [.rename "a" "B"]⟩).2.2 =
      .error (.fault ⟨.missingField "a", .root, some ⟨bareOperation.label, "bare", "copy"⟩⟩) := by
  have hload : load bareTree ((Engine.start {}).settings.resolve (.ofText "bare")) =
      .ok (.object []) := by
    rfl
  obtain ⟨-, -, -, hprojection, hrun⟩ := dry_run_predicts .start (.object [("a", .string "B")])
    (.object []) .root (Engine.start {}) []
  constructor
  · apply (hprojection _).mpr
    exact ⟨⟨.root, [.rename "a" "B"]⟩, rfl, ⟨.missingField "a", .root, none⟩, rfl, rfl⟩
  · apply ((hrun bareTree bareOperation ⟨"bare", "copy"⟩ _ hload).2 _).mpr
    exact ⟨.fault ⟨.missingField "a", .root, none⟩, rfl, rfl⟩

end Mapping

end FeedMerge
