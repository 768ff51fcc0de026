import FeedMerge.Proofs.Engine.Sequence
import FeedMerge.Proofs.FirstOccurrence
import FeedMerge.Proofs.Merge.Collaborators
import FeedMerge.Proofs.Merge.OutOfRange
import FeedMerge.Proofs.Operation.Agreement

/-!
# Operations that are refused

Whether an operation can be run at all is settled by its kind and the references of its sources. One
that cannot is refused with a fault that depends on nothing else (`Refusal`): not on the files, not
on where they are looked for, not on what the engine did before. Nothing is asked of the
collaborators and nothing is logged. Once an operation can be run, the documents decide: whatever
they hold, its faults are those of a mapping or of a reading, and no longer of the configuration.
-/

namespace FeedMerge

namespace Operation

/-- Why an operation is refused: for its kind, or else for the first of its sources whose
transformation is not declared. -/
inductive Refusal (op : Operation) : Fault → Prop
  | kind (hkind : op.kind ≠ mergeKind) :
      Refusal op ⟨.unsupportedKind op.kind mergeKind, .ofText op.label, none⟩
  | reference {before after : List Source} {source : Source} (hkind : op.kind = mergeKind)
      (hsources : op.sources = before ++ source :: after)
      (hbefore : ∀ s ∈ before, s.transformation ∈ op.ids)
      (hsource : source.transformation ∉ op.ids) :
      Refusal op ⟨.unknownTransformation source.file source.transformation
        (op.ids.mergeSort fun a b => a ≤ b), (Location.ofText op.label).field "sources", none⟩

/-- A wrong kind is told apart from the other faults of a configuration. -/
theorem Refusal.category {op : Operation} {fault : Fault} (h : Refusal op fault) :
    fault.cause.category =
      if op.kind = mergeKind then .configuration else .unsupportedOperation := by
  cases h with
  | kind hkind => exact (if_neg hkind).symm
  | reference hkind => exact (if_pos hkind).symm

theorem mappingFor_of_not_mem {op : Operation} {source : Source}
    (h : source.transformation ∉ op.ids) :
    op.mappingFor source = .error ⟨.unknownTransformation source.file source.transformation
      (op.ids.mergeSort fun a b => a ≤ b), (Location.ofText op.label).field "sources", none⟩ := by
  cases hlookup : op.transformations.lookup source.transformation with
  | some mapping =>
    have hfound : op.mappingFor source = .ok mapping := by
      unfold mappingFor
      rw [hlookup]
    exact absurd (exists_mappingFor_iff.mp ⟨mapping, hfound⟩) h
  | none =>
    unfold mappingFor
    rw [hlookup]

end Operation

namespace Merge

open Operation (mergeKind Refusal)

variable {settings : Settings} {now : Timestamp} {tree : FileTree} {op : Operation}

/-! ### Planning -/

theorem exists_resolveSources {sources : List Operation.Source}
    (h : ∀ s ∈ sources, s.transformation ∈ op.ids) :
    ∃ planned, resolveSources op sources = .ok planned := by
  induction sources with
  | nil => exact ⟨[], rfl⟩
  | cons source sources ih =>
    obtain ⟨hfirst, hrest⟩ := List.forall_mem_cons.mp h
    obtain ⟨mapping, hmapping⟩ := Operation.exists_mappingFor_iff.mpr hfirst
    unfold resolveSources
    rw [hmapping]
    exact Except.exists_map_eq_ok.mpr (ih hrest)

/-- The sources before one that cannot be resolved make no difference. -/
theorem resolveSources_of_failure {before after : List Operation.Source}
    {source : Operation.Source} {fault : Fault} (hbefore : ∀ s ∈ before, s.transformation ∈ op.ids)
    (hsource : op.mappingFor source = .error fault) :
    resolveSources op (before ++ source :: after) = .error fault := by
  induction before with
  | nil =>
    rw [List.nil_append, resolveSources, hsource]
  | cons first before ih =>
    obtain ⟨hfirst, hrest⟩ := List.forall_mem_cons.mp hbefore
    obtain ⟨mapping, hmapping⟩ := Operation.exists_mappingFor_iff.mpr hfirst
    rw [List.cons_append, resolveSources, hmapping, ih hrest]
    rfl

theorem plan_of_refusal {fault : Fault} (h : Refusal op fault) : plan op = .error fault := by
  unfold plan
  cases h with
  | kind hkind => rw [if_neg hkind]
  | reference hkind hsources hbefore hsource =>
    rw [if_pos hkind, hsources]
    exact resolveSources_of_failure hbefore (Operation.mappingFor_of_not_mem hsource)

theorem exists_plan (hkind : op.kind = mergeKind)
    (hsources : ∀ s ∈ op.sources, s.transformation ∈ op.ids) :
    ∃ planned, plan op = .ok planned := by
  unfold plan
  rw [if_pos hkind]
  exact exists_resolveSources hsources

/-- A kind that cannot be run or a reference that leads nowhere is a reason to refuse. -/
theorem exists_refusal
    (h : op.kind ≠ mergeKind ∨ ∃ s ∈ op.sources, s.transformation ∉ op.ids) :
    ∃ fault, Refusal op fault := by
  by_cases hkind : op.kind = mergeKind
  · -- the first source with an unknown transformation is the one that is told
    obtain ⟨before, source, after, hsources, hbefore, hsource⟩ :=
      List.exists_first (h.resolve_left (not_not_intro hkind))
    exact ⟨_, .reference hkind hsources (fun s hs => not_not.mp (hbefore s hs)) hsource⟩
  · exact ⟨_, .kind hkind⟩

/-! ### Running -/

theorem exists_fault_of_during {error : Error} {source : Attribution} {fault : Fault}
    (h : error.during source = .fault fault) :
    ∃ own, error = .fault own ∧ own.cause = fault.cause := by
  cases error with
  | fault own =>
    cases h
    exact ⟨own, rfl, rfl⟩
  | _ => cases h

theorem documentOf_ne_fault (content : Except FileError ByteArray) (fault : Fault) :
    documentOf content ≠ .error (.fault fault) := by
  intro h
  cases content with
  | error error => cases h
  | ok bytes =>
    obtain ⟨error, -, heq⟩ := Except.mapError_eq_error.mp h
    cases heq

/-- A source with a fault has one in the projection of its document. -/
theorem exists_fault_of_runSource {source : Operation.Source} {mapping : Mapping} {fault : Fault}
    (h : (runSource settings now tree op source mapping).2 = .error (.fault fault)) :
    ∃ document own, (Projection.ofDocument mapping.rules (.empty now) document).error =
      some (.fault own) ∧ own.cause = fault.cause := by
  rw [result_runSource, Except.mapError_eq_error] at h
  obtain ⟨error, herror, hfault⟩ := h
  obtain ⟨own, rfl, hcause⟩ := exists_fault_of_during hfault
  rw [result_projectSource] at herror
  cases hload : load tree (settings.resolve (.ofText source.file)) with
  | error other =>
    rw [hload] at herror
    cases herror
    exact absurd hload (documentOf_ne_fault _ own)
  | ok document =>
    rw [hload] at herror
    dsimp only at herror
    cases hprojected : (Projection.ofDocument mapping.rules (.empty now) document).error with
    | none =>
      rw [hprojected] at herror
      cases herror
    | some failure =>
      rw [hprojected] at herror
      cases failure with
      | timestamp error => cases herror
      | fault found =>
        cases herror
        exact ⟨document, own, hprojected, hcause⟩

/-- Behind its plan an operation has no fault of the configuration. -/
theorem category_of_fault {outcome : Outcome} {fault : Fault}
    (hcourse : Course settings now tree op outcome) (hplan : ∃ planned, plan op = .ok planned)
    (h : outcome.result = .error (.fault fault)) :
    fault.cause.category = .mapping ∨ fault.cause.category = .reading := by
  cases hcourse with
  | refused hrefused =>
    obtain ⟨planned, hplanned⟩ := hplan
    rw [hplanned] at hrefused
    cases hrefused
  | stopped _ hsources =>
    cases h
    obtain ⟨_, source, mapping, _, -, -, herror⟩ :=
      runSources_eq_error_iff.mp (congrArg Prod.snd hsources)
    obtain ⟨document, own, hprojected, hcause⟩ := exists_fault_of_runSource herror
    obtain ⟨_, k, hfirst⟩ := error_eq_some_iff.mp hprojected
    rw [← hcause]
    obtain ⟨cause, hcategory, rfl⟩ := Projection.exists_cause_of_failure hfirst.fails
    exact hcategory
  | unsummarised => cases h
  | unwritten => cases h
  | written => cases h

end Merge

namespace Engine

open Operation (mergeKind Refusal)
open Merge (Collaborators onFiles runWith)

variable {op : Operation} {fault : Fault}

theorem run_of_refusal (h : Refusal op fault) (e : Engine) (now : Timestamp) (tree : FileTree) :
    e.run now tree op = (e, ⟨.error (.fault fault), .metric .operationError, tree⟩) := by
  unfold run runPlan
  rw [Merge.plan_of_refusal h]
  rfl

theorem runWith_of_refusal (h : Refusal op fault) {m : Type → Type} [Monad m] [LawfulMonad m]
    (collaborators : Collaborators m) (settings : Settings) (now : Timestamp) :
    runWith collaborators settings now op =
      pure (.metric .operationError, .error (.fault fault)) := by
  unfold runWith Merge.runPlanWith
  rw [Merge.plan_of_refusal h, pure_bind]
  rfl

theorem category_of_runnable (hkind : op.kind = mergeKind)
    (hsources : ∀ s ∈ op.sources, s.transformation ∈ op.ids) (e : Engine) (now : Timestamp)
    (tree : FileTree) (h : (e.run now tree op).2.result = .error (.fault fault)) :
    fault.cause.category = .mapping ∨ fault.cause.category = .reading := by
  rw [outcome_run] at h
  exact Merge.category_of_fault (Merge.runPlan_course e.settings now tree op)
    (Merge.exists_plan hkind hsources) h

/-- An operation of another kind than a merge, or with a source whose transformation is not
declared, is refused with one fault, for its kind before its references and for the first source
before the others. Any engine with any settings and any past refuses it so on all files: it leaves
them and itself as they are, logs nothing, and counts one failure. Neither is anything asked of
collaborators, whatever they are; and working on files is one way to be a collaborator. All other
operations can fail for what their files hold, but not with a fault of the configuration. -/
theorem refused_before_files (op : Operation) :
    ((op.kind ≠ mergeKind ∨ ∃ s ∈ op.sources, s.transformation ∉ op.ids) →
      ∃ fault, Refusal op fault ∧
        fault.cause.category =
          (if op.kind = mergeKind then .configuration else .unsupportedOperation) ∧
        (∀ (e : Engine) (now : Timestamp) (tree : FileTree),
          e.run now tree op = (e, ⟨.error (.fault fault), .metric .operationError, tree⟩)) ∧
        ∀ (m : Type → Type) [Monad m] [LawfulMonad m] (collaborators : Collaborators m)
          (settings : Settings) (now : Timestamp), runWith collaborators settings now op =
            pure (.metric .operationError, .error (.fault fault))) ∧
    (∀ (e : Engine) (now : Timestamp) (tree : FileTree),
      (runWith (onFiles e.settings.indent) e.settings now op).run tree =
        pure (((e.run now tree op).2.journal, (e.run now tree op).2.result),
          (e.run now tree op).2.tree)) ∧
    (op.kind = mergeKind → (∀ s ∈ op.sources, s.transformation ∈ op.ids) →
      ∀ (e : Engine) (now : Timestamp) (tree : FileTree) (fault : Fault),
        (e.run now tree op).2.result = .error (.fault fault) →
          fault.cause.category = .mapping ∨ fault.cause.category = .reading) := by
  refine ⟨fun hrefused => ?_, fun e now tree => ?_,
    fun hkind hsources e now tree fault => ?_⟩
  · obtain ⟨fault, hfault⟩ := Merge.exists_refusal hrefused
    exact ⟨fault, hfault, hfault.category, run_of_refusal hfault,
      fun m _ _ => runWith_of_refusal hfault⟩
  · rw [outcome_run]
    exact Merge.runWith_onFiles e.settings now op tree
  · exact category_of_runnable hkind hsources e now tree

/-- A source that can be read, before one whose transformation is not declared. -/
def strayOperation : Operation :=
  { Merge.sampleOperation "summaries.json" with
    sources := [⟨"a.json", "flat"⟩, ⟨"b.json", "deep"⟩] }

/-- The first source is not read when the second one refers to nothing. -/
theorem refused_for_a_later_source :
    ∃ fault, Refusal strayOperation fault ∧ fault.cause.category = .configuration ∧
      ∀ (e : Engine) (now : Timestamp) (tree : FileTree),
        e.run now tree strayOperation =
          (e, ⟨.error (.fault fault), .metric .operationError, tree⟩) := by
  have hstray : ∃ s ∈ strayOperation.sources, s.transformation ∉ strayOperation.ids :=
    ⟨⟨"b.json", "deep"⟩, by simp [strayOperation], by decide⟩
  obtain ⟨fault, hfault, hcategory, hrun, -⟩ :=
    (refused_before_files strayOperation).1 (.inr hstray)
  exact ⟨fault, hfault, hcategory, hrun⟩

end Engine

end FeedMerge
