import FeedMerge.Proofs.CommandLine.Ending
import FeedMerge.Proofs.Engine.Sequence
import FeedMerge.Proofs.Merge.Effect

/-!
# Operations that can be swapped

An operation that goes through replaces one file, and makes directories on the way to it. Another
one does not notice if the file is none that it reads or writes, and stands at no place where it
needs a directory. So two operations that each go through alone, on different files and without a
source that is the other's destination, can be run in either order, provided that neither file
stands where the other path needs a directory (`Clear`). This is more than that neither is below
the other: a path with a double dot also needs the directories that it leaves again.
-/

namespace FeedMerge

namespace FileTree

variable {tree : FileTree} {first second : Path}

/-- Neither of two paths leads to a place where the other one needs a directory. -/
structure Clear (tree : FileTree) (first second : Path) : Prop where
  left : tree.target first ∉ tree.directoriesOn second.parent
  right : tree.target second ∉ tree.directoriesOn first.parent

theorem Clear.symm (h : Clear tree first second) : Clear tree second first := ⟨h.right, h.left⟩

/-- Two replacements at different places put the same at every place in both orders. -/
theorem replacement_or_comm (hclear : Clear tree first second)
    (hne : tree.target first ≠ tree.target second) (one two : String) (place : Place)
    (node : Option Node) :
    (tree.replacement first one place).or ((tree.replacement second two place).or node) =
      (tree.replacement second two place).or ((tree.replacement first one place).or node) := by
  unfold replacement
  by_cases hfirst : place = tree.target first
  · subst hfirst
    rw [if_pos rfl, if_neg hne, if_neg hclear.left]
    rfl
  · by_cases hsecond : place = tree.target second
    · subst hsecond
      rw [if_pos rfl, if_neg hne.symm, if_neg hclear.right]
      rfl
    · rw [if_neg hfirst, if_neg hsecond]
      split_ifs <;> rfl

/-- After a replacement the other path can still be replaced exactly if the two are clear of each
other. -/
theorem replaceable_after_replace_iff {after : FileTree} {pieces : List (List Char)}
    (h : tree.replace first pieces = (after, .ok ())) (hsecond : Replaceable tree second)
    (hne : tree.target first ≠ tree.target second) :
    Replaceable after second ↔ Clear tree first second := by
  have hworking := (keepsDirectories_of_replace h).workingDirectory
  have hfirst := Replaceable.of_replace h
  constructor
  · intro hafter
    refine ⟨fun hmem => ?_, fun hmem => ?_⟩
    · have hfree := hafter.free (tree.target first)
        (directoriesOn_of_workingDirectory_eq hworking _ ▸ hmem)
      rw [file?, node?_of_replace h, replacement, if_pos rfl] at hfree
      cases hfree
    · have hvacant := hafter.vacant
      rw [target_of_workingDirectory_eq hworking, node?_of_replace h, replacement,
        if_neg hne.symm, if_pos hmem] at hvacant
      exact hvacant rfl
  · intro hclear
    refine hsecond.of_tree hworking (fun place hplace => ?_) ?_
    · have hother : place ≠ tree.target first := fun heq => hclear.left (heq ▸ hplace)
      rw [file?_of_replace h hother]
      exact hsecond.free place hplace
    · rw [node?_of_replace h, replacement, if_neg hne.symm, if_neg hclear.right]
      exact hsecond.vacant

end FileTree

namespace Merge

open FileTree (Clear)

variable {settings : Settings} {now : Timestamp} {tree : FileTree} {a b : Operation}
  {first second : List Summary}

/-- Neither of two operations reads the file that the other one writes, and they write different
files. -/
structure Independent (settings : Settings) (tree : FileTree) (a b : Operation) : Prop where
  destinations : tree.target (destination settings a) ≠ tree.target (destination settings b)
  left : ∀ source ∈ a.sources,
    tree.target (sourcePath settings source) ≠ tree.target (destination settings b)
  right : ∀ source ∈ b.sources,
    tree.target (sourcePath settings source) ≠ tree.target (destination settings a)

theorem Independent.symm (h : Independent settings tree a b) : Independent settings tree b a :=
  ⟨h.destinations.symm, h.right, h.left⟩

/-- The second of two operations gives what it gives alone. -/
theorem exists_run_after_run (ha : (run settings now tree a).result = .ok first)
    (hb : (run settings now tree b).result = .ok second) (h : Independent settings tree a b)
    (hclear : Clear tree (destination settings a) (destination settings b)) :
    ∃ after, run settings now (run settings now tree a).tree b =
        ⟨.ok second, (run settings now tree b).journal, after⟩ ∧
      ∀ place, after.node? place =
        (tree.replacement (destination settings b) (fileText settings.indent second) place).or
          ((tree.replacement (destination settings a) (fileText settings.indent first) place).or
            (tree.node? place)) := by
  have hwritten : tree.replace _ _ = _ := written_of_run ha
  have hkept := FileTree.keepsDirectories_of_replace hwritten
  have hreplaceable := (FileTree.replaceable_after_replace_iff hwritten
    (.of_replace (written_of_run hb)) h.destinations).mpr hclear
  obtain ⟨after, hrun, hafter⟩ := exists_run_of_keepsDirectories hb hkept
    (fun source hsource => FileTree.file?_of_replace hwritten (h.right source hsource))
    (fun source _ => sourceKeepsTime_self settings now tree b source) hreplaceable
  refine ⟨after, hrun, fun place => ?_⟩
  rw [node?_of_written hafter,
    FileTree.replacement_of_workingDirectory_eq hkept.workingDirectory,
    node?_of_written (written_of_run ha)]

/-- If one of the two paths is in the way of the other, the second operation fails. -/
theorem run_after_run_ne_ok (ha : (run settings now tree a).result = .ok first)
    (hb : (run settings now tree b).result = .ok second) (h : Independent settings tree a b)
    (hclear : ¬ Clear tree (destination settings a) (destination settings b))
    (other : List Summary) :
    (run settings now (run settings now tree a).tree b).result ≠ .ok other := by
  intro hok
  have hwritten : tree.replace _ _ = _ := written_of_run ha
  have hagain : FileTree.replace _ _ _ = _ := written_of_run hok
  exact hclear ((FileTree.replaceable_after_replace_iff hwritten
    (.of_replace (written_of_run hb)) h.destinations).mp (.of_replace hagain))

end Merge

namespace Engine

open FileTree (Clear)
open Merge

variable {a b : Operation}

theorem runEach_pair (e : Engine) (now : Timestamp) (tree : FileTree) (a b : Operation) :
    e.runEach now tree [a, b] =
      [Merge.run e.settings now tree a,
        Merge.run e.settings now (Merge.run e.settings now tree a).tree b] := by
  unfold runEach
  dsimp only
  unfold runEach
  dsimp only
  rw [runEach, outcome_run, outcome_run, settings_run]

theorem runAll_pair {e : Engine} {now : Timestamp} {tree : FileTree} {summaries : List Summary}
    (ha : (Merge.run e.settings now tree a).result = .ok summaries) :
    (e.runAll now tree [a, b]).tree =
        (Merge.run e.settings now (Merge.run e.settings now tree a).tree b).tree ∧
      ((e.runAll now tree [a, b]).result = .ok () ↔ ∃ others,
        (Merge.run e.settings now (Merge.run e.settings now tree a).tree b).result =
          .ok others) := by
  rw [runAll_eq, (runAll_cons_of_ok ha).1, (runAll_cons_of_ok ha).2, Merge.runAll]
  dsimp only
  cases (Merge.run e.settings now (Merge.run e.settings now tree a).tree b).result with
  | error error => simp
  | ok others => simp [Merge.runAll]

/-- Two operations that each go through alone, with different files as their destinations and
without a source that is the destination of the other, can be run in either order if neither path
leads to where the other needs a directory: both orders go through, each operation returns what it
returns alone, and afterwards the same is at every place. Otherwise neither order goes through. -/
theorem independent_operations_commute (e : Engine) (now : Timestamp) (tree : FileTree)
    {first second : List Summary} (ha : (alone e.settings now tree a).result = .ok first)
    (hb : (alone e.settings now tree b).result = .ok second)
    (h : Independent e.settings tree a b) :
    (Clear tree (destination e.settings a) (destination e.settings b) →
      (e.runAll now tree [a, b]).result = .ok () ∧ (e.runAll now tree [b, a]).result = .ok () ∧
      (e.runEach now tree [a, b]).map (·.result) = [.ok first, .ok second] ∧
      (e.runEach now tree [b, a]).map (·.result) = [.ok second, .ok first] ∧
      ∀ place, (e.runAll now tree [b, a]).tree.node? place =
        (e.runAll now tree [a, b]).tree.node? place) ∧
    (¬ Clear tree (destination e.settings a) (destination e.settings b) →
      (e.runAll now tree [a, b]).result ≠ .ok () ∧ (e.runAll now tree [b, a]).result ≠ .ok ()) := by
  rw [alone_eq_run] at ha hb
  obtain ⟨htreeA, hokA⟩ := runAll_pair (b := b) ha
  obtain ⟨htreeB, hokB⟩ := runAll_pair (b := a) hb
  constructor
  · intro hclear
    obtain ⟨afterB, hrunB, hnodeB⟩ := exists_run_after_run ha hb h hclear
    obtain ⟨afterA, hrunA, hnodeA⟩ := exists_run_after_run hb ha h.symm hclear.symm
    refine ⟨hokA.mpr ⟨second, by rw [hrunB]⟩, hokB.mpr ⟨first, by rw [hrunA]⟩, ?_, ?_, ?_⟩
    · rw [runEach_pair, hrunB, List.map_cons, ha]
      rfl
    · rw [runEach_pair, hrunA, List.map_cons, hb]
      rfl
    · intro place
      rw [htreeA, htreeB, hrunA, hrunB, hnodeA, hnodeB]
      exact FileTree.replacement_or_comm hclear h.destinations _ _ place _
  · intro hclear
    refine ⟨fun hok => ?_, fun hok => ?_⟩
    · obtain ⟨others, hothers⟩ := hokA.mp hok
      exact run_after_run_ne_ok ha hb h hclear others hothers
    · obtain ⟨others, hothers⟩ := hokB.mp hok
      exact run_after_run_ne_ok hb ha h.symm (fun hother => hclear hother.symm) others hothers

/-- One of the two documents, summarized alone. -/
def oneOperation (file destination : String) : Operation :=
  { sampleOperation destination with sources := [⟨file, "flat"⟩] }

/-- Two operations, one of which makes a directory, can be swapped. -/
theorem sample_operations_commute :
    let a := oneOperation "a.json" "new/one.json"
    let b := oneOperation "b.json" "two.json"
    ∃ first second,
      ((start {}).runEach .start sampleTree [a, b]).map (·.result) = [.ok first, .ok second] ∧
      ((start {}).runEach .start sampleTree [b, a]).map (·.result) = [.ok second, .ok first] ∧
      ∀ place, ((start {}).runAll .start sampleTree [b, a]).tree.node? place =
        ((start {}).runAll .start sampleTree [a, b]).tree.node? place := by
  intro a b
  have hokA : (alone {} .start sampleTree a).result.isOk = true := by decide +kernel
  have hokB : (alone {} .start sampleTree b).result.isOk = true := by decide +kernel
  have hindependent : Independent {} sampleTree a b :=
    ⟨by decide +kernel, by decide +kernel, by decide +kernel⟩
  have hclear : Clear sampleTree (destination {} a) (destination {} b) :=
    ⟨by decide +kernel, by decide +kernel⟩
  cases ha : (alone {} .start sampleTree a).result with
  | error error =>
    rw [ha] at hokA
    cases hokA
  | ok first =>
    cases hb : (alone {} .start sampleTree b).result with
    | error error =>
      rw [hb] at hokB
      cases hokB
    | ok second =>
      obtain ⟨-, -, hfirst, hsecond, hplaces⟩ :=
        (independent_operations_commute (start {}) .start sampleTree ha hb hindependent).1 hclear
      exact ⟨first, second, hfirst, hsecond, hplaces⟩

/-- Each of two operations goes through alone, neither reads what the other writes, and their files
are beside each other; but each path leaves a directory whose name is that of the other's file, and
so neither order goes through. -/
theorem crossing_destinations_do_not_commute :
    let a := oneOperation "a.json" "x/../y"
    let b := oneOperation "b.json" "y/../x"
    (alone {} .start sampleTree a).result.isOk = true ∧
      (alone {} .start sampleTree b).result.isOk = true ∧
      Independent {} sampleTree a b ∧
      sampleTree.target (destination {} a) = ["work", "y"] ∧
      sampleTree.target (destination {} b) = ["work", "x"] ∧
      ((start {}).runAll .start sampleTree [a, b]).result =
        .error (.file (.system .notDirectory "y/.." none)) ∧
      ((start {}).runAll .start sampleTree [b, a]).result =
        .error (.file (.system .notDirectory "x/.." none)) := by
  refine ⟨?_, ?_, ⟨?_, ?_, ?_⟩, ?_, ?_, ?_, ?_⟩ <;> decide +kernel

end Engine

end FeedMerge
