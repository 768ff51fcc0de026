import FeedMerge.Proofs.Files.Growth

/-!
# What replacing a file changes

`replace` makes the directories on the way, stages the text in a file beside the destination and
renames it. The staged file has a name that is longer than any other, so it hides nothing
(`node?_stagedPlace`); when a piece of the text cannot be encoded, or the renaming fails, it is
removed with what it holds and the tree is as it was before staging. So a replacement that fails is
growth by directories alone (`grows_of_replace_error`), and one that succeeds is such growth and
then a change at the place that the path leads to (`exists_place_of_replace`).
-/

namespace FeedMerge.FileTree

/-! ### The staged file -/

theorem length_stagedName (name : String) (length : Nat) :
    (stagedName name length).length = name.length + length + 6 := by
  simp only [stagedName, String.length_append, String.length_ofList, List.length_replicate]
  have hdot : ".".length = 1 := by decide
  have hsuffix : ".tmp".length = 4 := by decide
  omega

theorem length_getLast?_lt_freshLength {tree : FileTree} {place : Place} {node : Node}
    (h : (place, node) ∈ tree.nodes) : (place.getLast?.getD "").length < tree.freshLength := by
  unfold freshLength
  have hmem : (place.getLast?.getD "").length ∈
      tree.nodes.map fun entry => (entry.1.getLast?.getD "").length :=
    List.mem_map.mpr ⟨(place, node), h, rfl⟩
  have hlongest := List.le_max?_getD_of_mem (k := 0) hmem
  dsimp only
  rw [List.foldl_max]
  omega

theorem stagedPlace_ne_nil (tree : FileTree) (directory : Place) (name : String) :
    tree.stagedPlace directory name ≠ [] := by
  simp [stagedPlace]

/-- There is nothing where a file is staged. -/
theorem node?_stagedPlace (tree : FileTree) (directory : Place) (name : String) :
    tree.node? (tree.stagedPlace directory name) = none := by
  rw [node?, if_neg (tree.stagedPlace_ne_nil directory name), List.lookup_eq_none_iff]
  intro entry hentry
  have hshorter := length_getLast?_lt_freshLength hentry
  suffices hne : tree.stagedPlace directory name ≠ entry.1 by simpa using hne
  intro heq
  rw [← heq] at hshorter
  simp only [stagedPlace, List.getLast?_append, List.getLast?_singleton, Option.some_or,
    Option.getD_some, length_stagedName] at hshorter
  omega

/-- Staging a file and removing it again leaves everything as it was. -/
theorem node?_remove_put_staged (tree : FileTree) (directory : Place) (name : String) (node : Node)
    (other : Place) :
    ((tree.put (tree.stagedPlace directory name) node).remove
      (tree.stagedPlace directory name)).node? other = tree.node? other := by
  by_cases hother : other = tree.stagedPlace directory name
  · rw [hother, node?_remove_self _ (tree.stagedPlace_ne_nil directory name), node?_stagedPlace]
  · rw [node?_remove_of_ne _ hother, node?_put_of_ne _ _ hother]

/-! ### Renaming it -/

theorem exists_place_of_rename {tree after : FileTree} {source : Place} {content : ByteArray}
    {path : Path} (h : tree.rename source content path = .ok after) :
    ∃ place, tree.locate path = .ok place ∧ tree.node? place ≠ some .directory ∧
      after = (tree.remove source).put place (.file content) := by
  unfold rename at h
  split at h
  · cases h
  · cases h
  · split at h
    · cases h
    · rename_i place hplace
      split at h
      · cases h
      · rename_i hnode
        exact ⟨place, hplace, hnode, by simpa using h.symm⟩

/-- A directory is still there after a file was staged and renamed. -/
private theorem directory_kept_of_rename {tree after : FileTree} {source place : Place}
    {content : ByteArray} (hsource : tree.node? source ≠ some .directory)
    (hplace : tree.node? place ≠ some .directory)
    (hafter : after = (tree.remove source).put place (.file content)) (other : Place)
    (h : tree.node? other = some .directory) : after.node? other = some .directory := by
  have hne : other ≠ place := by
    rintro rfl
    exact hplace h
  have hnesource : other ≠ source := by
    rintro rfl
    exact hsource h
  rw [hafter, node?_put_of_ne _ _ hne, node?_remove_of_ne _ hnesource, h]

variable {tree after : FileTree} {directory : Place} {path : Path} {pieces : List (List Char)}

/-- When a piece cannot be encoded or the renaming fails, the tree is as it was before staging. -/
theorem grows_of_replaceIn_error {error : FileError} {places : Place → Prop}
    (h : tree.replaceIn directory path pieces = (after, .error error)) :
    Grows tree after places := by
  unfold replaceIn at h
  dsimp only at h
  split at h
  · cases h
    exact .refl _ _
  · split at h
    · cases h
      exact .refl _ _
    · split at h
      · cases h
        exact .of_node?_eq (node?_remove_put_staged tree directory path.fileName _) rfl
      · split at h
        · cases h
        · cases h
          exact .of_node?_eq (node?_remove_put_staged tree directory path.fileName _) rfl

/-- The tree with the text staged, and no directory lost in it. -/
theorem keepsDirectories_put_staged (tree : FileTree) (directory : Place) (name : String)
    (content : ByteArray) :
    KeepsDirectories tree (tree.put (tree.stagedPlace directory name) (.file content)) := by
  refine ⟨rfl, fun {other} hother => ?_⟩
  have hne : other ≠ tree.stagedPlace directory name := by
    rintro rfl
    rw [node?_stagedPlace] at hother
    cases hother
  rw [node?_put_of_ne _ _ hne, hother]

/-- A staging that succeeds has a path that can be handed to a file system and pieces that can be
encoded, and then the renaming succeeds. -/
theorem exists_rename_of_replaceIn (h : tree.replaceIn directory path pieces = (after, .ok ())) :
    path.isNameable = true ∧ (Text.Utf8.encode pieces).2 = none ∧
      (tree.put (tree.stagedPlace directory path.fileName)
          (.file (String.ofList pieces.flatten).toUTF8)).rename
        (tree.stagedPlace directory path.fileName) (String.ofList pieces.flatten).toUTF8 path =
          .ok after := by
  unfold replaceIn at h
  dsimp only at h
  split at h
  · cases h
  · rename_i hnameable
    split at h
    · cases h
    · split at h
      · cases h
      · rename_i hencoded
        rw [Text.Utf8.fst_encode hencoded] at h
        split at h
        · rename_i renamed hrenamed
          cases h
          exact ⟨by simpa using hnameable, hencoded, hrenamed⟩
        · cases h

/-- A staged text that is moved to the path stands where the path leads to, and nowhere else. -/
theorem exists_place_of_replaceIn (h : tree.replaceIn directory path pieces = (after, .ok ())) :
    ∃ place, after.locate path = .ok place ∧
      after.node? place = some (.file (String.ofList pieces.flatten).toUTF8) ∧
      (∀ other, other ≠ place → after.node? other = tree.node? other) ∧
      KeepsDirectories tree after := by
  obtain ⟨-, -, hrenamed⟩ := exists_rename_of_replaceIn h
  obtain ⟨place, hlocate, hnode, hafter⟩ := exists_place_of_rename hrenamed
  have hplace : place ≠ [] := by
    rintro rfl
    exact hnode (node?_nil _)
  have hmoved : KeepsDirectories (tree.put (tree.stagedPlace directory path.fileName)
      (.file (String.ofList pieces.flatten).toUTF8)) after := by
    refine ⟨by rw [hafter]; rfl, directory_kept_of_rename ?_ hnode hafter _⟩
    rw [node?_put_self _ _ (tree.stagedPlace_ne_nil directory path.fileName)]
    simp
  refine ⟨place, hmoved.locate hlocate, ?_, ?_, ?_⟩
  · rw [hafter, node?_put_self _ _ hplace]
  · intro other hother
    rw [hafter, node?_put_of_ne _ _ hother, node?_remove_put_staged]
  · exact (keepsDirectories_put_staged tree directory path.fileName _).trans hmoved

/-! ### Replacing -/

/-- A replacement that fails leaves every file as it was; only directories on the way to the
destination may be new. -/
theorem grows_of_replace_error {error : FileError}
    (h : tree.replace path pieces = (after, .error error)) :
    Grows tree after (tree.OnTheWay path.parent) := by
  have hgrows := ensureDirectories_grows tree path.parent.root path.parent.names.reverse
  rw [List.reverse_reverse] at hgrows
  unfold replace at h
  dsimp only at h
  split at h
  · cases h
    exact .refl _ _
  · split at h
    · rename_i made _ hmade
      cases h
      rwa [hmade] at hgrows
    · rename_i made hmade
      rw [hmade] at hgrows
      split at h
      · cases h
        exact hgrows
      · exact hgrows.trans (grows_of_replaceIn_error h)

/-- A replacement that succeeds first makes the directories on the way to the destination. -/
theorem exists_made_of_replace (h : tree.replace path pieces = (after, .ok ())) :
    ∃ made directory, Grows tree made (tree.OnTheWay path.parent) ∧
      made.replaceIn directory path pieces = (after, .ok ()) := by
  have hgrows := ensureDirectories_grows tree path.parent.root path.parent.names.reverse
  rw [List.reverse_reverse] at hgrows
  unfold replace at h
  dsimp only at h
  split at h
  · cases h
  · split at h
    · cases h
    · rename_i made hmade
      rw [hmade] at hgrows
      split at h
      · cases h
      · exact ⟨made, _, hgrows, h⟩

/-- A replacement that succeeds adds directories on the way to the destination, and then puts the
text at the place that the path leads to; nothing else is changed. -/
theorem exists_place_of_replace (h : tree.replace path pieces = (after, .ok ())) :
    ∃ made place, Grows tree made (tree.OnTheWay path.parent) ∧ after.locate path = .ok place ∧
      after.node? place = some (.file (String.ofList pieces.flatten).toUTF8) ∧
      ∀ other, other ≠ place → after.node? other = made.node? other := by
  obtain ⟨made, directory, hgrows, hreplaced⟩ := exists_made_of_replace h
  obtain ⟨place, hlocate, hnode, hothers, -⟩ := exists_place_of_replaceIn hreplaced
  exact ⟨made, place, hgrows, hlocate, hnode, hothers⟩

/-- A replacement that succeeds has a path that can be handed to a file system and names a file, and
pieces that can be encoded. -/
theorem path_of_replace (h : tree.replace path pieces = (after, .ok ())) :
    path.isNameable = true ∧ path.names ≠ [] ∧ (Text.Utf8.encode pieces).2 = none := by
  obtain ⟨made, directory, -, hreplaced⟩ := exists_made_of_replace h
  obtain ⟨hnameable, hencoded, hrenamed⟩ := exists_rename_of_replaceIn hreplaced
  refine ⟨hnameable, fun hnames => ?_, hencoded⟩
  unfold rename at hrenamed
  rw [hnames] at hrenamed
  cases hrenamed

theorem keepsDirectories_of_replace (h : tree.replace path pieces = (after, .ok ())) :
    KeepsDirectories tree after := by
  obtain ⟨made, directory, hgrows, hreplaced⟩ := exists_made_of_replace h
  obtain ⟨place, -, -, -, hkept⟩ := exists_place_of_replaceIn hreplaced
  exact hgrows.keepsDirectories.trans hkept

end FeedMerge.FileTree
