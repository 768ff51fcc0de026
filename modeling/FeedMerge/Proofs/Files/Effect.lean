import FeedMerge.Proofs.Files.Replacement

/-!
# What a replacement needs and what it does

Whether a file can be replaced, and what is at which place afterwards, is settled by the path and by
what stands at the places on its way. The names of a path alone say where it leads (`target`) and
where there must be directories for that (`directoriesOn`). A replacement succeeds exactly if the
names are ones that a file system takes, no file stands where a directory must be, and no directory
where the file is to be (`Replaceable`); then the file is at its place, the directories are at theirs,
and everything else is as it was (`replacement`). So two trees that differ elsewhere are changed in
the same way.
-/

namespace FeedMerge.FileTree

variable {tree after : FileTree} {path : Path} {place : Place}

/-! ### Where a path leads -/

/-- The place that a path leads to, provided that there are directories on the way. -/
def target (tree : FileTree) (path : Path) : Place := path.names.foldl enter (tree.start path)

/-- The places where there must be directories for a path to lead to a directory. -/
def directoriesOn (tree : FileTree) (path : Path) : List Place :=
  tree.target path :: tree.placesOn path

/-- Neither the path nor any of its names is too long. -/
def Fits (path : Path) : Prop :=
  isLongPath path.text = false ∧ ∀ name ∈ path.names, isLongName name = false

theorem mem_placesOn : place ∈ tree.placesOn path ↔
    ∃ names, names <+: path.names ∧ names ≠ [] ∧ names.foldl enter (tree.start path) = place := by
  change place ∈ (List.range path.names.length).map
    (fun n => (path.names.take (n + 1)).foldl enter (tree.start path)) ↔ _
  rw [List.mem_map]
  constructor
  · rintro ⟨n, hn, hplace⟩
    have hlength : n < path.names.length := List.mem_range.mp hn
    refine ⟨path.names.take (n + 1), List.take_prefix _ _, ?_, hplace⟩
    intro hnil
    have := congrArg List.length hnil
    rw [List.length_take, List.length_nil] at this
    omega
  · rintro ⟨names, hprefix, hne, hplace⟩
    have hpos : 0 < names.length := List.length_pos_iff.mpr hne
    have hle := hprefix.length_le
    refine ⟨names.length - 1, List.mem_range.mpr (by omega), ?_⟩
    rw [show names.length - 1 + 1 = names.length by omega, ← List.prefix_iff_eq_take.mp hprefix]
    exact hplace

theorem mem_directoriesOn : place ∈ tree.directoriesOn path ↔
    place = tree.target path ∨ place ∈ tree.placesOn path := List.mem_cons

theorem target_mem_placesOn (h : path.names ≠ []) : tree.target path ∈ tree.placesOn path :=
  mem_placesOn.mpr ⟨path.names, List.prefix_rfl, h, rfl⟩

theorem eq_or_mem_of_mem_placesOn (h : place ∈ tree.placesOn path) :
    place = tree.target path ∨ place ∈ tree.placesOn path.parent := by
  obtain ⟨names, hprefix, hne, hplace⟩ := mem_placesOn.mp h
  have hnames : path.names ≠ [] := fun hnil => hne (List.prefix_nil.mp (hnil ▸ hprefix))
  rw [← List.dropLast_concat_getLast hnames, List.prefix_concat_iff,
    List.dropLast_concat_getLast hnames] at hprefix
  rcases hprefix with rfl | hprefix
  · exact .inl hplace.symm
  · exact .inr (mem_placesOn.mpr ⟨names, hprefix, hne, hplace⟩)

theorem placesOn_parent_subset (h : place ∈ tree.placesOn path.parent) :
    place ∈ tree.placesOn path := by
  obtain ⟨names, hprefix, hne, hplace⟩ := mem_placesOn.mp h
  exact mem_placesOn.mpr ⟨names, hprefix.trans (List.dropLast_prefix _), hne, hplace⟩

theorem start_of_workingDirectory_eq (h : after.workingDirectory = tree.workingDirectory)
    (path : Path) : after.start path = tree.start path := by
  rw [start, start, h]

theorem target_of_workingDirectory_eq (h : after.workingDirectory = tree.workingDirectory)
    (path : Path) : after.target path = tree.target path := by
  rw [target, target, start_of_workingDirectory_eq h]

theorem placesOn_of_workingDirectory_eq (h : after.workingDirectory = tree.workingDirectory)
    (path : Path) : after.placesOn path = tree.placesOn path := by
  rw [placesOn, placesOn, h]

theorem directoriesOn_of_workingDirectory_eq (h : after.workingDirectory = tree.workingDirectory)
    (path : Path) : after.directoriesOn path = tree.directoriesOn path := by
  rw [directoriesOn, directoriesOn, target_of_workingDirectory_eq h,
    placesOn_of_workingDirectory_eq h]

/-! ### Following a path -/

/-- The nonempty beginnings of a list are its first item alone, and it with what the rest begins
with. -/
theorem forall_prefix_cons_iff {α : Type} {P : List α → Prop} {item : α} {items : List α} :
    (∀ first, first <+: item :: items → first ≠ [] → P first) ↔
      P [item] ∧ ∀ first, first <+: items → first ≠ [] → P (item :: first) := by
  constructor
  · intro h
    refine ⟨h [item] ⟨items, rfl⟩ (List.cons_ne_nil _ _), fun first hfirst _ => ?_⟩
    exact h (item :: first) ((List.prefix_cons_inj item).mpr hfirst) (List.cons_ne_nil _ _)
  · intro h first hfirst hne
    cases first with
    | nil => exact absurd rfl hne
    | cons head first =>
      obtain ⟨rfl, hbehind⟩ := List.cons_prefix_cons.mp hfirst
      by_cases hnil : first = []
      · rw [hnil]
        exact h.1
      · exact h.2 first hbehind hnil

theorem follow_eq_ok_iff {names : List String} {found : Place} :
    tree.follow place names = .ok found ↔
      (∀ name ∈ names, isLongName name = false) ∧
      (∀ first, first <+: names.dropLast → first ≠ [] →
        tree.node? (first.foldl enter place) = some .directory) ∧
      names.foldl enter place = found := by
  induction names generalizing place with
  | nil => simp [follow]
  | cons name names ih =>
    unfold follow
    cases hlong : isLongName name with
    | true => simp [hlong]
    | false =>
      cases names with
      | nil => simp [hlong]
      | cons next names =>
        rw [List.dropLast_cons_of_ne_nil (List.cons_ne_nil _ _), forall_prefix_cons_iff,
          List.forall_mem_cons, if_neg (by simp), if_neg (by simp)]
        simp only [List.foldl_cons, List.foldl_nil]
        cases hnode : tree.node? (enter place name) with
        | none => simp
        | some node =>
          cases node with
          | directory => simp [ih, hlong]
          | file content => simp

/-- Where no file is in the way, a path of names that are not too long leads on, or something is
missing. -/
theorem follow_of_free {names : List String} (hshort : ∀ name ∈ names, isLongName name = false)
    (hfree : ∀ first, first <+: names.dropLast → first ≠ [] →
      tree.file? (first.foldl enter place) = none) :
    tree.follow place names = .ok (names.foldl enter place) ∨
      tree.follow place names = .error .notFound := by
  induction names generalizing place with
  | nil => exact .inl rfl
  | cons name names ih =>
    obtain ⟨hname, hshort⟩ := List.forall_mem_cons.mp hshort
    unfold follow
    rw [hname]
    cases names with
    | nil => exact .inl rfl
    | cons next names =>
      rw [List.dropLast_cons_of_ne_nil (List.cons_ne_nil _ _), forall_prefix_cons_iff] at hfree
      have hfirst : tree.file? (enter place name) = none := hfree.1
      have hrest := @ih (enter place name) hshort hfree.2
      rw [if_neg (by simp), if_neg (by simp)]
      rw [file?] at hfirst
      cases hnode : tree.node? (enter place name) with
      | none => exact .inr rfl
      | some node =>
        cases node with
        | directory => exact hrest
        | file content =>
          rw [hnode] at hfirst
          cases hfirst

theorem locate_eq_ok_iff : tree.locate path = .ok place ↔
    Fits path ∧ (∀ other ∈ tree.placesOn path.parent, tree.node? other = some .directory) ∧
      tree.target path = place := by
  have hway : (∀ other ∈ tree.placesOn path.parent, tree.node? other = some .directory) ↔
      ∀ first, first <+: path.names.dropLast → first ≠ [] →
        tree.node? (first.foldl enter (tree.start path)) = some .directory := by
    constructor
    · exact fun h first hfirst hne => h _ (mem_placesOn.mpr ⟨first, hfirst, hne, rfl⟩)
    · intro h other hother
      obtain ⟨first, hfirst, hne, rfl⟩ := mem_placesOn.mp hother
      exact h first hfirst hne
  rw [locate_eq_ok, follow_eq_ok_iff, hway, Fits, and_assoc]
  rfl

theorem locate_of_free (hfits : Fits path)
    (hfree : ∀ other ∈ tree.placesOn path.parent, tree.file? other = none) :
    tree.locate path = .ok (tree.target path) ∨ tree.locate path = .error .notFound := by
  rw [locate, hfits.1]
  exact follow_of_free hfits.2 fun first hfirst hne =>
    hfree _ (mem_placesOn.mpr ⟨first, hfirst, hne, rfl⟩)

/-- A path is not too long if it is not with one more name. -/
theorem Fits.of_concat {root : PathRoot} {names : List String} {name : String}
    (h : Fits ⟨root, names ++ [name]⟩) : Fits ⟨root, names⟩ := by
  refine ⟨?_, fun other hother => h.2 other (List.mem_append_left _ hother)⟩
  by_cases hnames : names = []
  · subst hnames
    cases root <;> decide
  · have hsize : (Path.mk root names).text.utf8ByteSize ≤
        (Path.mk root (names ++ [name])).text.utf8ByteSize := by
      have hempty : names.isEmpty = false := by simpa using hnames
      have hmore : (names ++ [name]).isEmpty = false := by simp
      simp only [Path.text, hempty, hmore, Bool.and_false, Bool.false_eq_true, if_false,
        String.intercalate_append_of_ne_nil hnames (List.cons_ne_nil _ _),
        String.utf8ByteSize_append]
      omega
    have hshort := h.1
    simp only [isLongPath, decide_eq_false_iff_not] at hshort ⊢
    omega

private theorem parent_concat_fileName (h : path.names ≠ []) :
    path = ⟨path.parent.root, path.parent.names ++ [path.fileName]⟩ := by
  obtain ⟨root, names⟩ := path
  have hlast : (List.getLast? names).getD "" = names.getLast h := by
    rw [List.getLast?_eq_some_getLast h]
    rfl
  simp only [Path.parent, Path.fileName, hlast, List.dropLast_concat_getLast]

theorem Fits.parent (h : Fits path) (hnames : path.names ≠ []) : Fits path.parent := by
  rw [parent_concat_fileName hnames] at h
  exact h.of_concat

/-! ### Making the directories -/

private theorem ensureDirectory_of_locate (hlocate : tree.locate path = .ok place)
    (hfree : tree.file? place = none) :
    ∃ made, tree.ensureDirectory path = .ok made ∧ made.node? place = some .directory ∧
      Grows tree made (· = place) := by
  cases hnode : tree.node? place with
  | none =>
    have hmake : tree.makeDirectory path = .ok (tree.put place .directory) := by
      simp only [makeDirectory, hlocate, hnode]
    have hne : place ≠ [] := by
      rintro rfl
      rw [node?_nil] at hnode
      cases hnode
    refine ⟨tree.put place .directory, ?_, node?_put_self tree _ hne,
      grows_put_directory hnode rfl⟩
    simp only [ensureDirectory, hmake]
  | some node =>
    cases node with
    | file content =>
      rw [file?, hnode] at hfree
      cases hfree
    | directory =>
      have hmake : tree.makeDirectory path = .error .alreadyExists := by
        simp only [makeDirectory, hlocate, hnode]
      have hthere : tree.isDirectory path = true := by
        simp only [isDirectory, hlocate, isDirectoryAt, hnode]
        rfl
      refine ⟨tree, ?_, hnode, .refl _ _⟩
      simp only [ensureDirectory, hmake, hthere]
      rfl

private theorem ensureDirectory_of_notFound (hlocate : tree.locate path = .error .notFound) :
    tree.ensureDirectory path = .error .notFound := by
  have hmake : tree.makeDirectory path = .error .notFound := by
    simp only [makeDirectory, hlocate]
  simp only [ensureDirectory, hmake]
  rfl

private theorem exists_locate_of_ensureDirectory {made : FileTree}
    (h : tree.ensureDirectory path = .ok made) :
    ∃ place, made.locate path = .ok place ∧ made.node? place = some .directory := by
  unfold ensureDirectory at h
  split at h
  · rename_i put hput
    cases h
    unfold makeDirectory at hput
    split at hput
    · cases hput
    · rename_i place hplace
      split at hput
      · cases hput
      · rename_i hnone
        cases hput
        have hne : place ≠ [] := by
          rintro rfl
          rw [node?_nil] at hnone
          cases hnone
        have hgrows : Grows tree (tree.put place .directory) (· = place) :=
          grows_put_directory hnone rfl
        exact ⟨place, hgrows.keepsDirectories.locate hplace, node?_put_self tree _ hne⟩
  · split at h
    · rename_i hthere
      cases h
      rw [Bool.and_eq_true] at hthere
      have hdirectory := hthere.2
      unfold isDirectory at hdirectory
      split at hdirectory
      · rename_i place hplace
        refine ⟨place, hplace, ?_⟩
        unfold isDirectoryAt at hdirectory
        cases hnode : tree.node? place with
        | none =>
          rw [hnode] at hdirectory
          cases hdirectory
        | some node =>
          cases node with
          | directory => rfl
          | file content =>
            rw [hnode] at hdirectory
            cases hdirectory
      · cases hdirectory
    · cases h

/-- One tree has the directories on a path, and otherwise what the other has. -/
structure AddsDirectories (tree made : FileTree) (path : Path) : Prop where
  there : ∀ place ∈ tree.directoriesOn path, made.node? place = some .directory
  grows : Grows tree made (· ∈ tree.directoriesOn path)

/-- Behind directories that are there the last one on a path is made, unless a file is there. -/
private theorem exists_addsDirectories {above : FileTree} (hfits : Fits path)
    (hfree : tree.file? (tree.target path) = none)
    (hthere : ∀ place ∈ tree.placesOn path.parent, above.node? place = some .directory)
    (hgrows : Grows tree above (· ∈ tree.placesOn path.parent)) :
    ∃ made, above.ensureDirectory path = .ok made ∧ AddsDirectories tree made path := by
  have hworking := hgrows.workingDirectory
  have hlocate : above.locate path = .ok (tree.target path) := by
    refine locate_eq_ok_iff.mpr ⟨hfits, ?_, target_of_workingDirectory_eq hworking path⟩
    rw [placesOn_of_workingDirectory_eq hworking]
    exact hthere
  obtain ⟨made, hmade, hnode, hlast⟩ :=
    ensureDirectory_of_locate hlocate ((hgrows.file?_eq _).trans hfree)
  refine ⟨made, hmade, fun place hplace => ?_, (hgrows.mono ?_).trans (hlast.mono ?_)⟩
  · rcases mem_directoriesOn.mp hplace with rfl | hplace
    · exact hnode
    · rcases eq_or_mem_of_mem_placesOn hplace with rfl | hplace
      · exact hnode
      · exact hlast.kept (hthere place hplace)
  · exact fun place hplace => mem_directoriesOn.mpr (.inr (placesOn_parent_subset hplace))
  · exact fun place hplace => mem_directoriesOn.mpr (.inl hplace)

/-- If a directory above is missing, there are names above. -/
private theorem parent_names_ne_nil
    (h : ¬ ∀ place ∈ tree.placesOn path.parent, tree.node? place = some .directory) :
    path.parent.names ≠ [] := by
  intro hnil
  apply h
  intro place hplace
  rw [placesOn, hnil] at hplace
  cases hplace

/-- Where no file is in the way, all the directories on a path are made. -/
theorem ensureDirectories_of_free {root : PathRoot} {names : List String}
    (hfits : Fits ⟨root, names.reverse⟩)
    (hfree : ∀ place ∈ tree.directoriesOn ⟨root, names.reverse⟩, tree.file? place = none) :
    ∃ made, tree.ensureDirectories root names = (made, .ok ()) ∧
      AddsDirectories tree made ⟨root, names.reverse⟩ := by
  induction names with
  | nil =>
    rw [List.reverse_nil] at hfits hfree ⊢
    have hnone : ∀ place ∈ tree.placesOn (Path.mk root []).parent,
        tree.node? place = some .directory := by simp [placesOn, Path.parent]
    obtain ⟨made, hmade, hadds⟩ :=
      exists_addsDirectories hfits (hfree _ List.mem_cons_self) hnone (.refl tree _)
    exact ⟨made, by rw [ensureDirectories, hmade], hadds⟩
  | cons name above ih =>
    have hparent : (Path.mk root (name :: above).reverse).parent = ⟨root, above.reverse⟩ := by
      simp [Path.parent]
    have hlast := hfree _ List.mem_cons_self
    have hway : ∀ place ∈ tree.placesOn (Path.mk root (name :: above).reverse).parent,
        tree.file? place = none := fun place hplace =>
      hfree place (mem_directoriesOn.mpr (.inr (placesOn_parent_subset hplace)))
    rw [ensureDirectories]
    by_cases hthere : ∀ place ∈ tree.placesOn (Path.mk root (name :: above).reverse).parent,
        tree.node? place = some .directory
    · obtain ⟨made, hmade, hadds⟩ := exists_addsDirectories hfits hlast hthere (.refl tree _)
      exact ⟨made, by rw [hmade], hadds⟩
    · -- the directories above are made first, and then the last one
      have hnames := parent_names_ne_nil hthere
      have hmissing : tree.locate ⟨root, (name :: above).reverse⟩ = .error .notFound := by
        rcases locate_of_free hfits hway with hok | hmissing
        · exact absurd (locate_eq_ok_iff.mp hok).2.1 hthere
        · exact hmissing
      rw [hparent] at hway hnames
      have hdirectories {place : Place} : place ∈ tree.directoriesOn ⟨root, above.reverse⟩ ↔
          place ∈ tree.placesOn ⟨root, above.reverse⟩ := by
        rw [mem_directoriesOn, or_iff_right_iff_imp]
        rintro rfl
        exact target_mem_placesOn hnames
      obtain ⟨made, hmade, hadds⟩ := ih (hparent ▸ hfits.parent (by simp)) fun place hplace =>
        hway place (hdirectories.mp hplace)
      obtain ⟨last, hmadeLast, haddsLast⟩ := exists_addsDirectories hfits hlast
        (hparent.symm ▸ fun place hplace => hadds.there place (hdirectories.mpr hplace))
        (hparent.symm ▸ hadds.grows.mono fun place hplace => hdirectories.mp hplace)
      rw [ensureDirectory_of_notFound hmissing]
      dsimp only
      rw [hmade]
      dsimp only
      exact ⟨last, by rw [hmadeLast], haddsLast⟩

/-- Directories that were made are there. -/
theorem exists_locate_of_ensureDirectories {root : PathRoot} {names : List String}
    {made : FileTree} (h : tree.ensureDirectories root names = (made, .ok ())) :
    ∃ place, made.locate ⟨root, names.reverse⟩ = .ok place ∧
      made.node? place = some .directory := by
  cases names with
  | nil =>
    unfold ensureDirectories at h
    split at h
    · rename_i found hfound
      cases h
      exact exists_locate_of_ensureDirectory hfound
    · cases h
  | cons name above =>
    unfold ensureDirectories at h
    dsimp only at h
    split at h
    · rename_i found hfound
      cases h
      exact exists_locate_of_ensureDirectory hfound
    · split at h
      · cases h
      · split at h
        · rename_i found hfound
          cases h
          exact exists_locate_of_ensureDirectory hfound
        · cases h
    · cases h

/-! ### Replacing -/

/-- What a file must be for it to be replaced: its path is one that a file system takes and ends in
a name, no file stands where a directory must be, and no directory where the file is to be. -/
structure Replaceable (tree : FileTree) (path : Path) : Prop where
  nameable : path.isNameable = true
  fits : Fits path
  named : path.names ≠ [] ∧ path.fileName ≠ ".."
  staged : (isLongName (shownStagedName path.fileName) ||
    isLongPath (absoluteText (tree.target path.parent ++ [shownStagedName path.fileName]))) = false
  free : ∀ place ∈ tree.directoriesOn path.parent, tree.file? place = none
  apart : tree.target path ∉ tree.directoriesOn path.parent
  vacant : tree.node? (tree.target path) ≠ some .directory

/-- What a replacement puts at a place, if anything. -/
def replacement (tree : FileTree) (path : Path) (text : String) (place : Place) : Option Node :=
  if place = tree.target path then some (.file text.toUTF8)
  else if place ∈ tree.directoriesOn path.parent then some .directory
  else none

private theorem rename_eq_ok_iff {source : Place} {content : ByteArray} :
    tree.rename source content path = .ok after ↔
      (path.names ≠ [] ∧ path.fileName ≠ "..") ∧ ∃ place, tree.locate path = .ok place ∧
        tree.node? place ≠ some .directory ∧
        after = (tree.remove source).put place (.file content) := by
  unfold rename
  split
  · rename_i hlast
    simp [List.getLast?_eq_none_iff.mp hlast]
  · rename_i hlast
    simp [Path.fileName, hlast]
  · rename_i name hname hlast
    have hnamed : path.names ≠ [] ∧ path.fileName ≠ ".." := by
      refine ⟨fun hnil => ?_, ?_⟩
      · rw [hnil] at hlast
        cases hlast
      · simpa [Path.fileName, hlast] using hname
    rw [and_iff_right hnamed]
    cases hlocate : tree.locate path with
    | error kind => simp
    | ok place =>
      dsimp only
      split
      · rename_i hnode
        simp [hnode]
      · rename_i hnode
        constructor
        · intro h
          cases h
          exact ⟨place, rfl, hnode, rfl⟩
        · rintro ⟨other, hother, -, rfl⟩
          cases hother
          rfl

variable {pieces : List (List Char)}

/-- Beside a staged file, a rename to the path succeeds as it would without it. -/
private theorem exists_rename_staged_iff {staged : Place} {content : ByteArray}
    (hkept : KeepsDirectories tree (tree.put staged (.file content)))
    (hnone : tree.node? staged = none) (hne : staged ≠ [])
    (hthere : ∀ place ∈ tree.placesOn path.parent, tree.node? place = some .directory) :
    (∃ after, (tree.put staged (.file content)).rename staged content path = .ok after) ↔
      (path.names ≠ [] ∧ path.fileName ≠ "..") ∧ Fits path ∧
        tree.node? (tree.target path) ≠ some .directory := by
  have hlocate (place : Place) : (tree.put staged (.file content)).locate path = .ok place ↔
      Fits path ∧ tree.target path = place := by
    rw [locate_eq_ok_iff, placesOn_of_workingDirectory_eq hkept.workingDirectory,
      target_of_workingDirectory_eq hkept.workingDirectory]
    exact and_congr_right fun _ => and_iff_right fun other hother => hkept.kept (hthere other hother)
  have hnode : (tree.put staged (.file content)).node? (tree.target path) ≠ some .directory ↔
      tree.node? (tree.target path) ≠ some .directory := by
    by_cases heq : tree.target path = staged
    · rw [heq, hnone, node?_put_self _ _ hne]
      simp
    · rw [node?_put_of_ne _ _ heq]
  simp only [rename_eq_ok_iff, hlocate]
  constructor
  · rintro ⟨after, hnamed, place, ⟨hfits, rfl⟩, hvacant, -⟩
    exact ⟨hnamed, hfits, hnode.mp hvacant⟩
  · rintro ⟨hnamed, hfits, hvacant⟩
    exact ⟨_, hnamed, _, ⟨hfits, rfl⟩, hnode.mpr hvacant, rfl⟩

/-- In a tree with the directories, pieces that can be encoded can be staged and moved to the path
exactly if the names allow it and no directory is where the file is to be. -/
private theorem exists_replaceIn_iff {directory : Place}
    (hthere : ∀ place ∈ tree.placesOn path.parent, tree.node? place = some .directory)
    (hencoded : (Text.Utf8.encode pieces).2 = none) :
    (∃ after, tree.replaceIn directory path pieces = (after, .ok ())) ↔
      path.isNameable = true ∧ (isLongName (shownStagedName path.fileName) ||
        isLongPath (absoluteText (directory ++ [shownStagedName path.fileName]))) = false ∧
      (path.names ≠ [] ∧ path.fileName ≠ "..") ∧ Fits path ∧
      tree.node? (tree.target path) ≠ some .directory := by
  rw [← exists_rename_staged_iff
    (keepsDirectories_put_staged tree directory path.fileName (Text.Utf8.encode pieces).1)
    (node?_stagedPlace tree directory path.fileName) (stagedPlace_ne_nil _ _ _) hthere]
  unfold replaceIn
  dsimp only
  rw [hencoded]
  dsimp only
  split
  · rename_i hrefused
    rw [Bool.not_eq_true'] at hrefused
    simp [hrefused]
  · rename_i hnameable
    rw [Bool.not_eq_true, Bool.not_eq_false'] at hnameable
    rw [and_iff_right hnameable]
    split
    · rename_i hlong
      simp [hlong]
    · rename_i hshort
      rw [Bool.not_eq_true] at hshort
      rw [and_iff_right hshort]
      cases (tree.put (tree.stagedPlace directory path.fileName)
          (.file (Text.Utf8.encode pieces).1)).rename
          (tree.stagedPlace directory path.fileName) (Text.Utf8.encode pieces).1 path with
      | ok renamed => simp
      | error kind => simp

/-- The directories can be made, and the file's place is then as it was. -/
private theorem Replaceable.exists_made (h : Replaceable tree path) :
    ∃ made, tree.ensureDirectories path.parent.root path.parent.names.reverse = (made, .ok ()) ∧
      AddsDirectories tree made path.parent ∧
      made.node? (tree.target path) = tree.node? (tree.target path) := by
  have hparent : Path.mk path.parent.root path.parent.names.reverse.reverse = path.parent := by
    rw [List.reverse_reverse]
  obtain ⟨made, hmade, hadds⟩ := @ensureDirectories_of_free tree path.parent.root
    path.parent.names.reverse (by rw [hparent]; exact h.fits.parent h.named.1)
    (by rw [hparent]; exact h.free)
  rw [hparent] at hadds
  refine ⟨made, hmade, hadds, ?_⟩
  by_contra hchanged
  exact h.apart (hadds.grows.of_node?_ne hchanged).2.2

/-- A file that can be replaced is replaced, by a text that can be encoded. -/
theorem Replaceable.exists_replace (h : Replaceable tree path)
    (hencoded : (Text.Utf8.encode pieces).2 = none) :
    ∃ after, tree.replace path pieces = (after, .ok ()) := by
  obtain ⟨made, hmade, hadds, htarget⟩ := h.exists_made
  have hworking := hadds.grows.workingDirectory
  have hplaces {p : Path} := @placesOn_of_workingDirectory_eq _ _ hworking p
  have hthere : ∀ place ∈ made.placesOn path.parent, made.node? place = some .directory := by
    intro place hplace
    rw [hplaces] at hplace
    exact hadds.there place (mem_directoriesOn.mpr (.inr hplace))
  have hnameable : path.parent.isNameable = true := by
    have hall := h.nameable
    rw [Path.isNameable, List.all_eq_true] at hall ⊢
    exact fun name hname => hall name (List.dropLast_subset _ hname)
  have hlocate : made.locate path.parent = .ok (tree.target path.parent) :=
    locate_eq_ok_iff.mpr ⟨h.fits.parent h.named.1,
      fun place hplace => hthere place (placesOn_parent_subset hplace),
      target_of_workingDirectory_eq hworking _⟩
  have hvacant : made.node? (made.target path) ≠ some .directory := by
    rw [target_of_workingDirectory_eq hworking, htarget]
    exact h.vacant
  obtain ⟨after, hafter⟩ : ∃ after, made.replaceIn (tree.target path.parent) path pieces =
      (after, .ok ()) :=
    (exists_replaceIn_iff hthere hencoded).mpr ⟨h.nameable, h.staged, h.named, h.fits, hvacant⟩
  refine ⟨after, ?_⟩
  unfold replace
  dsimp only
  rw [hnameable, hmade]
  dsimp only
  rw [hlocate]
  exact hafter

/-- Directories that were made are there, and so are those on the way to them. -/
private theorem directories_of_ensureDirectories {root : PathRoot} {names : List String}
    {made : FileTree} (h : tree.ensureDirectories root names = (made, .ok ())) :
    Fits ⟨root, names.reverse⟩ ∧
      ∀ place ∈ tree.directoriesOn ⟨root, names.reverse⟩, made.node? place = some .directory := by
  have hgrows := ensureDirectories_grows tree root names
  rw [h] at hgrows
  obtain ⟨place, hlocate, hnode⟩ := exists_locate_of_ensureDirectories h
  obtain ⟨hfits, hway, rfl⟩ := locate_eq_ok_iff.mp hlocate
  refine ⟨hfits, fun other hother => ?_⟩
  rw [← directoriesOn_of_workingDirectory_eq hgrows.workingDirectory] at hother
  rcases mem_directoriesOn.mp hother with rfl | hother
  · exact hnode
  · rcases eq_or_mem_of_mem_placesOn hother with rfl | hother
    · exact hnode
    · exact hway other hother

/-- A replacement that succeeds makes the directories, and then moves the staged text. -/
private theorem exists_replaceIn_of_replace (h : tree.replace path pieces = (after, .ok ())) :
    ∃ made, tree.ensureDirectories path.parent.root path.parent.names.reverse = (made, .ok ()) ∧
      made.replaceIn (made.target path.parent) path pieces = (after, .ok ()) := by
  unfold replace at h
  dsimp only at h
  split at h
  · cases h
  · split at h
    · cases h
    · rename_i made hmade
      split at h
      · cases h
      · rename_i place hplace
        obtain ⟨-, -, rfl⟩ := locate_eq_ok_iff.mp hplace
        exact ⟨made, hmade, h⟩

theorem Replaceable.of_replace (h : tree.replace path pieces = (after, .ok ())) :
    Replaceable tree path := by
  obtain ⟨made, hmade, hreplaced⟩ := exists_replaceIn_of_replace h
  have hgrows := ensureDirectories_grows tree path.parent.root path.parent.names.reverse
  obtain ⟨hparent, hnode⟩ := directories_of_ensureDirectories hmade
  rw [hmade] at hgrows
  rw [List.reverse_reverse] at hparent hnode
  change ∀ place ∈ tree.directoriesOn path.parent, _ at hnode
  have hworking := hgrows.workingDirectory
  have hthere : ∀ place ∈ made.placesOn path.parent, made.node? place = some .directory := by
    intro place hplace
    rw [placesOn_of_workingDirectory_eq hworking] at hplace
    exact hnode place (mem_directoriesOn.mpr (.inr hplace))
  obtain ⟨hnameable, -, hencoded⟩ := path_of_replace h
  obtain ⟨-, hstaged, hnamed, hfits, hvacant⟩ :=
    (exists_replaceIn_iff hthere hencoded).mp ⟨after, hreplaced⟩
  rw [target_of_workingDirectory_eq hworking] at hstaged hvacant
  refine ⟨hnameable, hfits, hnamed, hstaged, ?_, ?_, ?_⟩
  · intro place hplace
    rw [← hgrows.file?_eq, file?, hnode place hplace]
  · exact fun hmem => hvacant (hnode _ hmem)
  · exact fun hdirectory => hvacant (hgrows.kept hdirectory)

/-- A replacement that succeeds puts the file and the directories on the way to it at their places,
and nothing else. -/
theorem node?_of_replace (h : tree.replace path pieces = (after, .ok ())) (place : Place) :
    after.node? place =
      (tree.replacement path (.ofList pieces.flatten) place).or (tree.node? place) := by
  obtain ⟨made, hmade, hreplaced⟩ := exists_replaceIn_of_replace h
  obtain ⟨others, hothers, ⟨hnode, hgrows⟩, -⟩ := (Replaceable.of_replace h).exists_made
  obtain rfl : made = others := congrArg Prod.fst (hmade.symm.trans hothers)
  obtain ⟨found, hlocate, hfile, hothers, hkept⟩ := exists_place_of_replaceIn hreplaced
  obtain ⟨-, -, rfl⟩ := locate_eq_ok_iff.mp hlocate
  rw [target_of_workingDirectory_eq (hkept.workingDirectory.trans hgrows.workingDirectory)]
    at hfile hothers
  unfold replacement
  by_cases htarget : place = tree.target path
  · rw [if_pos htarget, htarget]
    exact hfile
  · rw [if_neg htarget, hothers place htarget]
    by_cases hplace : place ∈ tree.directoriesOn path.parent
    · rw [if_pos hplace]
      exact hnode place hplace
    · rw [if_neg hplace]
      by_contra hchanged
      exact hplace (hgrows.of_node?_ne hchanged).2.2

/-- Of the files only the one that the path leads to is touched. -/
theorem file?_of_replace (h : tree.replace path pieces = (after, .ok ()))
    (hne : place ≠ tree.target path) : after.file? place = tree.file? place := by
  have hnode := node?_of_replace h place
  unfold replacement at hnode
  rw [if_neg hne] at hnode
  by_cases hplace : place ∈ tree.directoriesOn path.parent
  · rw [if_pos hplace] at hnode
    rw [(Replaceable.of_replace h).free place hplace, file?, hnode]
    rfl
  · rw [if_neg hplace] at hnode
    exact file?_eq_of_node?_eq hnode

/-! ### From one tree to another -/

variable {other : FileTree}

theorem replacement_of_workingDirectory_eq (h : other.workingDirectory = tree.workingDirectory)
    (path : Path) (text : String) : other.replacement path text = tree.replacement path text := by
  funext place
  rw [replacement, replacement, target_of_workingDirectory_eq h,
    directoriesOn_of_workingDirectory_eq h]

/-- What does not depend on the names alone must be so in the other tree, too. -/
theorem Replaceable.of_tree (h : Replaceable tree path)
    (hworking : other.workingDirectory = tree.workingDirectory)
    (hfree : ∀ place ∈ tree.directoriesOn path.parent, other.file? place = none)
    (hvacant : other.node? (tree.target path) ≠ some .directory) : Replaceable other path := by
  have htarget {p : Path} := target_of_workingDirectory_eq hworking p
  have hdirectories {p : Path} := directoriesOn_of_workingDirectory_eq hworking p
  refine ⟨h.nameable, h.fits, h.named, ?_, ?_, ?_, ?_⟩
  · rw [htarget]
    exact h.staged
  · rw [hdirectories]
    exact hfree
  · rw [htarget, hdirectories]
    exact h.apart
  · rw [htarget]
    exact hvacant

/-- What is a directory stays one, and what is a file stays one, although its content may change. -/
structure KeepsKinds (before after : FileTree) : Prop where
  workingDirectory : after.workingDirectory = before.workingDirectory
  kept : ∀ {place node}, before.node? place = some node →
    (after.node? place).map Node.isDirectory = some node.isDirectory

namespace KeepsKinds

variable {before middle : FileTree}

theorem refl (tree : FileTree) : KeepsKinds tree tree where
  workingDirectory := rfl
  kept h := by rw [h, Option.map_some]

theorem trans (hfirst : KeepsKinds before middle) (hsecond : KeepsKinds middle after) :
    KeepsKinds before after where
  workingDirectory := hsecond.workingDirectory.trans hfirst.workingDirectory
  kept h := by
    obtain ⟨node, hnode, hkind⟩ := Option.map_eq_some_iff.mp (hfirst.kept h)
    rw [hsecond.kept hnode, hkind]

theorem keepsDirectories (h : KeepsKinds before after) : KeepsDirectories before after where
  workingDirectory := h.workingDirectory
  kept hplace := by
    obtain ⟨node, hnode, hkind⟩ := Option.map_eq_some_iff.mp (h.kept hplace)
    cases node with
    | directory => exact hnode
    | file content => cases hkind

theorem ne_directory (h : KeepsKinds before after) {content : ByteArray}
    (hfile : before.node? place = some (.file content)) : after.node? place ≠ some .directory := by
  intro hdirectory
  have hkind := h.kept hfile
  rw [hdirectory] at hkind
  cases hkind

end KeepsKinds

theorem Grows.keepsKinds {before : FileTree} {places : Place → Prop}
    (h : Grows before after places) : KeepsKinds before after where
  workingDirectory := h.workingDirectory
  kept hnode := by rw [h.kept hnode, Option.map_some]

theorem keepsKinds_of_replace (h : tree.replace path pieces = (after, .ok ())) :
    KeepsKinds tree after := by
  have hreplaceable := Replaceable.of_replace h
  refine ⟨(keepsDirectories_of_replace h).workingDirectory, fun {place node} hnode => ?_⟩
  rw [node?_of_replace h place, replacement]
  split_ifs with htarget hdirectory
  · cases node with
    | directory => exact absurd (htarget ▸ hnode) hreplaceable.vacant
    | file content => rfl
  · have hnone := hreplaceable.free place hdirectory
    cases node with
    | directory => rfl
    | file content =>
      rw [file?, hnode] at hnone
      cases hnone
  · rw [Option.none_or, hnode]
    rfl

/-- What was replaced once can be replaced again, as long as nothing has become a file that was a
directory then, or the other way round. -/
theorem Replaceable.again (h : tree.replace path pieces = (after, .ok ()))
    (hkinds : KeepsKinds after other) : Replaceable other path := by
  have hreplaceable := Replaceable.of_replace h
  refine hreplaceable.of_tree (hkinds.workingDirectory.trans
    (keepsDirectories_of_replace h).workingDirectory) (fun place hplace => ?_) ?_
  · have hne : place ≠ tree.target path := fun heq => hreplaceable.apart (heq ▸ hplace)
    have hnode : after.node? place = some .directory := by
      rw [node?_of_replace h, replacement, if_neg hne, if_pos hplace, Option.some_or]
    rw [file?, hkinds.keepsDirectories.kept hnode]
  · have hnode : after.node? (tree.target path) =
        some (.file (String.ofList pieces.flatten).toUTF8) := by
      rw [node?_of_replace h, replacement, if_pos rfl, Option.some_or]
    exact hkinds.ne_directory hnode

theorem read_eq_ok_iff {content : ByteArray} : tree.read path = .ok content ↔
    path.isNameable = true ∧ tree.locate path = .ok (tree.target path) ∧
      tree.file? (tree.target path) = some content := by
  unfold read FileTree.content
  cases hnameable : path.isNameable with
  | false => simp
  | true =>
    cases hlocate : tree.locate path with
    | error kind => simp [Except.mapError]
    | ok place =>
      obtain ⟨-, -, rfl⟩ := locate_eq_ok_iff.mp hlocate
      unfold file?
      dsimp only
      cases tree.node? (tree.target path) with
      | none => simp [Except.mapError]
      | some node => cases node <;> simp [Except.mapError]

/-- A file that can be read can be read wherever no directory is missing and the file is the same.
-/
theorem read_of_keepsDirectories {content : ByteArray} (hread : tree.read path = .ok content)
    (hkept : KeepsDirectories tree other)
    (hfile : other.file? (tree.target path) = tree.file? (tree.target path)) :
    other.read path = .ok content := by
  obtain ⟨hnameable, hlocate, hcontent⟩ := read_eq_ok_iff.mp hread
  rw [read_eq_ok_iff, target_of_workingDirectory_eq hkept.workingDirectory]
  exact ⟨hnameable, hkept.locate hlocate, hfile.trans hcontent⟩

end FeedMerge.FileTree
