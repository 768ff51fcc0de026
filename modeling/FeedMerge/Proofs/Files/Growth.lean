import FeedMerge.Files.Tree
import Mathlib.Data.List.Induction

/-!
# What making directories changes

Every operation on a tree is seen through `node?`, the file or directory at a place. A tree `Grows`
into another one if all that was there stays as it was and only directories were added, at places
from a given set; following a path and making directories are described by it alone. Files are not
affected by growth, so whatever is proved of a tree before a destination is prepared still holds of
its files afterwards.
-/

namespace FeedMerge.FileTree

/-! ### What is at a place -/

private theorem lookup_filter_ne {α : Type} (nodes : List (Place × α)) {place other : Place}
    (h : other ≠ place) :
    (nodes.filter fun (p, _) => p ≠ place).lookup other = nodes.lookup other := by
  induction nodes with
  | nil => rfl
  | cons entry rest ih =>
    obtain ⟨p, node⟩ := entry
    by_cases hp : p = place
    · subst hp
      have hother : (other == p) = false := by simpa using h
      simpa [List.lookup_cons, hother] using ih
    · by_cases hother : other = p
      · simp [hp, hother]
      · have hne : (other == p) = false := by simpa using hother
        simpa [hp, List.lookup_cons, hne] using ih

private theorem lookup_filter_self {α : Type} (nodes : List (Place × α)) (place : Place) :
    (nodes.filter fun (p, _) => p ≠ place).lookup place = none := by
  rw [List.lookup_eq_none_iff]
  intro entry hentry
  have hne : entry.1 ≠ place := by simpa using (List.mem_filter.mp hentry).2
  simpa using Ne.symm hne

theorem node?_nil (tree : FileTree) : tree.node? [] = some .directory := by
  simp [node?]

theorem node?_remove_of_ne (tree : FileTree) {place other : Place} (h : other ≠ place) :
    (tree.remove place).node? other = tree.node? other := by
  unfold node? remove
  rw [lookup_filter_ne tree.nodes h]

theorem node?_remove_self (tree : FileTree) {place : Place} (h : place ≠ []) :
    (tree.remove place).node? place = none := by
  unfold node? remove
  rw [if_neg h, lookup_filter_self tree.nodes place]

theorem node?_put_of_ne (tree : FileTree) {place other : Place} (node : Node) (h : other ≠ place) :
    (tree.put place node).node? other = tree.node? other := by
  have hother : (other == place) = false := by simpa using h
  rw [← node?_remove_of_ne tree h]
  simp [node?, put, List.lookup_cons, hother]

theorem node?_put_self (tree : FileTree) {place : Place} (node : Node) (h : place ≠ []) :
    (tree.put place node).node? place = some node := by
  simp [node?, put, h]

theorem file?_eq_none_of_node? {tree : FileTree} {place : Place} (h : tree.node? place = none) :
    tree.file? place = none := by
  rw [file?, h]

theorem file?_eq_of_node?_eq {before after : FileTree} {place : Place}
    (h : after.node? place = before.node? place) : after.file? place = before.file? place := by
  rw [file?, file?, h]

/-! ### Growth by directories -/

/-- All that is in the first tree is in the second, which has nothing else but directories at some
of the given places. -/
structure Grows (before after : FileTree) (places : Place → Prop) : Prop where
  kept : ∀ {place node}, before.node? place = some node → after.node? place = some node
  added : ∀ {place}, before.node? place = none →
    after.node? place = none ∨ (after.node? place = some .directory ∧ places place)
  workingDirectory : after.workingDirectory = before.workingDirectory

namespace Grows

variable {before middle after : FileTree} {places : Place → Prop}

theorem of_node?_eq (hnode : ∀ place, after.node? place = before.node? place)
    (hdirectory : after.workingDirectory = before.workingDirectory) :
    Grows before after places where
  kept h := (hnode _).trans h
  added h := .inl ((hnode _).trans h)
  workingDirectory := hdirectory

theorem refl (tree : FileTree) (places : Place → Prop) : Grows tree tree places :=
  of_node?_eq (fun _ => rfl) rfl

theorem trans (hfirst : Grows before middle places) (hsecond : Grows middle after places) :
    Grows before after places where
  kept h := hsecond.kept (hfirst.kept h)
  added h := by
    rcases hfirst.added h with hnone | ⟨hnode, hplace⟩
    · exact hsecond.added hnone
    · exact .inr ⟨hsecond.kept hnode, hplace⟩
  workingDirectory := hsecond.workingDirectory.trans hfirst.workingDirectory

theorem mono {more : Place → Prop} (h : Grows before after places)
    (hmore : ∀ place, places place → more place) : Grows before after more where
  kept := h.kept
  added hnone := (h.added hnone).imp_right fun ⟨hnode, hplace⟩ => ⟨hnode, hmore _ hplace⟩
  workingDirectory := h.workingDirectory

/-- Growth does not touch files. -/
theorem file?_eq (h : Grows before after places) (place : Place) :
    after.file? place = before.file? place := by
  cases hbefore : before.node? place with
  | some node => exact file?_eq_of_node?_eq ((h.kept hbefore).trans hbefore.symm)
  | none =>
    rw [file?_eq_none_of_node? hbefore]
    rcases h.added hbefore with hafter | ⟨hafter, -⟩ <;> rw [file?, hafter]

/-- A place that growth has changed holds a directory where there was nothing. -/
theorem of_node?_ne (h : Grows before after places) {place : Place}
    (hne : after.node? place ≠ before.node? place) :
    before.node? place = none ∧ after.node? place = some .directory ∧ places place := by
  cases hbefore : before.node? place with
  | some node => exact absurd ((h.kept hbefore).trans hbefore.symm) hne
  | none =>
    rcases h.added hbefore with hafter | ⟨hafter, hplace⟩
    · exact absurd (hafter.trans hbefore.symm) hne
    · exact ⟨rfl, hafter, hplace⟩

end Grows

theorem grows_put_directory {tree : FileTree} {place : Place} {places : Place → Prop}
    (hnone : tree.node? place = none) (hplace : places place) :
    Grows tree (tree.put place .directory) places where
  kept {other node} h := by
    have hne : other ≠ place := by
      rintro rfl
      rw [hnone] at h
      cases h
    rw [node?_put_of_ne tree _ hne, h]
  added {other} h := by
    by_cases hother : other = place
    · subst hother
      have hne : other ≠ [] := by
        rintro rfl
        rw [node?_nil] at h
        cases h
      exact .inr ⟨node?_put_self tree _ hne, hplace⟩
    · exact .inl ((node?_put_of_ne tree _ hother).trans h)
  workingDirectory := rfl

/-! ### Following paths -/

/-- The place that a path begins at. -/
def start (tree : FileTree) (path : Path) : Place :=
  if path.isAbsolute then [] else tree.workingDirectory

/-- The places that a path passes: where it begins, and where the first of its names lead. -/
def OnTheWay (tree : FileTree) (path : Path) (place : Place) : Prop :=
  ∃ names, names <+: path.names ∧ place = names.foldl enter (tree.start path)

theorem onTheWay_of_workingDirectory_eq {before after : FileTree}
    (h : after.workingDirectory = before.workingDirectory) (path : Path) :
    after.OnTheWay path = before.OnTheWay path := by
  unfold OnTheWay start
  rw [h]

theorem OnTheWay.of_prefix {tree : FileTree} {root : PathRoot} {names more : List String}
    {place : Place} (h : tree.OnTheWay ⟨root, names⟩ place) (hnames : names <+: more) :
    tree.OnTheWay ⟨root, more⟩ place := by
  obtain ⟨first, hfirst, hplace⟩ := h
  exact ⟨first, hfirst.trans hnames, hplace⟩

theorem eq_foldl_of_follow {tree : FileTree} {names : List String} {place found : Place}
    (h : tree.follow place names = .ok found) : found = names.foldl enter place := by
  induction names generalizing place with
  | nil => simpa [follow] using h.symm
  | cons name names ih =>
    unfold follow at h
    split at h
    · cases h
    · split at h
      · rename_i hnames
        rw [List.isEmpty_iff.mp hnames]
        simpa using h.symm
      · split at h
        · exact ih h
        · cases h
        · cases h

/-- A path leads to the same place in every tree with the same directories. -/
theorem follow_of_directories {before after : FileTree}
    (hkept : ∀ place, before.node? place = some .directory → after.node? place = some .directory)
    {names : List String} {place found : Place} (h : before.follow place names = .ok found) :
    after.follow place names = .ok found := by
  induction names generalizing place with
  | nil => exact h
  | cons name names ih =>
    unfold follow at h ⊢
    split at h
    · cases h
    · rename_i hlong
      rw [if_neg hlong]
      split at h
      · rename_i hnames
        rw [if_pos hnames]
        exact h
      · rename_i hnames
        rw [if_neg hnames]
        split at h
        · rename_i hnode
          rw [hkept _ hnode]
          exact ih h
        · cases h
        · cases h

theorem locate_eq_ok {tree : FileTree} {path : Path} {place : Place} :
    tree.locate path = .ok place ↔
      isLongPath path.text = false ∧ tree.follow (tree.start path) path.names = .ok place := by
  unfold locate start
  cases isLongPath path.text <;> simp

theorem onTheWay_of_locate {tree : FileTree} {path : Path} {place : Place}
    (h : tree.locate path = .ok place) : tree.OnTheWay path place :=
  ⟨path.names, List.prefix_rfl, eq_foldl_of_follow (locate_eq_ok.mp h).2⟩

theorem locate_of_directories {before after : FileTree}
    (hdirectory : after.workingDirectory = before.workingDirectory)
    (hkept : ∀ place, before.node? place = some .directory → after.node? place = some .directory)
    {path : Path} {place : Place} (h : before.locate path = .ok place) :
    after.locate path = .ok place := by
  obtain ⟨hlong, hfollow⟩ := locate_eq_ok.mp h
  have hstart : after.start path = before.start path := by
    unfold start
    rw [hdirectory]
  refine locate_eq_ok.mpr ⟨hlong, ?_⟩
  rw [hstart]
  exact follow_of_directories hkept hfollow

/-- Whatever else happens to the files, no directory is lost, and the working directory is the same.
-/
structure KeepsDirectories (before after : FileTree) : Prop where
  workingDirectory : after.workingDirectory = before.workingDirectory
  kept : ∀ {place}, before.node? place = some .directory → after.node? place = some .directory

namespace KeepsDirectories

variable {before middle after : FileTree}

theorem refl (tree : FileTree) : KeepsDirectories tree tree := ⟨rfl, id⟩

theorem trans (hfirst : KeepsDirectories before middle) (hsecond : KeepsDirectories middle after) :
    KeepsDirectories before after where
  workingDirectory := hsecond.workingDirectory.trans hfirst.workingDirectory
  kept h := hsecond.kept (hfirst.kept h)

/-- While directories are kept, a path goes on leading where it leads. -/
theorem locate (h : KeepsDirectories before after) {path : Path} {place : Place}
    (hlocate : before.locate path = .ok place) : after.locate path = .ok place :=
  locate_of_directories h.workingDirectory (fun _ => h.kept) hlocate

end KeepsDirectories

theorem Grows.keepsDirectories {before after : FileTree} {places : Place → Prop}
    (h : Grows before after places) : KeepsDirectories before after :=
  ⟨h.workingDirectory, h.kept⟩

/-! ### Making directories -/

theorem makeDirectory_grows {tree after : FileTree} {path : Path}
    (h : tree.makeDirectory path = .ok after) : Grows tree after (tree.OnTheWay path) := by
  unfold makeDirectory at h
  split at h
  · cases h
  · rename_i place hplace
    split at h
    · cases h
    · rename_i hnone
      obtain rfl : tree.put place .directory = after := by simpa using h
      exact grows_put_directory hnone (onTheWay_of_locate hplace)

theorem ensureDirectory_grows {tree after : FileTree} {path : Path}
    (h : tree.ensureDirectory path = .ok after) : Grows tree after (tree.OnTheWay path) := by
  unfold ensureDirectory at h
  split at h
  · rename_i made hmade
    obtain rfl : made = after := by simpa using h
    exact makeDirectory_grows hmade
  · split at h
    · obtain rfl : tree = after := by simpa using h
      exact .refl _ _
    · cases h

/-- Whether it succeeds or fails, making a directory with those above it adds only directories on
the way to it. -/
theorem ensureDirectories_grows (tree : FileTree) (root : PathRoot) (names : List String) :
    Grows tree (tree.ensureDirectories root names).1 (tree.OnTheWay ⟨root, names.reverse⟩) := by
  induction names with
  | nil =>
    unfold ensureDirectories
    split
    · rename_i made hmade
      exact ensureDirectory_grows hmade
    · exact .refl _ _
  | cons name above ih =>
    have hway : ∀ place, tree.OnTheWay ⟨root, above.reverse⟩ place →
        tree.OnTheWay ⟨root, (name :: above).reverse⟩ place := fun place h =>
      h.of_prefix (by simp)
    have habove := ih.mono hway
    rw [ensureDirectories]
    cases hmade : tree.ensureDirectory ⟨root, (name :: above).reverse⟩ with
    | ok made => exact ensureDirectory_grows hmade
    | error kind =>
      cases kind with
      | notFound =>
        rcases hmadeAbove : tree.ensureDirectories root above with ⟨made, _ | _⟩
        · rwa [hmadeAbove] at habove
        · rw [hmadeAbove] at habove
          dsimp only at habove ⊢
          split
          · rename_i after hafter
            have hlast := ensureDirectory_grows hafter
            rw [onTheWay_of_workingDirectory_eq habove.workingDirectory] at hlast
            exact habove.trans hlast
          · exact habove
      | _ => exact .refl _ _

/-! ### Trees with a directory above everything -/

/-- Whatever is in the tree stands in a directory. -/
def IsRooted (tree : FileTree) : Prop :=
  ∀ place name node, tree.node? (place ++ [name]) = some node → tree.node? place = some .directory

theorem IsRooted.directory_above {tree : FileTree} (h : tree.IsRooted) {place : Place} {node : Node}
    (names : List String) (hne : names ≠ []) (hnode : tree.node? (place ++ names) = some node) :
    tree.node? place = some .directory := by
  induction names using List.reverseRecOn generalizing node with
  | nil => exact absurd rfl hne
  | append_singleton names name ih =>
    rw [← List.append_assoc] at hnode
    have habove := h _ _ _ hnode
    by_cases hnames : names = []
    · simpa [hnames] using habove
    · exact ih hnames habove

/-- In a directory that growth has added there is no file, at any depth. -/
theorem Grows.file?_below_eq_none {before after : FileTree} {places : Place → Prop}
    (h : Grows before after places) (hrooted : before.IsRooted) {place below : Place}
    (hnew : before.node? place = none) (hbelow : place <+: below) : after.file? below = none := by
  obtain ⟨names, rfl⟩ := hbelow
  rw [h.file?_eq]
  cases hnode : before.node? (place ++ names) with
  | none => exact file?_eq_none_of_node? hnode
  | some node =>
    have hne : names ≠ [] := by
      rintro rfl
      rw [List.append_nil, hnew] at hnode
      cases hnode
    rw [hrooted.directory_above names hne hnode] at hnew
    cases hnew

end FeedMerge.FileTree
