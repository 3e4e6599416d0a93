import LintRepair.FileTree
import LintRepair.Proofs.Batch.Paths

/-!
Stores that keep files apart.

Paths are compared by their components alone, so work on several paths can only be kept apart if a
store does the same: paths with the same components lead to the same file, and paths with different
components to different files. A file tree does so for the paths that hold names only. With two dots
in a path, or one in front, the same file has more than one list of components.

* `FileStore.KeepsApart`: what a write does to the files of the known paths.
* `FileTree.node?_setNode`, `FileTree.walk_congr`: a written file changes no way through the tree.
* `FileTree.keepsApart`: a file tree keeps the files of plain paths apart.
-/

namespace LintRepair

/-- Files that can be read can be written, and a write changes the file with the components of its
path and no other one, as far as some known paths can tell. -/
structure FileStore.KeepsApart (σ : Type) [FileStore σ] (known : Path → Prop) : Prop where
  writable : ∀ {store : σ} {path : Path} {old : ByteArray} (bytes : ByteArray), known path →
    FileStore.read store path = .ok old → ∃ written, FileStore.write store path bytes = .ok written
  read_written : ∀ {store written : σ} {path other : Path} {old bytes : ByteArray}, known path →
    known other → FileStore.read store path = .ok old →
      FileStore.write store path bytes = .ok written →
        FileStore.read written other =
          if other.components = path.components then (FileStore.read store other).map fun _ => bytes
          else FileStore.read store other

/-! ### Plain paths -/

/-- A path that holds names only. -/
def Path.Plain (path : Path) : Prop :=
  ∃ names : List String, path.components = names.map .name

/-- A plain path begins in the working folder, and its segments are its names and blanks. -/
lemma Path.segments_of_plain {path : Path} {names : List String}
    (h : path.components = names.map .name) :
    path.isAbsolute = false ∧ path.segments.filterMap componentOf = names.map .name := by
  rw [components] at h
  split_ifs at h with habsolute hcurrent
  · cases names <;> simp at h
  · cases names <;> simp at h
  · exact ⟨Bool.eq_false_iff.mpr habsolute, h⟩

namespace FileTree

variable {tree tree' : FileTree} {names other : List String} {old : ByteArray}

/-! ### The way along a path -/

lemma eq_of_inFolder {location location' : Location} (h : tree.inFolder location = .ok location') :
    location' = location := by
  cases location with
  | outside => exact (Except.ok.inj h).symm
  | inside names =>
    rw [inFolder] at h
    split at h
    · exact (Except.ok.inj h).symm
    · simp at h
    · simp at h

lemma eq_of_enter {name : String} {location : Location}
    (h : tree.enter name (.inside names) = .ok location) :
    location = .inside (names ++ [name]) := by
  rw [enter] at h
  split at h
  · simp at h
  · simp at h
  · split_ifs at h
    exact (Except.ok.inj h).symm

/-- A walk along names and blanks ends below its start, at the end of these names. -/
lemma walk_names {segments : List String} {location : Location} (start : List String)
    (hsegments : segments.filterMap Path.componentOf = names.map .name)
    (h : tree.walk segments (.inside start) = .ok location) :
    location = .inside (start ++ names) := by
  induction segments generalizing start names with
  | nil =>
    have hnames : names = [] := by simpa using hsegments.symm
    simpa [walk, hnames] using h.symm
  | cons segment rest ih =>
    rw [walk] at h
    rw [List.filterMap_cons, Path.componentOf] at hsegments
    split at h
    · simp at h
    · rename_i location' hstep
      split_ifs at hstep hsegments with hblank hparent
      · rw [eq_of_inFolder hstep] at h
        exact ih start hsegments h
      · cases names <;> simp at hsegments
      · obtain _ | ⟨name, names⟩ := names
        · simp at hsegments
        simp only [List.map_cons, List.cons.injEq, Component.name.injEq] at hsegments
        rw [eq_of_enter hstep] at h
        rw [ih _ hsegments.2 h, hsegments.1, List.append_assoc, List.singleton_append]

/-- A plain path leads to the end of its names, if anywhere. -/
lemma locate_plain {path : Path} {location : Location} (hpath : path.components = names.map .name)
    (h : tree.locate path = .ok location) : location = .inside names := by
  obtain ⟨habsolute, hsegments⟩ := Path.segments_of_plain hpath
  rw [locate] at h
  split at h
  · simp at h
  · rw [origin, habsolute] at h
    exact walk_names [] hsegments h

/-! ### A written file -/

/-- A file that gets new bytes is the only node that changes. -/
lemma node?_setNode (h : tree.node? names = some (.file old)) (bytes : ByteArray)
    (other : List String) :
    (tree.setNode names (.file bytes)).node? other =
      if other = names then some (.file bytes) else tree.node? other := by
  have hne : names ≠ [] := by
    rintro rfl
    simp [node?] at h
  have hlookup : tree.nodes.lookup names = some (.file old) := by simpa [node?, hne] using h
  have hset : ∀ nodes : List (List String × Node), (nodes.map fun entry =>
        if entry.1 = names then (names, Node.file bytes) else entry).lookup other =
      if other = names then (nodes.lookup other).map fun _ => .file bytes
      else nodes.lookup other := by
    intro nodes
    induction nodes with
    | nil => simp
    | cons entry rest ih =>
      obtain ⟨key, node⟩ := entry
      grind
  by_cases hother : other = names
  · subst hother
    simp [setNode, node?, hne, hlookup, hset]
  · simp [setNode, node?, hlookup, hset, hother]

/-- What stands at the end of some names. -/
def kindAt (tree : FileTree) (names : List String) : Option FileKind :=
  (tree.node? names).map fun
    | .file _ => .file
    | .folder => .folder

lemma node?_of_kindAt (h : tree.kindAt names = tree'.kindAt names) :
    (tree.node? names = none ∧ tree'.node? names = none) ∨
      (tree.node? names = some .folder ∧ tree'.node? names = some .folder) ∨
      ∃ old new, tree.node? names = some (.file old) ∧ tree'.node? names = some (.file new) := by
  rw [kindAt, kindAt] at h
  generalize tree.node? names = node at *
  generalize tree'.node? names = node' at *
  rcases node with _ | _ | _ <;> rcases node' with _ | _ | _ <;> simp at h ⊢

lemma enter_congr (h : ∀ names, tree.kindAt names = tree'.kindAt names) (name : String)
    (location : Location) : tree.enter name location = tree'.enter name location := by
  cases location with
  | outside => rfl
  | inside names =>
    have hnext :
        (tree.node? (names ++ [name])).isSome = (tree'.node? (names ++ [name])).isSome := by
      simpa [kindAt] using congrArg Option.isSome (h (names ++ [name]))
    rw [enter, enter, hnext]
    obtain ⟨hl, hr⟩ | ⟨hl, hr⟩ | ⟨old, new, hl, hr⟩ := node?_of_kindAt (h names) <;> rw [hl, hr]

lemma inFolder_congr (h : ∀ names, tree.kindAt names = tree'.kindAt names) (location : Location) :
    tree.inFolder location = tree'.inFolder location := by
  cases location with
  | outside => rfl
  | inside names =>
    rw [inFolder, inFolder]
    obtain ⟨hl, hr⟩ | ⟨hl, hr⟩ | ⟨old, new, hl, hr⟩ := node?_of_kindAt (h names) <;> rw [hl, hr]

/-- The way along a path depends on what the nodes are, not on what the files hold. -/
lemma walk_congr (h : ∀ names, tree.kindAt names = tree'.kindAt names) (segments : List String)
    (location : Location) : tree.walk segments location = tree'.walk segments location := by
  induction segments generalizing location with
  | nil => rfl
  | cons segment rest ih => simp only [walk, inFolder_congr h, enter_congr h, ih]

lemma locate_setNode (h : tree.node? names = some (.file old)) (bytes : ByteArray) (path : Path) :
    (tree.setNode names (.file bytes)).locate path = tree.locate path := by
  have hkind : ∀ other, (tree.setNode names (.file bytes)).kindAt other = tree.kindAt other := by
    intro other
    rw [kindAt, kindAt, node?_setNode h]
    split_ifs with hother
    · rw [hother, h]
      rfl
    · rfl
  rw [locate, locate, walk_congr hkind]

lemma read_setNode {path : Path} (h : tree.node? names = some (.file old)) (bytes : ByteArray)
    (hpath : path.components = other.map .name) :
    (tree.setNode names (.file bytes)).read path =
      if other = names then (tree.read path).map fun _ => bytes else tree.read path := by
  rw [read, read, locate_setNode h]
  cases hlocate : tree.locate path with
  | error e => simp [Except.map]
  | ok location =>
    rw [locate_plain hpath hlocate]
    simp only [node?_setNode h]
    split_ifs with hother
    · rw [hother, h]
      rfl
    · rfl

/-- Where the file of a plain path is written. -/
lemma write_plain {path : Path} (hpath : path.components = names.map .name)
    (h : tree.read path = .ok old) (bytes : ByteArray) :
    tree.node? names = some (.file old) ∧
      tree.write path bytes = .ok (tree.setNode names (.file bytes)) := by
  rw [read] at h
  cases hlocate : tree.locate path with
  | error e => simp [hlocate] at h
  | ok location =>
    rw [hlocate, locate_plain hpath hlocate] at h
    rw [write, hlocate, locate_plain hpath hlocate]
    simp only at h ⊢
    split at h <;> simp_all

/-- A file tree keeps the files of plain paths apart. -/
lemma keepsApart : FileStore.KeepsApart FileTree Path.Plain where
  writable := by
    rintro tree path old bytes ⟨names, hnames⟩ h
    exact ⟨_, (write_plain hnames h bytes).2⟩
  read_written := by
    rintro tree written path other old bytes ⟨names, hnames⟩ ⟨names', hnames'⟩ hread hwrite
    obtain ⟨hnode, hwritten⟩ := write_plain hnames hread bytes
    have hinj : names' = names ↔ other.components = path.components := by
      rw [hnames, hnames', List.map_inj_right fun _ _ h => Component.name.inj h]
    obtain rfl : tree.setNode names (.file bytes) = written :=
      Except.ok.inj (hwritten.symm.trans hwrite)
    exact (read_setNode hnode bytes hnames').trans (if_congr hinj rfl rfl)

end FileTree

end LintRepair
