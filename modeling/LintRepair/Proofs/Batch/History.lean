import LintRepair.History
import LintRepair.Proofs.Batch.Paths

/-!
What a history remembers about a path.

A history is told apart by components: a note about one path is kept with what is remembered about
the paths with the same components, and does not touch the rest.

* `History.about`: what is remembered about the paths with some components.
* `about_record`, `about_record_of_ne`: what a note does to it.
* `record_fst`, `digests_record`: the answer to a note, and the digests after it.
* `paths`: the components of the paths of a history; `paths_record` for those after a note.
-/

namespace LintRepair.History

variable {history : History} {path : Path} {components : List Component}

/-- What is remembered about the paths with some components. -/
def about (history : History) (components : List Component) : List (Path × List UInt64) :=
  history.seen.filter (·.1.components = components)

lemma filter_seen (history : History) (path : Path) :
    history.seen.filter (·.1.same path) = history.about path.components :=
  filter_same Prod.fst history.seen path

lemma digests_eq (history : History) (path : Path) :
    history.digests path = ((history.about path.components).head?.map Prod.snd).getD [] := by
  rw [digests, ← List.head?_filter, filter_seen]

lemma tracks_iff : history.tracks path = true ↔ history.about path.components ≠ [] := by
  rw [tracks, ← filter_seen, List.any_eq_true, Ne, List.filter_eq_nil_iff]
  push Not
  rfl

/-- A note is a change if its digest is not remembered for the path. -/
lemma record_fst (history : History) (path : Path) (digest : UInt64) :
    (history.record path digest).1 = decide (digest ∉ history.digests path) := by
  rw [record]
  split_ifs with hseen htracks
  · simp [hseen]
  · simp [hseen]
  · simp [hseen]

/-- What is remembered about a path after a note, given what was remembered before. -/
def noted (path : Path) (digest : UInt64) (entries : List (Path × List UInt64)) :
    List (Path × List UInt64) :=
  if digest ∈ (entries.head?.map Prod.snd).getD [] then entries
  else if entries = [] then [(path, [digest])]
  else entries.map fun entry => (entry.1, entry.2 ++ [digest])

/-- A change that keeps the paths of all entries is one of what is remembered about each. -/
lemma about_map (history : History) {change : Path × List UInt64 → Path × List UInt64}
    (hchange : ∀ entry, (change entry).1 = entry.1) (components : List Component) :
    (⟨history.seen.map change⟩ : History).about components =
      (history.about components).map change := by
  rw [about, List.filter_map, about]
  congr 1
  exact List.filter_congr fun entry _ => by rw [Function.comp_apply, hchange]

lemma components_of_mem_about {entry : Path × List UInt64} (h : entry ∈ history.about components) :
    entry.1.components = components :=
  of_decide_eq_true (List.mem_filter.mp h).2

/-- A note about a path is kept with what is remembered about its components. -/
lemma about_record (history : History) (path : Path) (digest : UInt64) :
    (history.record path digest).2.about path.components =
      noted path digest (history.about path.components) := by
  rw [record, noted, ← digests_eq]
  by_cases hseen : digest ∈ history.digests path
  · rw [if_pos hseen, if_pos hseen]
  rw [if_neg hseen, if_neg hseen]
  by_cases htracks : history.tracks path = true
  · rw [if_pos htracks, if_neg (tracks_iff.mp htracks),
      about_map history fun entry => by split <;> rfl]
    exact List.map_congr_left fun entry hentry =>
      if_pos (Path.same_iff.mpr (components_of_mem_about hentry))
  · have hnone : history.about path.components = [] := not_not.mp (mt tracks_iff.mpr htracks)
    rw [if_neg htracks, if_pos hnone, about, List.filter_append, ← about, hnone]
    simp

/-- What is remembered about other components stays as it is. -/
lemma about_record_of_ne (history : History) (digest : UInt64)
    (h : path.components ≠ components) :
    (history.record path digest).2.about components = history.about components := by
  rw [record]
  split_ifs
  · rfl
  · rw [about_map history fun entry => by split <;> rfl]
    have hkeep : ∀ entry ∈ history.about components,
        (if entry.1.same path then (entry.1, entry.2 ++ [digest]) else entry) = entry :=
      fun entry hentry => if_neg fun hsame =>
        h ((Path.same_iff.mp hsame).symm.trans (components_of_mem_about hentry))
    rw [List.map_congr_left hkeep, List.map_id']
  · simp [about, h]

/-- A noted digest is remembered, behind the ones of before. -/
lemma digests_record (history : History) (path : Path) (digest : UInt64) :
    (history.record path digest).2.digests path =
      if digest ∈ history.digests path then history.digests path
      else history.digests path ++ [digest] := by
  rw [digests_eq, digests_eq, about_record, noted]
  split_ifs with hseen hnone
  · rfl
  · simp [hnone]
  · obtain ⟨first, rest, hfirst⟩ := List.exists_cons_of_ne_nil hnone
    simp [hfirst]

/-- However a path is spelled, its digests are the same. -/
lemma digests_of_same {other : Path} (history : History) (h : path.same other = true) :
    history.digests path = history.digests other := by
  rw [digests_eq, digests_eq, Path.same_iff.mp h]

/-- A new digest comes behind the ones of its path, and other paths keep theirs. -/
lemma digests_record_append (history : History) (path other : Path) (digest : UInt64) :
    (history.record path digest).2.digests other = history.digests other ++
      if (history.record path digest).1 && path.same other then [digest] else [] := by
  cases hsame : path.same other with
  | false =>
      rw [digests_eq, digests_eq,
        about_record_of_ne history digest (Path.same_eq_false_iff.mp hsame), Bool.and_false]
      simp
  | true =>
      rw [← digests_of_same _ hsame, ← digests_of_same _ hsame, digests_record, record_fst,
        Bool.and_true]
      by_cases hseen : digest ∈ history.digests path
      · simp [hseen]
      · simp [hseen]

/-! ### Paths -/

/-- The components of the paths of a history, in the order in which they came. -/
def paths (history : History) : List (List Component) := history.seen.map (·.1.components)

lemma tracks_iff_mem : history.tracks path = true ↔ path.components ∈ history.paths := by
  simp [tracks, paths, Path.same_iff]

lemma tracks_of_mem_digests {digest : UInt64} (h : digest ∈ history.digests path) :
    history.tracks path = true := by
  rw [tracks_iff]
  intro hnone
  rw [digests_eq, hnone] at h
  cases h

/-- A path comes into a history with its first note. -/
lemma paths_record (history : History) (path : Path) (digest : UInt64) :
    (history.record path digest).2.paths =
      if path.components ∈ history.paths then history.paths
      else history.paths ++ [path.components] := by
  rw [record]
  by_cases hseen : digest ∈ history.digests path
  · rw [if_pos hseen, if_pos (tracks_iff_mem.mp (tracks_of_mem_digests hseen))]
  · rw [if_neg hseen]
    by_cases htracks : history.tracks path = true
    · rw [if_pos htracks, if_pos (tracks_iff_mem.mp htracks), paths, paths, List.map_map]
      exact List.map_congr_left fun entry _ => by
        rw [Function.comp_apply]
        split <;> rfl
    · rw [if_neg htracks, if_neg (mt tracks_iff_mem.mpr htracks)]
      simp [paths]

end LintRepair.History
