import LintRepair.Proofs.Batch.Locality
import LintRepair.Proofs.Batch.Merging

/-!
Work on several files, seen from each of them.

The entries that are worked on have different paths, and the work on one file neither looks at the
others nor touches them. So each of them goes as if it were worked on alone in the world at the
start, whatever happens to the others in the meantime. Here this is shown for the files repaired one
after the other.

* `Patcher.Alone`: each file ends as if it were worked on alone, and nothing else changes.
* `Patcher.Alone.agreesOn`: that leaves no choice for the world at the end.
* `Patcher.settle`: the summary of what becomes of each file alone.
* `Patcher.patchReport_run`: repairing a report gives this summary, sorted, and such a world.
-/

namespace LintRepair

variable {σ : Type} [FileStore σ] {known : Path → Prop} {patcher : Patcher}
  {entries entries' : List FileEntry} {before after after' : World σ}

lemma Script.run_bind {α β : Type} (script : Script α) (next : α → Script β) (world : World σ) :
    (script.bind next).run world = (next (script.run world).1).run (script.run world).2 := by
  induction script generalizing world with
  | done value => rfl
  | kind path more ih => exact ih _ world
  | read path more ih => exact ih _ world
  | write path bytes more ih =>
    rw [bind, run, run]
    cases FileStore.write world.store path bytes with
    | error e => exact ih _ world
    | ok store => exact ih _ _
  | record path digest more ih => exact ih _ _
  | input more ih => exact ih _ world

namespace Patcher

/-- The work on an entry, and nothing else. -/
def runAlone (patcher : Patcher) (world : World σ) (entry : FileEntry) :
    Except PatchError Outcome × World σ :=
  (patcher.patchFile entry.path entry.violations).run world

/-- The work on an entry does not matter to other components. -/
lemma runAlone_other (hstore : FileStore.KeepsApart σ known) {entry : FileEntry}
    (hentry : known entry.path) {components : List Component}
    (hne : entry.path.components ≠ components) (world : World σ) :
    World.AgreesOn known components (patcher.runAlone world entry).2 world :=
  (patcher.patchFile_tends hentry entry.violations world).run_other hstore hne

/-- The work on an entry depends on its own components alone. -/
lemma runAlone_congr (hstore : FileStore.KeepsApart σ known) {entry : FileEntry}
    (hentry : known entry.path) {world other : World σ}
    (hagree : World.AgreesOn known entry.path.components world other) :
    (patcher.runAlone world entry).1 = (patcher.runAlone other entry).1 ∧
      World.AgreesOn known entry.path.components (patcher.runAlone world entry).2
        (patcher.runAlone other entry).2 :=
  (patcher.patchFile_tends hentry entry.violations world).run_congr hstore hagree

/-- A revised content was read, is a text, and could be patched. -/
lemma revise_eq_ok {path : Path} {violations : List Violation}
    {content : Except IoError ByteArray} {revision : Revision}
    (h : patcher.revise path violations content = .ok revision) :
    ∃ old text, content = .ok old ∧ decodeText old = .ok text ∧
      patcher.patchLines violations (Buffer.ofContent text.toList) = .ok revision.patched ∧
      revision.bytes = (String.ofList (patcher.serialize revision.patched.lines)).toUTF8 := by
  cases content with
  | error e => cases h
  | ok old =>
    rw [revise] at h
    cases htext : decodeText old with
    | error e => simp [htext] at h
    | ok text =>
      simp only [htext] at h
      cases hpatch : patcher.patchLines violations (Buffer.ofContent text.toList) with
      | error e => simp [hpatch] at h
      | ok patched =>
        simp only [hpatch, Except.ok.injEq] at h
        subst h
        exact ⟨old, text, rfl, htext, hpatch, rfl⟩

/-- An entry whose content cannot be revised fails, and nothing happens. A revised content is
written and noted. -/
lemma runAlone_cases (patcher : Patcher) (hstore : FileStore.KeepsApart σ known) {entry : FileEntry}
    (hentry : known entry.path) (world : World σ) :
    (∃ e, patcher.revise entry.path entry.violations
        (FileStore.read world.store entry.path) = .error e ∧
      patcher.runAlone world entry = (.error e, world)) ∨
    ∃ (revision : Revision) (store : σ) (changed : Bool) (after : World σ),
      patcher.revise entry.path entry.violations
        (FileStore.read world.store entry.path) = .ok revision ∧
      FileStore.write world.store entry.path revision.bytes = .ok store ∧
      ({ world with store }).record entry.path (patcher.digest revision.bytes) = (changed, after) ∧
      patcher.runAlone world entry =
        (.ok (outcome entry.path revision.patched changed), after) := by
  rw [runAlone, patchFile, Script.run]
  cases hrevise : patcher.revise entry.path entry.violations
      (FileStore.read world.store entry.path) with
  | error e => exact .inl ⟨e, rfl, rfl⟩
  | ok revision =>
    obtain ⟨old, text, hold, -⟩ := revise_eq_ok hrevise
    obtain ⟨store, hwrite⟩ := hstore.writable revision.bytes hentry hold
    rcases hrecord : ({ world with store }).record entry.path
      (patcher.digest revision.bytes) with ⟨changed, after⟩
    refine .inr ⟨revision, store, changed, after, rfl, hwrite, hrecord, ?_⟩
    simp only [Script.run, hwrite, hrecord]

/-- Each entry has ended as if it were worked on alone, and nothing else has changed. -/
structure Alone (known : Path → Prop) (patcher : Patcher) (entries : List FileEntry)
    (before after : World σ) : Prop where
  own : ∀ entry ∈ entries,
    World.AgreesOn known entry.path.components after (patcher.runAlone before entry).2
  others : ∀ components, components ∉ entries.map (·.path.components) →
    World.AgreesOn known components after before

/-- The failure of an entry, if it failed. -/
def failureOf (entry : FileEntry) : Except PatchError Outcome → Option Failure
  | .ok _ => none
  | .error e => some ⟨entry.path, e.message⟩

/-- What becomes of each entry if it is worked on alone. -/
def settle (patcher : Patcher) (world : World σ) (pending : Pending) : Summary where
  outcomes := pending.entries.filterMap fun entry => (patcher.runAlone world entry).1.toOption
  failures := pending.entries.filterMap fun entry =>
    failureOf entry (patcher.runAlone world entry).1
  skipped := pending.skipped

lemma path_of_outcome (hstore : FileStore.KeepsApart σ known) {entry : FileEntry}
    (hentry : known entry.path) {world : World σ} {outcome : Outcome}
    (h : (patcher.runAlone world entry).1.toOption = some outcome) :
    outcome.path = entry.path := by
  obtain ⟨e, -, hrun⟩ | ⟨revision, store, changed, after, -, -, -, hrun⟩ :=
    patcher.runAlone_cases hstore hentry world
  · rw [hrun] at h
    cases h
  · rw [hrun] at h
    cases h
    rfl

lemma foldl_addResult (results : FileEntry → Except PatchError Outcome) (entries : List FileEntry)
    (summary : Summary) :
    entries.foldl (fun s entry => addResult s entry.path (results entry)) summary =
      ⟨summary.outcomes ++ entries.filterMap fun entry => (results entry).toOption,
        summary.failures ++ entries.filterMap fun entry => failureOf entry (results entry),
        summary.skipped⟩ := by
  induction entries generalizing summary with
  | nil => simp
  | cons entry rest ih =>
    rw [List.foldl_cons, ih]
    cases hresult : results entry <;> simp [addResult, failureOf, hresult, Except.toOption]

/-! ### One file after the other -/

section Serial

variable {entry : FileEntry} {rest : List FileEntry}

/-- The entries after the first one do not notice the work on it. -/
lemma runAlone_rest (hstore : FileStore.KeepsApart σ known)
    (hknown : ∀ e ∈ entry :: rest, known e.path)
    (hnodup : ((entry :: rest).map (·.path.components)).Nodup) (world : World σ) {e : FileEntry}
    (he : e ∈ rest) :
    (patcher.runAlone (patcher.runAlone world entry).2 e).1 = (patcher.runAlone world e).1 ∧
      World.AgreesOn known e.path.components
        (patcher.runAlone (patcher.runAlone world entry).2 e).2 (patcher.runAlone world e).2 := by
  have hne : entry.path.components ≠ e.path.components := fun hsame =>
    (List.nodup_cons.mp hnodup).1 (List.mem_map.mpr ⟨e, he, hsame.symm⟩)
  exact runAlone_congr hstore (hknown e (List.mem_cons_of_mem _ he))
    (runAlone_other hstore (hknown entry List.mem_cons_self) hne world)

/-- The first entry does not notice the work on the ones after it. -/
lemma Alone.cons (hstore : FileStore.KeepsApart σ known)
    (hknown : ∀ e ∈ entry :: rest, known e.path)
    (hnodup : ((entry :: rest).map (·.path.components)).Nodup)
    (h : Alone known patcher rest (patcher.runAlone before entry).2 after) :
    Alone known patcher (entry :: rest) before after := by
  refine ⟨fun e he => ?_, fun components hmem => ?_⟩
  · obtain rfl | he := List.mem_cons.mp he
    · exact h.others _ (List.nodup_cons.mp hnodup).1
    · exact (h.own e he).trans (runAlone_rest hstore hknown hnodup before he).2
  · rw [List.map_cons, List.mem_cons, not_or] at hmem
    exact (h.others components hmem.2).trans
      (runAlone_other hstore (hknown entry List.mem_cons_self) (Ne.symm hmem.1) before)

end Serial

/-- Files that are repaired one after the other end as if each were alone. -/
lemma patchEntries_run (hstore : FileStore.KeepsApart σ known)
    (hknown : ∀ entry ∈ entries, known entry.path)
    (hnodup : (entries.map (·.path.components)).Nodup) (summary : Summary) (world : World σ) :
    ((patcher.patchEntries entries summary).run world).1 =
        entries.foldl (fun s entry =>
          addResult s entry.path (patcher.runAlone world entry).1) summary ∧
      Alone known patcher entries world ((patcher.patchEntries entries summary).run world).2 := by
  induction entries generalizing summary world with
  | nil => exact ⟨rfl, by simp, fun components _ => .refl world⟩
  | cons entry rest ih =>
    obtain ⟨hsummary, hafter⟩ := ih (fun e he => hknown e (List.mem_cons_of_mem _ he))
      (List.nodup_cons.mp hnodup).2 (addResult summary entry.path (patcher.runAlone world entry).1)
      (patcher.runAlone world entry).2
    rw [patchEntries, Script.run_bind]
    refine ⟨hsummary.trans ?_, hafter.cons hstore hknown hnodup⟩
    rw [List.foldl_cons]
    refine List.foldl_ext _ _ _ fun s e he => ?_
    rw [(runAlone_rest hstore hknown hnodup world he).1]

/-- The work of a report has known paths, if its entries have. -/
lemma known_of_pending {report : Report}
    (hknown : ∀ entry ∈ report.kept patcher.excluded, known entry.path) :
    ∀ entry ∈ (report.pending patcher.excluded).entries, known entry.path := by
  intro entry hentry
  obtain ⟨⟨e, he, hpath⟩, -⟩ := Report.mem_pending hentry
  exact hpath ▸ hknown e he

/-- Repairing a report gives the sorted summary of what becomes of each entry alone. -/
lemma patchReport_run (hstore : FileStore.KeepsApart σ known) {report : Report}
    (hknown : ∀ entry ∈ report.kept patcher.excluded, known entry.path) (world : World σ) :
    ((patcher.patchReport report).run world).1 =
        (patcher.settle world (report.pending patcher.excluded)).sort ∧
      Alone known patcher (report.pending patcher.excluded).entries world
        ((patcher.patchReport report).run world).2 := by
  obtain ⟨hsummary, hafter⟩ := patchEntries_run hstore (known_of_pending hknown)
    (report.pending_nodup patcher.excluded) ⟨[], [], (report.pending patcher.excluded).skipped⟩
    world
  rw [foldl_addResult] at hsummary
  rw [patchReport, Script.run_bind]
  exact ⟨congrArg Summary.sort hsummary, hafter⟩

end Patcher

/-! ### A sample -/

/-- One file with two entries, spelled in two ways, a file that is missing, and a file without
violations. -/
def Report.sample : Report :=
  ⟨[⟨⟨"src/A.java"⟩, [⟨1, 1, "made.up", ""⟩]⟩, ⟨⟨"Gone.java"⟩, [⟨1, 1, "made.up", ""⟩]⟩,
    ⟨⟨"src//A.java"⟩, [⟨2, 1, "made.up", ""⟩]⟩, ⟨⟨"B.java"⟩, []⟩]⟩

/-- The files of the sample. -/
def World.sample : World FileTree where
  store := ⟨[(["src"], .folder), (["src", "A.java"], .file "a\r\nb".toUTF8),
    (["B.java"], .file "b".toUTF8)]⟩
  history := .empty
  notified := []
  stdin := "".toUTF8

example : (Report.sample.pending fun _ => false).entries =
    [⟨⟨"src/A.java"⟩, [⟨1, 1, "made.up", ""⟩, ⟨2, 1, "made.up", ""⟩]⟩,
      ⟨⟨"Gone.java"⟩, [⟨1, 1, "made.up", ""⟩]⟩] := by decide +kernel

lemma Report.sample_plain (excluded : String → Bool) :
    ∀ entry ∈ Report.sample.kept excluded, entry.path.Plain := by
  intro entry hentry
  have hfile : entry ∈ Report.sample.files := List.mem_of_mem_filter hentry
  simp only [sample, List.mem_cons, List.not_mem_nil, or_false] at hfile
  rcases hfile with rfl | rfl | rfl | rfl
  · exact ⟨["src", "A.java"], by decide⟩
  · exact ⟨["Gone.java"], by decide⟩
  · exact ⟨["src", "A.java"], by decide⟩
  · exact ⟨["B.java"], by decide⟩

end LintRepair
