import LintRepair.Proofs.Batch.Alone
import LintRepair.Proofs.Patch.Run

/-!
A repaired report accounts for all its entries.

The summary counts the entries that are left alone and names every other path once, whether its file
was repaired or failed. A file that was repaired holds its patched lines, and a file that was not is
as it was before, in the store as well as in the history and among the notifications.

* `Patcher.Settled`: what the summary and the world at the end say about a report.
* `Patcher.paths_settle`: every piece of work is in the summary once.
* `Patcher.exists_entry_of_outcome`, `Patcher.exists_entry_of_failure`: where its parts come from.
* `Patcher.patchEntries_notified`: what was notified, in order.
* `Patcher.patchReport_settled`: repairing a report settles it.
-/

namespace LintRepair

/-- What a note answers, and what it does to the world. -/
lemma World.of_record {σ : Type} {world after : World σ} {path : Path} {digest : UInt64}
    {changed : Bool} (h : world.record path digest = (changed, after)) :
    changed = decide (digest ∉ world.history.digests path) ∧ after.store = world.store ∧
      after.history.digests path =
        world.history.digests path ++ (if changed then [digest] else []) ∧
      after.notified = world.notified ++ if changed then [path] else [] := by
  have hchanged : changed = decide (digest ∉ world.history.digests path) := by
    rw [← History.record_fst]
    exact (congrArg Prod.fst h).symm
  have hafter : (world.record path digest).2 = after := congrArg Prod.snd h
  refine ⟨hchanged, ?_, ?_, ?_⟩
  · rw [← hafter, World.record]
  · rw [← hafter, hchanged]
    simp only [World.record, History.digests_record]
    by_cases hseen : digest ∈ world.history.digests path <;> simp [hseen]
  · rw [← hafter, hchanged]
    simp only [World.record, History.record_fst]
    split_ifs <;> simp

variable {σ : Type} [FileStore σ] {known : Path → Prop} {patcher : Patcher} {report : Report}
  {before after world : World σ}

/-- All paths that a summary names. -/
def Summary.paths (summary : Summary) : List Path :=
  summary.outcomes.map (·.path) ++ summary.failures.map (·.path)

namespace Patcher

/-- A summary and a world at the end that account for a report. -/
structure Settled (known : Path → Prop) (patcher : Patcher) (report : Report)
    (before after : World σ) (summary : Summary) : Prop where
  skipped : summary.skipped = report.files.countP fun entry =>
    entry.violations.isEmpty || patcher.excluded entry.path.text
  /-- Every path with an entry that is not skipped is named once. -/
  once : ∀ entry ∈ report.files, entry.isSkipped patcher.excluded = false →
    summary.paths.countP (·.same entry.path) = 1
  /-- No other path is named. -/
  named : ∀ path ∈ summary.paths, ∃ entry ∈ report.files,
    entry.isSkipped patcher.excluded = false ∧ entry.path = path
  /-- The file of an outcome holds its old lines, patched for all violations of its path. -/
  repaired : ∀ outcome ∈ summary.outcomes, ∃ old text patched,
    FileStore.read before.store outcome.path = .ok old ∧ decodeText old = .ok text ∧
      patcher.patchLines (report.violationsFor patcher.excluded outcome.path)
        (Buffer.ofContent text.toList) = .ok patched ∧
      FileStore.read after.store outcome.path =
        .ok (String.ofList (patcher.serialize patched.lines)).toUTF8 ∧
      outcome = Patcher.outcome outcome.path patched outcome.changed
  /-- An outcome is a change if the digest of the file is new for its path, and then it is noted. -/
  recorded : ∀ outcome ∈ summary.outcomes, ∃ new,
    FileStore.read after.store outcome.path = .ok new ∧
      outcome.changed = decide (patcher.digest new ∉ before.history.digests outcome.path) ∧
      after.history.digests outcome.path = before.history.digests outcome.path ++
        if outcome.changed then [patcher.digest new] else []
  /-- A failure says why its file could not be read or patched. -/
  failed : ∀ failure ∈ summary.failures, ∃ e,
    patcher.revise failure.path (report.violationsFor patcher.excluded failure.path)
      (FileStore.read before.store failure.path) = .error e ∧ failure.message = e.message
  /-- Files without an outcome keep their bytes, and are neither noted nor notified. -/
  untouched : ∀ path : Path, (∀ outcome ∈ summary.outcomes, outcome.path.same path = false) →
    World.AgreesOn known path.components after before
  /-- Each change is notified once, and nothing else is. -/
  notified : ∃ sent, after.notified = before.notified ++ sent ∧
    sent.Perm ((summary.outcomes.filter (·.changed)).map (·.path))

/-! ### The parts of a summary -/

section Parts

variable {pending : Pending}

/-- Every piece of work is in the summary once. -/
lemma paths_settle (hstore : FileStore.KeepsApart σ known)
    (hknown : ∀ entry ∈ pending.entries, known entry.path) (world : World σ) :
    (patcher.settle world pending).paths.Perm (pending.entries.map (·.path)) := by
  obtain ⟨entries, skipped⟩ := pending
  simp only [settle, Summary.paths]
  induction entries with
  | nil => exact List.Perm.refl _
  | cons entry rest ih =>
    have hrest := ih fun e he => hknown e (List.mem_cons_of_mem _ he)
    cases hresult : (patcher.runAlone world entry).1 with
    | ok outcome =>
      have hpath : outcome.path = entry.path :=
        path_of_outcome hstore (hknown entry List.mem_cons_self) (by rw [hresult]; rfl)
      simp only [List.filterMap_cons, hresult, Except.toOption, failureOf, List.map_cons, hpath,
        List.cons_append]
      exact hrest.cons _
    | error e =>
      simp only [List.filterMap_cons, hresult, Except.toOption, failureOf, List.map_cons]
      exact List.perm_middle.trans (hrest.cons _)

/-- An outcome comes from an entry whose content was revised, written and noted. -/
lemma exists_entry_of_outcome (hstore : FileStore.KeepsApart σ known)
    (hknown : ∀ entry ∈ pending.entries, known entry.path) {outcome : Outcome}
    (h : outcome ∈ (patcher.settle world pending).outcomes) :
    ∃ entry ∈ pending.entries, ∃ (revision : Revision) (store : σ) (changed : Bool),
      patcher.revise entry.path entry.violations
        (FileStore.read world.store entry.path) = .ok revision ∧
      FileStore.write world.store entry.path revision.bytes = .ok store ∧
      ({ world with store }).record entry.path (patcher.digest revision.bytes) =
        (changed, (patcher.runAlone world entry).2) ∧
      outcome = Patcher.outcome entry.path revision.patched changed := by
  obtain ⟨entry, hentry, hresult⟩ := List.mem_filterMap.mp h
  obtain ⟨e, -, hrun⟩ | ⟨revision, store, changed, after, hrevise, hwrite, hrecord, hrun⟩ :=
    patcher.runAlone_cases hstore (hknown entry hentry) world
  · rw [hrun] at hresult
    cases hresult
  · rw [hrun] at hresult
    cases hresult
    exact ⟨entry, hentry, revision, store, changed, hrevise, hwrite, by rw [hrun, hrecord], rfl⟩

/-- A failure comes from an entry whose content could not be revised. -/
lemma exists_entry_of_failure (hstore : FileStore.KeepsApart σ known)
    (hknown : ∀ entry ∈ pending.entries, known entry.path) {failure : Failure}
    (h : failure ∈ (patcher.settle world pending).failures) :
    ∃ entry ∈ pending.entries, ∃ e, patcher.revise entry.path entry.violations
      (FileStore.read world.store entry.path) = .error e ∧ failure = ⟨entry.path, e.message⟩ := by
  obtain ⟨entry, hentry, hresult⟩ := List.mem_filterMap.mp h
  obtain ⟨e, hrevise, hrun⟩ | ⟨revision, store, changed, after, -, -, -, hrun⟩ :=
    patcher.runAlone_cases hstore (hknown entry hentry) world
  · rw [hrun] at hresult
    exact ⟨entry, hentry, e, hrevise, (Option.some.inj hresult).symm⟩
  · rw [hrun] at hresult
    cases hresult

end Parts

/-! ### Notifications -/

/-- The work on an entry notifies its path if the outcome is a change. -/
lemma runAlone_notified (patcher : Patcher) (hstore : FileStore.KeepsApart σ known)
    {entry : FileEntry} (hentry : known entry.path) (world : World σ) :
    (patcher.runAlone world entry).2.notified = world.notified ++
      ((patcher.runAlone world entry).1.toOption.toList.filter (·.changed)).map (·.path) := by
  obtain ⟨e, -, hrun⟩ | ⟨revision, store, changed, after, -, -, hrecord, hrun⟩ :=
    patcher.runAlone_cases hstore hentry world
  · rw [hrun]
    exact (List.append_nil _).symm
  · obtain ⟨-, -, -, hnotified⟩ := World.of_record hrecord
    rw [hrun, hnotified]
    cases changed <;> rfl

/-- Files repaired one after the other notify the changes among their outcomes, in order. -/
lemma patchEntries_notified (patcher : Patcher) (hstore : FileStore.KeepsApart σ known)
    {entries : List FileEntry} (hknown : ∀ entry ∈ entries, known entry.path) (summary : Summary)
    (world : World σ) :
    ∃ new, ((patcher.patchEntries entries summary).run world).1.outcomes = summary.outcomes ++ new ∧
      ((patcher.patchEntries entries summary).run world).2.notified =
        world.notified ++ (new.filter (·.changed)).map (·.path) := by
  induction entries generalizing summary world with
  | nil => exact ⟨[], by simp [patchEntries, Script.run]⟩
  | cons entry rest ih =>
    have hfirst := patcher.runAlone_notified hstore (hknown entry List.mem_cons_self) world
    rcases hrun : patcher.runAlone world entry with ⟨result, world'⟩
    obtain ⟨new, houtcomes, hnotified⟩ := ih (fun e he => hknown e (List.mem_cons_of_mem _ he))
      (addResult summary entry.path result) world'
    rw [hrun] at hfirst
    have hcons : (patcher.patchEntries (entry :: rest) summary).run world =
        (patcher.patchEntries rest (addResult summary entry.path result)).run world' := by
      rw [patchEntries, Script.run_bind, ← runAlone, hrun]
    refine ⟨result.toOption.toList ++ new, ?_, ?_⟩
    · rw [hcons, houtcomes]
      cases result <;> simp [addResult, Except.toOption]
    · rw [hcons, hnotified, hfirst, List.filter_append, List.map_append, List.append_assoc]

/-! ### The whole report -/

section Whole

variable (hstore : FileStore.KeepsApart σ known)
  (hknown : ∀ entry ∈ report.kept patcher.excluded, known entry.path)
include hstore hknown

/-- A path with an entry that is not left alone is named once. -/
lemma countP_paths_settle {entry : FileEntry} (hentry : entry ∈ report.kept patcher.excluded)
    (world : World σ) :
    (patcher.settle world (report.pending patcher.excluded)).paths.countP
      (·.same entry.path) = 1 := by
  obtain ⟨work, hwork, hcomponents⟩ := Report.exists_pending hentry
  calc (patcher.settle world (report.pending patcher.excluded)).paths.countP (·.same entry.path)
      = ((report.pending patcher.excluded).entries.map (·.path)).countP (·.same entry.path) :=
        (paths_settle hstore (known_of_pending hknown) world).countP_eq _
    _ = ((report.pending patcher.excluded).entries.map (·.path.components)).count
          entry.path.components := by
        rw [List.count_eq_countP, List.countP_map, List.countP_map]
        rfl
    _ = 1 := List.count_eq_one_of_mem (report.pending_nodup patcher.excluded)
        (List.mem_map.mpr ⟨work, hwork, hcomponents⟩)

/-- The file of an outcome holds its patched lines, and their digest is noted. -/
lemma file_of_outcome {outcome : Outcome}
    (h : outcome ∈ (patcher.settle before (report.pending patcher.excluded)).outcomes)
    (halone : Alone known patcher (report.pending patcher.excluded).entries before after) :
    ∃ old text patched, FileStore.read before.store outcome.path = .ok old ∧
      decodeText old = .ok text ∧
      patcher.patchLines (report.violationsFor patcher.excluded outcome.path)
        (Buffer.ofContent text.toList) = .ok patched ∧
      FileStore.read after.store outcome.path =
        .ok (String.ofList (patcher.serialize patched.lines)).toUTF8 ∧
      outcome = Patcher.outcome outcome.path patched outcome.changed ∧
      outcome.changed = decide
        (patcher.digest (String.ofList (patcher.serialize patched.lines)).toUTF8 ∉
          before.history.digests outcome.path) ∧
      after.history.digests outcome.path = before.history.digests outcome.path ++
        if outcome.changed then
          [patcher.digest (String.ofList (patcher.serialize patched.lines)).toUTF8] else [] := by
  obtain ⟨entry, hentry, revision, store, changed, hrevise, hwrite, hrecord, rfl⟩ :=
    exists_entry_of_outcome hstore (known_of_pending hknown) h
  obtain ⟨old, text, hold, htext, hpatch, hbytes⟩ := revise_eq_ok hrevise
  obtain ⟨hchanged, hkept, hdigests, -⟩ := World.of_record hrecord
  have hpath := known_of_pending hknown entry hentry
  have hown := halone.own entry hentry
  have hread : FileStore.read after.store entry.path = .ok revision.bytes := by
    rw [hown.read entry.path hpath rfl, hkept, hstore.read_written hpath hpath hold hwrite,
      if_pos rfl, hold]
    rfl
  rw [(Report.mem_pending hentry).2] at hpatch
  rw [← hown.digests] at hdigests
  rw [hbytes] at hread hchanged hdigests
  exact ⟨old, text, revision.patched, hold, htext, hpatch, hread, rfl, hchanged, hdigests⟩

/-- What has no outcome is left alone. -/
lemma agreesOn_of_no_outcome {path : Path}
    (hnone : ∀ outcome ∈ (patcher.settle before (report.pending patcher.excluded)).outcomes,
      outcome.path.same path = false)
    (halone : Alone known patcher (report.pending patcher.excluded).entries before after) :
    World.AgreesOn known path.components after before := by
  by_cases hmem : path.components ∈
      (report.pending patcher.excluded).entries.map (·.path.components)
  · obtain ⟨entry, hentry, hcomponents⟩ := List.mem_map.mp hmem
    have hown := halone.own entry hentry
    obtain ⟨e, -, hrun⟩ | ⟨revision, store, changed, world, -, -, -, hrun⟩ :=
      patcher.runAlone_cases hstore (known_of_pending hknown entry hentry) before
    · rwa [hrun, hcomponents] at hown
    · -- The entry has an outcome.
      have hresult : (patcher.runAlone before entry).1.toOption =
          some (outcome entry.path revision.patched changed) := by rw [hrun]; rfl
      have houtcome : outcome entry.path revision.patched changed ∈
          (patcher.settle before (report.pending patcher.excluded)).outcomes :=
        List.mem_filterMap.mpr ⟨entry, hentry, hresult⟩
      have hother : entry.path.same path = false :=
        hnone (outcome entry.path revision.patched changed) houtcome
      exact absurd hcomponents (Path.same_eq_false_iff.mp hother)
  · exact halone.others _ hmem

/-- Repairing a report notifies the changes among the outcomes. -/
lemma patchReport_notified (world : World σ) :
    ((patcher.patchReport report).run world).2.notified = world.notified ++
      ((patcher.settle world (report.pending patcher.excluded)).outcomes.filter
        (·.changed)).map (·.path) := by
  obtain ⟨new, houtcomes, hnotified⟩ := patcher.patchEntries_notified hstore
    (known_of_pending hknown) ⟨[], [], (report.pending patcher.excluded).skipped⟩ world
  rw [(patchEntries_run hstore (known_of_pending hknown)
    (report.pending_nodup patcher.excluded) _ world).1, foldl_addResult] at houtcomes
  rw [patchReport, Script.run_bind, Script.run, hnotified, settle]
  simp only [List.nil_append] at houtcomes
  rw [houtcomes]

/-- The sorted summary of what becomes of each entry alone settles the report. -/
lemma settled_sort
    (halone : Alone known patcher (report.pending patcher.excluded).entries before after)
    (hnotified : after.notified = before.notified ++ ((patcher.settle before
      (report.pending patcher.excluded)).outcomes.filter (·.changed)).map (·.path)) :
    Settled known patcher report before after
      (patcher.settle before (report.pending patcher.excluded)).sort := by
  set summary := patcher.settle before (report.pending patcher.excluded) with hsummary
  have houtcomes : summary.sort.outcomes.Perm summary.outcomes := List.mergeSort_perm _ _
  have hfailures : summary.sort.failures.Perm summary.failures := List.mergeSort_perm _ _
  have hpaths : summary.sort.paths.Perm summary.paths :=
    (houtcomes.map _).append (hfailures.map _)
  have hkept : ∀ entry ∈ report.files, entry.isSkipped patcher.excluded = false →
      entry ∈ report.kept patcher.excluded := fun entry hentry hskipped =>
    List.mem_filter.mpr ⟨hentry, by rw [hskipped]; rfl⟩
  refine
    { skipped := rfl
      once := fun entry hentry hskipped => ?_
      named := fun path hpath => ?_
      repaired := fun outcome houtcome => ?_
      recorded := fun outcome houtcome => ?_
      failed := fun failure hfailure => ?_
      untouched := fun path hnone => ?_
      notified := ⟨_, hnotified, (houtcomes.symm.filter _).map _⟩ }
  · rw [hpaths.countP_eq]
    exact countP_paths_settle hstore hknown (hkept entry hentry hskipped) before
  · have hmem := (hpaths.trans (paths_settle hstore (known_of_pending hknown) before)).mem_iff.mp
      hpath
    obtain ⟨work, hwork, hworkPath⟩ := List.mem_map.mp hmem
    obtain ⟨⟨entry, hentry, hentryPath⟩, -⟩ := Report.mem_pending hwork
    obtain ⟨hfile, hskipped⟩ := List.mem_filter.mp hentry
    exact ⟨entry, hfile, by simpa using hskipped, hentryPath.trans hworkPath⟩
  · obtain ⟨old, text, patched, hold, htext, hpatch, hread, houtcome, -⟩ :=
      file_of_outcome hstore hknown (houtcomes.mem_iff.mp houtcome) halone
    exact ⟨old, text, patched, hold, htext, hpatch, hread, houtcome⟩
  · obtain ⟨old, text, patched, -, -, -, hread, -, hchanged, hdigests⟩ :=
      file_of_outcome hstore hknown (houtcomes.mem_iff.mp houtcome) halone
    exact ⟨_, hread, hchanged, hdigests⟩
  · obtain ⟨entry, hentry, e, hrevise, rfl⟩ := exists_entry_of_failure hstore
      (known_of_pending hknown) (hfailures.mem_iff.mp hfailure)
    rw [(Report.mem_pending hentry).2] at hrevise
    exact ⟨e, hrevise, rfl⟩
  · exact agreesOn_of_no_outcome hstore hknown
      (fun outcome houtcome => hnone outcome (houtcomes.mem_iff.mpr houtcome)) halone

end Whole

/-- Repairing a report settles it: every entry is accounted for, the file of every outcome holds its
patched lines, no other file is touched, and each change is notified once. In a world without a
history, every outcome is a change. -/
theorem patchReport_settled (hstore : FileStore.KeepsApart σ known) (patcher : Patcher)
    {report : Report} (hknown : ∀ entry ∈ report.kept patcher.excluded, known entry.path)
    (world : World σ) :
    Settled known patcher report world ((patcher.patchReport report).run world).2
        ((patcher.patchReport report).run world).1 ∧
      (world.history = .empty →
        (∀ outcome ∈ ((patcher.patchReport report).run world).1.outcomes, outcome.changed = true) ∧
        ∃ sent, ((patcher.patchReport report).run world).2.notified = world.notified ++ sent ∧
          sent.Perm (((patcher.patchReport report).run world).1.outcomes.map (·.path))) := by
  obtain ⟨hsummary, halone⟩ := patchReport_run hstore hknown world
  have hsettled := settled_sort hstore hknown halone (patchReport_notified hstore hknown world)
  rw [← hsummary] at hsettled
  refine ⟨hsettled, fun hempty => ?_⟩
  have hchanged : ∀ outcome ∈ ((patcher.patchReport report).run world).1.outcomes,
      outcome.changed = true := by
    intro outcome houtcome
    obtain ⟨new, -, hchanged, -⟩ := hsettled.recorded outcome houtcome
    rw [hchanged, hempty]
    exact decide_eq_true List.not_mem_nil
  obtain ⟨sent, hsent, hperm⟩ := hsettled.notified
  rw [List.filter_eq_self.mpr hchanged] at hperm
  exact ⟨hchanged, sent, hsent, hperm⟩

/-- A file with two entries is named once, the one without violations keeps its bytes, and all
outcomes are changes. -/
theorem patchReport_settled_sample :
    (((complete 4).patchReport .sample).run World.sample).1.paths.countP
        (·.same ⟨"src/A.java"⟩) = 1 ∧
      FileStore.read (((complete 4).patchReport .sample).run World.sample).2.store ⟨"B.java"⟩ =
        .ok "b".toUTF8 ∧
      ∀ outcome ∈ (((complete 4).patchReport .sample).run World.sample).1.outcomes,
        outcome.changed = true := by
  obtain ⟨hsettled, hfresh⟩ := patchReport_settled FileTree.keepsApart (complete 4)
    (Report.sample_plain _) World.sample
  refine ⟨hsettled.once ⟨⟨"src/A.java"⟩, [⟨1, 1, "made.up", ""⟩]⟩ List.mem_cons_self (by decide),
    ?_, (hfresh rfl).1⟩
  have hnone : ∀ outcome ∈ (((complete 4).patchReport .sample).run World.sample).1.outcomes,
      outcome.path.same ⟨"B.java"⟩ = false := by
    intro outcome houtcome
    obtain ⟨entry, hentry, hskipped, hpath⟩ := hsettled.named outcome.path
      (List.mem_append_left _ (List.mem_map_of_mem houtcome))
    rw [← hpath]
    simp only [Report.sample, List.mem_cons, List.not_mem_nil, or_false] at hentry
    rcases hentry with rfl | rfl | rfl | rfl
    · decide
    · decide
    · decide
    · cases hskipped
  have hagree := hsettled.untouched ⟨"B.java"⟩ hnone
  exact (hagree.read ⟨"B.java"⟩ ⟨["B.java"], by decide⟩ rfl).trans rfl

end Patcher

end LintRepair
