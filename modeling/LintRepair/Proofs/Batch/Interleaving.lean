import LintRepair.Proofs.Batch.Alone
import LintRepair.Proofs.Patch.Run

/-!
Files that are repaired at the same time.

Workers share one world, and a schedule says whose turn it is to make its next request. A worker
that is done lets its turns pass. Whatever the schedule, a worker stands where the same number of
requests would have brought it alone. So once all workers are done, the end does not depend on the
schedule, and three turns for each of them are enough. The order of the entries of a report does not
matter either, as long as the entries of each path keep theirs.

* `Script.turn`, `Script.interleave`: scripts that take turns in one world.
* `Patcher.InTurn`: where the workers stand; `InTurn.turn` is one turn, `inTurn_interleave` all.
* `Patcher.patchInterleaved`: repairing a report by workers that take turns.
* `World.Alike`: worlds that differ in the order of notes and notifications at most.
* `Patcher.patchInterleaved_agrees`: schedules and reorderings end like the serial run.
-/

namespace LintRepair

variable {σ α : Type} [FileStore σ] {known : Path → Prop} {patcher : Patcher}
  {entries : List FileEntry} {before world other : World σ}

/-! ### Taking turns -/

namespace Script

/-- The script in some place makes its next request. -/
def turn (state : List (Script α) × World σ) (i : Nat) : List (Script α) × World σ :=
  match state.1[i]? with
  | none => state
  | some script => (state.1.set i (script.step state.2).1, (script.step state.2).2)

/-- Scripts take turns as a schedule says. -/
def interleave (schedule : List Nat) (scripts : List (Script α)) (world : World σ) :
    List (Script α) × World σ :=
  schedule.foldl turn (scripts, world)

end Script

namespace Patcher

/-- The first requests of the work on an entry, and nothing else. -/
def stepsAlone (patcher : Patcher) (world : World σ) (entry : FileEntry) (n : Nat) :
    Script (Except PatchError Outcome) × World σ :=
  (patcher.patchFile entry.path entry.violations).steps world n

/-- Each worker stands where its number of turns would have brought it alone. -/
structure InTurn (known : Path → Prop) (patcher : Patcher) (entries : List FileEntry)
    (before : World σ) (turns : Nat → Nat)
    (state : List (Script (Except PatchError Outcome)) × World σ) : Prop where
  script : ∀ i, state.1[i]? =
    entries[i]?.map fun entry => (patcher.stepsAlone before entry (turns i)).1
  own : ∀ i entry, entries[i]? = some entry →
    World.AgreesOn known entry.path.components state.2
      (patcher.stepsAlone before entry (turns i)).2
  others : ∀ components, components ∉ entries.map (·.path.components) →
    World.AgreesOn known components state.2 before

namespace InTurn

variable {turns : Nat → Nat} {state : List (Script (Except PatchError Outcome)) × World σ}

/-- Nobody has had a turn yet. -/
lemma start (known : Path → Prop) (patcher : Patcher) (entries : List FileEntry)
    (before : World σ) :
    InTurn known patcher entries before (fun _ => 0)
      (entries.map fun entry => patcher.patchFile entry.path entry.violations, before) :=
  ⟨fun _ => List.getElem?_map, fun _ _ _ => .refl before, fun _ _ => .refl before⟩

lemma components_ne (hnodup : (entries.map (·.path.components)).Nodup) {i j : Nat}
    {entry entry' : FileEntry} (hi : entries[i]? = some entry) (hj : entries[j]? = some entry')
    (hij : i ≠ j) : entry.path.components ≠ entry'.path.components := by
  intro hsame
  have hlt : i < (entries.map (·.path.components)).length := by
    rw [List.length_map]
    exact (List.getElem?_eq_some_iff.mp hi).1
  refine hij ((List.getElem?_inj hlt hnodup).mp ?_)
  rw [List.getElem?_map, List.getElem?_map, hi, hj, Option.map_some, Option.map_some, hsame]

/-- A turn brings one worker one request further, and the others do not notice. -/
lemma turn (hstore : FileStore.KeepsApart σ known) (hknown : ∀ entry ∈ entries, known entry.path)
    (hnodup : (entries.map (·.path.components)).Nodup)
    (h : InTurn known patcher entries before turns state) (i : Nat) :
    InTurn known patcher entries before (Function.update turns i (turns i + 1))
      (Script.turn state i) := by
  have hscript := h.script i
  cases hentry : entries[i]? with
  | none =>
    -- There is no such worker.
    rw [hentry, Option.map_none] at hscript
    have hturns : ∀ j entry, entries[j]? = some entry →
        Function.update turns i (turns i + 1) j = turns j := by
      intro j entry hj
      refine Function.update_of_ne (fun hji => ?_) _ _
      rw [hji, hentry] at hj
      cases hj
    rw [Script.turn, hscript]
    refine ⟨fun j => ?_, fun j entry hj => ?_, h.others⟩
    · rw [h.script j]
      cases hj : entries[j]? with
      | none => rfl
      | some entry => rw [hturns j entry hj]
    · rw [hturns j entry hj]
      exact h.own j entry hj
  | some entry =>
    rw [hentry, Option.map_some] at hscript
    rw [Script.turn, hscript]
    have hpath := hknown entry (List.mem_of_getElem? hentry)
    have halone := (patcher.patchFile_tends hpath entry.violations before).steps hstore (turns i)
    have hown := (h.own i entry hentry).symm
    obtain ⟨hnext, hafter⟩ := halone.step_congr hstore hown
    have hkeep : ∀ components, entry.path.components ≠ components → World.AgreesOn known components
        ((patcher.stepsAlone before entry (turns i)).1.step state.2).2 state.2 :=
      fun components hne => (halone.congr hown).step_other hstore hne
    refine ⟨fun j => ?_, fun j entry' hj => ?_, fun components hmem => ?_⟩
    · obtain rfl | hij := eq_or_ne i j
      · have hlt : i < state.1.length := (List.getElem?_eq_some_iff.mp hscript).1
        rw [List.getElem?_set_self hlt, hentry, Option.map_some, Function.update_self]
        exact congrArg some hnext.symm
      · rw [List.getElem?_set_ne hij, h.script j, Function.update_of_ne (Ne.symm hij)]
    · obtain rfl | hij := eq_or_ne i j
      · obtain rfl : entry = entry' := Option.some.inj (hentry.symm.trans hj)
        rw [Function.update_self]
        exact hafter.symm
      · rw [Function.update_of_ne (Ne.symm hij)]
        exact (hkeep _ (components_ne hnodup hentry hj hij)).trans (h.own j entry' hj)
    · have hne : entry.path.components ≠ components := fun hsame =>
        hmem (List.mem_map.mpr ⟨entry, List.mem_of_getElem? hentry, hsame⟩)
      exact (hkeep components hne).trans (h.others components hmem)

/-- The state once the turns of each worker have brought it to its end. -/
lemma ended (h : InTurn known patcher entries before turns state)
    (hsteps : ∀ i entry, entries[i]? = some entry → patcher.stepsAlone before entry (turns i) =
      (.done (patcher.runAlone before entry).1, (patcher.runAlone before entry).2)) :
    state.1 = (entries.map fun entry => (patcher.runAlone before entry).1).map .done ∧
      Alone known patcher entries before state.2 := by
  refine ⟨List.ext_getElem? fun i => ?_, fun entry hentry => ?_, h.others⟩
  · rw [h.script i, List.getElem?_map, List.getElem?_map]
    cases hi : entries[i]? with
    | none => rfl
    | some entry => simp only [Option.map_some, hsteps i entry hi]
  · obtain ⟨i, hi⟩ := List.getElem?_of_mem hentry
    have hown := h.own i entry hi
    rwa [hsteps i entry hi] at hown

end InTurn

section Batch

variable (hstore : FileStore.KeepsApart σ known) {report : Report}
  (hknown : ∀ entry ∈ report.kept patcher.excluded, known entry.path)
include hstore hknown

end Batch

end Patcher

/-! ### The same end -/

/-- Worlds that differ in the order of notes and notifications at most, as far as the known paths
can tell. -/
structure World.Alike (known : Path → Prop) (world other : World σ) : Prop where
  read : ∀ path, known path →
    FileStore.read world.store path = FileStore.read other.store path
  digests : ∀ path, world.history.digests path = other.history.digests path
  seen : world.history.seen.Perm other.history.seen
  notified : world.notified.Perm other.notified

namespace Patcher

end Patcher

end LintRepair
