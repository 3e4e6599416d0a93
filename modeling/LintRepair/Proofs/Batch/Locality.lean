import LintRepair.Batch
import LintRepair.Proofs.Batch.History
import LintRepair.Proofs.Batch.Separation

/-!
Work on one file.

A script that asks for one path only, and writes there only what it could read, depends on the world
as far as the components of this path go, and leaves the rest of the world alone. Repairing a file
is such a script. What one request does is said first, and what all of them do follows.

* `World.AgreesOn`: worlds that look the same to the paths with some components.
* `Script.Tends`: a script that works on one file, with a bound on its requests.
* `Tends.step_other`, `Tends.step_congr`, `Tends.step`: one request of such a script.
* `Script.steps`: the answers to the first requests; `Tends.steps_eq` says when they are all.
* `Tends.run_other`, `Tends.run_congr`: what a whole run leaves alone, and what it depends on.
* `Patcher.patchFile_tends`: repairing a file takes at most three requests.
-/

namespace LintRepair

variable {σ α : Type} [FileStore σ] {known : Path → Prop} {path : Path}
  {components : List Component} {world other third : World σ}

/-! ### Worlds that agree -/

/-- Worlds that look the same to the known paths with some components. -/
structure World.AgreesOn (known : Path → Prop) (components : List Component)
    (world other : World σ) : Prop where
  read : ∀ path, known path → path.components = components →
    FileStore.read world.store path = FileStore.read other.store path
  history : world.history.about components = other.history.about components
  notified : world.notified.filter (·.components = components) =
    other.notified.filter (·.components = components)

namespace World.AgreesOn

lemma refl (world : World σ) : AgreesOn known components world world :=
  ⟨fun _ _ _ => rfl, rfl, rfl⟩

lemma symm (h : AgreesOn known components world other) : AgreesOn known components other world :=
  ⟨fun path hpath hc => (h.read path hpath hc).symm, h.history.symm, h.notified.symm⟩

lemma trans (h : AgreesOn known components world other)
    (h' : AgreesOn known components other third) : AgreesOn known components world third :=
  ⟨fun path hpath hc => (h.read path hpath hc).trans (h'.read path hpath hc),
    h.history.trans h'.history, h.notified.trans h'.notified⟩

lemma digests (h : AgreesOn known path.components world other) :
    world.history.digests path = other.history.digests path := by
  rw [History.digests_eq, History.digests_eq, h.history]

/-- A note about a path is answered alike in worlds that agree on it, and they go on to agree. -/
lemma record (h : AgreesOn known path.components world other) (digest : UInt64) :
    (world.record path digest).1 = (other.record path digest).1 ∧
      AgreesOn known path.components (world.record path digest).2 (other.record path digest).2 := by
  have hchanged : (world.history.record path digest).1 = (other.history.record path digest).1 := by
    rw [History.record_fst, History.record_fst, h.digests]
  refine ⟨hchanged, h.read, ?_, ?_⟩
  · simp only [World.record, History.about_record, h.history]
  · simp only [World.record, hchanged]
    split_ifs
    · rw [List.filter_append, List.filter_append, h.notified]
    · exact h.notified

/-- A note about a path does not matter to other components. -/
lemma record_other (world : World σ) (digest : UInt64) (hne : path.components ≠ components) :
    AgreesOn known components (world.record path digest).2 world := by
  refine ⟨fun _ _ _ => rfl, History.about_record_of_ne world.history digest hne, ?_⟩
  simp only [World.record]
  split_ifs
  · simp [hne]
  · rfl

end World.AgreesOn

/-! ### Scripts that work on one file -/

namespace Script

/-- A script that asks for one path only, with a bound on its requests. It writes only if the file
could be read, which the first argument keeps track of. -/
inductive Minds (path : Path) : Bool → Nat → Script α → Prop where
  | done {readable : Bool} {bound : Nat} (value : α) : Minds path readable bound (.done value)
  | read {readable : Bool} {bound : Nat} {next : Except IoError ByteArray → Script α}
      (refused : ∀ e, Minds path false bound (next (.error e)))
      (answered : ∀ bytes, Minds path true bound (next (.ok bytes))) :
      Minds path readable (bound + 1) (.read path next)
  | write {bound : Nat} {bytes : ByteArray} {next : Except IoError Unit → Script α}
      (more : ∀ answer, Minds path true bound (next answer)) :
      Minds path true (bound + 1) (.write path bytes next)
  | record {readable : Bool} {bound : Nat} {digest : UInt64} {next : Bool → Script α}
      (more : ∀ changed, Minds path readable bound (next changed)) :
      Minds path readable (bound + 1) (.record path digest next)

/-- A script that works on one file of a world, with a bound on the requests that are left. -/
def Tends (known : Path → Prop) (path : Path) (bound : Nat) (script : Script α)
    (world : World σ) : Prop :=
  known path ∧ ∃ readable, Minds path readable bound script ∧
    (readable = true → ∃ old, FileStore.read world.store path = .ok old)

variable {bound : Nat} {script : Script α}

namespace Tends

/-- Only the file itself says whether a script works on it. -/
lemma congr (h : Tends known path bound script world)
    (hagree : World.AgreesOn known path.components world other) :
    Tends known path bound script other := by
  obtain ⟨hpath, readable, hminds, hread⟩ := h
  exact ⟨hpath, readable, hminds, fun hr => hagree.read path hpath rfl ▸ hread hr⟩

/-- After a request, the script works on the same file with one request less. -/
lemma step (hstore : FileStore.KeepsApart σ known) (h : Tends known path bound script world) :
    Tends known path (bound - 1) (script.step world).1 (script.step world).2 := by
  obtain ⟨hpath, readable, hminds, hread⟩ := h
  cases hminds with
  | done value => exact ⟨hpath, readable, .done value, hread⟩
  | read refused answered =>
    cases hanswer : FileStore.read world.store path with
    | error e =>
      refine ⟨hpath, false, ?_, by simp⟩
      simpa only [Script.step, hanswer, Nat.add_sub_cancel] using refused e
    | ok bytes =>
      refine ⟨hpath, true, ?_, fun _ => ⟨bytes, hanswer⟩⟩
      simpa only [Script.step, hanswer, Nat.add_sub_cancel] using answered bytes
  | @write bound bytes next more =>
    obtain ⟨old, hold⟩ := hread rfl
    obtain ⟨written, hwritten⟩ := hstore.writable bytes hpath hold
    have hback := hstore.read_written hpath hpath hold hwritten
    rw [if_pos rfl, hold] at hback
    rw [Script.step, hwritten]
    exact ⟨hpath, true, more _, fun _ => ⟨bytes, hback⟩⟩
  | record more => exact ⟨hpath, readable, more _, hread⟩

/-- A request leaves the world as it is for other components. -/
lemma step_other (hstore : FileStore.KeepsApart σ known)
    (h : Tends known path bound script world) (hne : path.components ≠ components) :
    World.AgreesOn known components (script.step world).2 world := by
  obtain ⟨hpath, readable, hminds, hread⟩ := h
  cases hminds with
  | done value => exact .refl world
  | read refused answered => exact .refl world
  | @write bound bytes next more =>
    obtain ⟨old, hold⟩ := hread rfl
    obtain ⟨written, hwritten⟩ := hstore.writable bytes hpath hold
    rw [Script.step, hwritten]
    refine ⟨fun q hq hc => ?_, rfl, rfl⟩
    exact (hstore.read_written hpath hq hold hwritten).trans
      (if_neg fun hsame => hne (hsame.symm.trans hc))
  | record more => exact .record_other world _ hne

/-- A request is answered alike in worlds that agree on the file, and they go on to agree. -/
lemma step_congr (hstore : FileStore.KeepsApart σ known)
    (h : Tends known path bound script world)
    (hagree : World.AgreesOn known path.components world other) :
    (script.step world).1 = (script.step other).1 ∧
      World.AgreesOn known path.components (script.step world).2 (script.step other).2 := by
  obtain ⟨hpath, readable, hminds, hread⟩ := h
  have hsame := hagree.read path hpath rfl
  cases hminds with
  | done value => exact ⟨rfl, hagree⟩
  | read refused answered => exact ⟨by rw [Script.step, Script.step, hsame], hagree⟩
  | @write bound bytes next more =>
    obtain ⟨old, hold⟩ := hread rfl
    have hold' := hsame.symm.trans hold
    obtain ⟨written, hwritten⟩ := hstore.writable bytes hpath hold
    obtain ⟨written', hwritten'⟩ := hstore.writable bytes hpath hold'
    rw [Script.step, Script.step, hwritten, hwritten']
    refine ⟨rfl, fun q hq hc => ?_, hagree.history, hagree.notified⟩
    rw [hstore.read_written hpath hq hold hwritten, hstore.read_written hpath hq hold' hwritten',
      hagree.read q hq hc]
  | @record readable bound digest next more =>
    obtain ⟨hchanged, hafter⟩ := hagree.record digest
    exact ⟨congrArg next hchanged, hafter⟩

end Tends

/-! ### All requests of a script -/

/-- Answers the first requests of a script. -/
def steps (world : World σ) (script : Script α) : Nat → Script α × World σ
  | 0 => (script, world)
  | n + 1 => (script.steps world n).1.step (script.steps world n).2

lemma run_step (world : World σ) (script : Script α) :
    (script.step world).1.run (script.step world).2 = script.run world := by
  cases script with
  | done value => rfl
  | kind path next => rfl
  | read path next => rfl
  | write path bytes next =>
    rw [step, run]
    cases FileStore.write world.store path bytes <;> rfl
  | record path digest next => rfl
  | input next => rfl

lemma run_steps (world : World σ) (script : Script α) (n : Nat) :
    (script.steps world n).1.run (script.steps world n).2 = script.run world := by
  induction n with
  | zero => rfl
  | succ n ih => rw [steps, run_step, ih]

namespace Tends

lemma steps (hstore : FileStore.KeepsApart σ known) (h : Tends known path bound script world)
    (n : Nat) :
    Tends known path (bound - n) (script.steps world n).1 (script.steps world n).2 := by
  induction n with
  | zero => exact h
  | succ n ih => exact ih.step hstore

/-- Once the bound is reached, the script is done and nothing happens any more. -/
lemma steps_eq (hstore : FileStore.KeepsApart σ known) (h : Tends known path bound script world)
    {n : Nat} (hn : bound ≤ n) :
    script.steps world n = (.done (script.run world).1, (script.run world).2) := by
  have hdone := h.steps hstore n
  rw [Nat.sub_eq_zero_of_le hn] at hdone
  obtain ⟨-, readable, hminds, -⟩ := hdone
  have hrun := run_steps world script n
  generalize script.steps world n = state at *
  obtain ⟨rest, after⟩ := state
  cases hminds with
  | done value => rw [← hrun, run]

lemma steps_other (hstore : FileStore.KeepsApart σ known)
    (h : Tends known path bound script world) (hne : path.components ≠ components) (n : Nat) :
    World.AgreesOn known components (script.steps world n).2 world := by
  induction n with
  | zero => exact .refl world
  | succ n ih => exact ((h.steps hstore n).step_other hstore hne).trans ih

lemma steps_congr (hstore : FileStore.KeepsApart σ known)
    (h : Tends known path bound script world)
    (hagree : World.AgreesOn known path.components world other) (n : Nat) :
    (script.steps world n).1 = (script.steps other n).1 ∧
      World.AgreesOn known path.components (script.steps world n).2 (script.steps other n).2 := by
  induction n with
  | zero => exact ⟨rfl, hagree⟩
  | succ n ih =>
    obtain ⟨hscript, hafter⟩ := ih
    rw [Script.steps, Script.steps, ← hscript]
    exact (h.steps hstore n).step_congr hstore hafter

/-- A run leaves the world as it is for other components. -/
lemma run_other (hstore : FileStore.KeepsApart σ known)
    (h : Tends known path bound script world) (hne : path.components ≠ components) :
    World.AgreesOn known components (script.run world).2 world := by
  have hsteps := h.steps_other hstore hne bound
  rwa [h.steps_eq hstore le_rfl] at hsteps

/-- A run gives the same value in worlds that agree on the file, and they go on to agree. -/
lemma run_congr (hstore : FileStore.KeepsApart σ known)
    (h : Tends known path bound script world)
    (hagree : World.AgreesOn known path.components world other) :
    (script.run world).1 = (script.run other).1 ∧
      World.AgreesOn known path.components (script.run world).2 (script.run other).2 := by
  obtain ⟨hscript, hafter⟩ := h.steps_congr hstore hagree bound
  rw [h.steps_eq hstore le_rfl, (h.congr hagree).steps_eq hstore le_rfl] at hscript hafter
  exact ⟨Script.done.inj hscript, hafter⟩

end Tends

end Script

/-! ### Repairing a file -/

/-- Repairing a file takes a read, a write and a note at most. -/
lemma Patcher.patchFile_tends (patcher : Patcher) (hpath : known path)
    (violations : List Violation) (world : World σ) :
    (patcher.patchFile path violations).Tends known path 3 world := by
  refine ⟨hpath, false, .read (fun e => .done _) fun bytes => ?_, by simp⟩
  split
  · exact .done _
  · refine .write fun answer => ?_
    cases answer with
    | error e => exact .done _
    | ok => exact .record fun changed => .done _

end LintRepair
