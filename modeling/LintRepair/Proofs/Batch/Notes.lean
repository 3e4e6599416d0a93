import Mathlib.Data.Finset.Card
import LintRepair.Proofs.Batch.Interleaving
import LintRepair.Proofs.Batch.Settled

/-!
Clients that share a change history.

Any number of clients note digests in one history, taking turns as a schedule says. A client may do
other things between its notes, and what it notes may depend on the answers it got. Whatever the
schedule, the first note of a digest for a path is answered with yes, all later ones with no, and
what the history remembers can be read off the notes and their answers.

* `Note`: a noted digest with its answer; `Script.notes`: the notes of a run, in order.
* `History.Remembers`: what a history remembers of some notes; `Remembers.record` is one more note.
* `remembers_interleave`: what is remembered in the course of a run.
* `notes_answered_once`: the answers, the counts and the notifications of a run.
-/

namespace LintRepair

/-- A digest that was noted for a path, with the answer whether it was new there. -/
structure Note where
  path : Path
  digest : UInt64
  isNew : Bool
deriving DecidableEq

namespace Note

/-- Whether the note is about this digest of a path, however the path is spelled. -/
def concerns (note : Note) (path : Path) (digest : UInt64) : Bool :=
  note.path.same path && note.digest == digest

lemma concerns_iff {note : Note} {path : Path} {digest : UInt64} :
    note.concerns path digest = true ↔ note.path.same path = true ∧ note.digest = digest := by
  rw [concerns, Bool.and_eq_true, beq_iff_eq]

lemma concerns_of_same {path other : Path} (h : path.same other = true) (note : Note)
    (digest : UInt64) : note.concerns path digest = note.concerns other digest := by
  rw [concerns, concerns, Path.same, Path.same, Path.same_iff.mp h]

end Note

/-! ### What is remembered of some notes -/

namespace History

variable {history : History} {notes : List Note}

/-- A digest that is noted now, with the answer of the history. -/
def answer (history : History) (path : Path) (digest : UInt64) : Note :=
  ⟨path, digest, (history.record path digest).1⟩

/-- What a history remembers of some notes, if it was empty before them. -/
structure Remembers (history : History) (notes : List Note) : Prop where
  /-- The digests of a path are those that were new when they were noted. -/
  digests : ∀ path, history.digests path =
    (notes.filter fun note => note.isNew && note.path.same path).map (·.digest)
  noted : ∀ note ∈ notes, note.digest ∈ history.digests note.path
  nodup : history.paths.Nodup
  paths : ∀ components, components ∈ history.paths ↔ components ∈ notes.map (·.path.components)
  /-- The first note of a digest is answered with yes, and all later ones with no. -/
  answers : ∀ path digest, (∃ note ∈ notes, note.concerns path digest = true) →
    ∃ n, (notes.filter (·.concerns path digest)).map (·.isNew) = true :: List.replicate n false

namespace Remembers

lemma empty : History.empty.Remembers [] :=
  ⟨fun _ => rfl, by simp, by simp [History.paths, History.empty],
    by simp [History.paths, History.empty], by simp⟩

/-- The digests of a path are those of its notes. -/
lemma mem_digests_iff (h : history.Remembers notes) (path : Path) (digest : UInt64) :
    digest ∈ history.digests path ↔ ∃ note ∈ notes, note.concerns path digest = true := by
  constructor
  · intro hmem
    rw [h.digests] at hmem
    obtain ⟨note, hnote, rfl⟩ := List.mem_map.mp hmem
    obtain ⟨hnote, hnew⟩ := List.mem_filter.mp hnote
    rw [Bool.and_eq_true] at hnew
    exact ⟨note, hnote, Note.concerns_iff.mpr ⟨hnew.2, rfl⟩⟩
  · rintro ⟨note, hnote, hconcerns⟩
    obtain ⟨hsame, rfl⟩ := Note.concerns_iff.mp hconcerns
    rw [← history.digests_of_same hsame]
    exact h.noted note hnote

/-- A note is new if there was none of its kind before. -/
lemma isNew_answer_iff (h : history.Remembers notes) (path : Path) (digest : UInt64) :
    (history.answer path digest).isNew = true ↔
      ¬ ∃ note ∈ notes, note.concerns path digest = true := by
  rw [answer, History.record_fst, decide_eq_true_eq, h.mem_digests_iff]

/-- One more note is answered with no if there was one of its kind before, and else with yes. -/
lemma answers_concat (h : history.Remembers notes) (path : Path) (digest : UInt64) {other : Path}
    {d : UInt64}
    (hsome : ∃ note ∈ notes ++ [history.answer path digest], note.concerns other d = true) :
    ∃ n, ((notes ++ [history.answer path digest]).filter (·.concerns other d)).map (·.isNew) =
      true :: List.replicate n false := by
  rw [List.filter_append, List.map_append, List.filter_singleton]
  cases hconcerns : (history.answer path digest).concerns other d with
  | true =>
      obtain ⟨hsame, rfl : digest = d⟩ := Note.concerns_iff.mp hconcerns
      have hkind : (fun note : Note => note.concerns other digest) =
          fun note => note.concerns path digest :=
        funext fun note => (Note.concerns_of_same hsame note digest).symm
      rw [cond_true, List.map_singleton]
      by_cases hbefore : ∃ note ∈ notes, note.concerns path digest = true
      · obtain ⟨n, hn⟩ := h.answers path digest hbefore
        have hno : (history.answer path digest).isNew = false :=
          Bool.eq_false_of_not_eq_true fun hnew => (h.isNew_answer_iff path digest).mp hnew hbefore
        refine ⟨n + 1, ?_⟩
        rw [hkind, hn, hno, List.replicate_succ', List.cons_append]
      · have hnone : notes.filter (·.concerns path digest) = [] :=
          List.filter_eq_nil_iff.mpr fun note hnote hkind => hbefore ⟨note, hnote, hkind⟩
        refine ⟨0, ?_⟩
        rw [hkind, hnone, (h.isNew_answer_iff path digest).mpr hbefore]
        rfl
  | false =>
      have hbefore : ∃ note ∈ notes, note.concerns other d = true := by
        obtain ⟨note, hnote, hnoteConcerns⟩ := hsome
        rcases List.mem_append.mp hnote with hnote | hnote
        · exact ⟨note, hnote, hnoteConcerns⟩
        · rw [List.mem_singleton.mp hnote, hconcerns] at hnoteConcerns
          exact absurd hnoteConcerns Bool.false_ne_true
      obtain ⟨n, hn⟩ := h.answers other d hbefore
      refine ⟨n, ?_⟩
      rw [hn, cond_false, List.map_nil, List.append_nil]

/-- One more note is remembered with the others. -/
lemma record (h : history.Remembers notes) (path : Path) (digest : UInt64) :
    (history.record path digest).2.Remembers (notes ++ [history.answer path digest]) where
  digests other := by
    rw [digests_record_append, h.digests, List.filter_append, List.map_append,
      List.filter_singleton, answer]
    cases (history.record path digest).1 && path.same other with
    | true => rfl
    | false => rfl
  noted note hnote := by
    rw [digests_record_append]
    rcases List.mem_append.mp hnote with hnote | hnote
    · exact List.mem_append_left _ (h.noted note hnote)
    · obtain rfl := List.mem_singleton.mp hnote
      have hself : path.same path = true := Path.same_iff.mpr rfl
      rw [answer, History.record_fst, hself, Bool.and_true]
      by_cases hseen : digest ∈ history.digests path
      · exact List.mem_append_left _ hseen
      · simp [hseen]
  nodup := by
    rw [paths_record]
    split_ifs with hmem
    · exact h.nodup
    · exact h.nodup.append (List.nodup_singleton _) (List.disjoint_singleton.mpr hmem)
  paths components := by
    rw [paths_record, List.map_append, List.mem_append, List.map_singleton, List.mem_singleton,
      answer]
    split_ifs with hmem
    · rw [h.paths]
      constructor
      · exact Or.inl
      · rintro (hbefore | rfl)
        · exact hbefore
        · exact (h.paths _).mp hmem
    · rw [List.mem_append, List.mem_singleton, h.paths]
  answers _ _ := h.answers_concat path digest

/-- A path has as many digests as it had notes that were new. -/
lemma digestCount_eq (h : history.Remembers notes) (path : Path) :
    history.digestCount path =
      notes.countP fun note => note.isNew && note.path.same path := by
  rw [digestCount, h.digests, List.length_map, List.countP_eq_length_filter]

/-- There are as many files as noted paths, however they were spelled. -/
lemma trackedFiles_eq (h : history.Remembers notes) :
    history.trackedFiles = (notes.map (·.path.components)).toFinset.card := by
  have hpaths : history.paths.toFinset = (notes.map (·.path.components)).toFinset := by
    ext components
    rw [List.mem_toFinset, List.mem_toFinset, h.paths]
  rw [← hpaths, List.toFinset_card_of_nodup h.nodup, trackedFiles, History.paths, List.length_map]

variable {after : History} {more : List Note}

lemma digestCount_le (h : history.Remembers notes) (hafter : after.Remembers (notes ++ more))
    (path : Path) : history.digestCount path ≤ after.digestCount path := by
  rw [h.digestCount_eq, hafter.digestCount_eq, List.countP_append]
  exact Nat.le_add_right _ _

lemma trackedFiles_le (h : history.Remembers notes) (hafter : after.Remembers (notes ++ more)) :
    history.trackedFiles ≤ after.trackedFiles := by
  rw [h.trackedFiles_eq, hafter.trackedFiles_eq, List.map_append, List.toFinset_append]
  exact Finset.card_le_card Finset.subset_union_left

end Remembers

end History

/-! ### The notes of a run -/

/-- A note is notified if it is new. -/
lemma World.notified_record {σ : Type} (world : World σ) (path : Path) (digest : UInt64) :
    (world.record path digest).2.notified = world.notified ++
      ([world.history.answer path digest].filter (·.isNew)).map (·.path) := by
  obtain ⟨-, -, -, hnotified⟩ := World.of_record (Prod.eta (world.record path digest)).symm
  have hanswer : (world.record path digest).1 = (world.history.answer path digest).isNew := rfl
  rw [hnotified, hanswer, List.filter_singleton]
  cases (world.history.answer path digest).isNew with
  | true => rfl
  | false => rfl

namespace Script

variable {σ α : Type} [FileStore σ]

/-- The note that a script asks for with its next request, if it asks for one. -/
def note? (world : World σ) : Script α → Option Note
  | record path digest _ => some (world.history.answer path digest)
  | _ => none

/-- The notes of scripts that take turns, in the order in which they are answered. -/
def notes : List Nat → List (Script α) × World σ → List Note
  | [], _ => []
  | i :: schedule, state =>
      (state.1[i]?.bind (note? state.2)).toList ++ notes schedule (turn state i)

lemma interleave_concat (schedule : List Nat) (i : Nat) (scripts : List (Script α))
    (world : World σ) :
    interleave (schedule ++ [i]) scripts world = turn (interleave schedule scripts world) i := by
  rw [interleave, interleave, List.foldl_append, List.foldl_cons, List.foldl_nil]

lemma notes_append (schedule later : List Nat) (state : List (Script α) × World σ) :
    notes (schedule ++ later) state =
      notes schedule state ++ notes later (interleave schedule state.1 state.2) := by
  induction schedule generalizing state with
  | nil => rfl
  | cons i schedule ih =>
      rw [List.cons_append, notes, notes, ih, List.append_assoc]
      rfl

/-- What a turn does: a client gets the answer to one more note, or there is nothing new in the
history and the notifications. -/
lemma turn_cases (state : List (Script α) × World σ) (i : Nat) :
    (∃ path digest next, state.1[i]? = some (record path digest next) ∧
        notes [i] state = [state.2.history.answer path digest] ∧
        turn state i = (state.1.set i (next (state.2.history.answer path digest).isNew),
          (state.2.record path digest).2)) ∨
      notes [i] state = [] ∧ (turn state i).2.history = state.2.history ∧
        (turn state i).2.notified = state.2.notified := by
  simp only [notes, turn]
  cases state.1[i]? with
  | none => exact Or.inr ⟨rfl, rfl, rfl⟩
  | some script =>
      cases script with
      | record path digest next => exact Or.inl ⟨path, digest, next, rfl, rfl, rfl⟩
      | write path bytes next =>
          refine Or.inr ⟨rfl, ?_⟩
          simp only [step]
          cases FileStore.write state.2.store path bytes with
          | error e => exact ⟨rfl, rfl⟩
          | ok store => exact ⟨rfl, rfl⟩
      | done | kind | read | input => exact Or.inr ⟨rfl, rfl, rfl⟩

variable {world : World σ}

/-- In the course of a run the history remembers the notes so far. -/
lemma remembers_interleave (hempty : world.history = .empty) (schedule : List Nat)
    (scripts : List (Script α)) :
    (interleave schedule scripts world).2.history.Remembers (notes schedule (scripts, world)) := by
  induction schedule using List.reverseRecOn with
  | nil =>
      rw [interleave, List.foldl_nil, hempty]
      exact .empty
  | append_singleton schedule i ih =>
      rw [notes_append, interleave_concat]
      rcases turn_cases (interleave schedule scripts world) i with
        ⟨path, digest, next, -, hnotes, hturn⟩ | ⟨hnotes, hhistory, -⟩
      · rw [hnotes, hturn]
        exact ih.record path digest
      · rw [hnotes, hhistory, List.append_nil]
        exact ih

/-- The notes that were new have been notified in their order. -/
lemma notified_interleave (schedule : List Nat) (scripts : List (Script α)) (world : World σ) :
    (interleave schedule scripts world).2.notified =
      world.notified ++ ((notes schedule (scripts, world)).filter (·.isNew)).map (·.path) := by
  induction schedule using List.reverseRecOn with
  | nil => simp [interleave, notes]
  | append_singleton schedule i ih =>
      rw [notes_append, interleave_concat, List.filter_append, List.map_append,
        ← List.append_assoc, ← ih]
      rcases turn_cases (interleave schedule scripts world) i with
        ⟨path, digest, next, -, hnotes, hturn⟩ | ⟨hnotes, -, hnotified⟩
      · rw [hnotes, hturn, World.notified_record]
      · rw [hnotes, hnotified, List.filter_nil, List.map_nil, List.append_nil]

/-- **A digest is new once.** Clients that share a history take turns in any order. For each path
and digest that were noted, the first note is answered with yes and all others with no. At every
point of the run a path has as many digests as it had notes that were new, there are as many files
as noted paths, however they were spelled, the notifications are the new notes, and no count is
less later in the run. -/
theorem notes_answered_once (scripts : List (Script α)) (world : World σ)
    (hempty : world.history = .empty) (schedule : List Nat) :
    (∀ path digest,
      (∃ note ∈ notes schedule (scripts, world), note.concerns path digest = true) →
      ∃ n, ((notes schedule (scripts, world)).filter (·.concerns path digest)).map (·.isNew) =
        true :: List.replicate n false) ∧
    (∀ path, (interleave schedule scripts world).2.history.digestCount path =
      (notes schedule (scripts, world)).countP fun note => note.isNew && note.path.same path) ∧
    (interleave schedule scripts world).2.history.trackedFiles =
      ((notes schedule (scripts, world)).map (·.path.components)).toFinset.card ∧
    (interleave schedule scripts world).2.notified =
      world.notified ++ ((notes schedule (scripts, world)).filter (·.isNew)).map (·.path) ∧
    ∀ later,
      (∀ path, (interleave schedule scripts world).2.history.digestCount path ≤
        (interleave (schedule ++ later) scripts world).2.history.digestCount path) ∧
      (interleave schedule scripts world).2.history.trackedFiles ≤
        (interleave (schedule ++ later) scripts world).2.history.trackedFiles := by
  have hnow := remembers_interleave hempty schedule scripts
  refine ⟨hnow.answers, hnow.digestCount_eq, hnow.trackedFiles_eq,
    notified_interleave schedule scripts world, fun later => ?_⟩
  have hlater := remembers_interleave hempty (schedule ++ later) scripts
  rw [notes_append] at hlater
  exact ⟨hnow.digestCount_le hlater, hnow.trackedFiles_le hlater⟩

/-- A client that returns to an earlier content of its file, and one that notes the first content of
that file in another spelling and goes on with another file if it was told that this is not new. -/
def sampleClients : List (Script Unit) :=
  [record ⟨"src/A.java"⟩ 1 fun _ => record ⟨"src/A.java"⟩ 2 fun _ =>
      record ⟨"src/A.java"⟩ 1 fun _ => done (),
    record ⟨"src//A.java"⟩ 1 fun isNew =>
      if isNew then done () else record ⟨"B.java"⟩ 1 fun _ => done ()]

lemma notes_sampleClients : notes [0, 1, 0, 1, 0] (sampleClients, World.sample) =
    [⟨⟨"src/A.java"⟩, 1, true⟩, ⟨⟨"src//A.java"⟩, 1, false⟩, ⟨⟨"src/A.java"⟩, 2, true⟩,
      ⟨⟨"B.java"⟩, 1, true⟩, ⟨⟨"src/A.java"⟩, 1, false⟩] := by
  decide +kernel

/-- Three of the five notes of the sample are new, two of them for the one file that was spelled in
two ways. -/
theorem notes_answered_once_two_clients :
    World.sample.history = .empty ∧
      (interleave [0, 1, 0, 1, 0] sampleClients World.sample).2.history.digestCount
        ⟨"src/./A.java"⟩ = 2 ∧
      (interleave [0, 1, 0, 1, 0] sampleClients World.sample).2.history.trackedFiles = 2 ∧
      (interleave [0, 1, 0, 1, 0] sampleClients World.sample).2.notified =
        [⟨"src/A.java"⟩, ⟨"src/A.java"⟩, ⟨"B.java"⟩] := by
  obtain ⟨-, hdigests, hfiles, hnotified, -⟩ :=
    notes_answered_once sampleClients World.sample rfl [0, 1, 0, 1, 0]
  refine ⟨rfl, ?_, ?_, ?_⟩
  · rw [hdigests, notes_sampleClients]
    decide +kernel
  · rw [hfiles, notes_sampleClients]
    decide +kernel
  · rw [hnotified, notes_sampleClients]
    rfl

end Script

end LintRepair
