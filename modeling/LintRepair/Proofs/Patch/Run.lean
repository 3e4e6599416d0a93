import Mathlib.Tactic
import Mathlib.Data.List.Sort
import LintRepair.Patcher
import LintRepair.Position

/-!
Runs of a patcher.

A run takes the violations of a file in patch order and fixes one after the other. Whatever one fix
hands on to the violations that wait behind it is there at the end of the run.

* `Rule.mem_keys_iff`, `Rule.ofKey?_eq_importOrder_iff`, `Rule.mem_groupKeys_iff`: the keys of
  rules.
* `Violation.position`: where a violation points, counted from zero.
* `Violation.inPatchOrder`: the violations of a file as a run takes them, with `inPatchOrder_perm`,
  `inPatchOrder_pairwise` and, to compute it, `inPatchOrder_eq_insertionSort`.
* `applyOne_of_rule`, `applyOne_of_gated`: one step, a fix or a violation that is put off.
* `applyOne_eq_ok_cases`: what a step can do.
* `applyAll_of_step`: what every step hands on to the waiting violations holds when none is left.
* `applyAll_of_fix`: a run in which no violation is put off or passed over.
* `patchLines_keeps`: what every fix keeps of the lines is kept by a run.
-/

namespace LintRepair

/-! ### Keys and rules -/

namespace Rule

lemma mem_table_of_ofKey? {key : String} {rule : Rule} (h : ofKey? key = some rule) :
    (key, rule) ∈ table := by
  obtain ⟨x, y, hxy, -⟩ := List.lookup_eq_some_iff.mp h
  rw [hxy]
  simp

lemma mem_keys_iff {key : String} : key ∈ keys ↔ ∃ rule, ofKey? key = some rule := by
  rw [← Option.isSome_iff_exists, ofKey?, List.lookup_isSome_iff, keys, List.mem_map]
  exact exists_congr fun entry => and_congr_right fun _ => by rw [beq_iff_eq, eq_comm]

/-- Only one key names the order of imports. -/
lemma ofKey?_eq_importOrder_iff {key : String} :
    ofKey? key = some importOrder ↔ key = orderingKey := by
  constructor
  · intro h
    simpa [table] using mem_table_of_ofKey? h
  · rintro rfl
    rfl

/-- The keys of the rules about blank lines between imports. -/
def groupKeys : List String := ["import.groups.separated.internally", "import.separation"]

lemma mem_groupKeys_iff {key : String} :
    key ∈ groupKeys ↔ ofKey? key = some importGroups ∨ ofKey? key = some importSeparation := by
  constructor
  · intro h
    have hall : ∀ key ∈ groupKeys,
        ofKey? key = some importGroups ∨ ofKey? key = some importSeparation := by decide
    exact hall key h
  · rintro (h | h)
    · have hkey : key = "import.groups.separated.internally" := by
        simpa [table] using mem_table_of_ofKey? h
      simp [groupKeys, hkey]
    · have hkey : key = "import.separation" := by
        simpa [table] using mem_table_of_ofKey? h
      simp [groupKeys, hkey]

end Rule

/-! ### Patch order -/

namespace Violation

/-- The position at which a violation points, counted from zero. -/
def position (v : Violation) : Position := ⟨v.lineIndex, v.columnIndex⟩

/-- A violation is applied before one that stands above it or left of it, and at one position by
rank. -/
lemma patchOrderBy_isLE {side : Violation → Side} {v w : Violation} :
    (patchOrderBy side v w).isLE = true ↔
      w.line < v.line ∨ w.line = v.line ∧
        (w.column < v.column ∨ w.column = v.column ∧ (side v).rank ≤ (side w).rank) := by
  rw [patchOrderBy, patchOrder, Ordering.isLE_then_iff_or, Ordering.then_eq_lt]
  simp only [Ordering.then_eq_eq, Nat.compare_eq_lt, Nat.compare_eq_eq, Nat.isLE_compare]
  omega

lemma patchOrderBy_trans {side : Violation → Side} (u v w : Violation)
    (huv : (patchOrderBy side u v).isLE = true) (hvw : (patchOrderBy side v w).isLE = true) :
    (patchOrderBy side u w).isLE = true := by
  rw [patchOrderBy_isLE] at *
  omega

lemma patchOrderBy_total {side : Violation → Side} (v w : Violation) :
    ((patchOrderBy side v w).isLE || (patchOrderBy side w v).isLE) = true := by
  rw [Bool.or_eq_true, patchOrderBy_isLE, patchOrderBy_isLE]
  omega

/-- The violations of a file in the order in which a patcher takes them. -/
def inPatchOrder (violations : List Violation) : List Violation :=
  sortForPatchingBy (fun v => Rule.sideOfKey v.key) violations

lemma inPatchOrder_perm (violations : List Violation) :
    (inPatchOrder violations).Perm violations :=
  List.mergeSort_perm _ _

lemma mem_inPatchOrder {violations : List Violation} {v : Violation} :
    v ∈ inPatchOrder violations ↔ v ∈ violations :=
  (inPatchOrder_perm violations).mem_iff

@[simp] lemma length_inPatchOrder (violations : List Violation) :
    (inPatchOrder violations).length = violations.length :=
  (inPatchOrder_perm violations).length_eq

/-- Of the violations in patch order none may come before an earlier one. -/
lemma inPatchOrder_sorted (violations : List Violation) :
    (inPatchOrder violations).Pairwise fun v w =>
      (patchOrderBy (fun v => Rule.sideOfKey v.key) v w).isLE = true :=
  List.pairwise_mergeSort patchOrderBy_trans patchOrderBy_total violations

/-- Violations that are in patch order stay as they are. -/
lemma inPatchOrder_eq_self {violations : List Violation}
    (h : violations.Pairwise fun v w =>
      (patchOrderBy (fun v => Rule.sideOfKey v.key) v w).isLE = true) :
    inPatchOrder violations = violations :=
  List.mergeSort_of_pairwise h

/-- A violation more is inserted in front of those that may not come before it. -/
lemma inPatchOrder_cons (v : Violation) (violations : List Violation) :
    inPatchOrder (v :: violations) = (inPatchOrder violations).orderedInsert
      (fun v w => (patchOrderBy (fun v => Rule.sideOfKey v.key) v w).isLE = true) v := by
  obtain ⟨front, behind, hall, hrest, hfront⟩ :=
    List.mergeSort_cons patchOrderBy_trans patchOrderBy_total v violations
  have hsorted := inPatchOrder_sorted (v :: violations)
  rw [inPatchOrder, sortForPatchingBy, hall, List.pairwise_append, List.pairwise_cons] at hsorted
  rw [inPatchOrder, inPatchOrder, sortForPatchingBy, sortForPatchingBy, hall, hrest,
    List.orderedInsert_eq_take_drop, List.takeWhile_append_of_pos (by simpa using hfront),
    List.dropWhile_append_of_pos (by simpa using hfront)]
  cases behind with
  | nil => simp
  | cons w behind =>
      have hw := hsorted.2.1.1 w List.mem_cons_self
      rw [List.takeWhile_cons_of_neg (by rw [hw]; simp),
        List.dropWhile_cons_of_neg (by rw [hw]; simp), List.append_nil]

/-- Inserting one violation after the other puts them in patch order. -/
lemma inPatchOrder_eq_insertionSort (violations : List Violation) :
    inPatchOrder violations = violations.insertionSort fun v w =>
      (patchOrderBy (fun v => Rule.sideOfKey v.key) v w).isLE = true := by
  induction violations with
  | nil => exact List.mergeSort_nil
  | cons v violations ih => rw [inPatchOrder_cons, ih, List.insertionSort_cons]

/-- Violations further down and further right come first. -/
lemma inPatchOrder_pairwise (violations : List Violation) :
    (inPatchOrder violations).Pairwise fun v w =>
      w.line < v.line ∨ w.line = v.line ∧
        (w.column < v.column ∨ w.column = v.column ∧
          (Rule.sideOfKey v.key).rank ≤ (Rule.sideOfKey w.key).rank) :=
  (inPatchOrder_sorted violations).imp patchOrderBy_isLE.mp

end Violation

/-! ### Steps and runs -/

namespace Patcher

variable {patcher : Patcher} {all later : List Violation} {v : Violation} {state : Patched}

/-- The patcher with every rule switched on. -/
def complete (tabWidth : Nat) : Patcher where
  enabled := fun _ => true
  tabWidth := tabWidth
  terminator := .lf
  excluded := fun _ => false
  digest := Digest.ofBytes

lemma patchLines_eq (patcher : Patcher) (violations : List Violation) (buffer : Buffer) :
    patcher.patchLines violations buffer =
      patcher.applyAll (Violation.inPatchOrder violations) (Violation.inPatchOrder violations)
        ⟨buffer, 0, 0, []⟩ := rfl

/-- A rule that is switched on is the one that the key names. -/
lemma ofKey?_of_ruleFor {key : String} {rule : Rule} (h : patcher.ruleFor key = some rule) :
    Rule.ofKey? key = some rule := by
  rw [ruleFor] at h
  split_ifs at h
  exact h

/-- A violation with a rule that applies is fixed by that rule. -/
lemma applyOne_of_rule {rule : Rule} (hrule : patcher.ruleFor v.key = some rule)
    (hpermits : rule.permits all v (.followedBy later) = true) :
    patcher.applyOne all v later state =
      (rule.fix patcher.tabWidth v state.lines).map fun lines =>
        { state with lines, applied := state.applied + 1 } := by
  rw [applyOne, hrule]
  simp only [hpermits, if_true]
  cases rule.fix patcher.tabWidth v state.lines <;> rfl

/-- A violation that its rule puts off changes nothing but a count. -/
lemma applyOne_of_gated {rule : Rule} (hrule : patcher.ruleFor v.key = some rule)
    (hpermits : rule.permits all v (.followedBy later) = false) :
    patcher.applyOne all v later state = .ok { state with gated := state.gated + 1 } := by
  rw [applyOne, hrule]
  simp [hpermits]

/-- A run succeeds if every step hands on what the next one needs. -/
lemma applyAll_of_step {P : List Violation → Patched → Prop}
    (hstep : ∀ v later state, P (v :: later) state →
      ∃ state', patcher.applyOne all v later state = .ok state' ∧ P later state')
    {violations : List Violation} {state : Patched} (h : P violations state) :
    ∃ state', patcher.applyAll all violations state = .ok state' ∧ P [] state' := by
  induction violations generalizing state with
  | nil => exact ⟨state, rfl, h⟩
  | cons v later ih =>
      obtain ⟨next, hnext, hP⟩ := hstep v later state h
      obtain ⟨last, hlast, hend⟩ := ih hP
      refine ⟨last, ?_, hend⟩
      rw [applyAll, hnext]
      exact hlast

/-- A run in which every violation can be fixed when its turn comes fixes them all. -/
lemma applyAll_of_fix {P : List Violation → Buffer → Prop}
    (hfix : ∀ v later lines, P (v :: later) lines → ∃ rule lines',
      patcher.ruleFor v.key = some rule ∧ rule.permits all v (.followedBy later) = true ∧
        rule.fix patcher.tabWidth v lines = .ok lines' ∧ P later lines')
    {violations : List Violation} (state : Patched) (h : P violations state.lines) :
    ∃ lines, patcher.applyAll all violations state =
      .ok { state with lines, applied := state.applied + violations.length } ∧ P [] lines := by
  induction violations generalizing state with
  | nil => exact ⟨state.lines, rfl, h⟩
  | cons v later ih =>
      obtain ⟨rule, lines', hrule, hpermits, hlines', hP⟩ := hfix v later state.lines h
      obtain ⟨lines, hlines, hend⟩ :=
        ih { state with lines := lines', applied := state.applied + 1 } hP
      refine ⟨lines, ?_, hend⟩
      rw [applyAll, applyOne_of_rule hrule hpermits, hlines']
      simpa [Except.map, Nat.add_assoc, Nat.add_comm 1] using hlines

/-- A run without an enabled rule leaves the lines alone. -/
lemma exists_patchLines_of_no_rule {violations : List Violation}
    (h : ∀ v ∈ violations, patcher.ruleFor v.key = none) (buffer : Buffer) :
    ∃ patched, patcher.patchLines violations buffer = .ok patched ∧ patched.lines = buffer := by
  have hrun : ∃ patched, patcher.patchLines violations buffer = .ok patched ∧
      (∀ v ∈ ([] : List Violation), patcher.ruleFor v.key = none) ∧ patched.lines = buffer := by
    refine applyAll_of_step
      (P := fun later state => (∀ v ∈ later, patcher.ruleFor v.key = none) ∧ state.lines = buffer)
      ?_ ⟨fun v hv => h v (Violation.mem_inPatchOrder.mp hv), rfl⟩
    rintro v later state ⟨hnone, hlines⟩
    refine ⟨{ state with unresolved := state.unresolved ++ [v.key] }, ?_,
      fun w hw => hnone w (List.mem_cons_of_mem v hw), hlines⟩
    rw [applyOne, hnone v List.mem_cons_self]
  obtain ⟨patched, hpatched, -, hlines⟩ := hrun
  exact ⟨patched, hpatched, hlines⟩

/-- What a step can do: it passes over a violation without a rule, puts off one that its rule does
not permit, or fixes the lines. -/
lemma applyOne_eq_ok_cases {state' : Patched}
    (h : patcher.applyOne all v later state = .ok state') :
    (patcher.ruleFor v.key = none ∧
      state' = { state with unresolved := state.unresolved ++ [v.key] }) ∨
    ∃ rule, patcher.ruleFor v.key = some rule ∧
      (rule.permits all v (.followedBy later) = false ∧
        state' = { state with gated := state.gated + 1 } ∨
      rule.permits all v (.followedBy later) = true ∧
        ∃ lines, rule.fix patcher.tabWidth v state.lines = .ok lines ∧
          state' = { state with lines, applied := state.applied + 1 }) := by
  cases hrule : patcher.ruleFor v.key with
  | none =>
      rw [applyOne, hrule] at h
      exact Or.inl ⟨rfl, (Except.ok.inj h).symm⟩
  | some rule =>
      refine Or.inr ⟨rule, rfl, ?_⟩
      cases hpermits : rule.permits all v (.followedBy later) with
      | false =>
          rw [applyOne_of_gated hrule hpermits] at h
          exact Or.inl ⟨rfl, (Except.ok.inj h).symm⟩
      | true =>
          rw [applyOne_of_rule hrule hpermits] at h
          cases hfix : rule.fix patcher.tabWidth v state.lines with
          | error e => simp [hfix, Except.map] at h
          | ok lines =>
              rw [hfix] at h
              exact Or.inr ⟨rfl, lines, rfl, (Except.ok.inj h).symm⟩

/-- The first step of a run that comes to its end. -/
lemma exists_of_applyAll_cons {state' : Patched}
    (h : patcher.applyAll all (v :: later) state = .ok state') :
    ∃ next, patcher.applyOne all v later state = .ok next ∧
      patcher.applyAll all later next = .ok state' := by
  rw [applyAll] at h
  cases hone : patcher.applyOne all v later state with
  | error e => simp [hone] at h
  | ok next =>
      rw [hone] at h
      exact ⟨next, rfl, h⟩

/-- What every fix keeps of the lines is kept by a run. -/
lemma applyAll_keeps {P : Buffer → Prop} {violations : List Violation}
    (hfix : ∀ v ∈ violations, ∀ rule lines lines', patcher.ruleFor v.key = some rule →
      rule.fix patcher.tabWidth v lines = .ok lines' → P lines → P lines')
    {state state' : Patched} (h : patcher.applyAll all violations state = .ok state')
    (hP : P state.lines) : P state'.lines := by
  induction violations generalizing state with
  | nil =>
      rw [applyAll, Except.ok.injEq] at h
      exact h ▸ hP
  | cons v later ih =>
      obtain ⟨next, hnext, hrest⟩ := exists_of_applyAll_cons h
      refine ih (fun w hw => hfix w (List.mem_cons_of_mem v hw)) hrest ?_
      rcases applyOne_eq_ok_cases hnext with
        ⟨-, rfl⟩ | ⟨rule, hrule, ⟨-, rfl⟩ | ⟨-, lines, hlines, rfl⟩⟩
      · exact hP
      · exact hP
      · exact hfix v List.mem_cons_self rule _ _ hrule hlines hP

/-- What every fix keeps of the lines is kept by patching. -/
lemma patchLines_keeps {P : Buffer → Prop} {violations : List Violation} {buffer : Buffer}
    {patched : Patched}
    (hfix : ∀ v ∈ violations, ∀ rule lines lines', patcher.ruleFor v.key = some rule →
      rule.fix patcher.tabWidth v lines = .ok lines' → P lines → P lines')
    (h : patcher.patchLines violations buffer = .ok patched) (hP : P buffer) :
    P patched.lines := by
  rw [patchLines_eq] at h
  exact applyAll_keeps (fun v hv => hfix v (Violation.mem_inPatchOrder.mp hv)) h hP

end Patcher

end LintRepair
