import LintRepair.Proofs.Patch.ReportOrder
import LintRepair.Proofs.Patch.Waiting

/-!
The books of a run.

A run takes every violation of a file once, in patch order, and does one of three things about it:
it fixes it, its rule puts it off, or there is no rule for it. Imports are moved one at a time, and
the blank lines between them are put off while any import is reported out of order.

* `Fate`, `Patcher.fates`, `Patcher.account`: what a run does about each violation, told by the
  counts that its steps raise.
* `Patcher.fateOf`, `books_of_applyAll`: what a run does is known from the keys alone.
* `filter_forecast_ordering`: of the imports out of order the last one in patch order is moved.
* `exists_topmost`: which one that is in the report.
* `patchLines_accounted`: the books of a run that comes to its end.
-/

namespace LintRepair

/-- What a run does about a violation. -/
inductive Fate where
  | fixed
  /-- The rule put the violation off. -/
  | gated
  /-- There is no rule for the violation, or it is switched off. -/
  | unresolved
deriving DecidableEq

/-- What a step did about its violation, told by the count that it raised. -/
def Patched.fate (before after : Patched) : Fate :=
  if before.applied < after.applied then .fixed
  else if before.gated < after.gated then .gated
  else .unresolved

namespace Patcher

/-- What a run does about one violation after the other, up to the first fix that fails. -/
def fates (patcher : Patcher) (all : List Violation) :
    List Violation → Patched → List (Violation × Fate)
  | [], _ => []
  | v :: later, state =>
      match patcher.applyOne all v later state with
      | .error _ => []
      | .ok state' => (v, state.fate state') :: patcher.fates all later state'

/-- What patching does about the violations of a file, in patch order. -/
def account (patcher : Patcher) (violations : List Violation) (buffer : Buffer) :
    List (Violation × Fate) :=
  patcher.fates (Violation.inPatchOrder violations) (Violation.inPatchOrder violations)
    ⟨buffer, 0, 0, []⟩

/-- Fixes violations one after the other, without a look at the others. -/
def fixAll (patcher : Patcher) : List Violation → Buffer → Except FixError Buffer
  | [], buffer => .ok buffer
  | v :: later, buffer =>
      match patcher.ruleFor v.key with
      | none => patcher.fixAll later buffer
      | some rule => (rule.fix patcher.tabWidth v buffer).bind (patcher.fixAll later)

end Patcher

/-! ### What a run does is known from the keys -/

section Books

variable {patcher : Patcher} {all later violations : List Violation} {v : Violation}
  {state state' : Patched}

/-- What a run does about a violation, given those that come after it. -/
def Patcher.fateOf (patcher : Patcher) (all : List Violation) (v : Violation)
    (later : List Violation) : Fate :=
  match patcher.ruleFor v.key with
  | none => .unresolved
  | some rule => if rule.permits all v (.followedBy later) then .fixed else .gated

/-- What a run that comes to its end does about one violation after the other. -/
def Patcher.forecast (patcher : Patcher) (all : List Violation) :
    List Violation → List (Violation × Fate)
  | [] => []
  | v :: later => (v, patcher.fateOf all v later) :: patcher.forecast all later

/-- What a run leaves in its books between two states. -/
structure Books (patcher : Patcher) (all violations : List Violation) (state state' : Patched) :
    Prop where
  fates : patcher.fates all violations state = patcher.forecast all violations
  applied : state'.applied =
    state.applied + (patcher.forecast all violations).countP (·.2 = .fixed)
  gated : state'.gated = state.gated + (patcher.forecast all violations).countP (·.2 = .gated)
  unresolved : state'.unresolved = state.unresolved ++
    ((patcher.forecast all violations).filter (·.2 = .unresolved)).map (·.1.key)
  lines : patcher.fixAll (((patcher.forecast all violations).filter (·.2 = .fixed)).map Prod.fst)
    state.lines = .ok state'.lines

lemma Books.cons {next : Patched} (hone : patcher.applyOne all v later state = .ok next)
    (h : Books patcher all later next state') : Books patcher all (v :: later) state state' := by
  rcases Patcher.applyOne_eq_ok_cases hone with
    ⟨hrule, rfl⟩ | ⟨rule, hrule, ⟨hpermits, rfl⟩ | ⟨hpermits, lines, hfix, rfl⟩⟩
  · have hfate : patcher.fateOf all v later = .unresolved := by rw [Patcher.fateOf, hrule]
    constructor
    · simp [Patcher.fates, hone, h.fates, Patcher.forecast, hfate, Patched.fate]
    · simp [Patcher.forecast, hfate, h.applied]
    · simp [Patcher.forecast, hfate, h.gated]
    · simp [Patcher.forecast, hfate, h.unresolved]
    · simpa [Patcher.forecast, hfate] using h.lines
  · have hfate : patcher.fateOf all v later = .gated := by
      simp [Patcher.fateOf, hrule, hpermits]
    constructor
    · simp [Patcher.fates, hone, h.fates, Patcher.forecast, hfate, Patched.fate]
    · simp [Patcher.forecast, hfate, h.applied]
    · simp [Patcher.forecast, hfate, h.gated, Nat.add_assoc, Nat.add_comm]
    · simp [Patcher.forecast, hfate, h.unresolved]
    · simpa [Patcher.forecast, hfate] using h.lines
  · have hfate : patcher.fateOf all v later = .fixed := by
      simp [Patcher.fateOf, hrule, hpermits]
    constructor
    · simp [Patcher.fates, hone, h.fates, Patcher.forecast, hfate, Patched.fate]
    · simp [Patcher.forecast, hfate, h.applied, Nat.add_assoc, Nat.add_comm]
    · simp [Patcher.forecast, hfate, h.gated]
    · simp [Patcher.forecast, hfate, h.unresolved]
    · simpa [Patcher.forecast, hfate, Patcher.fixAll, hrule, hfix, Except.bind] using h.lines

/-- A run that comes to its end does what its keys say. -/
lemma books_of_applyAll (h : patcher.applyAll all violations state = .ok state') :
    Books patcher all violations state state' := by
  induction violations generalizing state with
  | nil =>
      rw [Patcher.applyAll, Except.ok.injEq] at h
      subst h
      exact ⟨rfl, rfl, rfl, by simp [Patcher.forecast], rfl⟩
  | cons v later ih =>
      obtain ⟨next, hnext, hrest⟩ := Patcher.exists_of_applyAll_cons h
      exact Books.cons hnext (ih hrest)

end Books

/-! ### Who is fixed and who is put off -/

section Forecast

variable {patcher : Patcher} {all later violations : List Violation} {v : Violation}

lemma ruleFor_eq_none_iff {key : String} :
    patcher.ruleFor key = none ↔ patcher.enabled key = false ∨ key ∉ Rule.keys := by
  rw [Patcher.ruleFor, Rule.mem_keys_iff, ← Option.isSome_iff_exists]
  cases patcher.enabled key <;> simp

lemma fateOf_eq_unresolved_iff :
    patcher.fateOf all v later = .unresolved ↔
      patcher.enabled v.key = false ∨ v.key ∉ Rule.keys := by
  rw [← ruleFor_eq_none_iff, Patcher.fateOf]
  cases patcher.ruleFor v.key with
  | none => simp
  | some rule => cases hpermits : rule.permits all v (.followedBy later) <;> simp [hpermits]

/-- An import out of order is moved if none comes after it. -/
lemma fateOf_ordering (henabled : patcher.enabled orderingKey = true) (hv : v.key = orderingKey) :
    patcher.fateOf all v later =
      if later.filter (·.key = orderingKey) = [] then .fixed else .gated := by
  have hrule : patcher.ruleFor v.key = some .importOrder := by
    rw [hv, Patcher.ruleFor, henabled]
    rfl
  have hlater : Rule.permits .importOrder all v (.followedBy later) = true ↔
      later.filter (·.key = orderingKey) = [] := by
    rw [List.filter_eq_nil_iff, Rule.permits, hv, List.all_eq_true]
    simp
  simp only [Patcher.fateOf, hrule, hlater]

/-- The blank lines between imports wait until the imports are in order. -/
lemma fateOf_groups (hv : v.key ∈ Rule.groupKeys) (henabled : patcher.enabled v.key = true)
    (h : ∃ w ∈ all, w.key = orderingKey) : patcher.fateOf all v later = .gated := by
  obtain ⟨w, hw, hkey⟩ := h
  have hpermits : ∀ rule, rule = Rule.importGroups ∨ rule = Rule.importSeparation →
      rule.permits all v (.followedBy later) = false := by
    rintro rule (rfl | rfl) <;>
      exact List.all_eq_false.mpr ⟨w, hw, by simpa using hkey⟩
  rw [Patcher.fateOf, Patcher.ruleFor, if_pos henabled]
  rcases Rule.mem_groupKeys_iff.mp hv with hrule | hrule
  · simp [hrule, hpermits]
  · simp [hrule, hpermits]

/-- Nothing but imports out of order and the blank lines between imports is put off. -/
lemma of_fateOf_eq_gated (hv : v ∈ all) (h : patcher.fateOf all v later = .gated) :
    patcher.enabled v.key = true ∧ v.key ∈ orderingKey :: Rule.groupKeys ∧
      ∃ w ∈ all, w.key = orderingKey := by
  cases hrule : patcher.ruleFor v.key with
  | none => simp [Patcher.fateOf, hrule] at h
  | some rule =>
      have henabled : patcher.enabled v.key = true := by
        by_contra hno
        simp [Patcher.ruleFor, hno] at hrule
      have hofKey := Patcher.ofKey?_of_ruleFor hrule
      have hpermits : rule.permits all v (.followedBy later) = false := by
        simpa [Patcher.fateOf, hrule] using h
      have hordering : all.all (·.key ≠ orderingKey) = false → ∃ w ∈ all, w.key = orderingKey := by
        simp
      cases rule with
      | importOrder =>
          have hkey := Rule.ofKey?_eq_importOrder_iff.mp hofKey
          exact ⟨henabled, hkey ▸ List.mem_cons_self, v, hv, hkey⟩
      | importGroups =>
          exact ⟨henabled, List.mem_cons_of_mem _ (Rule.mem_groupKeys_iff.mpr (Or.inl hofKey)),
            hordering hpermits⟩
      | importSeparation =>
          exact ⟨henabled, List.mem_cons_of_mem _ (Rule.mem_groupKeys_iff.mpr (Or.inr hofKey)),
            hordering hpermits⟩
      | requireThis | finalParameter | whitespace | indentation | removeImport | trailingSpaces
      | tabs => simp [Rule.permits] at hpermits

lemma map_fst_forecast : (patcher.forecast all violations).map Prod.fst = violations := by
  induction violations with
  | nil => rfl
  | cons v later ih => rw [Patcher.forecast, List.map_cons, ih]

lemma mem_forecast {entry : Violation × Fate} (h : entry ∈ patcher.forecast all violations) :
    entry.1 ∈ violations ∧ ∃ later, entry.2 = patcher.fateOf all entry.1 later := by
  induction violations with
  | nil => simp [Patcher.forecast] at h
  | cons v later ih =>
      rcases List.mem_cons.mp h with rfl | h
      · exact ⟨List.mem_cons_self, later, rfl⟩
      · obtain ⟨hmem, hfate⟩ := ih h
        exact ⟨List.mem_cons_of_mem v hmem, hfate⟩

lemma filter_forecast_unresolved :
    ((patcher.forecast all violations).filter (·.2 = .unresolved)).map (·.1.key) =
      (violations.filter fun v => patcher.enabled v.key = false ∨ v.key ∉ Rule.keys).map
        (·.key) := by
  induction violations with
  | nil => rfl
  | cons v later ih =>
      by_cases hv : patcher.enabled v.key = false ∨ v.key ∉ Rule.keys
      · rw [Patcher.forecast,
          List.filter_cons_of_pos (by simpa using fateOf_eq_unresolved_iff.mpr hv),
          List.filter_cons_of_pos (by simpa using hv), List.map_cons, List.map_cons, ih]
      · rw [Patcher.forecast,
          List.filter_cons_of_neg (by simpa using mt fateOf_eq_unresolved_iff.mp hv),
          List.filter_cons_of_neg (by simpa using hv), ih]

/-- Of the imports out of order all are put off but the last one in patch order, which is moved. -/
lemma filter_forecast_ordering (henabled : patcher.enabled orderingKey = true) :
    (patcher.forecast all violations).filter (·.1.key = orderingKey) =
      (violations.filter (·.key = orderingKey)).dropLast.map (·, .gated) ++
        (violations.filter (·.key = orderingKey)).getLast?.toList.map (·, .fixed) := by
  induction violations with
  | nil => rfl
  | cons v later ih =>
      by_cases hv : v.key = orderingKey
      · rw [Patcher.forecast, List.filter_cons_of_pos (by simpa using hv),
          List.filter_cons_of_pos (by simpa using hv), ih, fateOf_ordering henabled hv]
        cases later.filter (·.key = orderingKey) with
        | nil => simp
        | cons w rest => simp
      · rw [Patcher.forecast, List.filter_cons_of_neg (by simpa using hv),
          List.filter_cons_of_neg (by simpa using hv), ih]

/-- Every violation is fixed, put off or passed over. -/
lemma countP_forecast (patcher : Patcher) (all violations : List Violation) :
    (patcher.forecast all violations).countP (·.2 = .fixed) +
        (patcher.forecast all violations).countP (·.2 = .gated) +
        ((patcher.forecast all violations).filter (·.2 = .unresolved)).length =
      violations.length := by
  induction violations with
  | nil => rfl
  | cons v later ih =>
      rw [Patcher.forecast, List.length_cons, ← ih]
      cases patcher.fateOf all v later <;> simp <;> omega

end Forecast

/-! ### The topmost violation -/

/-- The violation with a key that stands first when the file is read; of those at its position, the
one that was reported last. -/
def Violation.Topmost (key : String) (violations : List Violation) (v : Violation) : Prop :=
  v.key = key ∧ ∃ front back, violations = front ++ v :: back ∧
    (∀ w ∈ front, w.key = key → ¬ v.Follows w) ∧ ∀ w ∈ back, w.key = key → w.Follows v

/-- The last violation with a key in patch order is the topmost one. -/
lemma Violation.topmost_of_getLast? {violations : List Violation} {key : String} {v : Violation}
    (h : ((inPatchOrder violations).filter (·.key = key)).getLast? = some v) :
    Topmost key violations v := by
  obtain ⟨earlier, hlast⟩ := List.getLast?_eq_some_iff.mp h
  have hv : v ∈ (inPatchOrder violations).filter (·.key = key) := by simp [hlast]
  have hkey : v.key = key := by simpa using (List.mem_filter.mp hv).2
  -- all others with the key come before it in patch order
  have hbelow : ∀ w ∈ violations, w.key = key → ¬ v.Follows w := by
    intro w hw hwkey
    have hsorted := (inPatchOrder_pairwise violations).filter (·.key = key)
    rw [hlast, List.pairwise_append] at hsorted
    have hmem : w ∈ earlier ++ [v] := by
      rw [← hlast]
      exact List.mem_filter.mpr ⟨mem_inPatchOrder.mpr hw, by simpa using hwkey⟩
    rw [Follows]
    rcases List.mem_append.mp hmem with hw' | hw'
    · have horder := hsorted.2.2 w hw' v List.mem_cons_self
      omega
    · rw [List.mem_singleton.mp hw']
      omega
  -- in its tier it is the last one with the key, in patch order as in the report
  have htier : (violations.filter (·.tier = v.tier)).filter (·.key = key) =
      earlier.filter (·.tier = v.tier) ++ [v] := by
    rw [← filter_tier_inPatchOrder, List.filter_comm, hlast, List.filter_append]
    simp
  rw [List.filter_filter] at htier
  obtain ⟨front, rest, hsplit, -, hrest⟩ := List.filter_eq_append_iff.mp htier
  obtain ⟨middle, back, hrest', hmiddle, -, hback⟩ := List.filter_eq_cons_iff.mp hrest
  refine ⟨hkey, front ++ middle, back, by rw [hsplit, hrest', List.append_assoc], ?_, ?_⟩
  · intro w hw
    refine hbelow w ?_
    rw [hsplit, hrest', ← List.append_assoc]
    exact List.mem_append_left _ hw
  · intro w hw hwkey
    have hnot := hbelow w (by simp [hsplit, hrest', hw]) hwkey
    have hne : w.tier ≠ v.tier := by
      have hno := List.filter_eq_nil_iff.mp hback w hw
      simpa [hwkey] using hno
    rw [tier, tier, hwkey, hkey] at hne
    simp only [ne_eq, Prod.mk.injEq, and_true, not_and] at hne
    rw [Follows] at *
    omega

/-! ### The books of a run -/

/-- The books of a run that comes to its end. -/
structure Accounted (patcher : Patcher) (violations : List Violation) (buffer : Buffer)
    (patched : Patched) : Prop where
  /-- Every violation is taken once, in patch order. -/
  taken : (patcher.account violations buffer).map Prod.fst = Violation.inPatchOrder violations
  total : patched.applied + patched.gated + patched.unresolved.length = violations.length
  applied : patched.applied = (patcher.account violations buffer).countP (·.2 = .fixed)
  gated : patched.gated = (patcher.account violations buffer).countP (·.2 = .gated)
  /-- Passed over are the keys that are switched off or unknown. -/
  unresolved : patched.unresolved =
    ((Violation.inPatchOrder violations).filter fun v =>
      patcher.enabled v.key = false ∨ v.key ∉ Rule.keys).map (·.key)
  /-- The lines are what the fixed violations make of the buffer. -/
  lines : patcher.fixAll
    (((patcher.account violations buffer).filter (·.2 = .fixed)).map Prod.fst) buffer =
      .ok patched.lines
  /-- Of the imports out of order the topmost one is moved and all others are put off. -/
  ordering : patcher.enabled orderingKey = true → (∃ v ∈ violations, v.key = orderingKey) →
    ∃ (v : Violation) (others : List Violation), v.Topmost orderingKey violations ∧
      (patcher.account violations buffer).filter (·.1.key = orderingKey) =
        others.map (·, .gated) ++ [(v, .fixed)] ∧
      others.length + 1 = violations.countP (·.key = orderingKey)
  /-- The blank lines between imports are put off if any import is reported out of order. -/
  groups : (∃ v ∈ violations, v.key = orderingKey) →
    ∀ entry ∈ patcher.account violations buffer, entry.1.key ∈ Rule.groupKeys →
      patcher.enabled entry.1.key = true → entry.2 = .gated
  /-- Nothing else is put off. -/
  others : ∀ entry ∈ patcher.account violations buffer, entry.2 = .gated →
    patcher.enabled entry.1.key = true ∧ entry.1.key ∈ orderingKey :: Rule.groupKeys ∧
      ∃ v ∈ violations, v.key = orderingKey

/-- A run that comes to its end accounts for every violation. -/
theorem patchLines_accounted (patcher : Patcher) {violations : List Violation} {buffer : Buffer}
    {patched : Patched} (h : patcher.patchLines violations buffer = .ok patched) :
    Accounted patcher violations buffer patched := by
  rw [Patcher.patchLines_eq] at h
  have hbooks := books_of_applyAll h
  have haccount : patcher.account violations buffer =
      patcher.forecast (Violation.inPatchOrder violations) (Violation.inPatchOrder violations) :=
    hbooks.fates
  have hmem : ∀ key, (∃ v ∈ violations, v.key = key) ↔
      ∃ v ∈ Violation.inPatchOrder violations, v.key = key := fun key => by
    simp only [Violation.mem_inPatchOrder]
  refine ⟨?_, ?_, ?_, ?_, ?_, ?_, fun henabled hordering => ?_, fun hordering entry hentry => ?_,
    fun entry hentry hgated => ?_⟩
  · rw [haccount, map_fst_forecast]
  · rw [hbooks.applied, hbooks.gated, hbooks.unresolved, ← Violation.length_inPatchOrder violations,
      ← countP_forecast patcher (Violation.inPatchOrder violations)]
    simp
  · rw [haccount, hbooks.applied, Nat.zero_add]
  · rw [haccount, hbooks.gated, Nat.zero_add]
  · rw [hbooks.unresolved, List.nil_append, filter_forecast_unresolved]
  · rw [haccount]
    exact hbooks.lines
  · obtain ⟨w, hw, hkey⟩ := (hmem _).mp hordering
    set imports := (Violation.inPatchOrder violations).filter (·.key = orderingKey) with himports
    have hne : imports ≠ [] :=
      List.ne_nil_of_mem (List.mem_filter.mpr ⟨hw, by simpa using hkey⟩)
    obtain ⟨v, hv⟩ := Option.ne_none_iff_exists'.mp (mt List.getLast?_eq_none_iff.mp hne)
    refine ⟨v, imports.dropLast, Violation.topmost_of_getLast? hv, ?_, ?_⟩
    · rw [haccount, filter_forecast_ordering henabled, ← himports, hv]
      rfl
    · rw [List.length_dropLast, ← (Violation.inPatchOrder_perm violations).countP_eq,
        List.countP_eq_length_filter, Nat.sub_add_cancel (List.length_pos_iff.mpr hne)]
  · rw [haccount] at hentry
    obtain ⟨-, later, hfate⟩ := mem_forecast hentry
    intro hgroup henabled
    rw [hfate, fateOf_groups hgroup henabled ((hmem _).mp hordering)]
  · rw [haccount] at hentry
    obtain ⟨hv, later, hfate⟩ := mem_forecast hentry
    rw [hmem]
    exact of_fateOf_eq_gated hv (hfate ▸ hgated)

/-- Three imports out of order, two of them reported at one position, a blank line that waits for
them, a rule that is switched off and a key without a rule. -/
theorem patchLines_accounted_two_at_once :
    ({ Patcher.complete 4 with enabled := (· ≠ "import.separation") } : Patcher).patchLines
        [⟨2, 1, "import.ordering", "a"⟩, ⟨3, 1, "import.ordering", ""⟩,
          ⟨2, 1, "import.ordering", "b"⟩, ⟨3, 1, "import.groups.separated.internally", ""⟩,
          ⟨1, 1, "import.separation", ""⟩, ⟨1, 3, "made.up", ""⟩]
        ["import b;".toList, "import a;".toList, "class X;".toList] =
        .ok ⟨["import a;".toList, "import b;".toList, "class X;".toList], 1, 3,
          ["made.up", "import.separation"]⟩ ∧
      Accounted ({ Patcher.complete 4 with enabled := (· ≠ "import.separation") } : Patcher)
        [⟨2, 1, "import.ordering", "a"⟩, ⟨3, 1, "import.ordering", ""⟩,
          ⟨2, 1, "import.ordering", "b"⟩, ⟨3, 1, "import.groups.separated.internally", ""⟩,
          ⟨1, 1, "import.separation", ""⟩, ⟨1, 3, "made.up", ""⟩]
        ["import b;".toList, "import a;".toList, "class X;".toList]
        ⟨["import a;".toList, "import b;".toList, "class X;".toList], 1, 3,
          ["made.up", "import.separation"]⟩ := by
  refine (fun hrun => ⟨hrun, patchLines_accounted _ hrun⟩) ?_
  have horder : Violation.inPatchOrder
      [⟨2, 1, "import.ordering", "a"⟩, ⟨3, 1, "import.ordering", ""⟩,
        ⟨2, 1, "import.ordering", "b"⟩, ⟨3, 1, "import.groups.separated.internally", ""⟩,
        ⟨1, 1, "import.separation", ""⟩, ⟨1, 3, "made.up", ""⟩] =
      [⟨3, 1, "import.ordering", ""⟩, ⟨3, 1, "import.groups.separated.internally", ""⟩,
        ⟨2, 1, "import.ordering", "a"⟩, ⟨2, 1, "import.ordering", "b"⟩, ⟨1, 3, "made.up", ""⟩,
        ⟨1, 1, "import.separation", ""⟩] := by
    rw [Violation.inPatchOrder_eq_insertionSort]
    decide +kernel
  rw [Patcher.patchLines_eq, horder]
  decide +kernel

end LintRepair
