import LintRepair.Proofs.Patch.Run

/-!
The order of a report.

A run does not take the violations of a file as they were reported, but sorted. The sort is stable,
so of the order of the report nothing is left but the order of the violations that are edited on one
side of one position.

* `filter_mergeSort`, `eq_of_sorted`: a stable sort keeps each class of equal keys as it is, and a
  sorted list is known from its classes.
* `Violation.tier`: the position of a violation with the side on which it is edited.
* `inPatchOrder_eq_iff`: two reports come to the same patch order just if they have the same tiers.
* `filter_inPatchOrder`, `inPatchOrder_append`: patch order of some of the violations.
* `patchLines_report_order`: reports with the same tiers are patched alike.
-/

namespace LintRepair

/-! ### Stable sorting -/

section StableSort

variable {α κ : Type} [DecidableEq κ] {r : α → α → Bool} {f : α → κ}

/-- A stable sort leaves the elements with one key in their order. -/
lemma filter_mergeSort (htrans : ∀ a b c, r a b = true → r b c = true → r a c = true)
    (htotal : ∀ a b, (r a b || r b a) = true) (hkey : ∀ a b, f a = f b → r a b = true)
    (l : List α) (k : κ) :
    (l.mergeSort r).filter (f · = k) = l.filter (f · = k) := by
  have hsorted : (l.filter (f · = k)).Pairwise fun a b => r a b = true := by
    refine List.pairwise_of_forall_mem_list fun a ha b hb => hkey a b ?_
    simp only [List.mem_filter, decide_eq_true_eq] at ha hb
    rw [ha.2, hb.2]
  have hsublist : (l.filter (f · = k)).Sublist (l.mergeSort r) :=
    List.sublist_mergeSort htrans htotal hsorted List.filter_sublist
  have hfilter := hsublist.filter (f · = k)
  rw [List.filter_filter] at hfilter
  simp only [Bool.and_self] at hfilter
  exact (hfilter.eq_of_length (((List.mergeSort_perm l r).filter _).length_eq).symm).symm

/-- A sorted list is known from its elements with each key. -/
lemma eq_of_sorted (hkey : ∀ a b, r a b = true → r b a = true → f a = f b) {s t : List α}
    (hs : s.Pairwise fun a b => r a b = true) (ht : t.Pairwise fun a b => r a b = true)
    (h : ∀ k, s.filter (f · = k) = t.filter (f · = k)) : s = t := by
  induction s generalizing t with
  | nil =>
      cases t with
      | nil => rfl
      | cons b t =>
          have hb := h (f b)
          simp at hb
  | cons a s ih =>
      cases t with
      | nil =>
          have ha := h (f a)
          simp at ha
      | cons b t =>
          obtain ⟨hs1, hs2⟩ := List.pairwise_cons.mp hs
          obtain ⟨ht1, ht2⟩ := List.pairwise_cons.mp ht
          have ha : a ∈ b :: t := by
            have hmem : a ∈ (a :: s).filter (f · = f a) := by simp
            rw [h (f a)] at hmem
            exact List.mem_of_mem_filter hmem
          have hb : b ∈ a :: s := by
            have hmem : b ∈ (b :: t).filter (f · = f b) := by simp
            rw [← h (f b)] at hmem
            exact List.mem_of_mem_filter hmem
          -- each head stands behind the other one, so they have one key and head its class
          have hab : f a = f b := by
            rcases List.mem_cons.mp ha with rfl | ha
            · rfl
            · rcases List.mem_cons.mp hb with rfl | hb
              · rfl
              · exact hkey a b (hs1 b hb) (ht1 a ha)
          have hhead := h (f a)
          rw [List.filter_cons_of_pos (by simp), List.filter_cons_of_pos (by simp [hab]),
            List.cons.injEq] at hhead
          obtain ⟨rfl, -⟩ := hhead
          congr 1
          refine ih hs2 ht2 fun k => ?_
          have hk := h k
          by_cases hak : f a = k
          · rw [List.filter_cons_of_pos (by simpa using hak),
              List.filter_cons_of_pos (by simpa using hak), List.cons.injEq] at hk
            exact hk.2
          · rwa [List.filter_cons_of_neg (by simpa using hak),
              List.filter_cons_of_neg (by simpa using hak)] at hk

end StableSort

/-- A list in which the elements of one kind come first. -/
lemma eq_filter_append {α : Type} {p : α → Bool} {l : List α}
    (h : l.Pairwise fun a b => p b = true → p a = true) :
    l = l.filter p ++ l.filter (!p ·) := by
  refine eq_of_sorted (r := fun a b => p a || !p b) (f := p) (fun a b => ?_)
    (h.imp fun {a b} => ?_) (List.pairwise_append.mpr ⟨?_, ?_, ?_⟩) fun k => ?_
  · cases p a <;> cases p b <;> simp
  · cases p a <;> cases p b <;> simp
  · refine List.pairwise_of_forall_mem_list fun a ha b _ => ?_
    rw [(List.mem_filter.mp ha).2, Bool.true_or]
  · refine List.pairwise_of_forall_mem_list fun a _ b hb => ?_
    rw [(List.mem_filter.mp hb).2, Bool.or_true]
  · intro a ha b _
    rw [(List.mem_filter.mp ha).2, Bool.true_or]
  · cases k <;> simp [List.filter_append, List.filter_filter]

/-! ### Tiers -/

lemma Side.rank_injective : Function.Injective Side.rank := by
  intro s t
  cases s <;> cases t <;> simp [Side.rank]

namespace Violation

/-- The position of a violation with the side on which it is edited. -/
def tier (v : Violation) : Nat × Nat × Side := (v.line, v.column, Rule.sideOfKey v.key)

lemma tier_eq_iff {v w : Violation} :
    v.tier = w.tier ↔
      (patchOrderBy (fun v => Rule.sideOfKey v.key) v w).isLE = true ∧
        (patchOrderBy (fun v => Rule.sideOfKey v.key) w v).isLE = true := by
  rw [patchOrderBy_isLE, patchOrderBy_isLE, tier, tier, Prod.mk.injEq, Prod.mk.injEq,
    ← Side.rank_injective.eq_iff]
  omega

/-- Patch order leaves each tier in the order of the report. -/
lemma filter_tier_inPatchOrder (violations : List Violation) (t : Nat × Nat × Side) :
    (inPatchOrder violations).filter (·.tier = t) = violations.filter (·.tier = t) :=
  filter_mergeSort patchOrderBy_trans patchOrderBy_total
    (fun _ _ h => (tier_eq_iff.mp h).1) violations t

/-- Two reports come to the same patch order just if they have the same tiers. -/
lemma inPatchOrder_eq_iff {violations others : List Violation} :
    inPatchOrder violations = inPatchOrder others ↔
      ∀ t, violations.filter (·.tier = t) = others.filter (·.tier = t) := by
  constructor
  · intro h t
    rw [← filter_tier_inPatchOrder, h, filter_tier_inPatchOrder]
  · intro h
    refine eq_of_sorted (f := tier) (fun v w hvw hwv => tier_eq_iff.mpr ⟨hvw, hwv⟩)
      (inPatchOrder_sorted violations) (inPatchOrder_sorted others) fun t => ?_
    rw [filter_tier_inPatchOrder, h t, filter_tier_inPatchOrder]

/-- Some of the violations come in the order in which they come among all. -/
lemma filter_inPatchOrder (violations : List Violation) (p : Violation → Bool) :
    (inPatchOrder violations).filter p = inPatchOrder (violations.filter p) := by
  refine eq_of_sorted (f := tier) (fun v w hvw hwv => tier_eq_iff.mpr ⟨hvw, hwv⟩)
    ((inPatchOrder_sorted violations).filter p) (inPatchOrder_sorted _) fun t => ?_
  rw [filter_tier_inPatchOrder, List.filter_comm, filter_tier_inPatchOrder, List.filter_comm]

/-- Violations that stand below all others come first. -/
lemma inPatchOrder_append {violations : List Violation} {p : Violation → Bool}
    (h : ∀ v ∈ violations, ∀ w ∈ violations, p v = false → p w = true → v.line < w.line) :
    inPatchOrder violations =
      inPatchOrder (violations.filter p) ++ inPatchOrder (violations.filter (!p ·)) := by
  rw [← filter_inPatchOrder, ← filter_inPatchOrder]
  refine eq_filter_append ((inPatchOrder_pairwise violations).imp_of_mem ?_)
  intro v w hv hw horder hpw
  by_contra hpv
  have hlt := h v (mem_inPatchOrder.mp hv) w (mem_inPatchOrder.mp hw) (by simpa using hpv) hpw
  omega

/-- Patch order does not look at the numbers of the lines but at their order. -/
lemma map_inPatchOrder {violations : List Violation} {f : Violation → Violation}
    (h : ∀ v ∈ violations, (f v).column = v.column ∧ (f v).key = v.key)
    (hline : ∀ v ∈ violations, ∀ w ∈ violations, (f v).line < (f w).line ↔ v.line < w.line) :
    (inPatchOrder violations).map f = inPatchOrder (violations.map f) := by
  refine List.map_mergeSort fun v hv w hw => ?_
  rw [Bool.eq_iff_iff, patchOrderBy_isLE, patchOrderBy_isLE, (h v hv).1, (h w hw).1, (h v hv).2,
    (h w hw).2]
  have hvw := hline v hv w hw
  have hwv := hline w hw v hv
  omega

end Violation

/-! ### Reports that are patched alike -/

/-- The order of a report does not matter, as long as the violations of each tier keep theirs: two
reports with the same violations in each tier have the same violations, and they lead to the same
lines, counts and unresolved keys, or to the same error. -/
theorem patchLines_report_order (patcher : Patcher) (buffer : Buffer)
    {violations others : List Violation}
    (h : ∀ line column side,
      violations.filter (·.tier = (line, column, side)) =
        others.filter (·.tier = (line, column, side))) :
    patcher.patchLines violations buffer = patcher.patchLines others buffer := by
  have horder : Violation.inPatchOrder violations = Violation.inPatchOrder others :=
    Violation.inPatchOrder_eq_iff.mpr fun ⟨line, column, side⟩ => h line column side
  rw [Patcher.patchLines_eq, Patcher.patchLines_eq, horder]

/-- A qualifier and a space in front of one name, in this order, and a space further up that may be
reported before or after them. -/
theorem patchLines_report_order_rotated :
    (Patcher.complete 4).patchLines
        [⟨1, 5, "ws.preceded", ""⟩, ⟨2, 3, "require.this.variable", ""⟩,
          ⟨2, 3, "ws.notPreceded", ""⟩]
        ["f(a );".toList, "x=y;".toList] =
      .ok ⟨["f(a);".toList, "x= this.y;".toList], 3, 0, []⟩ := by
  refine (patchLines_report_order (Patcher.complete 4) _ (fun line column side => ?_)).trans
    (show (Patcher.complete 4).patchLines
        [⟨2, 3, "require.this.variable", ""⟩, ⟨2, 3, "ws.notPreceded", ""⟩,
          ⟨1, 5, "ws.preceded", ""⟩]
        ["f(a );".toList, "x=y;".toList] = _ by
      rw [Patcher.patchLines_eq, Violation.inPatchOrder_eq_insertionSort]
      decide +kernel)
  have hname : ∀ key ∈ ["require.this.variable", "ws.notPreceded"],
      Violation.tier ⟨2, 3, key, ""⟩ = (2, 3, .before) := by decide
  have hspace : Violation.tier ⟨1, 5, "ws.preceded", ""⟩ = (1, 5, .before) := by decide
  by_cases h : (1, 5, Side.before) = (line, column, side)
  · simp [hname, hspace, ← h]
  · simp [List.filter_cons, hname, hspace, h]

end LintRepair
