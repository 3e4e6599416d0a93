import LintRepair.Proofs.Line.ColumnEdit
import LintRepair.Proofs.Patch.Run

/-!
Edits on one line.

Violations on one line are fixed from right to left. If they are far enough apart, none of the edits
sees what another one has done, and the line comes out as if it had been cut between them and every
part had been edited alone.

* `Rule.columnKeys`: the keys of edits next to a column.
* `editAll`: the edits of a run as edits of the line; `applyAll_eq_ok_iff` for the run itself.
* `Line.share`: a line cut between the violations on it.
* `FormatsTo`: what a violation makes of its part of the line.
* `patchLines_one_line`: a run over distant violations on one line edits each part of it alone.
-/

namespace LintRepair

/-- The keys of edits next to a column. -/
def Rule.columnKeys : List String :=
  ["require.this.variable", "require.this.method", "final.parameter", "ws.notPreceded",
   "ws.notFollowed", "ws.preceded", "ws.followed"]

lemma Rule.exists_of_mem_columnKeys {key : String} (h : key ∈ Rule.columnKeys) :
    ∃ rule, Rule.ofKey? key = some rule ∧ rule.atColumn = true := by
  simp only [columnKeys, List.mem_cons, List.not_mem_nil, or_false] at h
  rcases h with rfl | rfl | rfl | rfl | rfl | rfl | rfl <;> exact ⟨_, rfl, rfl⟩

/-! ### A run as edits of the line -/

/-- The edit that a violation asks for, at a column of a line. -/
def Violation.edit (v : Violation) (l : Line) (column : Nat) : Option Line :=
  (Rule.ofKey? v.key).bind (·.editAt l column)

/-- The edits that violations ask for, one after the other. -/
def editAll : List Violation → Line → Option Line
  | [], l => some l
  | v :: later, l => (v.edit l v.columnIndex).bind (editAll later)

/-- A violation on a line is fixed by the edit that it asks for. -/
lemma fix_eq_ok_iff_edit {v : Violation} {rule : Rule} (hrule : Rule.ofKey? v.key = some rule)
    (hcolumn : rule.atColumn = true) (hline : 1 ≤ v.line) (tabWidth : Nat)
    {buffer : Buffer} {l : Line} (hl : buffer[v.lineIndex]? = some l) (buffer' : Buffer) :
    rule.fix tabWidth v buffer = .ok buffer' ↔
      ∃ l', v.edit l v.columnIndex = some l' ∧ buffer' = buffer.set v.lineIndex l' := by
  rw [Rule.fix_eq_ok_iff hcolumn hline hl, Violation.edit, hrule]
  rfl

/-- A run over violations on one line edits that line. -/
lemma applyAll_eq_ok_iff {patcher : Patcher} {all violations : List Violation} {index : Nat}
    (hkeys : ∀ v ∈ violations, v.key ∈ Rule.columnKeys)
    (henabled : ∀ v ∈ violations, patcher.enabled v.key = true)
    (hline : ∀ v ∈ violations, v.line = index + 1) {buffer : Buffer} {l : Line}
    (hl : buffer[index]? = some l) (n : Nat) (patched : Patched) :
    patcher.applyAll all violations ⟨buffer, n, 0, []⟩ = .ok patched ↔
      ∃ l', editAll violations l = some l' ∧
        patched = ⟨buffer.set index l', n + violations.length, 0, []⟩ := by
  induction violations generalizing buffer l n with
  | nil =>
      have hset : buffer.set index l = buffer := Buffer.set_self hl
      rw [Patcher.applyAll, Except.ok.injEq]
      simp only [editAll, Option.some.injEq, List.length_nil, Nat.add_zero, exists_eq_left', hset]
      exact eq_comm
  | cons v later ih =>
      obtain ⟨rule, hrule, hcolumn⟩ := Rule.exists_of_mem_columnKeys (hkeys v List.mem_cons_self)
      have hv := hline v List.mem_cons_self
      have hindex : v.lineIndex = index := by rw [Violation.lineIndex, hv, Nat.add_sub_cancel]
      have hruleFor : patcher.ruleFor v.key = some rule := by
        rw [Patcher.ruleFor, henabled v List.mem_cons_self, if_pos rfl, hrule]
      have hpermits : rule.permits all v (.followedBy later) = true := by
        cases rule <;> first | rfl | simp [Rule.atColumn] at hcolumn
      have hfix := fix_eq_ok_iff_edit hrule hcolumn (by omega) patcher.tabWidth
        (hindex.symm ▸ hl)
      rw [Patcher.applyAll, Patcher.applyOne_of_rule hruleFor hpermits, editAll]
      cases hedit : v.edit l v.columnIndex with
      | none =>
          cases hresult : rule.fix patcher.tabWidth v buffer with
          | error e => simp [Except.map]
          | ok buffer' =>
              obtain ⟨l', hl', -⟩ := (hfix buffer').mp hresult
              rw [hedit] at hl'
              simp at hl'
      | some l' =>
          have hresult : rule.fix patcher.tabWidth v buffer = .ok (buffer.set index l') :=
            (hfix _).mpr ⟨l', hedit, by rw [hindex]⟩
          have hlt : index < buffer.length := (List.getElem?_eq_some_iff.mp hl).1
          have hnext := ih (fun w hw => hkeys w (List.mem_cons_of_mem v hw))
            (fun w hw => henabled w (List.mem_cons_of_mem v hw))
            (fun w hw => hline w (List.mem_cons_of_mem v hw))
            (show (buffer.set index l')[index]? = some l' by simp [hlt]) (n + 1)
          simp only [hresult, Except.map, Option.bind_some, hnext, List.set_set, List.length_cons,
            Nat.add_assoc, Nat.add_comm 1]

/-! ### Edits that are far apart -/

lemma Violation.edit_append_left (v : Violation) (l r : Line) (k : Nat) :
    v.edit (l ++ r) (l.length + (k + 1)) = (v.edit r (k + 1)).map (l ++ ·) := by
  rw [edit, edit]
  cases Rule.ofKey? v.key with
  | none => rfl
  | some rule => exact rule.editAt_append_left l r k

lemma Violation.edit_append_right (v : Violation) {l : Line} (r : Line) {k : Nat}
    (h : k + 6 ≤ l.length) : v.edit (l ++ r) k = (v.edit l k).map (· ++ r) := by
  rw [edit, edit]
  cases Rule.ofKey? v.key with
  | none => rfl
  | some rule => exact rule.editAt_append_right r h

lemma Violation.length_le_edit {v : Violation} {l l' : Line} {k : Nat}
    (h : v.edit l k = some l') : l.length ≤ l'.length + 1 := by
  rw [edit, Option.bind_eq_some_iff] at h
  obtain ⟨rule, -, hedit⟩ := h
  exact Rule.length_le_editAt hedit

/-- Edits that end in front of a place do not see what stands behind it. -/
lemma editAll_append {violations : List Violation}
    (hapart : violations.Pairwise fun v w => w.columnIndex + 7 ≤ v.columnIndex) {l : Line}
    (h : ∀ v ∈ violations, v.columnIndex + 6 ≤ l.length) (r : Line) :
    editAll violations (l ++ r) = (editAll violations l).map (· ++ r) := by
  induction violations generalizing l with
  | nil => rfl
  | cons v later ih =>
      obtain ⟨hfirst, hlater⟩ := List.pairwise_cons.mp hapart
      have hv := h v List.mem_cons_self
      rw [editAll, editAll, v.edit_append_right r hv]
      cases hedit : v.edit l v.columnIndex with
      | none => rfl
      | some l' =>
          have hlength := Violation.length_le_edit hedit
          refine ih hlater fun w hw => ?_
          have hw' := hfirst w hw
          omega

/-- A line cut between violations that are in patch order. The cut is one character in front of each
of them but the last one, whose part begins with the line; each part comes with its violation. -/
def Line.share (l : Line) : List Violation → List (Line × Option Violation)
  | [] => [(l, none)]
  | [v] => [(l, some v)]
  | v :: w :: rest =>
      Line.share (l.take (v.columnIndex - 1)) (w :: rest) ++
        [(l.drop (v.columnIndex - 1), some { v with column := 2 })]

/-- What the violation of a part of a line makes of it, taken as a buffer of its own. -/
def FormatsTo (tabWidth : Nat) : Line × Option Violation → Line → Prop
  | (part, none), formatted => formatted = part
  | (part, some v), formatted =>
      ∃ rule, Rule.ofKey? v.key = some rule ∧
        rule.fix tabWidth { v with line := 1 } [part] = .ok [formatted]

lemma formatsTo_iff (tabWidth : Nat) {v : Violation} (hkey : v.key ∈ Rule.columnKeys)
    (part formatted : Line) :
    FormatsTo tabWidth (part, some v) formatted ↔ v.edit part v.columnIndex = some formatted := by
  obtain ⟨rule, hrule, hcolumn⟩ := Rule.exists_of_mem_columnKeys hkey
  have hfix := fix_eq_ok_iff_edit (v := { v with line := 1 }) hrule hcolumn (by simp) tabWidth
    (show ([part] : Buffer)[0]? = some part from rfl) [formatted]
  rw [FormatsTo, hrule]
  simp only [Option.some.injEq, exists_eq_left', hfix]
  constructor
  · rintro ⟨l', hedit, hset⟩
    have hl' : formatted = l' := by simpa [Violation.lineIndex] using hset
    rw [hl']
    exact hedit
  · intro hedit
    exact ⟨formatted, hedit, rfl⟩

lemma forall₂_concat_left {α β : Type} {R : α → β → Prop} {x : List α} {a : α} {y : List β} :
    List.Forall₂ R (x ++ [a]) y ↔ ∃ z b, List.Forall₂ R x z ∧ R a b ∧ y = z ++ [b] := by
  constructor
  · intro h
    induction x generalizing y with
    | nil =>
        obtain ⟨b, z, hab, hz, rfl⟩ := List.forall₂_cons_left_iff.mp h
        rw [List.forall₂_nil_left_iff] at hz
        exact ⟨[], b, .nil, hab, by rw [hz]; rfl⟩
    | cons c x ih =>
        obtain ⟨d, y, hcd, hy, rfl⟩ := List.forall₂_cons_left_iff.mp h
        obtain ⟨z, b, hz, hab, rfl⟩ := ih hy
        exact ⟨d :: z, b, .cons hcd hz, hab, rfl⟩
  · rintro ⟨z, b, hz, hab, rfl⟩
    exact List.rel_append hz (.cons hab .nil)

/-- Distant edits of a line edit its parts. -/
lemma editAll_eq_some_iff (tabWidth : Nat) {violations : List Violation}
    (hkeys : ∀ v ∈ violations, v.key ∈ Rule.columnKeys)
    (hapart : violations.Pairwise fun v w => w.columnIndex + 7 ≤ v.columnIndex) {l : Line}
    (hcolumn : ∀ v ∈ violations, v.columnIndex < l.length) (l' : Line) :
    editAll violations l = some l' ↔
      ∃ formatted, List.Forall₂ (FormatsTo tabWidth) (l.share violations) formatted ∧
        l' = formatted.flatten := by
  induction violations generalizing l l' with
  | nil => simp [editAll, Line.share, FormatsTo, List.forall₂_cons_left_iff, eq_comm]
  | cons v later ih =>
      obtain ⟨hfirst, hlater⟩ := List.pairwise_cons.mp hapart
      have hkeys' : ∀ w ∈ later, w.key ∈ Rule.columnKeys := fun w hw =>
        hkeys w (List.mem_cons_of_mem v hw)
      cases later with
      | nil =>
          simp [editAll, Line.share, List.forall₂_cons_left_iff,
            formatsTo_iff _ (hkeys v List.mem_cons_self)]
      | cons w rest =>
          have hv := hcolumn v List.mem_cons_self
          have hw := hfirst w List.mem_cons_self
          -- the first violation edits the part from one character in front of it on
          obtain ⟨k, hk⟩ : ∃ k, v.columnIndex = k + 1 := ⟨v.columnIndex - 1, by omega⟩
          have hlength : (l.take k).length = k := by
            rw [List.length_take]
            omega
          have hedit : v.edit l v.columnIndex = (v.edit (l.drop k) 1).map (l.take k ++ ·) := by
            have hleft := v.edit_append_left (l.take k) (l.drop k) 0
            rwa [List.take_append_drop, hlength, Nat.zero_add, ← hk] at hleft
          have hcolumn' : ∀ u ∈ w :: rest, u.columnIndex + 6 ≤ (l.take k).length := by
            intro u hu
            have hu' := hfirst u hu
            omega
          have hrest := ih hkeys' hlater (l := l.take k) fun u hu => by
            have hu' := hcolumn' u hu
            omega
          have hpart := formatsTo_iff tabWidth (v := { v with column := 2 })
            (hkeys v List.mem_cons_self) (l.drop k)
          rw [editAll, hedit, Line.share, hk, Nat.add_sub_cancel]
          simp only [forall₂_concat_left, Option.bind_map]
          constructor
          · intro h
            obtain ⟨part, hpart', hothers⟩ := Option.bind_eq_some_iff.mp h
            rw [Function.comp_apply, editAll_append hlater hcolumn' part,
              Option.map_eq_some_iff] at hothers
            obtain ⟨front, hfront, rfl⟩ := hothers
            obtain ⟨formatted, hformatted, rfl⟩ := (hrest front).mp hfront
            exact ⟨formatted ++ [part], ⟨formatted, part, hformatted, (hpart part).mpr hpart', rfl⟩,
              by simp⟩
          · rintro ⟨-, ⟨formatted, part, hformatted, hpart', rfl⟩, rfl⟩
            refine Option.bind_eq_some_iff.mpr ⟨part, (hpart part).mp hpart', ?_⟩
            rw [Function.comp_apply, editAll_append hlater hcolumn' part,
              (hrest formatted.flatten).mpr ⟨formatted, hformatted, rfl⟩]
            simp

/-- A run over violations on one line that are at least seven columns apart, whatever the order in
which they were reported. The line is cut in front of each violation but the leftmost one; the run
succeeds just if each violation formats its own part of the line, and the line is then made up of
the formatted parts. -/
theorem patchLines_one_line (patcher : Patcher) (violations : List Violation) {buffer : Buffer}
    (index : Nat) {l : Line} (hl : buffer[index]? = some l)
    (hkeys : ∀ v ∈ violations, v.key ∈ Rule.columnKeys)
    (henabled : ∀ v ∈ violations, patcher.enabled v.key = true)
    (hline : ∀ v ∈ violations, v.line = index + 1)
    (hcolumn : ∀ v ∈ violations, v.columnIndex < l.length)
    (hapart : violations.Pairwise fun v w =>
      v.columnIndex + 7 ≤ w.columnIndex ∨ w.columnIndex + 7 ≤ v.columnIndex)
    (patched : Patched) :
    patcher.patchLines violations buffer = .ok patched ↔
      ∃ formatted,
        List.Forall₂ (FormatsTo patcher.tabWidth)
          (l.share (Violation.inPatchOrder violations)) formatted ∧
        patched = ⟨buffer.set index formatted.flatten, violations.length, 0, []⟩ := by
  have hmem : ∀ v ∈ Violation.inPatchOrder violations, v ∈ violations := fun v hv =>
    Violation.mem_inPatchOrder.mp hv
  have hapart' : (Violation.inPatchOrder violations).Pairwise fun v w =>
      w.columnIndex + 7 ≤ v.columnIndex := by
    have hsymm : (Violation.inPatchOrder violations).Pairwise fun v w =>
        v.columnIndex + 7 ≤ w.columnIndex ∨ w.columnIndex + 7 ≤ v.columnIndex :=
      ((Violation.inPatchOrder_perm violations).pairwise_iff fun {v w} => Or.symm).mpr hapart
    refine ((Violation.inPatchOrder_pairwise violations).and hsymm).imp_of_mem ?_
    rintro v w hv hw ⟨horder, hcolumns⟩
    have hv' := hline v (hmem v hv)
    have hw' := hline w (hmem w hw)
    simp only [Violation.columnIndex] at hcolumns ⊢
    omega
  rw [Patcher.patchLines_eq, applyAll_eq_ok_iff (fun v hv => hkeys v (hmem v hv))
    (fun v hv => henabled v (hmem v hv)) (fun v hv => hline v (hmem v hv)) hl]
  simp only [editAll_eq_some_iff patcher.tabWidth (fun v hv => hkeys v (hmem v hv)) hapart'
    fun v hv => hcolumn v (hmem v hv), Violation.length_inPatchOrder, Nat.zero_add]
  constructor
  · rintro ⟨-, ⟨formatted, hformatted, rfl⟩, rfl⟩
    exact ⟨formatted, hformatted, rfl⟩
  · rintro ⟨formatted, hformatted, rfl⟩
    exact ⟨_, ⟨formatted, hformatted, rfl⟩, rfl⟩

/-- A space taken out and a space put in on one line. -/
theorem patchLines_one_line_two_spaces :
    (Patcher.complete 4).patchLines
        [⟨1, 5, "ws.preceded", ""⟩, ⟨1, 13, "ws.notFollowed", ""⟩]
        ["f(a ,b); g(c,d);".toList] =
      .ok ⟨["f(a,b); g(c, d);".toList], 2, 0, []⟩ := by
  have horder : Violation.inPatchOrder
      [⟨1, 5, "ws.preceded", ""⟩, ⟨1, 13, "ws.notFollowed", ""⟩] =
      [⟨1, 13, "ws.notFollowed", ""⟩, ⟨1, 5, "ws.preceded", ""⟩] := by
    rw [Violation.inPatchOrder_eq_insertionSort]
    decide +kernel
  refine (patchLines_one_line (Patcher.complete 4) _ 0 rfl (by decide) (by decide)
    (by decide) (by decide) (by decide) _).mpr
    ⟨["f(a,b); g(".toList, "c, d);".toList], ?_, by decide⟩
  rw [horder]
  exact .cons ⟨.whitespace .preceded, by decide, by cbv⟩
    (.cons ⟨.whitespace .notFollowed, by decide, by cbv⟩ .nil)

end LintRepair
