import LintRepair.Rule
import LintRepair.Proofs.Line.Editing
import LintRepair.Proofs.Line.Reported

/-!
Edits next to a column.

The fixes of qualifiers and of spaces edit the reported line next to the reported character. They
look at the character in front of it and at the few characters that a qualifier is long, and at
nothing else on the line.

* `Rule.atColumn`: whether a rule edits next to a column.
* `Rule.editAt`: the edit of such a rule as an edit of the line; `fix_eq_onLine` says that it is
  what the rule does, and `fix_eq_ok_iff` when this succeeds.
* `editAt_append_left`, `editAt_append_right`: an edit does not look further to the left and to the
  right.
* `length_le_editAt`: an edit takes at most one character away.
-/

namespace LintRepair

namespace Rule

/-- Whether the rule edits next to the reported character. -/
def atColumn : Rule → Bool
  | requireThis => true
  | finalParameter => true
  | whitespace _ => true
  | _ => false

/-- The edit of a rule at a column of a line. -/
def editAt (rule : Rule) (l : Line) (column : Nat) : Option Line :=
  match rule with
  | requireThis => l.qualify .this column
  | finalParameter => l.qualify .final column
  | whitespace spacing => if l.length ≤ column then none else l.respace spacing column
  | _ => none

/-- A rule that edits next to a column edits the reported line there. -/
lemma fix_eq_onLine {rule : Rule} (h : rule.atColumn = true) (tabWidth : Nat) (v : Violation)
    (buffer : Buffer) :
    rule.fix tabWidth v buffer =
      Fix.onLine (fun v l => orColumnError v l (rule.editAt l v.columnIndex)) v buffer := by
  cases rule with
  | requireThis => rfl
  | finalParameter => rfl
  | whitespace spacing =>
      have hedit : (fun (v : Violation) (l : Line) =>
          if l.length ≤ v.columnIndex then .error (columnError v l)
          else orColumnError v l (l.respace spacing v.columnIndex)) =
          fun v l => orColumnError v l ((whitespace spacing).editAt l v.columnIndex) := by
        funext v l
        rw [editAt]
        by_cases hcol : l.length ≤ v.columnIndex
        · rw [if_pos hcol, if_pos hcol, orColumnError]
        · rw [if_neg hcol, if_neg hcol]
      rw [fix, Fix.respace, hedit]
  | indentation | importOrder | importGroups | importSeparation | removeImport | trailingSpaces
  | tabs => simp [atColumn] at h

/-- The fix succeeds if the line is there and the edit fits it. -/
lemma fix_eq_ok_iff {rule : Rule} (h : rule.atColumn = true) {tabWidth : Nat} {v : Violation}
    {buffer buffer' : Buffer} {l : Line} (hline : 1 ≤ v.line)
    (hl : buffer[v.lineIndex]? = some l) :
    rule.fix tabWidth v buffer = .ok buffer' ↔
      ∃ l', rule.editAt l v.columnIndex = some l' ∧ buffer' = buffer.set v.lineIndex l' := by
  rw [fix_eq_onLine h, onLine_eq_ok_iff]
  simp only [orColumnError_eq_ok_iff]
  constructor
  · rintro ⟨-, k, l', hk, hl', rfl⟩
    obtain rfl : k = l := Option.some.inj (hk.symm.trans hl)
    exact ⟨l', hl', rfl⟩
  · rintro ⟨l', hl', rfl⟩
    exact ⟨hline, l, l', hl, hl', rfl⟩

/-! ### What an edit looks at -/

end Rule

namespace Line

lemma charAt_append_left (l r : Line) (k : Nat) :
    charAt (l ++ r) (l.length + k) = charAt r k := by
  rw [charAt, charAt, List.getElem?_append_right (by omega), Nat.add_sub_cancel_left]

lemma charAt_append_right {l : Line} (r : Line) {k : Nat} (h : k < l.length) :
    charAt (l ++ r) k = charAt l k := by
  rw [charAt, charAt, List.getElem?_append_left h]

lemma blankAt_append_left (l r : Line) (k : Nat) :
    blankAt (l ++ r) (l.length + k) = blankAt r k := by
  rw [blankAt, charAt_append_left, blankAt]

lemma blankAt_append_right {l : Line} (r : Line) {k : Nat} (h : k < l.length) :
    blankAt (l ++ r) k = blankAt l k := by
  rw [blankAt, charAt_append_right r h, blankAt]

lemma insertAt_append_left (l r : Line) (k : Nat) (text : List Char) :
    insertAt (l ++ r) (l.length + k) text = (insertAt r k text).map (l ++ ·) := by
  rw [insertAt_eq, insertAt_eq]
  by_cases h : k ≤ r.length
  · rw [if_pos h, if_pos (by rw [List.length_append]; omega), List.take_length_add_append,
      List.drop_length_add_append]
    simp
  · rw [if_neg h, if_neg (by rw [List.length_append]; omega)]
    rfl

lemma insertAt_append_right {l : Line} (r : Line) {k : Nat} (text : List Char)
    (h : k ≤ l.length) : insertAt (l ++ r) k text = (insertAt l k text).map (· ++ r) := by
  rw [insertAt_eq, insertAt_eq, if_pos h, if_pos (by rw [List.length_append]; omega),
    List.take_append_of_le_length h, List.drop_append_of_le_length h]
  simp

lemma removeAt_append_left (l r : Line) (k : Nat) :
    removeAt (l ++ r) (l.length + k) = (removeAt r k).map (l ++ ·) := by
  rw [removeAt_eq, removeAt_eq]
  by_cases h : k < r.length
  · rw [if_pos h, if_pos (by rw [List.length_append]; omega),
      List.eraseIdx_append_of_length_le (by omega), Nat.add_sub_cancel_left]
    rfl
  · rw [if_neg h, if_neg (by rw [List.length_append]; omega)]
    rfl

lemma removeAt_append_right {l : Line} (r : Line) {k : Nat} (h : k < l.length) :
    removeAt (l ++ r) k = (removeAt l k).map (· ++ r) := by
  rw [removeAt_eq, removeAt_eq, if_pos h, if_pos (by rw [List.length_append]; omega),
    List.eraseIdx_append_of_lt_length h]
  rfl

lemma slice_append_left (l r : Line) (start stop : Nat) :
    slice (l ++ r) (l.length + start) (l.length + stop) = slice r start stop := by
  rw [slice_eq, slice_eq, List.take_length_add_append, List.drop_length_add_append]

lemma slice_append_right {l : Line} (r : Line) (start : Nat) {stop : Nat} (h : stop ≤ l.length) :
    slice (l ++ r) start stop = slice l start stop := by
  rw [slice_eq, slice_eq, List.take_append_of_le_length h]

lemma qualify_append_left (qualifier : Qualifier) (l r : Line) (k : Nat) :
    qualify qualifier (l ++ r) (l.length + k) = (qualify qualifier r k).map (l ++ ·) := by
  rw [qualify, qualify, Nat.add_assoc, slice_append_left, insertAt_append_left]
  split_ifs <;> rfl

lemma qualify_append_right (qualifier : Qualifier) {l : Line} (r : Line) {k : Nat}
    (h : k + 6 ≤ l.length) :
    qualify qualifier (l ++ r) k = (qualify qualifier l k).map (· ++ r) := by
  have htext : qualifier.text.length ≤ 6 := by cases qualifier <;> decide
  rw [qualify, qualify, slice_append_right r k (by omega),
    insertAt_append_right r qualifier.text (by omega)]
  split_ifs <;> rfl

lemma tokenColumn_append_left (l r : Line) (k : Nat) :
    tokenColumn (l ++ r) (l.length + k) = l.length + tokenColumn r k := by
  rw [tokenColumn, tokenColumn, blankAt_append_left]
  split_ifs <;> omega

lemma tokenColumn_le (l : Line) (k : Nat) : tokenColumn l k ≤ k + 1 := by
  rw [tokenColumn]
  split_ifs <;> omega

/-- An edit of the spaces looks one character to the left. -/
lemma respace_append_left (spacing : Spacing) (l r : Line) (k : Nat) :
    respace spacing (l ++ r) (l.length + (k + 1)) =
      (respace spacing r (k + 1)).map (l ++ ·) := by
  cases spacing with
  | notPreceded =>
      rw [respace, respace, ← Nat.add_assoc, blankBefore, blankBefore, blankAt_append_left,
        Nat.add_assoc, blankAt_append_left, insertAt_append_left]
      split_ifs <;> rfl
  | notFollowed =>
      rw [respace, respace, tokenColumn_append_left, Nat.add_assoc, blankAt_append_left,
        insertAt_append_left]
      split_ifs <;> rfl
  | preceded =>
      rw [← Nat.add_assoc, respace, respace, charAt_append_left, removeAt_append_left]
      split_ifs <;> rfl
  | followed =>
      rw [respace, respace, Nat.add_assoc, charAt_append_left, removeAt_append_left]
      split_ifs <;> rfl

/-- An edit of the spaces looks no more than two characters to the right. -/
lemma respace_append_right (spacing : Spacing) {l : Line} (r : Line) {k : Nat}
    (h : k + 6 ≤ l.length) :
    respace spacing (l ++ r) k = (respace spacing l k).map (· ++ r) := by
  have htoken := tokenColumn_le l k
  have hsame : tokenColumn (l ++ r) k = tokenColumn l k := by
    rw [tokenColumn, tokenColumn, blankAt_append_right r (by omega)]
  cases spacing with
  | notPreceded =>
      have hbefore : blankBefore (l ++ r) k = blankBefore l k := by
        cases k with
        | zero => rfl
        | succ k => exact blankAt_append_right r (by omega)
      rw [respace, respace, hbefore, blankAt_append_right r (by omega),
        insertAt_append_right r [' '] (by omega)]
      split_ifs <;> rfl
  | notFollowed =>
      rw [respace, respace, hsame, blankAt_append_right r (by omega),
        insertAt_append_right r [' '] (by omega)]
      split_ifs <;> rfl
  | preceded =>
      cases k with
      | zero => rfl
      | succ k =>
          simp only [respace]
          rw [charAt_append_right r (by omega), removeAt_append_right r (by omega)]
          split_ifs <;> rfl
  | followed =>
      rw [respace, respace, charAt_append_right r (by omega), removeAt_append_right r (by omega)]
      split_ifs <;> rfl

end Line

namespace Rule

/-- An edit looks one character to the left. -/
lemma editAt_append_left (rule : Rule) (l r : Line) (k : Nat) :
    rule.editAt (l ++ r) (l.length + (k + 1)) = (rule.editAt r (k + 1)).map (l ++ ·) := by
  cases rule with
  | requireThis => exact Line.qualify_append_left .this l r (k + 1)
  | finalParameter => exact Line.qualify_append_left .final l r (k + 1)
  | whitespace spacing =>
      rw [editAt, editAt, Line.respace_append_left, List.length_append]
      by_cases h : r.length ≤ k + 1
      · rw [if_pos h, if_pos (by omega)]
        rfl
      · rw [if_neg h, if_neg (by omega)]
  | indentation | importOrder | importGroups | importSeparation | removeImport | trailingSpaces
  | tabs => rfl

/-- An edit looks no more than six characters to the right. -/
lemma editAt_append_right (rule : Rule) {l : Line} (r : Line) {k : Nat} (h : k + 6 ≤ l.length) :
    rule.editAt (l ++ r) k = (rule.editAt l k).map (· ++ r) := by
  cases rule with
  | requireThis => exact Line.qualify_append_right .this r h
  | finalParameter => exact Line.qualify_append_right .final r h
  | whitespace spacing =>
      rw [editAt, editAt, Line.respace_append_right spacing r h, List.length_append,
        if_neg (by omega), if_neg (by omega)]
  | indentation | importOrder | importGroups | importSeparation | removeImport | trailingSpaces
  | tabs => rfl

/-- Whether the edit of a rule puts something in. The other edits take a space out. -/
def inserts : Rule → Bool
  | whitespace .preceded => false
  | whitespace .followed => false
  | _ => true

/-- An edit that puts something in leaves the line alone or makes it longer. -/
lemma editAt_of_inserts {rule : Rule} (hrule : rule.inserts = true) {l l' : Line} {k : Nat}
    (h : rule.editAt l k = some l') : l' = l ∨ l.length < l'.length := by
  have hinsert : ∀ (p : Nat) (text : List Char), text ≠ [] → l.insertAt p text = some l' →
      l.length < l'.length := by
    intro p text htext hp
    have hpos : 0 < text.length := List.length_pos_iff.mpr htext
    rw [Line.insertAt_eq] at hp
    split_ifs at hp with hle
    rw [← Option.some.inj hp]
    simp only [List.length_append, List.length_take, List.length_drop]
    omega
  have hqualify : ∀ qualifier : Qualifier, l.qualify qualifier k = some l' →
      l' = l ∨ l.length < l'.length := by
    intro qualifier hq
    rw [Line.qualify] at hq
    split_ifs at hq
    · exact Or.inl (Option.some.inj hq).symm
    · exact Or.inr (hinsert _ _ (by cases qualifier <;> decide) hq)
  cases rule with
  | requireThis => exact hqualify .this h
  | finalParameter => exact hqualify .final h
  | whitespace spacing =>
      rw [editAt] at h
      split_ifs at h
      cases spacing with
      | notPreceded =>
          rw [Line.respace] at h
          split_ifs at h
          · exact Or.inl (Option.some.inj h).symm
          · exact Or.inr (hinsert _ _ (by decide) h)
      | notFollowed =>
          rw [Line.respace] at h
          split_ifs at h
          · exact Or.inl (Option.some.inj h).symm
          · exact Or.inr (hinsert _ _ (by decide) h)
      | preceded | followed => simp [inserts] at hrule
  | indentation | importOrder | importGroups | importSeparation | removeImport | trailingSpaces
  | tabs => simp [editAt] at h

/-- An edit that takes a space out leaves the line alone, or the character at its column is there,
with a character in front of it or behind it. -/
lemma editAt_of_not_inserts {rule : Rule} (hrule : rule.inserts = false) {l l' : Line} {k : Nat}
    (h : rule.editAt l k = some l') :
    l' = l ∨ l'.length + 1 = l.length ∧ k < l.length ∧ (1 ≤ k ∨ k + 1 < l.length) := by
  have hremove : ∀ p, l.removeAt p = some l' → l'.length + 1 = l.length ∧ p < l.length := by
    intro p hp
    rw [Line.removeAt_eq] at hp
    split_ifs at hp with hlt
    rw [← Option.some.inj hp, List.length_eraseIdx_of_lt hlt]
    omega
  cases rule with
  | whitespace spacing =>
      rw [editAt] at h
      split_ifs at h with hlen
      cases spacing with
      | preceded =>
          cases k with
          | zero => exact Or.inl (Option.some.inj h).symm
          | succ k =>
              rw [Line.respace] at h
              split_ifs at h
              · exact Or.inr ⟨(hremove k h).1, by omega, Or.inl (by omega)⟩
              · exact Or.inl (Option.some.inj h).symm
      | followed =>
          rw [Line.respace] at h
          split_ifs at h
          · exact Or.inr ⟨(hremove _ h).1, by omega, Or.inr (hremove _ h).2⟩
          · exact Or.inl (Option.some.inj h).symm
      | notPreceded | notFollowed => simp [inserts] at hrule
  | requireThis | finalParameter | indentation | importOrder | importGroups | importSeparation
  | removeImport | trailingSpaces | tabs => simp [inserts] at hrule

/-- An edit takes at most one character away. -/
lemma length_le_editAt {rule : Rule} {l l' : Line} {k : Nat} (h : rule.editAt l k = some l') :
    l.length ≤ l'.length + 1 := by
  cases hrule : rule.inserts with
  | true =>
      rcases editAt_of_inserts hrule h with rfl | hlt
      · omega
      · omega
  | false =>
      rcases editAt_of_not_inserts hrule h with rfl | ⟨hlength, -⟩
      · omega
      · omega

end Rule

end LintRepair
