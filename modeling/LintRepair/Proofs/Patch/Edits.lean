import LintRepair.Proofs.Buffer.Characters
import LintRepair.Proofs.Patch.Fits

/-!
What a fix can do to a buffer.

A rule that edits the reported line puts in a fixed text, takes out one character, cuts off blanks
or expands tabs. The other rules take out a blank line, put in an empty one, or take lines apart and
put them together again. So a fix writes few characters of its own.

* `Rule.insertion`: the text that a rule puts in.
* `Rule.Edits`: what the edit of a rule can be; `edits_of_editLine` says that there is no other.
* `joinGroup_cases`, `separateGroup_cases`: what can become of the blank lines between imports.
* `mem_fix`, `mem_fix_of_endsLine`: the characters of a fixed buffer.
-/

namespace LintRepair

namespace Rule

/-- The text that a rule puts into a line. -/
def insertion : Rule → List Char
  | requireThis => Qualifier.this.text
  | finalParameter => Qualifier.final.text
  | _ => [' ']

/-- No rule puts in a part of a line terminator. -/
lemma not_mem_insertion {c : Char} (hc : endsLine c = true) (rule : Rule) : c ∉ rule.insertion := by
  have hall : rule.insertion.all (!endsLine ·) = true := by
    cases rule <;> rfl
  intro hm
  have hno := List.all_eq_true.mp hall c hm
  simp [hc] at hno

/-- What the edit of a rule can be. A character that is taken out is a space, unless the rule is the
one about indentation, which does not look at the character. -/
inductive Edits (tabWidth : Nat) (rule : Rule) : Line → Line → Prop
  | keep (l : Line) : Edits tabWidth rule l l
  | insert (x y : Line) : Edits tabWidth rule (x ++ y) (x ++ rule.insertion ++ y)
  | remove (x y : Line) {c : Char} (hc : rule ≠ indentation → c = ' ') :
      Edits tabWidth rule (x ++ c :: y) (x ++ y)
  | trim (l : Line) : Edits tabWidth rule l (trimEnd l)
  | expand (l : Line) (start : Nat) : Edits tabWidth rule l (l.expandTabs start tabWidth)

variable {tabWidth : Nat} {rule : Rule} {v : Violation} {buffer buffer' : Buffer} {l l' : Line}
  {k : Nat} {c : Char}

lemma edits_of_insertAt (h : l.insertAt k rule.insertion = some l') :
    rule.Edits tabWidth l l' := by
  rw [Line.insertAt_eq] at h
  split_ifs at h
  rw [← Option.some.inj h]
  conv_lhs => rw [← List.take_append_drop k l]
  exact .insert _ _

lemma edits_of_removeAt (h : l.removeAt k = some l')
    (hc : rule ≠ indentation → l.charAt k = some ' ') : rule.Edits tabWidth l l' := by
  rw [Line.removeAt_eq] at h
  split_ifs at h with hlt
  rw [← Option.some.inj h, List.eraseIdx_eq_take_drop_succ]
  conv_lhs => rw [← List.take_append_drop k l, List.drop_eq_getElem_cons hlt]
  refine .remove _ _ fun hne => ?_
  have hspace := hc hne
  rw [Line.charAt, List.getElem?_eq_getElem hlt] at hspace
  exact Option.some.inj hspace

lemma edits_of_qualify (qualifier : Qualifier) (hrule : rule.insertion = qualifier.text)
    (h : l.qualify qualifier k = some l') : rule.Edits tabWidth l l' := by
  rw [Line.qualify] at h
  split_ifs at h
  · exact Option.some.inj h ▸ .keep l
  · exact edits_of_insertAt (hrule ▸ h)

lemma edits_of_respace {spacing : Spacing} (h : l.respace spacing k = some l') :
    (whitespace spacing).Edits tabWidth l l' := by
  cases spacing with
  | notPreceded | notFollowed =>
      rw [Line.respace] at h
      split_ifs at h
      · exact Option.some.inj h ▸ .keep l
      · exact edits_of_insertAt h
  | preceded =>
      rw [Line.respace.eq_def] at h
      simp only at h
      split at h
      · exact Option.some.inj h ▸ .keep l
      · split_ifs at h with hspace
        · exact edits_of_removeAt h fun _ => hspace
        · exact Option.some.inj h ▸ .keep l
  | followed =>
      rw [Line.respace] at h
      split_ifs at h with hspace
      · exact edits_of_removeAt h fun _ => hspace
      · exact Option.some.inj h ▸ .keep l

/-- There are no other edits. -/
lemma edits_of_editLine (h : rule.editLine tabWidth v l = some l') :
    rule.Edits tabWidth l l' := by
  cases rule with
  | requireThis => exact edits_of_qualify .this rfl h
  | finalParameter => exact edits_of_qualify .final rfl h
  | whitespace spacing =>
      rw [editLine_of_atColumn rfl, editAt] at h
      split_ifs at h
      exact edits_of_respace h
  | indentation =>
      rw [editLine] at h
      split_ifs at h
      cases hlevel : expectedLevel v.message v.columnIndex with
      | error e => simp [hlevel] at h
      | ok level =>
          simp only [hlevel, Line.stepIndent] at h
          split_ifs at h
          · exact edits_of_insertAt h
          · exact edits_of_removeAt h fun hne => absurd rfl hne
          · exact Option.some.inj h ▸ .keep l
  | trailingSpaces => exact Option.some.inj h ▸ .trim l
  | tabs scope =>
      rw [editLine] at h
      split_ifs at h
      exact Option.some.inj h ▸ .expand l _
  | importOrder | importGroups | importSeparation | removeImport =>
      simp [editLine, editAt] at h

/-- The characters of an edited line. -/
lemma Edits.mem (h : rule.Edits tabWidth l l') (hc : c ∈ l') :
    c ∈ l ∨ c ∈ rule.insertion ∨ c = ' ' := by
  cases h with
  | keep => exact Or.inl hc
  | insert x y =>
      simp only [List.mem_append] at hc ⊢
      tauto
  | remove x y =>
      simp only [List.mem_append, List.mem_cons] at hc ⊢
      tauto
  | trim => exact Or.inl (mem_trimEnd hc)
  | expand _ start => exact (mem_expandTabs hc).imp_right Or.inr

/-- No edit brings a part of a line terminator. -/
lemma Edits.mem_of_endsLine (h : rule.Edits tabWidth l l') (hends : endsLine c = true)
    (hc : c ∈ l') : c ∈ l := by
  rcases h.mem hc with hc | hc | rfl
  · exact hc
  · exact absurd hc (not_mem_insertion hends rule)
  · simp [endsLine] at hends

end Rule

/-! ### Buffers -/

/-- What joining a group does: nothing, or the blank line above the reported one goes. -/
lemma joinGroup_cases {v : Violation} {buffer buffer' : Buffer}
    (h : Fix.joinGroup v buffer = .ok buffer') :
    buffer' = buffer ∨ 2 ≤ v.line ∧ buffer' = buffer.eraseIdx (v.line - 2) ∧
      ∃ k, buffer[v.line - 2]? = some k ∧ allBlank k = true := by
  obtain ⟨-, rfl⟩ := joinGroup_eq_ok_iff.mp h
  split_ifs with habove
  · rw [blankAbove] at habove
    split_ifs at habove with htwo
    exact Or.inr ⟨not_lt.mp htwo, rfl, by simpa using habove⟩
  · exact Or.inl rfl

/-- What separating a group does: nothing, or an empty line comes above the reported one. -/
lemma separateGroup_cases {v : Violation} {buffer buffer' : Buffer}
    (h : Fix.separateGroup v buffer = .ok buffer') :
    buffer' = buffer ∨
      2 ≤ v.line ∧ v.lineIndex < buffer.length ∧ buffer' = buffer.insertIdx v.lineIndex [] := by
  obtain ⟨⟨-, hlt⟩, rfl⟩ := separateGroup_eq_ok_iff.mp h
  split_ifs with habove
  · rw [blankAbove] at habove
    split_ifs at habove with htwo
    exact Or.inr ⟨not_lt.mp htwo, hlt, rfl⟩
  · exact Or.inl rfl

/-- An empty line has no characters. -/
lemma Buffer.flatten_insertIdx {buffer : Buffer} {index : Nat} (hle : index ≤ buffer.length) :
    (buffer.insertIdx index []).flatten = buffer.flatten := by
  rw [insertIdx_eq_append hle, List.flatten_append, List.flatten_append, List.flatten_singleton,
    List.append_nil, ← List.flatten_append, List.take_append_drop]

namespace Rule

variable {tabWidth : Nat} {rule : Rule} {v : Violation} {buffer buffer' : Buffer} {c : Char}

lemma mem_spread (h : c ∈ (rule.spread tabWidth v buffer).flatten) :
    c ∈ buffer.flatten ∨ c = ' ' := by
  rw [spread.eq_def] at h
  split at h
  · rw [List.flatten_append, List.mem_append] at h
    rcases h with h | h
    · exact Or.inl (Buffer.mem_flatten_of_subset (List.take_subset _ _) h)
    · obtain ⟨l', hl', hc⟩ := List.mem_flatten.mp h
      obtain ⟨l, hl, rfl⟩ := List.mem_map.mp hl'
      refine (mem_expandTabs hc).imp_left fun hm => ?_
      exact List.mem_flatten.mpr ⟨l, List.mem_of_mem_drop hl, hm⟩
  · exact Or.inl h

/-- The characters of a fixed buffer: they were there before, or the rule has put them in. -/
lemma mem_fix (h : rule.fix tabWidth v buffer = .ok buffer') (hc : c ∈ buffer'.flatten) :
    c ∈ buffer.flatten ∨ c ∈ rule.insertion ∨ c = ' ' := by
  have hedits : rule.editsLine = true → c ∈ buffer.flatten ∨ c ∈ rule.insertion ∨ c = ' ' := by
    intro hedit
    obtain ⟨-, l, l', hl, hl', rfl⟩ := (fix_eq_ok_iff_editLine hedit).mp h
    rcases mem_spread hc with hc | hc
    · obtain ⟨x, hx, hcx⟩ := List.mem_flatten.mp hc
      rcases List.mem_or_eq_of_mem_set hx with hx | rfl
      · exact Or.inl (List.mem_flatten.mpr ⟨x, hx, hcx⟩)
      · refine ((edits_of_editLine hl').mem hcx).imp_left fun hm => ?_
        exact List.mem_flatten.mpr ⟨l, List.mem_of_getElem? hl, hm⟩
    · exact Or.inr (Or.inr hc)
  cases rule with
  | requireThis | finalParameter | whitespace | indentation | trailingSpaces | tabs =>
      exact hedits rfl
  | importOrder =>
      rw [fix, Fix.reorderImport] at h
      obtain ⟨-, found, -, rfl⟩ := onStatements_eq_ok_iff.mp h
      refine Or.inl ?_
      split at hc
      · exact Buffer.mem_splitBetween hc
      · split at hc
        · exact Buffer.mem_moveBefore hc
        · exact hc
  | importGroups =>
      rcases joinGroup_cases h with rfl | ⟨-, rfl, -⟩
      · exact Or.inl hc
      · exact Or.inl (Buffer.mem_flatten_of_subset List.eraseIdx_subset hc)
  | importSeparation =>
      rcases separateGroup_cases h with rfl | ⟨-, hlt, rfl⟩
      · exact Or.inl hc
      · exact Or.inl (Buffer.flatten_insertIdx hlt.le ▸ hc)
  | removeImport redundancy =>
      rw [fix, Fix.removeImport] at h
      obtain ⟨-, found, -, rfl⟩ := onStatements_eq_ok_iff.mp h
      refine Or.inl ?_
      split at hc
      · exact Buffer.mem_cutStatement hc
      · exact hc

/-- No fix brings a part of a line terminator. -/
lemma mem_fix_of_endsLine (h : rule.fix tabWidth v buffer = .ok buffer') (hends : endsLine c = true)
    (hc : c ∈ buffer'.flatten) : c ∈ buffer.flatten := by
  rcases mem_fix h hc with hc | hc | rfl
  · exact hc
  · exact absurd hc (not_mem_insertion hends rule)
  · simp [endsLine] at hends

end Rule

end LintRepair
