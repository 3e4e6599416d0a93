import LintRepair.Proofs.Line.Spacing
import LintRepair.Proofs.Patch.Waiting

/-!
Fixes that are made again.

After a fix the reported column may point at other text than before: at a space or a qualifier that
was put in, or into a line that has become longer or shorter. A fix that puts something in, or that
clears blanks away, still finds nothing to do when the same violation is handed to it again. A fix
that takes a space out does so too, unless the token has become the last character of its line and
the reported column is now behind it.

* `Rule.settles`: the rules whose fix is done after one time.
* `notPreceded_settles`, `notFollowed_settles`, `qualify_settles`, `trimEnd_trimEnd`,
  `expandTabs_settles`: the edits of a line.
* `editLine_settles`, `spread_spread`: the reported line and the lines below it.
* `fix_settles`: the fix of a buffer.
* `LoneSpace`: a token with one space on the side that is put right.
* `LoneSpace.editAt_again`: what the edit makes of the line without the space.
* `fix_lone_space_settles_iff`: when the space can be taken out twice.
-/

namespace LintRepair

/-! ### Lines -/

namespace Line

variable {l l' : Line} {k : Nat}

/-- A space in front of the token is put in once. -/
lemma notPreceded_settles (hk : k < l.length) (h : l.respace .notPreceded k = some l') :
    k < l'.length ∧ l'.respace .notPreceded k = some l' := by
  obtain ⟨x, t, y, rfl, rfl⟩ := exists_token hk
  cases ht : isBlank t with
  | true =>
      rw [respace_notPreceded_of_blank x ht, Option.some.injEq] at h
      rw [← h]
      exact ⟨hk, respace_notPreceded_of_blank x ht y⟩
  | false =>
      have hpadded := respace_notPreceded x ht y
      obtain rfl : x.padEnd ++ t :: y = l' := Option.some.inj (hpadded.symm.trans h)
      rcases padEnd_cases x with hpad | hpad
      · rw [hpad] at hpadded ⊢
        exact ⟨hk, hpadded⟩
      · -- the column now points at the space
        rw [hpad, List.append_assoc, List.singleton_append]
        exact ⟨by simp, respace_notPreceded_of_blank x (by decide) (t :: y)⟩

/-- A space behind the token is put in once. -/
lemma notFollowed_settles (hk : k < l.length) (h : l.respace .notFollowed k = some l') :
    k < l'.length ∧ l'.respace .notFollowed k = some l' := by
  obtain ⟨x, t, y, rfl, rfl⟩ := exists_token hk
  cases ht : isBlank t with
  | true =>
      cases y with
      | nil =>
          rw [respace_notFollowed_of_last x ht] at h
          simp at h
      | cons c y =>
          rw [respace_notFollowed_of_blank x ht, Option.some.injEq] at h
          rw [← h, respace_notFollowed_of_blank x ht, padStart_padStart]
          exact ⟨by simp, rfl⟩
  | false =>
      rw [respace_notFollowed x ht, Option.some.injEq] at h
      rw [← h, respace_notFollowed x ht, padStart_padStart]
      exact ⟨by simp, rfl⟩

/-- A qualifier is put in once. -/
lemma qualify_settles (qualifier : Qualifier) (h : l.qualify qualifier k = some l') :
    l'.qualify qualifier k = some l' := by
  rw [qualify] at h
  split_ifs at h with hthere
  · rw [← Option.some.inj h, qualify, if_pos hthere]
  · rw [insertAt_eq] at h
    split_ifs at h with hk
    have hlength : (l.take k).length = k := List.length_take_of_le hk
    have hleft := slice_append_left (l.take k) (qualifier.text ++ l.drop k) 0 qualifier.text.length
    have hslice : l'.slice k (k + qualifier.text.length) = qualifier.text := by
      rw [hlength, Nat.add_zero] at hleft
      rw [← Option.some.inj h, List.append_assoc, hleft, slice_eq, List.take_left, List.drop_zero]
    rw [qualify, if_pos hslice]

/-- From a column on tabs are expanded once, and the column stays on the line. -/
lemma expandTabs_settles (l : Line) {start : Nat} (hstart : start ≤ l.length) (width : Nat) :
    start ≤ (l.expandTabs start width).length ∧
      (l.expandTabs start width).expandTabs start width = l.expandTabs start width := by
  refine ⟨hstart.trans (l.length_le_expandTabs start width), ?_⟩
  rw [expandTabs_expandTabs, Nat.min_self]

end Line

lemma trimEnd_trimEnd (x : List Char) : trimEnd (trimEnd x) = trimEnd x := by
  obtain ⟨k, hk, hblank⟩ := exists_trimEnd x
  calc trimEnd (trimEnd x)
      = trimEnd (trimEnd x ++ k) := (trimEnd_append_blank hblank).symm
    _ = trimEnd x := by rw [← hk]

/-! ### Buffers -/

namespace Rule

/-- Whether the fix of the rule is done after one time: it puts something in or clears blanks
away. -/
def settles : Rule → Bool
  | requireThis => true
  | finalParameter => true
  | whitespace .notPreceded => true
  | whitespace .notFollowed => true
  | trailingSpaces => true
  | tabs _ => true
  | _ => false

variable {tabWidth : Nat} {rule : Rule} {v : Violation} {buffer buffer' : Buffer} {l l' : Line}

/-- On the reported line there is nothing left to do. -/
lemma editLine_settles (hrule : rule.settles = true) (h : rule.editLine tabWidth v l = some l') :
    rule.editLine tabWidth v l' = some l' := by
  cases rule with
  | requireThis => exact Line.qualify_settles .this h
  | finalParameter => exact Line.qualify_settles .final h
  | whitespace spacing =>
      rw [editLine_of_atColumn rfl, editAt] at h ⊢
      split_ifs at h with hlength
      have hsettles : v.columnIndex < l'.length ∧
          l'.respace spacing v.columnIndex = some l' := by
        cases spacing with
        | notPreceded => exact Line.notPreceded_settles (not_le.mp hlength) h
        | notFollowed => exact Line.notFollowed_settles (not_le.mp hlength) h
        | preceded | followed => simp [settles] at hrule
      rw [if_neg (not_le.mpr hsettles.1), hsettles.2]
  | trailingSpaces =>
      rw [editLine, Option.some.injEq] at h
      rw [editLine, ← h, trimEnd_trimEnd]
  | tabs scope =>
      rw [editLine] at h
      split_ifs at h with hlength
      obtain ⟨hstart, hagain⟩ := l.expandTabs_settles (not_lt.mp hlength) tabWidth
      rw [editLine, ← Option.some.inj h, if_neg (not_lt.mpr hstart), hagain]
  | indentation | importOrder | importGroups | importSeparation | removeImport =>
      simp [settles] at hrule

/-- Nor is there on the lines below it. -/
lemma spread_spread (hle : v.line ≤ buffer.length) :
    rule.spread tabWidth v (rule.spread tabWidth v buffer) = rule.spread tabWidth v buffer := by
  cases rule with
  | tabs scope =>
      cases scope with
      | line => rfl
      | file =>
          have hlength : (buffer.take v.line).length = v.line := List.length_take_of_le hle
          have hagain : (fun l : Line => (l.expandTabs 0 tabWidth).expandTabs 0 tabWidth) =
              fun l => l.expandTabs 0 tabWidth :=
            funext fun l => (l.expandTabs_settles (Nat.zero_le _) tabWidth).2
          simp only [spread]
          rw [List.take_left' hlength, List.drop_left' hlength, List.map_map]
          exact congrArg (fun f => buffer.take v.line ++ (buffer.drop v.line).map f) hagain
  | requireThis | finalParameter | whitespace | indentation | importOrder | importGroups
  | importSeparation | removeImport | trailingSpaces => rfl

/-- A fix that puts something in or clears blanks away can be made again: if it succeeds, then the
same violation is fixed on the fixed lines too, and they stay as they are. -/
theorem fix_settles (hrule : rule.settles = true) (h : rule.fix tabWidth v buffer = .ok buffer') :
    rule.fix tabWidth v buffer' = .ok buffer' := by
  have hedits : rule.editsLine = true := by
    cases rule with
    | requireThis | finalParameter | whitespace | indentation | trailingSpaces | tabs => rfl
    | importOrder | importGroups | importSeparation | removeImport => simp [settles] at hrule
  obtain ⟨hline, l, l', hl, hl', rfl⟩ := (fix_eq_ok_iff_editLine hedits).mp h
  obtain ⟨hlt, -⟩ := List.getElem?_eq_some_iff.mp hl
  have hle : v.line ≤ (buffer.set v.lineIndex l').length := by
    rw [List.length_set]
    simp only [Violation.lineIndex] at hlt
    omega
  have hindex : v.lineIndex < v.line := by
    rw [Violation.lineIndex]
    omega
  have hedited : (rule.spread tabWidth v (buffer.set v.lineIndex l'))[v.lineIndex]? = some l' := by
    rw [getElem?_spread hindex hle, List.getElem?_set_self hlt]
  refine (fix_eq_ok_iff_editLine hedits).mpr
    ⟨hline, l', l', hedited, editLine_settles hrule hl', ?_⟩
  rw [Buffer.set_self hedited, spread_spread hle]

/-- A tab that stays in front of the reported column, one that goes, and one on the line below. -/
theorem fix_settles_kept_tab :
    (tabs .file).fix 4 ⟨1, 3, "file.containsTab", ""⟩ ["\ta\tb".toList, "\tc".toList] =
        .ok ["\ta   b".toList, "    c".toList] ∧
      (tabs .file).fix 4 ⟨1, 3, "file.containsTab", ""⟩ ["\ta   b".toList, "    c".toList] =
        .ok ["\ta   b".toList, "    c".toList] := by
  refine (fun hfix => ⟨hfix, fix_settles rfl hfix⟩) ?_
  decide

end Rule

/-! ### Spaces that are taken out -/

/-- The violation points at the visible character `t`, with the text `x` in front of it and the text
`y` behind it, and on the side that is put right there is exactly one space, with a visible
character or the end of the line beyond it. -/
structure LoneSpace (buffer : Buffer) (v : Violation) (spacing : Spacing) (x : Line) (t : Char)
    (y : Line) : Prop where
  reported : reportedLine buffer v = .ok (x ++ t :: y)
  column : v.columnIndex = x.length
  token : isBlank t = false
  space : (spacing = .preceded ∧ ∃ z, x = z ++ [' '] ∧ z.getLast?.any isBlank = false) ∨
    (spacing = .followed ∧ ∃ z, y = ' ' :: z ∧ z.head?.any isBlank = false)

lemma Line.unpadEnd_of_visible (z : Line) {t : Char} (ht : isBlank t = false) :
    unpadEnd (z ++ [t]) = z ++ [t] := by
  have hspace : t ≠ ' ' := by
    rintro rfl
    simp [isBlank_space] at ht
  rw [unpadEnd, List.getLast?_concat, if_neg (by simpa using hspace)]

namespace LoneSpace

variable {buffer : Buffer} {v : Violation} {spacing : Spacing} {x y : Line} {t : Char}

/-- The space goes. -/
lemma editAt_eq (h : LoneSpace buffer v spacing x t y) :
    (Rule.whitespace spacing).editAt (x ++ t :: y) v.columnIndex =
      some (spacing.front x ++ t :: spacing.behind y) := by
  rw [h.column, Rule.editAt, if_neg (by simp), Line.respace_of_visible spacing x h.token]

/-- Without the space there is nothing left to do, unless the token that has moved was the last
character of the line. -/
lemma editAt_again (h : LoneSpace buffer v spacing x t y) :
    (Rule.whitespace spacing).editAt (spacing.front x ++ t :: spacing.behind y) v.columnIndex =
      if spacing = .followed ∨ y ≠ [] then some (spacing.front x ++ t :: spacing.behind y)
      else none := by
  rw [h.column, Rule.editAt]
  rcases h.space with ⟨rfl, z, rfl, -⟩ | ⟨rfl, z, rfl, hz⟩
  · have hfront : Spacing.preceded.front (z ++ [' ']) = z := by
      simp [Spacing.front, Line.unpadEnd]
    rw [hfront, Spacing.behind]
    cases y with
    | nil => simp
    | cons c y =>
        -- the column now points at the character behind the token
        have hmove : z ++ t :: c :: y = (z ++ [t]) ++ c :: y := by simp
        have hlength : (z ++ [' ']).length = (z ++ [t]).length := by simp
        rw [if_neg (by simp), if_pos (Or.inr (by simp)), hmove, hlength, Line.respace_preceded,
          Line.unpadEnd_of_visible z h.token]
  · have hbehind : Spacing.followed.behind (' ' :: z) = z := by
      simp [Spacing.behind, Line.unpadStart]
    have hstart : Line.unpadStart z = z := by
      rw [Line.unpadStart, if_neg]
      intro hspace
      simp [hspace, isBlank_space] at hz
    rw [hbehind, Spacing.front, if_neg (by simp), if_pos (Or.inl rfl), Line.respace_followed,
      hstart]

/-- The token that has moved stands at the end of a line that is one character shorter. -/
lemma length_eq (h : LoneSpace buffer v spacing x t y) (hmoved : ¬ (spacing = .followed ∨ y ≠ [])) :
    (spacing.front x ++ t :: spacing.behind y).length = x.length := by
  rw [not_or, not_not] at hmoved
  rcases h.space with ⟨rfl, z, rfl, -⟩ | ⟨hfollowed, -⟩
  · simp [Spacing.front, Spacing.behind, Line.unpadEnd, hmoved.2]
  · exact absurd hfollowed hmoved.1

end LoneSpace

namespace Rule

/-- A space next to a token is taken out. If the same violation is handed in again, the fixed lines
stay as they are just if the space stood behind the token or the token is not the last character of
its line; otherwise the reported column is not on the line any more. -/
theorem fix_lone_space_settles_iff {buffer : Buffer} {v : Violation} {spacing : Spacing}
    {x y : Line} {t : Char} (h : LoneSpace buffer v spacing x t y) (tabWidth : Nat) :
    ∃ fixed, (whitespace spacing).fix tabWidth v buffer = .ok fixed ∧
      fixed = buffer.set v.lineIndex (spacing.front x ++ t :: spacing.behind y) ∧
      ((whitespace spacing).fix tabWidth v fixed = .ok fixed ↔ spacing = .followed ∨ y ≠ []) ∧
      (¬ (spacing = .followed ∨ y ≠ []) →
        (whitespace spacing).fix tabWidth v fixed =
          .error (.columnOutOfRange v.line v.column x.length)) := by
  have hfix : ∀ {lines l}, reportedLine lines v = .ok l →
      (whitespace spacing).fix tabWidth v lines =
        (orColumnError v l ((whitespace spacing).editAt l v.columnIndex)).map
          (lines.set v.lineIndex ·) := by
    intro lines l hl
    rw [fix_of_reportedLine rfl (by simp) hl]
    rfl
  have hfixed := reportedLine_set h.reported (spacing.front x ++ t :: spacing.behind y)
  have hagain := hfix hfixed
  simp only [h.editAt_again, List.set_set] at hagain
  refine ⟨_, ?_, rfl, ?_, ?_⟩
  · rw [hfix h.reported, h.editAt_eq]
    rfl
  · rw [hagain]
    split_ifs with hstays
    · exact iff_of_true rfl hstays
    · exact iff_of_false (by simp [orColumnError, Except.map]) hstays
  · intro hmoved
    rw [hagain, if_neg hmoved, orColumnError, Except.map, columnError, h.length_eq hmoved]

/-- A comma with a space in front of it, and a character behind it that takes its column. -/
theorem fix_lone_space_settles_comma :
    (whitespace .preceded).fix 4 ⟨1, 5, "ws.preceded", ""⟩ ["f(a ,b)".toList] =
        .ok ["f(a,b)".toList] ∧
      (whitespace .preceded).fix 4 ⟨1, 5, "ws.preceded", ""⟩ ["f(a,b)".toList] =
        .ok ["f(a,b)".toList] := by
  have hspace : LoneSpace ["f(a ,b)".toList] ⟨1, 5, "ws.preceded", ""⟩ .preceded "f(a ".toList ','
      "b)".toList := ⟨rfl, rfl, by decide, Or.inl ⟨rfl, "f(a".toList, rfl, by decide⟩⟩
  obtain ⟨fixed, hfix, rfl, hagain, -⟩ := fix_lone_space_settles_iff hspace 4
  exact ⟨hfix, hagain.mpr (Or.inr (by decide))⟩

/-- A semicolon at the end of its line leaves the reported column behind it. -/
theorem fix_lone_space_displaces_semicolon :
    LoneSpace ["call() ;".toList] ⟨1, 8, "ws.preceded", ""⟩ .preceded "call() ".toList ';' [] ∧
      (whitespace .preceded).fix 4 ⟨1, 8, "ws.preceded", ""⟩ ["call() ;".toList] =
        .ok ["call();".toList] ∧
      (whitespace .preceded).fix 4 ⟨1, 8, "ws.preceded", ""⟩ ["call();".toList] =
        .error (.columnOutOfRange 1 8 7) :=
  ⟨⟨rfl, rfl, by decide, Or.inl ⟨rfl, "call()".toList, rfl, by decide⟩⟩, by decide, by decide⟩

end Rule

end LintRepair
