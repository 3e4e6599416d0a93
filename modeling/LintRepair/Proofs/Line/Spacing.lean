import LintRepair.Proofs.Line.ColumnEdit
import LintRepair.Proofs.Text.Blank

/-!
The spaces around a token.

A line is looked at as the text in front of a token, the token and the text behind it. An edit of
the spaces changes the end of the text in front or the start of the text behind, and nothing else.
Where the reported character is itself a blank, the token is taken to have been moved by one.

* `padEnd`, `padStart`, `unpadEnd`, `unpadStart`: a text with or without a space at one end.
* `Spacing.front`, `Spacing.behind`: what a spacing makes of the text on either side.
* `respace_of_visible`: the edit of the spaces around a visible character.
* `respace_notPreceded_of_blank`, `respace_notFollowed_of_blank`: a blank in place of the token.
* `respace_comm`: the spaces that are missing on both sides can be put in in either order.
-/

namespace LintRepair

namespace Line

/-- The text with a space behind it, unless it ends with a blank. -/
def padEnd (x : Line) : Line := if x.getLast?.any isBlank then x else x ++ [' ']

/-- The text with a space in front of it, unless it begins with a blank. -/
def padStart (x : Line) : Line := if x.head?.any isBlank then x else ' ' :: x

/-- The text without the space at its end, if there is one. -/
def unpadEnd (x : Line) : Line := if x.getLast? = some ' ' then x.dropLast else x

/-- The text without the space at its start, if there is one. -/
def unpadStart (x : Line) : Line := if x.head? = some ' ' then x.tail else x

end Line

namespace Spacing

/-- What a spacing makes of the text in front of the token. -/
def front : Spacing → Line → Line
  | notPreceded, x => x.padEnd
  | preceded, x => x.unpadEnd
  | notFollowed, x => x
  | followed, x => x

/-- What a spacing makes of the text behind the token. -/
def behind : Spacing → Line → Line
  | notFollowed, x => x.padStart
  | followed, x => x.unpadStart
  | notPreceded, x => x
  | preceded, x => x

end Spacing

namespace Line

lemma padEnd_cases (x : Line) : x.padEnd = x ∨ x.padEnd = x ++ [' '] := by
  rw [padEnd]
  split_ifs
  · exact Or.inl rfl
  · exact Or.inr rfl

/-- Of two spaces in front of a text only one is put in. -/
lemma padStart_padStart (x : Line) : x.padStart.padStart = x.padStart := by
  rw [padStart.eq_1 x]
  split_ifs with h
  · rw [padStart, if_pos h]
  · rw [padStart, List.head?_cons, Option.any_some, if_pos isBlank_space]

/-! ### The characters next to a token -/

/-- A column of a line is that of a token with a text in front of it and a text behind it. -/
lemma exists_token {l : Line} {k : Nat} (hk : k < l.length) :
    ∃ (x : Line) (t : Char) (y : Line), l = x ++ t :: y ∧ k = x.length := by
  refine ⟨l.take k, l[k], l.drop (k + 1), ?_, ?_⟩
  · rw [← List.drop_eq_getElem_cons hk, List.take_append_drop]
  · rw [List.length_take]
    omega

lemma charAt_length (x : Line) (t : Char) (y : Line) :
    charAt (x ++ t :: y) x.length = some t :=
  charAt_append_left x (t :: y) 0

lemma blankAt_length (x : Line) (t : Char) (y : Line) :
    blankAt (x ++ t :: y) x.length = isBlank t := by
  rw [blankAt, charAt_length, Option.any_some]

lemma charAt_behind (x : Line) (t : Char) (y : Line) :
    charAt (x ++ t :: y) (x.length + 1) = y.head? := by
  rw [charAt_append_left, charAt, List.getElem?_cons_succ, List.head?_eq_getElem?]

lemma blankAt_behind (x : Line) (t : Char) (y : Line) :
    blankAt (x ++ t :: y) (x.length + 1) = y.head?.any isBlank := by
  rw [blankAt, charAt_behind]

lemma blankBefore_length (x y : Line) : blankBefore (x ++ y) x.length = x.getLast?.any isBlank := by
  induction x using List.reverseRecOn with
  | nil => rfl
  | append_singleton x c =>
      rw [List.length_append, List.length_singleton, blankBefore, List.append_assoc,
        List.singleton_append, blankAt_length, List.getLast?_concat, Option.any_some]

lemma insertAt_length (x y : Line) (text : List Char) :
    insertAt (x ++ y) x.length text = some (x ++ (text ++ y)) := by
  rw [insertAt_eq, if_pos (by simp), List.take_left, List.drop_left, List.append_assoc]

lemma insertAt_behind (x : Line) (t : Char) (y : Line) (text : List Char) :
    insertAt (x ++ t :: y) (x.length + 1) text = some (x ++ t :: (text ++ y)) := by
  have hmove : x ++ t :: y = (x ++ [t]) ++ y := by simp
  have hlength : x.length + 1 = (x ++ [t]).length := by simp
  rw [hmove, hlength, insertAt_length, List.append_assoc, List.singleton_append]

/-! ### Edits of the spaces -/

lemma respace_preceded (x y : Line) :
    respace .preceded (x ++ y) x.length = some (x.unpadEnd ++ y) := by
  induction x using List.reverseRecOn with
  | nil => rfl
  | append_singleton x c =>
      have hremove : removeAt (x ++ c :: y) x.length = some (x ++ y) := by
        rw [removeAt_eq, if_pos (by simp), List.eraseIdx_append_of_length_le (Nat.le_refl _),
          Nat.sub_self, List.eraseIdx_cons_zero]
      rw [List.length_append, List.length_singleton, respace, List.append_assoc,
        List.singleton_append, charAt_length, hremove, unpadEnd, List.getLast?_concat,
        List.dropLast_concat]
      split_ifs
      · rfl
      · rw [List.append_assoc, List.singleton_append]

lemma respace_followed (x : Line) (t : Char) (y : Line) :
    respace .followed (x ++ t :: y) x.length = some (x ++ t :: y.unpadStart) := by
  rw [respace, charAt_behind, unpadStart]
  split_ifs with hspace
  · obtain ⟨z, rfl⟩ : ∃ z, y = ' ' :: z := List.head?_eq_some_iff.mp hspace
    rw [removeAt_append_left, removeAt_eq, if_pos (by simp)]
    rfl
  · rfl

lemma respace_notPreceded (x : Line) {t : Char} (ht : isBlank t = false) (y : Line) :
    respace .notPreceded (x ++ t :: y) x.length = some (x.padEnd ++ t :: y) := by
  rw [respace, blankBefore_length, blankAt_length, ht, Bool.or_false, insertAt_length, padEnd]
  split_ifs
  · rfl
  · rw [List.append_assoc]

lemma respace_notFollowed (x : Line) {t : Char} (ht : isBlank t = false) (y : Line) :
    respace .notFollowed (x ++ t :: y) x.length = some (x ++ t :: y.padStart) := by
  have htoken : tokenColumn (x ++ t :: y) x.length = x.length := by
    rw [tokenColumn, blankAt_length, ht]
    rfl
  rw [respace, htoken, blankAt_behind, insertAt_behind, padStart]
  split_ifs
  · rfl
  · rfl

/-- Around a visible character a spacing changes the text on its side. -/
lemma respace_of_visible (spacing : Spacing) (x : Line) {t : Char} (ht : isBlank t = false)
    (y : Line) :
    respace spacing (x ++ t :: y) x.length = some (spacing.front x ++ t :: spacing.behind y) := by
  cases spacing with
  | notPreceded => exact respace_notPreceded x ht y
  | notFollowed => exact respace_notFollowed x ht y
  | preceded => exact respace_preceded x (t :: y)
  | followed => exact respace_followed x t y

/-- In front of a blank no space is missing. -/
lemma respace_notPreceded_of_blank (x : Line) {t : Char} (ht : isBlank t = true) (y : Line) :
    respace .notPreceded (x ++ t :: y) x.length = some (x ++ t :: y) := by
  rw [respace, blankAt_length, ht, Bool.or_true, if_pos rfl]

/-- Behind a blank the next character is taken for the token. -/
lemma respace_notFollowed_of_blank (x : Line) {t : Char} (ht : isBlank t = true) (c : Char)
    (y : Line) :
    respace .notFollowed (x ++ t :: c :: y) x.length = some (x ++ t :: c :: y.padStart) := by
  have hmove : x ++ t :: c :: y = (x ++ [t]) ++ c :: y := by simp
  have hlength : x.length + 1 = (x ++ [t]).length := by simp
  rw [respace, tokenColumn, blankAt_length, ht, if_pos rfl, hmove, hlength, blankAt_behind,
    insertAt_behind, padStart]
  split_ifs
  · rw [← hmove]
  · rw [List.append_assoc, List.singleton_append, List.singleton_append]

lemma respace_notFollowed_of_last (x : Line) {t : Char} (ht : isBlank t = true) :
    respace .notFollowed (x ++ [t]) x.length = none := by
  have hno : blankAt (x ++ [t]) (x.length + 1 + 1) = false := by
    rw [blankAt, charAt, List.getElem?_eq_none (by simp)]
    rfl
  rw [respace, tokenColumn, blankAt_length, ht, if_pos rfl, hno, if_neg (by simp), insertAt_eq,
    if_neg (by simp)]

/-! ### Both sides -/

/-- Missing spaces on both sides lead to the same line in either order, unless the reported
character is a blank at the end of the line. -/
lemma respace_comm {l : Line} {k : Nat} (hk : k < l.length) :
    (l.respace .notPreceded k = some l ∧ l.respace .notFollowed k = none) ∨
      ∃ first second both, l.respace .notPreceded k = some first ∧
        l.respace .notFollowed k = some second ∧ first.respace .notFollowed k = some both ∧
        second.respace .notPreceded k = some both ∧ k < first.length ∧ k < second.length := by
  obtain ⟨x, t, y, rfl, rfl⟩ := exists_token hk
  cases ht : isBlank t with
  | true =>
      have hfront := respace_notPreceded_of_blank x ht
      cases y with
      | nil => exact Or.inl ⟨hfront [], respace_notFollowed_of_last x ht⟩
      | cons c y =>
          have hbehind := respace_notFollowed_of_blank x ht c y
          exact Or.inr ⟨_, _, _, hfront (c :: y), hbehind, hbehind, hfront _, by simp, by simp⟩
  | false =>
      refine Or.inr ⟨_, _, x.padEnd ++ t :: y.padStart, respace_notPreceded x ht y,
        respace_notFollowed x ht y, ?_, respace_notPreceded x ht _, ?_, by simp⟩
      · rcases padEnd_cases x with hpad | hpad
        · rw [hpad, respace_notFollowed x ht]
        · -- the space in front stands where the token was
          rw [hpad, List.append_assoc, List.singleton_append,
            respace_notFollowed_of_blank x (by decide), List.append_assoc, List.singleton_append]
      · rcases padEnd_cases x with hpad | hpad
        · rw [hpad]
          simp
        · rw [hpad]
          simp

end Line

end LintRepair
