import LintRepair.Proofs.Line.Editing

/-!
Lines and their bytes.

Columns count characters, and a line is cut at a byte of its encoded text. A character takes up one
to four bytes, so not every byte is a place to cut. The offsets of columns are, and the parts of the
encoded text in front of such an offset and behind it are the encoded texts of the characters there.

* `encode`: the bytes of a line; `size_encode` for their number.
* `splitAtByte_eq_some_iff`, `exists_splitAtByte_iff`: the bytes at which a line can be cut are
  those between two encoded characters.
* `within`: the characters of a line with an index in a range; `slice_eq_within` for the excerpt.
* `EditsByCharacter`: what the edits and excerpts by column do to the list of characters, and that
  they cut between two characters; `editsByCharacter` says that this is so for every line.
-/

namespace LintRepair

namespace Line

variable {l front behind : Line} {offset : Nat}

/-! ### Bytes -/

/-- The bytes of a line. -/
def encode (l : Line) : ByteArray := (String.ofList l).toUTF8

lemma encode_append (x y : Line) : encode (x ++ y) = encode x ++ encode y := by
  rw [encode, encode, encode, String.ofList_append]
  exact String.toByteArray_append

lemma size_encode (l : Line) : (encode l).size = l.byteSize := by
  induction l with
  | nil => rfl
  | cons c l ih =>
      have hfirst : (encode [c]).size = c.utf8Size := by
        rw [encode, String.toUTF8_eq_toByteArray, String.toByteArray_ofList,
          List.utf8Encode_singleton, List.size_toByteArray, String.length_utf8EncodeChar]
      rw [← List.singleton_append, encode_append, ByteArray.size_append, hfirst, ih,
        List.singleton_append, byteSize]

/-- The bytes between two cuts are those of the characters there. -/
lemma extract_between (x y z : Line) :
    (encode (x ++ (y ++ z))).extract x.byteSize (byteSize (x ++ y)) = encode y := by
  have hfront : (encode x).extract x.byteSize (byteSize (x ++ y)) = ByteArray.empty := by
    rw [ByteArray.extract_eq_empty_iff, size_encode]
    exact Nat.min_le_right _ _
  rw [encode_append, encode_append, ByteArray.extract_append, hfront, ByteArray.empty_append,
    size_encode, Nat.sub_self, byteSize_append, Nat.add_sub_cancel_left]
  exact ByteArray.extract_append_eq_left (size_encode y).symm

lemma extract_take (l : Line) (column : Nat) :
    (encode l).extract 0 (byteSize (l.take column)) = encode (l.take column) := by
  have hfront := extract_between [] (l.take column) (l.drop column)
  rwa [List.nil_append, List.take_append_drop] at hfront

lemma extract_drop (l : Line) (column : Nat) :
    (encode l).extract (byteSize (l.take column)) (encode l).size = encode (l.drop column) := by
  have hbehind := extract_between (l.take column) (l.drop column) []
  rwa [List.append_nil, List.take_append_drop, ← size_encode l] at hbehind

/-! ### Places to cut -/

/-- A line is cut at a byte by the characters that are encoded in front of it. -/
lemma splitAtByte_eq_some_iff :
    l.splitAtByte offset = some (front, behind) ↔
      l = front ++ behind ∧ offset = front.byteSize := by
  constructor
  · intro h
    fun_induction splitAtByte l offset generalizing front behind with
    | case1 l =>
        obtain ⟨rfl, rfl⟩ := Prod.mk.inj (Option.some.inj h)
        exact ⟨rfl, rfl⟩
    | case2 => cases h
    | case3 c l offset hle ih =>
        obtain ⟨⟨front', behind'⟩, hparts, heq⟩ := Option.map_eq_some_iff.mp h
        obtain ⟨rfl, rfl⟩ := Prod.mk.inj heq
        obtain ⟨hl, hoffset⟩ := ih hparts
        refine ⟨by rw [hl, List.cons_append], ?_⟩
        rw [byteSize, ← hoffset]
        omega
    | case4 => cases h
  · rintro ⟨rfl, rfl⟩
    exact splitAtByte_append front behind

/-- The bytes between two encoded characters, and the two ends of the encoded line. -/
def Boundary (l : Line) (offset : Nat) : Prop :=
  String.Pos.Raw.IsValid (String.ofList l) ⟨offset⟩

/-- The places at which a line can be cut are those between two encoded characters. -/
lemma exists_splitAtByte_iff :
    (∃ parts, l.splitAtByte offset = some parts) ↔ l.Boundary offset := by
  have hend : ∀ x : Line, (String.ofList x).rawEndPos = ⟨x.byteSize⟩ := by
    intro x
    rw [← size_encode]
    rfl
  rw [Boundary, String.Pos.Raw.isValid_iff_exists_append]
  constructor
  · rintro ⟨⟨front, behind⟩, h⟩
    obtain ⟨rfl, rfl⟩ := splitAtByte_eq_some_iff.mp h
    exact ⟨String.ofList front, String.ofList behind, String.ofList_append, (hend front).symm⟩
  · rintro ⟨x, y, hl, hoffset⟩
    refine ⟨(x.toList, y.toList), splitAtByte_eq_some_iff.mpr ⟨?_, ?_⟩⟩
    · have htext := congrArg String.toList hl
      rwa [String.toList_ofList, String.toList_append] at htext
    · rw [← String.ofList_toList (s := x), hend] at hoffset
      exact congrArg String.Pos.Raw.byteIdx hoffset

lemma boundary_take (l : Line) (column : Nat) : l.Boundary (byteSize (l.take column)) :=
  exists_splitAtByte_iff.mp ⟨_, splitAtByte_take l column⟩

/-- The byte behind a character is a place to cut too. -/
lemma byteSize_take_succ {column : Nat} {c : Char} (hc : l[column]? = some c) :
    byteSize (l.take (column + 1)) = byteSize (l.take column) + c.utf8Size := by
  rw [List.take_add_one, hc, byteSize_append]
  rfl

/-! ### Excerpts -/

/-- The characters of a line with an index from `start` up to, but not including, `stop`. -/
def within (l : Line) (start stop : Nat) : List Char :=
  (l.zipIdx.filter fun x => decide (start ≤ x.2) && decide (x.2 < stop)).map Prod.fst

lemma filter_zipIdx (l : Line) (start stop index : Nat) :
    ((l.zipIdx index).filter fun x => decide (start ≤ x.2) && decide (x.2 < stop)).map Prod.fst =
      (l.take (stop - index)).drop (start - index) := by
  induction l generalizing index with
  | nil => simp
  | cons c l ih =>
      rw [List.zipIdx_cons, List.filter_cons]
      rcases Nat.lt_or_ge index stop with hstop | hstop
      · have htake : (c :: l).take (stop - index) = c :: l.take (stop - (index + 1)) := by
          rw [show stop - index = stop - (index + 1) + 1 by omega, List.take_succ_cons]
        rw [htake]
        rcases Nat.lt_or_ge index start with hstart | hstart
        · -- the character stands in front of the range
          rw [if_neg (by simp; omega), ih, show start - index = start - (index + 1) + 1 by omega,
            List.drop_succ_cons]
        · rw [if_pos (by simp; omega), List.map_cons, ih, Nat.sub_eq_zero_of_le hstart,
            Nat.sub_eq_zero_of_le (Nat.le_succ_of_le hstart), List.drop_zero, List.drop_zero]
      · -- the character stands behind the range, and so does the rest
        rw [if_neg (by simp; omega), ih, Nat.sub_eq_zero_of_le hstop,
          Nat.sub_eq_zero_of_le (Nat.le_succ_of_le hstop)]
        simp

lemma slice_eq_within (l : Line) (start stop : Nat) : l.slice start stop = l.within start stop := by
  rw [slice_eq, within, filter_zipIdx, Nat.sub_zero, Nat.sub_zero]

/-- An excerpt stands between the text in front of its start and the text behind its end. -/
lemma take_append_slice (l : Line) (start stop : Nat) :
    l.take start ++ l.slice start stop = l.take (max stop start) := by
  rw [slice_eq]
  rcases Nat.le_total start stop with h | h
  · calc l.take start ++ (l.take stop).drop start
        = (l.take stop).take start ++ (l.take stop).drop start := by
          rw [List.take_take, Nat.min_eq_left h]
      _ = l.take (max stop start) := by rw [List.take_append_drop, Nat.max_eq_left h]
  · rw [List.drop_eq_nil_of_le ((List.length_take_le stop l).trans h), List.append_nil,
      Nat.max_eq_right h]

lemma append_slice_append (l : Line) (start stop : Nat) :
    l.take start ++ (l.slice start stop ++ l.drop (max stop start)) = l := by
  rw [← List.append_assoc, take_append_slice, List.take_append_drop]

lemma max_byteSize_take (l : Line) (start stop : Nat) :
    max (byteSize (l.take stop)) (byteSize (l.take start)) =
      byteSize (l.take (max stop start)) := by
  rcases Nat.le_total start stop with h | h
  · have hsize := byteSize_take_add l h
    rw [Nat.max_eq_left h]
    omega
  · have hsize := byteSize_take_add l h
    rw [Nat.max_eq_right h]
    omega

lemma byteSlice_between (x y z : Line) :
    byteSlice (x ++ (y ++ z)) x.byteSize (byteSize (x ++ y)) = some y := by
  rw [byteSlice, splitAtByte_append]
  simp only [byteSize_append, Nat.add_sub_cancel_left, splitAtByte_append, Option.map_some]

/-! ### Edits -/

/-- Taking a character out undoes putting it in. -/
lemma removeAt_of_insertAt {column : Nat} {c : Char} {l' : Line}
    (h : l.insertAt column [c] = some l') : l'.removeAt column = some l := by
  rw [insertAt_eq] at h
  split_ifs at h with hle
  have hlength : (l.take column).length = column := List.length_take_of_le hle
  have hlt : column < l'.length := by
    rw [← Option.some.inj h, List.length_append, List.length_append, hlength, List.length_singleton]
    omega
  rw [removeAt_eq, if_pos hlt, ← Option.some.inj h, List.append_assoc,
    List.eraseIdx_append_of_length_le hlength.le, hlength, Nat.sub_self, List.singleton_append,
    List.eraseIdx_cons_zero, List.take_append_drop]

/-- The edits and excerpts of a line by column, as edits and excerpts of its list of characters. -/
structure EditsByCharacter (l : Line) : Prop where
  /-- The offset of a column is the size of the encoded characters in front of it. -/
  offset : ∀ column, l.byteOffset column =
    if column ≤ l.length then some (encode (l.take column)).size else none
  insertion : ∀ column text, l.insertAt column text =
    if column ≤ l.length then some (l.take column ++ text ++ l.drop column) else none
  removal : ∀ column, l.removeAt column =
    if column < l.length then some (l.take column ++ l.drop (column + 1)) else none
  undone : ∀ column c l', l.insertAt column [c] = some l' → l'.removeAt column = some l
  excerpt : ∀ start stop, l.slice start stop = l.within start stop
  /-- At the offset of a column the encoded line is cut into the encoded parts of the line. -/
  cut : ∀ column first, l.byteOffset column = some first →
    l.Boundary first ∧ l.splitAtByte first = some (l.take column, l.drop column) ∧
      (encode l).extract 0 first = encode (l.take column) ∧
      (encode l).extract first (encode l).size = encode (l.drop column)
  /-- A removal also cuts behind the character that goes. -/
  cut_behind : ∀ column first c, l.byteOffset column = some first → l[column]? = some c →
    l.byteOffset (column + 1) = some (first + c.utf8Size)
  /-- An excerpt is cut out of the encoded line between the offsets of its columns, the size of the
  line standing in for an offset that is not there. -/
  cut_excerpt : ∀ start stop first last, first = (l.byteOffset start).getD l.byteSize →
    last = max ((l.byteOffset stop).getD l.byteSize) first →
    l.Boundary first ∧ l.Boundary last ∧ l.byteSlice first last = some (l.slice start stop) ∧
      (encode l).extract first last = encode (l.slice start stop)

/-- Edits and excerpts of a line by column are those of its list of characters, and they cut the
encoded line between two characters only. -/
theorem editsByCharacter (l : Line) : l.EditsByCharacter where
  offset column := by rw [byteOffset_eq, size_encode]
  insertion := insertAt_eq l
  removal column := by rw [removeAt_eq, List.eraseIdx_eq_take_drop_succ]
  undone _ _ _ := removeAt_of_insertAt
  excerpt := slice_eq_within l
  cut column first hfirst := by
    rw [byteOffset_eq] at hfirst
    split_ifs at hfirst
    obtain rfl := Option.some.inj hfirst
    exact ⟨boundary_take l column, splitAtByte_take l column, extract_take l column,
      extract_drop l column⟩
  cut_behind column first c hfirst hc := by
    have hlt : column < l.length := (List.getElem?_eq_some_iff.mp hc).1
    rw [byteOffset_eq, if_pos hlt.le] at hfirst
    rw [byteOffset_eq, if_pos (Nat.succ_le_of_lt hlt), byteSize_take_succ hc,
      ← Option.some.inj hfirst]
  cut_excerpt start stop first last hfirst hlast := by
    rw [getD_byteOffset] at hfirst hlast
    rw [hfirst, max_byteSize_take] at hlast
    subst hfirst hlast
    have hslice := byteSlice_between (l.take start) (l.slice start stop) (l.drop (max stop start))
    have hbytes := extract_between (l.take start) (l.slice start stop) (l.drop (max stop start))
    rw [append_slice_append, take_append_slice] at hslice hbytes
    exact ⟨boundary_take l start, boundary_take l _, hslice, hbytes⟩

example : byteOffset "aé b".toList 2 = some 3 := by decide

end Line

end LintRepair
