import LintRepair.Proofs.Line.TabStops
import LintRepair.Proofs.Patch.Edits
import LintRepair.Proofs.Patch.Run

/-!
Fixes and the violations that wait.

A fix changes the buffer under the violations that are still waiting. Whether a waiting violation
fits the changed buffer is a matter of the two rules and of how far above the fixed line the waiting
violation stands: a rule can take away the line or the column that the other one needs, or leave a
buffer whose statements cannot be told apart.

* `Rule.keepsReadable`, `Rule.displaces`, `Rule.spoils`: the pairs of rules that do not go together.
* `unbroken_fix`, `readable_fix`: what a fix keeps of the buffer as a whole.
* `FitsLine.of_editLine`: an edit to the right of a waiting violation.
* `Fits.of_fix`: a waiting violation that is not spoiled fits the fixed buffer.
* `exists_applyAll`: a run in which no violation spoils a waiting one succeeds.
-/

namespace LintRepair

/-- How far above a fixed violation a waiting one stands. -/
inductive Reach where
  /-- On the same line. -/
  | sameLine
  /-- On the line above. -/
  | lineAbove
  /-- On a higher line. -/
  | higher
deriving DecidableEq

namespace Violation

/-- How far above a violation another one stands that waits for it. -/
def reach (v w : Violation) : Reach :=
  if w.line = v.line then .sameLine else if w.line + 1 = v.line then .lineAbove else .higher

/-- The first violation stands below the second one or to the right of it. -/
def Follows (v w : Violation) : Prop :=
  w.line < v.line ∨ w.line = v.line ∧ w.column < v.column

end Violation

namespace Rule

/-- Whether the rule changes nothing but blanks and the order of lines. -/
def keepsReadable : Rule → Bool
  | trailingSpaces => true
  | tabs _ => true
  | importOrder => true
  | importGroups => true
  | importSeparation => true
  | _ => false

/-- Whether a fix of the first rule can take away the line or the column of a waiting violation. -/
def displaces (first waiting : Rule) (reach : Reach) : Bool :=
  match first with
  | whitespace .preceded => reach = .sameLine && waiting = whitespace .notFollowed
  | whitespace .followed => reach = .sameLine && waiting = whitespace .notFollowed
  | indentation => reach = .sameLine && waiting.room = some 1
  | trailingSpaces => reach = .sameLine && waiting.room.isSome
  | importSeparation => reach = .sameLine && waiting.room.isSome
  | importOrder => waiting.room.isSome
  | importGroups =>
      waiting ≠ importOrder && (reach = .sameLine || reach = .lineAbove && waiting.room.isSome)
  | removeImport _ => true
  | _ => false

/-- Whether a fix of the first rule can leave a waiting violation without what it needs. -/
def spoils (first waiting : Rule) (reach : Reach) : Bool :=
  waiting.scans && !first.keepsReadable || first.displaces waiting reach

end Rule

/-! ### The buffer as a whole -/

namespace Rule

variable {tabWidth : Nat} {rule : Rule} {v : Violation} {buffer buffer' : Buffer} {l l' : Line}

/-- No fix brings a line feed into a line. -/
lemma unbroken_fix (hb : buffer.Unbroken)
    (h : rule.fix tabWidth v buffer = .ok buffer') : buffer'.Unbroken :=
  hb.of_mem (mem_fix_of_endsLine h rfl)

/-- A fix that changes nothing but blanks and the order of lines keeps a buffer readable. -/
lemma readable_fix (hrule : rule.keepsReadable = true) (hb : buffer.Unbroken)
    (h : rule.fix tabWidth v buffer = .ok buffer') (hreadable : buffer.Readable) :
    buffer'.Readable := by
  cases rule with
  | trailingSpaces =>
      obtain ⟨-, l, l', hl, hl', rfl⟩ := (fix_eq_ok_iff_editLine rfl).mp h
      obtain rfl : trimEnd l = l' := Option.some.inj hl'
      exact Buffer.readable_set hb hl (mt mem_trimEnd (hb l (List.mem_of_getElem? hl)))
        (alike_trimEnd l) hreadable
  | tabs scope =>
      obtain ⟨-, l, l', hl, hl', rfl⟩ := (fix_eq_ok_iff_editLine rfl).mp h
      have hl'nl : '\n' ∉ l' :=
        mt ((edits_of_editLine hl').mem_of_endsLine rfl) (hb l (List.mem_of_getElem? hl))
      rw [editLine] at hl'
      split_ifs at hl'
      obtain rfl : l.expandTabs v.columnIndex tabWidth = l' := Option.some.inj hl'
      have hset := Buffer.readable_set hb hl hl'nl
        ((alike_expandTabs l v.columnIndex tabWidth).append (Scanner.Alike.refl ['\n'])) hreadable
      cases scope with
      | line => exact hset
      | file =>
          exact Buffer.readable_map_drop (hb.set _ hl'nl)
            (fun l hl => not_mem_expandTabs hl 0 tabWidth) (fun l => alike_expandTabs l 0 tabWidth)
            v.line hset
  | importOrder => exact (reorderImport_keeps hb h).2.1
  | importGroups =>
      rcases joinGroup_cases h with rfl | ⟨-, rfl, k, hk, hblank⟩
      · exact hreadable
      · exact Buffer.readable_eraseIdx hb hk hblank hreadable
  | importSeparation =>
      rcases separateGroup_cases h with rfl | ⟨htwo, hlt, rfl⟩
      · exact hreadable
      · have hpos : 0 < v.lineIndex := by
          rw [Violation.lineIndex]
          omega
        exact Buffer.readable_insertIdx hb hpos hlt.le hreadable
  | requireThis | finalParameter | whitespace | indentation | removeImport =>
      simp [keepsReadable] at hrule

end Rule

/-! ### The line of a waiting violation -/

/-- A line ends with a blank just if it does so with its tabs expanded. -/
lemma any_getLast?_expandTabsFrom (add : Nat → Nat → Nat) (start : Nat) {width : Nat}
    (hwidth : 0 < width) (index display : Nat) (l : Line) :
    (expandTabsFrom add start width index display l).getLast?.any isBlank =
      l.getLast?.any isBlank := by
  induction l generalizing index display with
  | nil => rfl
  | cons c l ih =>
      obtain ⟨e, display', heq, he⟩ :=
        exists_expandTabsFrom_cons add start hwidth index display c l
      have hrest := ih (index + 1) display'
      have hfirst : e.getLast?.any isBlank = isBlank c := by
        rcases he with rfl | ⟨rfl, n, rfl⟩
        · rfl
        · rw [List.replicate_succ', List.getLast?_append, List.getLast?_singleton, Option.some_or]
          decide
      rw [heq, List.getLast?_append]
      cases l with
      | nil => simpa [expandTabsFrom] using hfirst
      | cons d l =>
          have hlength := length_le_expandTabsFrom add start hwidth (index + 1) display' (d :: l)
          cases hlast : (expandTabsFrom add start width (index + 1) display' (d :: l)).getLast? with
          | none =>
              rw [List.getLast?_eq_none_iff.mp hlast] at hlength
              simp at hlength
          | some last =>
              rw [hlast] at hrest
              rw [Option.some_or, hrest, List.getLast?_cons_cons]

namespace Rule

variable {tabWidth : Nat} {rule first waiting : Rule} {v w : Violation} {buffer buffer' : Buffer}
  {l l' : Line}

lemma room_le_one {n : Nat} (h : rule.room = some n) : n ≤ 1 := by
  cases rule <;> simp [room] at h <;> omega

/-- A violation that fits a line fits every longer one. -/
lemma FitsLine.of_length_lt (h : waiting.FitsLine w l) (hlt : l.length < l'.length) :
    waiting.FitsLine w l' := by
  refine ⟨fun n hn => (h.column n hn).trans hlt.le, ?_, h.level⟩
  rintro rfl
  have hroom := h.column 1 rfl
  exact Or.inl (by omega)

/-- A violation that fits a line fits another one with enough room, unless a space behind a token
is missing. -/
lemma FitsLine.of_room (h : waiting.FitsLine w l) (hbehind : waiting ≠ whitespace .notFollowed)
    (hroom : ∀ n, waiting.room = some n → w.columnIndex + n ≤ l'.length) :
    waiting.FitsLine w l' :=
  ⟨hroom, fun heq => absurd heq hbehind, h.level⟩

lemma blankAt_last {k : Nat} (hk : k + 1 = l.length) :
    l.blankAt k = l.getLast?.any isBlank := by
  rw [Line.blankAt, Line.charAt, List.getLast?_eq_getElem?, ← hk, Nat.add_sub_cancel]

/-- Tabs are never shorter than before, and a token at the end of a line is as blank as before. -/
lemma FitsLine.of_expandTabs (h : waiting.FitsLine w l) (start : Nat) :
    waiting.FitsLine w (l.expandTabs start tabWidth) := by
  have hlength := Line.length_le_expandTabs l start tabWidth
  refine ⟨fun n hn => (h.column n hn).trans hlength, ?_, h.level⟩
  intro hrule
  have hroom := h.column 1 (by rw [hrule]; rfl)
  by_cases hinside : w.columnIndex + 1 < (l.expandTabs start tabWidth).length
  · exact Or.inl hinside
  · -- the token is the last character of the line, before and after
    have hlast : w.columnIndex + 1 = l.length := by omega
    have hlast' : w.columnIndex + 1 = (l.expandTabs start tabWidth).length := by omega
    rcases h.behind hrule with hlt | hblank
    · omega
    · right
      rw [blankAt_last hlast', Line.expandTabs, any_getLast?_expandTabsFrom _ _ (by omega),
        ← blankAt_last hlast, hblank]

/-- A step of the indentation leaves the line alone, makes it longer, or takes a character away in
front of the column. -/
lemma stepIndent_cases {actual expected : Nat} (h : l.stepIndent actual expected = some l') :
    l' = l ∨ l.length < l'.length ∨ 1 ≤ actual ∧ l'.length + 1 = l.length := by
  rw [Line.stepIndent] at h
  split_ifs at h with hmore hless
  · rw [Line.insertAt_eq] at h
    split_ifs at h
    rw [← Option.some.inj h]
    right
    left
    simp only [List.length_append, List.length_take, List.length_drop, List.length_singleton]
    omega
  · rw [Line.removeAt_eq] at h
    split_ifs at h with hlt
    rw [← Option.some.inj h, List.length_eraseIdx_of_lt hlt]
    omega
  · exact Or.inl (Option.some.inj h).symm

/-- An edit to the right of a waiting violation leaves what the violation needs, unless it displaces
it. -/
lemma FitsLine.of_editLine (hfits : waiting.FitsLine w l)
    (h : first.editLine tabWidth v l = some l')
    (hcolumn : w.columnIndex < v.columnIndex ∨ w.columnIndex = 0 ∧ v.columnIndex = 0)
    (hplace : first.displaces waiting .sameLine = false) : waiting.FitsLine w l' := by
  have hinserts : first.atColumn = true → first.inserts = true → waiting.FitsLine w l' := by
    intro hat hins
    rw [editLine_of_atColumn hat] at h
    rcases editAt_of_inserts hins h with rfl | hlt
    · exact hfits
    · exact hfits.of_length_lt hlt
  have hremoves : first.atColumn = true → first.inserts = false →
      waiting ≠ whitespace .notFollowed → waiting.FitsLine w l' := by
    intro hat hins hbehind
    rw [editLine_of_atColumn hat] at h
    rcases editAt_of_not_inserts hins h with rfl | ⟨hlength, hlt, hside⟩
    · exact hfits
    · refine hfits.of_room hbehind fun n hn => ?_
      have hone := room_le_one hn
      omega
  cases first with
  | requireThis => exact hinserts rfl rfl
  | finalParameter => exact hinserts rfl rfl
  | whitespace spacing =>
      cases spacing with
      | notPreceded => exact hinserts rfl rfl
      | notFollowed => exact hinserts rfl rfl
      | preceded => exact hremoves rfl rfl (by simpa [displaces] using hplace)
      | followed => exact hremoves rfl rfl (by simpa [displaces] using hplace)
  | indentation =>
      rw [editLine] at h
      split_ifs at h with hlen
      cases hlevel : expectedLevel v.message v.columnIndex with
      | error e => simp [hlevel] at h
      | ok level =>
          simp only [hlevel] at h
          rcases stepIndent_cases h with rfl | hlt | ⟨hpos, hlength⟩
          · exact hfits
          · exact hfits.of_length_lt hlt
          · have hroom : waiting.room ≠ some 1 := by simpa [displaces] using hplace
            refine hfits.of_room (by rintro rfl; exact hroom rfl) fun n hn => ?_
            have hone := room_le_one hn
            have hne : n ≠ 1 := by
              rintro rfl
              exact hroom hn
            omega
  | trailingSpaces =>
      have hroom : waiting.room = none := by simpa [displaces] using hplace
      exact fitsLine_of_room hroom
  | tabs scope =>
      rw [editLine] at h
      split_ifs at h
      rw [← Option.some.inj h]
      exact hfits.of_expandTabs v.columnIndex
  | importOrder | importGroups | importSeparation | removeImport =>
      simp [editLine, editAt] at h

/-- The lines down to the reported one are left alone by what happens further down. -/
lemma getElem?_spread {k : Nat} (hk : k < v.line) (hle : v.line ≤ buffer.length) :
    (rule.spread tabWidth v buffer)[k]? = buffer[k]? := by
  rw [spread.eq_def]
  split
  · rw [List.getElem?_append_left (by rw [List.length_take]; omega), List.getElem?_take_of_lt hk]
  · rfl

/-- A rule that edits the reported line leaves the lines above it alone. -/
lemma exists_of_fix (hrule : rule.editsLine = true) (h : rule.fix tabWidth v buffer = .ok buffer') :
    ∃ l l', buffer[v.lineIndex]? = some l ∧ buffer'[v.lineIndex]? = some l' ∧
      rule.editLine tabWidth v l = some l' ∧ ∀ k < v.lineIndex, buffer'[k]? = buffer[k]? := by
  obtain ⟨hline, l, l', hl, hl', rfl⟩ := (fix_eq_ok_iff_editLine hrule).mp h
  obtain ⟨hlt, -⟩ := List.getElem?_eq_some_iff.mp hl
  have hindex : v.lineIndex + 1 = v.line := by
    rw [Violation.lineIndex]
    omega
  have hlength : v.line ≤ (buffer.set v.lineIndex l').length := by
    rw [List.length_set]
    omega
  refine ⟨l, l', hl, ?_, hl', fun k hk => ?_⟩
  · rw [getElem?_spread (by omega) hlength, List.getElem?_set_self hlt]
  · rw [getElem?_spread (by omega) hlength, List.getElem?_set_ne (by omega)]

/-- A line for a waiting violation that does not look at the column. -/
lemma onLine_of_lt (hroom : waiting.room = none) (hlt : w.lineIndex < buffer.length) :
    ∃ l, buffer[w.lineIndex]? = some l ∧ waiting.FitsLine w l :=
  ⟨_, List.getElem?_eq_getElem hlt, fitsLine_of_room hroom⟩

/-- A waiting violation keeps its line and its column, unless it is displaced. -/
lemma Fits.onLine_of_fix (hw : waiting.Fits w buffer) (hb : buffer.Unbroken)
    (h : first.fix tabWidth v buffer = .ok buffer') (horder : v.Follows w)
    (hplace : first.displaces waiting (v.reach w) = false)
    (hgate : first = importGroups → waiting ≠ importOrder) :
    ∃ l, buffer'[w.lineIndex]? = some l ∧ waiting.FitsLine w l := by
  obtain ⟨hwline, ⟨k, hk, hfits⟩, -⟩ := hw
  obtain ⟨hvline, ⟨m, hm, -⟩, -⟩ := (fits_iff tabWidth).mpr ⟨buffer', h⟩
  obtain ⟨hklt, -⟩ := List.getElem?_eq_some_iff.mp hk
  obtain ⟨hmlt, -⟩ := List.getElem?_eq_some_iff.mp hm
  have hvindex : v.lineIndex + 1 = v.line := by rw [Violation.lineIndex]; omega
  have hwindex : w.lineIndex + 1 = w.line := by rw [Violation.lineIndex]; omega
  have hedits : first.editsLine = true →
      ∃ l, buffer'[w.lineIndex]? = some l ∧ waiting.FitsLine w l := by
    intro hrule
    obtain ⟨l, l', hl, hl', hedit, habove⟩ := exists_of_fix hrule h
    rcases horder with hlt | ⟨hline, hcolumn⟩
    · exact ⟨k, by rw [habove _ (by omega), hk], hfits⟩
    · have hindex : w.lineIndex = v.lineIndex := by omega
      obtain rfl : l = k := by
        rw [← hindex] at hl
        exact Option.some.inj (hl.symm.trans hk)
      rw [Violation.reach, if_pos hline] at hplace
      refine ⟨l', by rw [hindex, hl'], hfits.of_editLine hedit ?_ hplace⟩
      simp only [Violation.columnIndex]
      omega
  cases first with
  | requireThis | finalParameter | whitespace | indentation | trailingSpaces | tabs =>
      exact hedits rfl
  | importOrder =>
      have hroom : waiting.room = none := by simpa [displaces] using hplace
      exact onLine_of_lt hroom (hklt.trans_le (reorderImport_keeps hb h).2.2)
  | importSeparation =>
      rcases separateGroup_cases h with rfl | ⟨-, -, rfl⟩
      · exact ⟨k, hk, hfits⟩
      · rcases horder with hlt | ⟨hline, -⟩
        · exact ⟨k, by rw [List.getElem?_insertIdx_of_lt (by omega), hk], hfits⟩
        · have hroom : waiting.room = none := by
            simpa [displaces, Violation.reach, hline] using hplace
          refine onLine_of_lt hroom ?_
          rw [List.length_insertIdx_of_le_length (by omega)]
          omega
  | importGroups =>
      rcases joinGroup_cases h with rfl | ⟨-, rfl, -⟩
      · exact ⟨k, hk, hfits⟩
      · have hne := hgate rfl
        rw [displaces, Violation.reach] at hplace
        rcases horder with hlt | ⟨hline, -⟩
        · by_cases habove : w.line + 1 = v.line
          · have hroom : waiting.room = none := by
              simpa [hne, habove, hlt.ne] using hplace
            refine onLine_of_lt hroom ?_
            rw [List.length_eraseIdx_of_lt (by omega)]
            omega
          · exact ⟨k, by rw [List.getElem?_eraseIdx_of_lt (by omega), hk], hfits⟩
        · simp [hne, hline] at hplace
  | removeImport redundancy => simp [displaces] at hplace

/-- A waiting violation that is not spoiled by a fix fits the fixed buffer. -/
lemma Fits.of_fix (hw : waiting.Fits w buffer) (hb : buffer.Unbroken)
    (h : first.fix tabWidth v buffer = .ok buffer') (horder : v.Follows w)
    (hspoils : first.spoils waiting (v.reach w) = false)
    (hgate : first = importGroups → waiting ≠ importOrder) : waiting.Fits w buffer' := by
  rw [spoils, Bool.or_eq_false_iff] at hspoils
  obtain ⟨hread, hplace⟩ := hspoils
  refine ⟨hw.line, hw.onLine_of_fix hb h horder hplace hgate, fun hscans => ?_⟩
  have hkeeps : first.keepsReadable = true := by simpa [hscans] using hread
  exact readable_fix hkeeps hb h (hw.readable hscans)

end Rule

/-! ### Runs -/

/-- Whether fixing a violation can leave a waiting one without what it needs. -/
def Violation.spoils (v w : Violation) : Bool :=
  match Rule.ofKey? v.key, Rule.ofKey? w.key with
  | some first, some waiting => first.spoils waiting (v.reach w)
  | _, _ => false

/-- What a run hands on: the violations that are still waiting fit the buffer, and none of them
spoils one that waits for it. -/
structure Waiting (violations : List Violation) (buffer : Buffer) : Prop where
  unbroken : buffer.Unbroken
  fits : ∀ v ∈ violations, ∃ rule, Rule.ofKey? v.key = some rule ∧ rule.Fits v buffer
  order : violations.Pairwise fun v w => v.Follows w ∧ v.spoils w = false

section Run

variable {patcher : Patcher} {all later : List Violation} {v : Violation} {state : Patched}

/-- The rule of a known key, if all of them are switched on. -/
lemma ruleFor_eq (henabled : ∀ key ∈ Rule.keys, patcher.enabled key = true) {key : String}
    {rule : Rule} (hrule : Rule.ofKey? key = some rule) : patcher.ruleFor key = some rule := by
  rw [Patcher.ruleFor, if_pos (henabled key (Rule.mem_keys_iff.mpr ⟨rule, hrule⟩)), hrule]

/-- One step of a run. -/
lemma Waiting.step (h : Waiting (v :: later) state.lines)
    (henabled : ∀ key ∈ Rule.keys, patcher.enabled key = true) (hall : ∀ w ∈ later, w ∈ all) :
    ∃ state', patcher.applyOne all v later state = .ok state' ∧ Waiting later state'.lines := by
  obtain ⟨rule, hrule, hfits⟩ := h.fits v List.mem_cons_self
  obtain ⟨hfirst, horder⟩ := List.pairwise_cons.mp h.order
  have hruleFor := ruleFor_eq henabled hrule
  cases hpermits : rule.permits all v (.followedBy later) with
  | false =>
      exact ⟨_, Patcher.applyOne_of_gated hruleFor hpermits, h.unbroken,
        fun w hw => h.fits w (List.mem_cons_of_mem v hw), horder⟩
  | true =>
      obtain ⟨buffer, hfix⟩ := (Rule.fits_iff patcher.tabWidth).mp hfits
      refine ⟨{ state with lines := buffer, applied := state.applied + 1 }, ?_,
        Rule.unbroken_fix h.unbroken hfix, fun w hw => ?_, horder⟩
      · rw [Patcher.applyOne_of_rule hruleFor hpermits, hfix]
        rfl
      · obtain ⟨waiting, hwaiting, hw'⟩ := h.fits w (List.mem_cons_of_mem v hw)
        obtain ⟨hfollows, hspoils⟩ := hfirst w hw
        rw [Violation.spoils, hrule, hwaiting] at hspoils
        refine ⟨waiting, hwaiting, hw'.of_fix h.unbroken hfix hfollows hspoils ?_⟩
        -- while an import is out of order, the blank lines between imports are left alone
        rintro rfl rfl
        have hkey := List.all_eq_true.mp hpermits w (hall w hw)
        rw [Rule.ofKey?_eq_importOrder_iff.mp hwaiting] at hkey
        simp at hkey

/-- A run in which no violation spoils a waiting one succeeds. -/
lemma exists_applyAll (henabled : ∀ key ∈ Rule.keys, patcher.enabled key = true)
    (h : Waiting all state.lines) :
    ∃ patched, patcher.applyAll all all state = .ok patched := by
  let P : List Violation → Patched → Prop := fun waiting state =>
    Waiting waiting state.lines ∧ ∀ w ∈ waiting, w ∈ all
  have hstep : ∀ v later state, P (v :: later) state →
      ∃ state', patcher.applyOne all v later state = .ok state' ∧ P later state' := by
    rintro v later state ⟨hwaiting, hmem⟩
    have hlater : ∀ w ∈ later, w ∈ all := fun w hw => hmem w (List.mem_cons_of_mem v hw)
    obtain ⟨state', hstate', hnext⟩ := hwaiting.step henabled hlater
    exact ⟨state', hstate', hnext, hlater⟩
  obtain ⟨patched, hpatched, -⟩ :=
    Patcher.applyAll_of_step hstep (show P all state from ⟨h, fun w hw => hw⟩)
  exact ⟨patched, hpatched⟩

end Run

end LintRepair
