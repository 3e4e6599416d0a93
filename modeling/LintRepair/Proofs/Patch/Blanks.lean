import LintRepair.Proofs.Patch.Edits
import LintRepair.Proofs.Patch.Run

/-!
Fixes of blanks.

Nine of the rules are about spaces, tabs and blank lines. Whatever they are reported for, and
whatever earlier fixes have made of the reported position, they write and take away nothing but
blanks: the visible characters of the buffer stay, in their order.

* `Rule.changesBlanks`, `Rule.blankKeys`: the rules about blanks, and their keys.
* `Edits.visible_eq`, `visible_fix`: the visible characters of an edited line and of a fixed buffer.
* `patchLines_visible`: the visible characters of a patched buffer.
-/

namespace LintRepair

/-! ### Lines -/

lemma visible_expandTabsFrom (add : Nat → Nat → Nat) (start : Nat) {width : Nat}
    (hwidth : 0 < width) (index display : Nat) (l : Line) :
    visible (expandTabsFrom add start width index display l) = visible l := by
  induction l generalizing index display with
  | nil => rfl
  | cons c l ih =>
      obtain ⟨e, display', heq, he⟩ :=
        exists_expandTabsFrom_cons add start hwidth index display c l
      have hfirst : visible e = visible [c] := by
        rcases he with rfl | ⟨rfl, n, rfl⟩
        · rfl
        · rw [visible_of_allBlank (x := ['\t']) (by decide)]
          refine visible_of_allBlank (List.all_eq_true.mpr fun d hd => ?_)
          rw [List.eq_of_mem_replicate hd]
          decide
      calc visible (expandTabsFrom add start width index display (c :: l))
          = visible e ++ visible (expandTabsFrom add start width (index + 1) display' l) := by
            rw [heq, visible_append]
        _ = visible [c] ++ visible l := by rw [hfirst, ih]
        _ = visible (c :: l) := (visible_append [c] l).symm

lemma visible_expandTabs (l : Line) (start width : Nat) :
    visible (l.expandTabs start width) = visible l :=
  visible_expandTabsFrom wordAdd start (by omega) 0 0 l

namespace Rule

/-- Whether the rule changes nothing but blanks. -/
def changesBlanks : Rule → Bool
  | whitespace _ => true
  | importGroups => true
  | importSeparation => true
  | trailingSpaces => true
  | tabs _ => true
  | _ => false

/-- The keys of the rules that change nothing but blanks. -/
def blankKeys : List String :=
  ["ws.notPreceded", "ws.notFollowed", "ws.preceded", "ws.followed",
   "import.groups.separated.internally", "import.separation", "Line has trailing spaces.",
   "containsTab", "file.containsTab"]

lemma changesBlanks_of_mem_blankKeys {key : String} (h : key ∈ blankKeys) {rule : Rule}
    (hrule : ofKey? key = some rule) : rule.changesBlanks = true := by
  have hall : ∀ key ∈ blankKeys, (ofKey? key).all changesBlanks = true := by decide
  have hkey := hall key h
  rwa [hrule] at hkey

variable {tabWidth : Nat} {rule : Rule} {v : Violation} {buffer buffer' : Buffer} {l l' : Line}

/-- An edit of a rule about blanks keeps the visible characters. -/
lemma Edits.visible_eq (hrule : rule.changesBlanks = true) (h : rule.Edits tabWidth l l') :
    visible l' = visible l := by
  have hspace : visible [' '] = [] := by decide
  have hinsertion : rule.insertion = [' '] := by
    cases rule <;> simp [changesBlanks] at hrule <;> rfl
  have hne : rule ≠ indentation := by
    rintro rfl
    simp [changesBlanks] at hrule
  cases h with
  | keep => rfl
  | insert x y => rw [hinsertion, visible_append, visible_append, hspace, List.append_nil,
      visible_append]
  | remove x y hc =>
      rw [hc hne, visible_append, ← List.singleton_append, visible_append, visible_append, hspace,
        List.nil_append]
  | trim => exact visible_trimEnd l
  | expand _ start => exact visible_expandTabs l start tabWidth

end Rule

/-! ### Buffers -/

namespace Buffer

variable {buffer : Buffer} {index : Nat} {l l' : Line}

lemma visible_set (hl : buffer[index]? = some l) (h : visible l' = visible l) :
    visible (buffer.set index l').flatten = visible buffer.flatten := by
  obtain ⟨hlt, rfl⟩ := List.getElem?_eq_some_iff.mp hl
  rw [List.set_eq_take_append_cons_drop, if_pos hlt]
  conv_rhs => rw [← List.take_append_drop index buffer, List.drop_eq_getElem_cons hlt]
  simp only [List.flatten_append, List.flatten_cons, visible_append, h]

lemma visible_map {f : Line → Line} (hf : ∀ l, visible (f l) = visible l) (buffer : Buffer) :
    visible (buffer.map f).flatten = visible buffer.flatten := by
  induction buffer with
  | nil => rfl
  | cons l rest ih =>
      rw [List.map_cons, List.flatten_cons, visible_append, hf, ih, List.flatten_cons,
        visible_append]

lemma visible_eraseIdx (hl : buffer[index]? = some l) (hblank : allBlank l = true) :
    visible (buffer.eraseIdx index).flatten = visible buffer.flatten := by
  obtain ⟨hlt, rfl⟩ := List.getElem?_eq_some_iff.mp hl
  rw [List.eraseIdx_eq_take_drop_succ]
  conv_rhs => rw [← List.take_append_drop index buffer, List.drop_eq_getElem_cons hlt]
  simp only [List.flatten_append, List.flatten_cons, visible_append, visible_of_allBlank hblank,
    List.nil_append]

end Buffer

namespace Rule

variable {tabWidth : Nat} {rule : Rule} {v : Violation} {buffer buffer' : Buffer}

lemma visible_spread (tabWidth : Nat) (rule : Rule) (v : Violation) (buffer : Buffer) :
    visible (rule.spread tabWidth v buffer).flatten = visible buffer.flatten := by
  rw [spread.eq_def]
  split
  · rw [List.flatten_append, visible_append, Buffer.visible_map fun l => visible_expandTabs l 0 _,
      ← visible_append, ← List.flatten_append, List.take_append_drop]
  · rfl

/-- A fix of a rule about blanks keeps the visible characters. -/
lemma visible_fix (hrule : rule.changesBlanks = true)
    (h : rule.fix tabWidth v buffer = .ok buffer') :
    visible buffer'.flatten = visible buffer.flatten := by
  have hedits : rule.editsLine = true → visible buffer'.flatten = visible buffer.flatten := by
    intro hedit
    obtain ⟨-, l, l', hl, hl', rfl⟩ := (fix_eq_ok_iff_editLine hedit).mp h
    rw [visible_spread, Buffer.visible_set hl ((edits_of_editLine hl').visible_eq hrule)]
  cases rule with
  | whitespace | trailingSpaces | tabs => exact hedits rfl
  | importGroups =>
      rcases joinGroup_cases h with rfl | ⟨-, rfl, l, hl, hblank⟩
      · rfl
      · exact Buffer.visible_eraseIdx hl hblank
  | importSeparation =>
      rcases separateGroup_cases h with rfl | ⟨-, hlt, rfl⟩
      · rfl
      · rw [Buffer.flatten_insertIdx hlt.le]
  | requireThis | finalParameter | indentation | importOrder | removeImport =>
      simp [changesBlanks] at hrule

end Rule

/-! ### Runs -/

/-- A run over violations of the rules about blanks, and of keys that have no rule or whose rule is
switched off, keeps the visible characters of the buffer in their order. The violations may be
reported anywhere. -/
theorem patchLines_visible (patcher : Patcher) {violations : List Violation} {buffer : Buffer}
    {patched : Patched}
    (hkeys : ∀ v ∈ violations, v.key ∈ Rule.blankKeys ∨ patcher.ruleFor v.key = none)
    (h : patcher.patchLines violations buffer = .ok patched) :
    visible patched.lines.flatten = visible buffer.flatten := by
  refine Patcher.patchLines_keeps (P := fun lines => visible lines.flatten = visible buffer.flatten)
    (fun v hv rule lines lines' hrule hfix hlines => ?_) h rfl
  rcases hkeys v hv with hkey | hnone
  · have hblanks := Rule.changesBlanks_of_mem_blankKeys hkey (Patcher.ofKey?_of_ruleFor hrule)
    rw [Rule.visible_fix hblanks hfix, hlines]
  · rw [hnone] at hrule
    simp at hrule

/-- Spaces reported twice and at columns that have moved, a blank line that goes, tabs, a rule that
is switched off and a key without a rule. -/
theorem patchLines_visible_moved_columns :
    ({ Patcher.complete 4 with enabled := (· ≠ "indentation.error") } : Patcher).patchLines
        [⟨3, 7, "Line has trailing spaces.", ""⟩, ⟨3, 3, "ws.preceded", ""⟩,
          ⟨3, 3, "ws.preceded", ""⟩, ⟨3, 2, "indentation.error", "1, not 0"⟩,
          ⟨3, 1, "ws.notFollowed", ""⟩, ⟨3, 1, "import.groups.separated.internally", ""⟩,
          ⟨1, 9, "made.up", ""⟩, ⟨1, 1, "file.containsTab", ""⟩]
        ["a\tb".toList, " ".toList, "  c=d ".toList] =
        .ok ⟨["a   b".toList, " c =d".toList], 6, 0, ["indentation.error", "made.up"]⟩ ∧
      visible ["a   b".toList, " c =d".toList].flatten =
        visible ["a\tb".toList, " ".toList, "  c=d ".toList].flatten := by
  refine (fun hrun => ⟨hrun, patchLines_visible _ (by decide) hrun⟩) ?_
  rw [Patcher.patchLines_eq, Violation.inPatchOrder_eq_self (by decide)]
  decide

end LintRepair
