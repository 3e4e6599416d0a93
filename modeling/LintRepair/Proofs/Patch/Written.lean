import LintRepair.Proofs.Patch.Edits
import LintRepair.Proofs.Patch.Run

/-!
Contents that are read, patched and written.

A content is split into lines at its terminators, whichever they are, and written with one
terminator behind every line. No fix brings a terminator into a line, so what is written is split
into the same lines again. If nothing is fixed, writing a content exchanges its terminators and
terminates its last line.

* `parts`: a content, taken apart into its terminators and the characters between them.
* `replaceTerminators`, `unterminated`: the content with other terminators, and whether its last
  line has none.
* `ofContent_serialize`, `parts_serialize`: what is written is read again.
* `serialize_ofContent`: what is read is written with other terminators.
* `patchLines_written`: a patched content is read again; one that nothing was fixed in is the
  content but for its terminators.
-/

namespace LintRepair

/-! ### Contents and their terminators -/

/-- Whether a text is a line terminator. -/
def isTerminator (x : List Char) : Bool := decide (x ∈ [['\r', '\n'], ['\n'], ['\r']])

/-- A content, taken apart into its terminators and the characters between them. A line feed behind
a carriage return belongs to it. -/
def parts : List Char → List (List Char)
  | [] => []
  | '\r' :: '\n' :: rest => ['\r', '\n'] :: parts rest
  | c :: rest => [c] :: parts rest

/-- The content with another terminator in the place of every terminator. -/
def replaceTerminators (terminator : Terminator) (content : List Char) : List Char :=
  (parts content).flatMap fun x => if isTerminator x then terminator.chars else x

/-- Whether the content has a last line without a terminator. -/
def unterminated (content : List Char) : Bool := content.getLast?.any (!endsLine ·)

/-- No line of the buffer has a part of a terminator in it. -/
def Buffer.TerminatorFree (buffer : Buffer) : Prop := ∀ l ∈ buffer, ∀ c ∈ l, endsLine c = false

/-- A fix keeps terminators out of the lines. -/
lemma Buffer.TerminatorFree.of_fix {buffer buffer' : Buffer} (h : buffer.TerminatorFree)
    {tabWidth : Nat} {rule : Rule} {v : Violation}
    (hfix : rule.fix tabWidth v buffer = .ok buffer') : buffer'.TerminatorFree := by
  intro l hl c hc
  by_contra hends
  rw [Bool.not_eq_false] at hends
  have hmem := Rule.mem_fix_of_endsLine hfix hends (List.mem_flatten.mpr ⟨l, hl, hc⟩)
  obtain ⟨k, hk, hck⟩ := List.mem_flatten.mp hmem
  rw [h k hk c hck] at hends
  simp at hends

lemma flatten_parts (content : List Char) : (parts content).flatten = content := by
  fun_induction parts content with
  | case1 => rfl
  | case2 rest ih => rw [List.flatten_cons, ih]; rfl
  | case3 c rest hno ih => rw [List.flatten_cons, ih]; rfl

lemma isTerminator_singleton (c : Char) : isTerminator [c] = endsLine c := by
  simp [isTerminator, endsLine]

/-- Whether a terminator is not longer than it seems if this text comes behind it. -/
def Terminator.EndsAt (terminator : Terminator) (rest : List Char) : Prop :=
  terminator = .cr → rest.head? ≠ some '\n'

section Reading

variable {terminator : Terminator} {c : Char} {l : Line} {rest : List Char}

lemma ne_carriageReturn (h : endsLine c = false) : c ≠ '\r' := by
  rintro rfl
  simp [endsLine] at h

lemma parts_char (hc : endsLine c = false) : parts (c :: rest) = [c] :: parts rest := by
  rw [parts]
  exact fun _ hcr _ => ne_carriageReturn hc hcr

lemma ofContent_char (hc : endsLine c = false) :
    Buffer.ofContent (c :: rest) = Buffer.consChar c (Buffer.ofContent rest) := by
  have hno : ¬ (c = '\n' ∨ c = '\r') := by simpa [endsLine] using hc
  rw [Buffer.ofContent, if_neg hno]
  exact fun _ hcr _ => ne_carriageReturn hc hcr

/-- A terminator is taken off as a whole. -/
lemma parts_terminator (h : terminator.EndsAt rest) :
    parts (terminator.chars ++ rest) = terminator.chars :: parts rest := by
  cases terminator with
  | crlf => rfl
  | system | lf =>
      show parts ('\n' :: rest) = _
      rw [parts]
      · rfl
      · simp
  | cr =>
      show parts ('\r' :: rest) = _
      rw [parts]
      · rfl
      · rintro rest' - rfl
        exact h rfl rfl

/-- A terminator ends a line. -/
lemma ofContent_terminator (h : terminator.EndsAt rest) :
    Buffer.ofContent (terminator.chars ++ rest) = [] :: Buffer.ofContent rest := by
  cases terminator with
  | crlf => rfl
  | system | lf =>
      show Buffer.ofContent ('\n' :: rest) = _
      rw [Buffer.ofContent]
      · rfl
      · simp
  | cr =>
      show Buffer.ofContent ('\r' :: rest) = _
      rw [Buffer.ofContent]
      · rfl
      · rintro rest' - rfl
        exact h rfl rfl

lemma parts_line (hl : ∀ c ∈ l, endsLine c = false) (h : terminator.EndsAt rest) :
    parts (l ++ (terminator.chars ++ rest)) = l.map ([·]) ++ terminator.chars :: parts rest := by
  induction l with
  | nil => exact parts_terminator h
  | cons c l ih =>
      rw [List.cons_append, parts_char (hl c List.mem_cons_self),
        ih fun d hd => hl d (List.mem_cons_of_mem c hd)]
      rfl

lemma ofContent_line (hl : ∀ c ∈ l, endsLine c = false) (h : terminator.EndsAt rest) :
    Buffer.ofContent (l ++ (terminator.chars ++ rest)) = l :: Buffer.ofContent rest := by
  induction l with
  | nil => exact ofContent_terminator h
  | cons c l ih =>
      rw [List.cons_append, ofContent_char (hl c List.mem_cons_self),
        ih fun d hd => hl d (List.mem_cons_of_mem c hd)]
      rfl

end Reading

/-! ### What is written is read again -/

section Writing

variable {buffer : Buffer} (terminator : Terminator)

lemma serialize_cons (l : Line) (buffer : Buffer) :
    Buffer.serialize terminator (l :: buffer) =
      l ++ (terminator.chars ++ Buffer.serialize terminator buffer) := by
  rw [Buffer.serialize, List.flatMap_cons, List.append_assoc]
  rfl

/-- Lines without terminators do not make the terminator before them longer. -/
lemma endsAt_serialize (h : buffer.TerminatorFree) :
    terminator.EndsAt (buffer.serialize terminator) := by
  rintro rfl
  cases buffer with
  | nil => simp [Buffer.serialize]
  | cons l buffer =>
      rw [serialize_cons]
      cases l with
      | nil => simp [Terminator.chars]
      | cons c l =>
          have hc := h _ List.mem_cons_self c List.mem_cons_self
          rw [List.cons_append, List.head?_cons, Ne, Option.some.injEq]
          rintro rfl
          simp [endsLine] at hc

lemma Buffer.TerminatorFree.of_cons {l : Line} (h : Buffer.TerminatorFree (l :: buffer)) :
    (∀ c ∈ l, endsLine c = false) ∧ buffer.TerminatorFree :=
  ⟨h l List.mem_cons_self, fun k hk => h k (List.mem_cons_of_mem l hk)⟩

/-- What is written is split into the same lines again. -/
lemma ofContent_serialize (h : buffer.TerminatorFree) :
    Buffer.ofContent (buffer.serialize terminator) = buffer := by
  induction buffer with
  | nil => rfl
  | cons l buffer ih =>
      obtain ⟨hl, hbuffer⟩ := h.of_cons
      rw [serialize_cons, ofContent_line hl (endsAt_serialize terminator hbuffer), ih hbuffer]

/-- The terminators of what is written are those that were written. -/
lemma parts_serialize (h : buffer.TerminatorFree) :
    parts (buffer.serialize terminator) =
      buffer.flatMap fun l => l.map ([·]) ++ [terminator.chars] := by
  induction buffer with
  | nil => rfl
  | cons l buffer ih =>
      obtain ⟨hl, hbuffer⟩ := h.of_cons
      rw [serialize_cons, parts_line hl (endsAt_serialize terminator hbuffer), ih hbuffer,
        List.flatMap_cons, List.append_assoc]
      rfl

/-- What is written has no unterminated line. -/
lemma unterminated_serialize (buffer : Buffer) :
    unterminated (buffer.serialize terminator) = false := by
  cases buffer using List.reverseRecOn with
  | nil => rfl
  | append_singleton upper l =>
      have hlast : ∀ x : List Char,
          (x ++ terminator.chars).getLast?.any (!endsLine ·) = false := by
        intro x
        cases terminator <;> simp [Terminator.chars, endsLine]
      rw [unterminated, Buffer.serialize, List.flatMap_append, List.flatMap_singleton,
        ← List.append_assoc, hlast]

end Writing

/-! ### What is read is written again -/

section Rewriting

variable {content : List Char}

lemma terminatorFree_consChar {c : Char} (hc : endsLine c = false) {buffer : Buffer}
    (h : buffer.TerminatorFree) : (Buffer.consChar c buffer).TerminatorFree := by
  cases buffer with
  | nil => simpa [Buffer.consChar, Buffer.TerminatorFree] using hc
  | cons l buffer =>
      obtain ⟨hl, hbuffer⟩ := h.of_cons
      intro k hk
      rcases List.mem_cons.mp hk with rfl | hk
      · exact List.forall_mem_cons.mpr ⟨hc, hl⟩
      · exact hbuffer k hk

/-- A content is split at all of its terminators. -/
lemma terminatorFree_ofContent (content : List Char) :
    (Buffer.ofContent content).TerminatorFree := by
  have hcons : ∀ {buffer : Buffer}, buffer.TerminatorFree →
      Buffer.TerminatorFree ([] :: buffer) := fun h =>
    List.forall_mem_cons.mpr ⟨fun c hc => by simp at hc, h⟩
  fun_induction Buffer.ofContent content with
  | case1 => simp [Buffer.TerminatorFree]
  | case2 rest ih => exact hcons ih
  | case3 c rest hno hends ih => exact hcons ih
  | case4 c rest hno hends ih => exact terminatorFree_consChar (by simpa [endsLine] using hends) ih

lemma unterminated_append {x : List Char} (hx : unterminated x = false) (rest : List Char) :
    unterminated (x ++ rest) = unterminated rest := by
  rw [unterminated] at hx ⊢
  rw [unterminated, List.getLast?_append]
  cases rest.getLast? with
  | none => exact hx
  | some c => rfl

/-- A terminator at the front of a content is exchanged, and does not matter for its last line. -/
lemma rewritten_terminator (terminator : Terminator) {x rest : List Char}
    (hx : isTerminator x = true) (hparts : parts (x ++ rest) = x :: parts rest) :
    replaceTerminators terminator (x ++ rest) =
        terminator.chars ++ replaceTerminators terminator rest ∧
      unterminated (x ++ rest) = unterminated rest := by
  constructor
  · rw [replaceTerminators, hparts, List.flatMap_cons, if_pos hx]
    rfl
  · have hends : ∀ y ∈ [['\r', '\n'], ['\n'], ['\r']], unterminated y = false := by decide
    rw [isTerminator, decide_eq_true_eq] at hx
    exact unterminated_append (hends x hx) rest

lemma replaceTerminators_char (terminator : Terminator) {c : Char} (hc : endsLine c = false)
    (rest : List Char) :
    replaceTerminators terminator (c :: rest) = c :: replaceTerminators terminator rest := by
  rw [replaceTerminators, parts_char hc, List.flatMap_cons, isTerminator_singleton, hc]
  rfl

/-- A content that is not empty has a line. -/
lemma exists_ofContent_cons (c : Char) (rest : List Char) :
    ∃ l lines, Buffer.ofContent (c :: rest) = l :: lines := by
  rw [Buffer.ofContent.eq_def]
  split
  · simp_all
  · exact ⟨_, _, rfl⟩
  · next d tail _ heq =>
      split_ifs
      · exact ⟨_, _, rfl⟩
      · cases Buffer.ofContent tail with
        | nil => exact ⟨_, _, rfl⟩
        | cons l lines => exact ⟨_, _, rfl⟩

/-- What is read is written with other terminators, and with one behind the last line. -/
lemma serialize_ofContent (terminator : Terminator) (content : List Char) :
    (Buffer.ofContent content).serialize terminator =
      replaceTerminators terminator content ++
        if unterminated content then terminator.chars else [] := by
  fun_induction Buffer.ofContent content with
  | case1 => rfl
  | case2 rest ih =>
      have hparts : parts (['\r', '\n'] ++ rest) = ['\r', '\n'] :: parts rest := rfl
      obtain ⟨hreplace, hlast⟩ := rewritten_terminator terminator (by decide) hparts
      rw [List.cons_append, List.singleton_append] at hreplace hlast
      rw [serialize_cons, ih, hreplace, hlast, List.nil_append, List.append_assoc]
  | case3 c rest hno hends ih =>
      have hparts : parts ([c] ++ rest) = [c] :: parts rest := by
        rw [List.singleton_append, parts]
        exact hno
      obtain ⟨hreplace, hlast⟩ := rewritten_terminator terminator
        (by simpa [isTerminator_singleton, endsLine] using hends) hparts
      rw [List.singleton_append] at hreplace hlast
      rw [serialize_cons, ih, hreplace, hlast, List.nil_append, List.append_assoc]
  | case4 c rest hno hends ih =>
      have hc : endsLine c = false := by simpa [endsLine] using hends
      cases rest with
      | nil =>
          -- the last line of the content, which has no terminator
          have hlast : unterminated [c] = true := by simp [unterminated, hc]
          rw [replaceTerminators_char terminator hc, hlast, if_pos rfl]
          simp [Buffer.ofContent, Buffer.consChar, Buffer.serialize, replaceTerminators, parts]
      | cons d rest =>
          obtain ⟨l, lines, hlines⟩ := exists_ofContent_cons d rest
          have hlast : unterminated (c :: d :: rest) = unterminated (d :: rest) := by
            rw [unterminated, unterminated, List.getLast?_cons_cons]
          rw [hlines, serialize_cons] at ih
          rw [hlines, replaceTerminators_char terminator hc, hlast, List.cons_append, ← ih,
            Buffer.consChar, serialize_cons, List.cons_append]

/-- A content is written as it was read if all of its terminators are the one that is written and
its last line has one. -/
lemma serialize_ofContent_eq_iff (terminator : Terminator) :
    (Buffer.ofContent content).serialize terminator = content ↔
      (∀ x ∈ parts content, isTerminator x = true → x = terminator.chars) ∧
        unterminated content = false := by
  constructor
  · intro h
    have hfree := terminatorFree_ofContent content
    have hparts := parts_serialize terminator hfree
    have hlast := unterminated_serialize terminator (Buffer.ofContent content)
    rw [h] at hparts hlast
    refine ⟨fun x hx hterminator => ?_, hlast⟩
    rw [hparts, List.mem_flatMap] at hx
    obtain ⟨l, hl, hx⟩ := hx
    rcases List.mem_append.mp hx with hx | hx
    · -- a character of a line is no terminator
      obtain ⟨c, hc, rfl⟩ := List.mem_map.mp hx
      rw [isTerminator_singleton, hfree l hl c hc] at hterminator
      simp at hterminator
    · exact List.mem_singleton.mp hx
  · rintro ⟨hall, hlast⟩
    have hsame : replaceTerminators terminator content = content := by
      calc replaceTerminators terminator content
          = (parts content).flatMap id := by
            refine List.flatMap_congr fun x hx => ?_
            split_ifs with hterminator
            · exact (hall x hx hterminator).symm
            · rfl
        _ = content := by rw [List.flatMap_id, flatten_parts]
    rw [serialize_ofContent, hsame, hlast]
    simp

end Rewriting

/-! ### Runs -/

/-- The lines of a patched content have no part of a terminator in them, and what is written is
split into these lines again. A content for whose violations no rule is switched on is written with
the configured terminator in the place of each of its own, and with one behind its last line; it
stays the same just if it has this form already. -/
theorem patchLines_written (patcher : Patcher) (content : List Char) (violations : List Violation) :
    (∀ patched, patcher.patchLines violations (Buffer.ofContent content) = .ok patched →
      (∀ l ∈ patched.lines, '\r' ∉ l ∧ '\n' ∉ l) ∧
        Buffer.ofContent (patcher.serialize patched.lines) = patched.lines) ∧
    ((∀ v ∈ violations, patcher.ruleFor v.key = none) →
      ∃ patched, patcher.patchLines violations (Buffer.ofContent content) = .ok patched ∧
        patcher.serialize patched.lines =
          replaceTerminators patcher.terminator content ++
            (if unterminated content then patcher.terminator.chars else []) ∧
        (patcher.serialize patched.lines = content ↔
          (∀ x ∈ parts content, isTerminator x = true → x = patcher.terminator.chars) ∧
            unterminated content = false)) := by
  constructor
  · intro patched hrun
    have hfree : patched.lines.TerminatorFree := by
      refine Patcher.patchLines_keeps (P := Buffer.TerminatorFree)
        (fun v _ rule lines lines' _ hfix hlines => ?_) hrun (terminatorFree_ofContent content)
      exact hlines.of_fix hfix
    refine ⟨fun l hl => ⟨fun hm => ?_, fun hm => ?_⟩, ofContent_serialize patcher.terminator hfree⟩
    · simpa [endsLine] using hfree l hl _ hm
    · simpa [endsLine] using hfree l hl _ hm
  · intro hnone
    obtain ⟨patched, hrun, hlines⟩ := Patcher.exists_patchLines_of_no_rule hnone
      (Buffer.ofContent content)
    refine ⟨patched, hrun, ?_, ?_⟩
    · rw [Patcher.serialize, hlines]
      exact serialize_ofContent _ _
    · rw [Patcher.serialize, hlines]
      exact serialize_ofContent_eq_iff _

/-- Lines that end in all three ways or not at all, written with carriage returns: trimmed where the
first line has a trailing space, and as they are where the only key has no rule. -/
theorem patchLines_written_mixed_terminators :
    (∃ patched, ({ Patcher.complete 4 with terminator := .cr } : Patcher).patchLines
          [⟨1, 4, "Line has trailing spaces.", ""⟩]
          (Buffer.ofContent "a= \r\nb\n\r\rc".toList) = .ok patched ∧
        patched.lines = ["a=".toList, "b".toList, [], [], "c".toList] ∧
        Buffer.ofContent "a=\rb\r\r\rc\r".toList = patched.lines) ∧
      ∃ patched, ({ Patcher.complete 4 with terminator := .cr } : Patcher).patchLines
          [⟨5, 1, "made.up", ""⟩] (Buffer.ofContent "a= \r\nb\n\r\rc".toList) = .ok patched ∧
        patched.lines.serialize .cr = "a= \rb\r\r\rc\r".toList ∧
        patched.lines.serialize .cr ≠ "a= \r\nb\n\r\rc".toList := by
  constructor
  · have hrun : ({ Patcher.complete 4 with terminator := .cr } : Patcher).patchLines
        [⟨1, 4, "Line has trailing spaces.", ""⟩]
        (Buffer.ofContent "a= \r\nb\n\r\rc".toList) =
          .ok ⟨["a=".toList, "b".toList, [], [], "c".toList], 1, 0, []⟩ := by
      rw [Patcher.patchLines_eq, Violation.inPatchOrder_eq_self (by decide)]
      decide
    exact ⟨_, hrun, rfl, ((patchLines_written _ _ _).1 _ hrun).2⟩
  · obtain ⟨patched, hrun, hwritten, hiff⟩ :=
      (patchLines_written { Patcher.complete 4 with terminator := .cr }
        "a= \r\nb\n\r\rc".toList [⟨5, 1, "made.up", ""⟩]).2 (by decide)
    exact ⟨patched, hrun, hwritten.trans (by decide), fun h => absurd (hiff.mp h) (by decide)⟩

end LintRepair
