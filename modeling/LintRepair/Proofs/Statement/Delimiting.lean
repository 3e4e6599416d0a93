import LintRepair.Proofs.Statement.Regions
import LintRepair.Statement.Scan

/-!
Statements end at semicolons that are code.

The search for a delimiter goes through a buffer line by line and carries nothing on to the next
line but its mode. It finds the first semicolon in a code region of the buffer; without one it
fails, and its error names the line on which a block comment was opened if the buffer ends inside
of it.

* `Seeks`: what the search comes to, given the places that it has not yet seen. One lemma for each
  step says which places and which mode are left.
* `codeSemicolon`, `endError`: the first semicolon among segments that is code, and what is wrong if
  there is none.
* `Seeks.eq_outcome`: the search comes to what the segments say.
* `delimiter_code_semicolon`: the delimiter of a statement, and the lines that errors name.
-/

namespace LintRepair

open Buffer (placesBelow)

/-! ### The search, place by place -/

/-- The search through the rest of a line and the lines below it. -/
def searchRest (start : Nat) (mode : Mode) (p : Position) (l : Line) (lower : Buffer) :
    Except ScanError Position :=
  match sweepLine p.line mode p.column l with
  | .found column => .ok ⟨p.line, column⟩
  | .ended mode' => searchLines start mode' (p.line + 1) lower

/-- What the search comes to from some mode on, given the places that it has not yet seen. -/
inductive Seeks (start : Nat) (mode : Mode) : List Place → Except ScanError Position → Prop
  | finished (index : Nat) : Seeks start mode [] (searchLines start mode index [])
  | onLine (p : Position) (l : Line) (lower : Buffer) :
      Seeks start mode (Line.places p l ++ placesBelow (p.line + 1) lower)
        (searchRest start mode p l lower)

variable {start : Nat} {mode mode' : Mode} {a b : Place} {x body closer rest : List Place}
  {r : Except ScanError Position}

lemma seeks_placesBelow (start : Nat) (mode : Mode) (index : Nat) (lower : Buffer) :
    Seeks start mode (placesBelow index lower) (searchLines start mode index lower) := by
  cases lower with
  | nil => exact .finished index
  | cons l rest =>
      have hsearch : searchLines start mode index (l :: rest) =
          searchRest start mode ⟨index, 0⟩ l rest := by
        rw [searchLines]
        rfl
      rw [hsearch]
      exact .onLine ⟨index, 0⟩ l rest

lemma places_ne_nil (p : Position) (l : Line) : Line.places p l ≠ [] := by
  cases l <;> simp [Line.places]

/-- The first character of the rest of a line stands at its first place. -/
lemma head?_places (p : Position) (l : Line) (x : List Place) :
    (Line.places p l ++ x).head?.bind Place.symbol = l.head? := by
  cases l <;> rfl

/-- The search stands at the end of the buffer. -/
lemma Seeks.exists_of_nil (h : Seeks start mode [] r) :
    ∃ index, r = searchLines start mode index [] := by
  generalize hy : [] = y at h
  cases h with
  | finished index => exact ⟨index, rfl⟩
  | onLine p l lower => simp [places_ne_nil] at hy

/-- The search stands in front of a character. -/
lemma Seeks.exists_of_char (h : Seeks start mode (a :: x) r) {c : Char}
    (ha : a.symbol = some c) :
    ∃ l lower, x = Line.places a.position.next l ++ placesBelow (a.position.line + 1) lower ∧
      r = searchRest start mode a.position (c :: l) lower := by
  generalize hy : a :: x = y at h
  cases h with
  | finished => simp at hy
  | onLine p l lower =>
      cases l with
      | nil =>
          rw [Line.places, List.singleton_append, List.cons.injEq] at hy
          simp [hy.1] at ha
      | cons d l =>
          rw [Line.places, List.cons_append, List.cons.injEq] at hy
          obtain ⟨rfl, rfl⟩ := hy
          obtain rfl : d = c := Option.some.inj ha
          exact ⟨l, lower, rfl, rfl⟩

/-- The search stands in front of the end of a line. -/
lemma Seeks.exists_of_lineEnd (h : Seeks start mode (a :: x) r) (ha : a.symbol = none) :
    ∃ lower, x = placesBelow (a.position.line + 1) lower ∧
      r = searchRest start mode a.position [] lower := by
  generalize hy : a :: x = y at h
  cases h with
  | finished => simp at hy
  | onLine p l lower =>
      cases l with
      | nil =>
          rw [Line.places, List.singleton_append, List.cons.injEq] at hy
          obtain ⟨rfl, rfl⟩ := hy
          exact ⟨lower, rfl, rfl⟩
      | cons d l =>
          rw [Line.places, List.cons_append, List.cons.injEq] at hy
          simp [hy.1] at ha

/-- One character is passed over. -/
lemma Seeks.step (h : Seeks start mode (a :: x) r) {c : Char} (ha : a.symbol = some c)
    (hsweep : ∀ l : Line, x.head?.bind Place.symbol = l.head? →
      sweepLine a.position.line mode a.position.column (c :: l) =
        sweepLine a.position.line mode' (a.position.column + 1) l) :
    Seeks start mode' x r := by
  obtain ⟨l, lower, rfl, rfl⟩ := h.exists_of_char ha
  rw [searchRest, hsweep l (head?_places _ _ _)]
  exact .onLine a.position.next l lower

/-- Two characters are passed over, and the line goes on. -/
lemma Seeks.step_two (h : Seeks start mode (a :: b :: x) r) {c d : Char} (ha : a.symbol = some c)
    (hb : b.symbol = some d)
    (hsweep : ∀ l : Line, sweepLine a.position.line mode a.position.column (c :: d :: l) =
      sweepLine a.position.line mode' (a.position.column + 2) l) :
    x ≠ [] ∧ Seeks start mode' x r := by
  obtain ⟨l, lower, hx, rfl⟩ := h.exists_of_char ha
  cases l with
  | nil =>
      rw [Line.places, List.singleton_append, List.cons.injEq] at hx
      simp [hx.1] at hb
  | cons e l =>
      rw [Line.places, List.cons_append, List.cons.injEq] at hx
      obtain ⟨rfl, rfl⟩ := hx
      obtain rfl : e = d := Option.some.inj hb
      refine ⟨by simp [places_ne_nil], ?_⟩
      rw [searchRest, hsweep]
      exact .onLine a.position.next.next l lower

/-- The end of a line is passed over. -/
lemma Seeks.newline (h : Seeks start mode (a :: x) r) (ha : a.symbol = none)
    (hsweep : sweepLine a.position.line mode a.position.column [] = .ended mode') :
    Seeks start mode' x r := by
  obtain ⟨lower, rfl, rfl⟩ := h.exists_of_lineEnd ha
  rw [searchRest, hsweep]
  exact seeks_placesBelow start mode' _ lower

/-! ### The search, segment by segment -/

/-- A semicolon in code is found. -/
lemma Seeks.semicolon (h : Seeks start .code (a :: x) r) (ha : a.symbol = some ';') :
    r = .ok a.position := by
  obtain ⟨l, lower, -, rfl⟩ := h.exists_of_char ha
  rw [searchRest, sweepLine]

/-- Other code is passed over. -/
lemma Seeks.code (h : Seeks start .code (a :: x) r) (hcode : ¬ Opens (a :: x))
    (ha : a.symbol ≠ some ';') : Seeks start .code x r := by
  cases hsymbol : a.symbol with
  | none => exact h.newline hsymbol rfl
  | some c =>
      refine h.step hsymbol fun l hl => ?_
      -- what follows a slash does not make it an opener
      have hnext : ∀ d t, c = '/' → l = d :: t → ¬ (d = '/' ∨ d = '*') := by
        rintro d t rfl rfl hd
        obtain ⟨b, hb, hbd⟩ := Option.bind_eq_some_iff.mp hl
        obtain ⟨y, rfl⟩ : ∃ y, x = b :: y := List.head?_eq_some_iff.mp hb
        have hpair : Spells [a, b] ['/', d] := spells_pair.mpr ⟨a, b, rfl, hsymbol, hbd⟩
        rcases hd with rfl | rfl
        · exact hcode ⟨.lineComment, _, _, y, rfl, hpair, rfl⟩
        · exact hcode ⟨.blockComment, _, _, y, rfl, hpair, rfl⟩
      have hquote : ¬ (c = '\x22' ∨ c = '\x27') := by
        intro hc
        have hsingle : Spells [a] [c] := spells_singleton.mpr ⟨a, rfl, hsymbol⟩
        rcases hc with rfl | rfl
        · exact hcode ⟨.string, _, _, x, rfl, hsingle, rfl⟩
        · exact hcode ⟨.character, _, _, x, rfl, hsingle, rfl⟩
      rw [sweepLine, if_neg hquote]
      · rintro rfl
        exact ha hsymbol
      · exact fun t hc hl => hnext '/' t hc hl (Or.inl rfl)
      · exact fun t hc hl => hnext '*' t hc hl (Or.inr rfl)

/-- The places of a line in front of its end, and those from its end on. -/
lemma exists_lineEnd {p : Position} {l : Line} {y : List Place}
    (h : Line.places p l ++ y = body ++ rest) (hbody : ∀ a ∈ body, a.symbol ≠ none)
    (hend : LineEnds rest) : ∃ q : Position, q.line = p.line ∧ rest = ⟨q, none⟩ :: y := by
  induction l generalizing p body with
  | nil =>
      cases body with
      | nil => exact ⟨p, rfl, h.symm⟩
      | cons a body =>
          rw [Line.places, List.singleton_append, List.cons_append, List.cons.injEq] at h
          exact absurd (h.1 ▸ rfl) (hbody a List.mem_cons_self)
  | cons c l ih =>
      cases body with
      | nil =>
          rw [Line.places, List.nil_append] at h
          have hsymbol := hend ⟨p, some c⟩ (by rw [← h]; rfl)
          simp at hsymbol
      | cons a body =>
          rw [Line.places, List.cons_append, List.cons_append, List.cons.injEq] at h
          obtain ⟨q, hq, hrest⟩ := ih h.2 fun d hd => hbody d (List.mem_cons_of_mem a hd)
          exact ⟨q, hq, hrest⟩

/-- A line comment is passed over. -/
lemma Seeks.lineComment (h : Seeks start .code (a :: b :: (body ++ rest)) r)
    (ha : a.symbol = some '/') (hb : b.symbol = some '/') (hbody : ∀ a ∈ body, a.symbol ≠ none)
    (hend : LineEnds rest) : Seeks start .code rest r := by
  obtain ⟨l, lower, hx, rfl⟩ := h.exists_of_char ha
  cases l with
  | nil =>
      rw [Line.places, List.singleton_append, List.cons.injEq] at hx
      simp [hx.1] at hb
  | cons d l =>
      rw [Line.places, List.cons_append, List.cons.injEq] at hx
      obtain ⟨rfl, hx⟩ := hx
      obtain rfl : d = '/' := Option.some.inj hb
      obtain ⟨q, hq, rfl⟩ := exists_lineEnd hx.symm hbody hend
      have hsearch : searchRest start .code a.position ('/' :: '/' :: l) lower =
          searchRest start .code q [] lower := by
        rw [searchRest, searchRest, sweepLine, sweepLine, hq]
        rfl
      have hline : a.position.line + 1 = q.line + 1 := by rw [hq]; rfl
      rw [hsearch, hline]
      exact .onLine q [] lower

/-- A block comment is entered. -/
lemma Seeks.openComment (h : Seeks start .code (a :: b :: x) r) (ha : a.symbol = some '/')
    (hb : b.symbol = some '*') : Seeks start (.block a.position.line) x r :=
  (h.step_two ha hb fun l => by rw [sweepLine]).2

/-- A block comment is left, and its last line goes on. -/
lemma Seeks.closeComment {opened : Nat} (h : Seeks start (.block opened) (a :: b :: x) r)
    (ha : a.symbol = some '*') (hb : b.symbol = some '/') : x ≠ [] ∧ Seeks start .code x r :=
  h.step_two ha hb fun l => by rw [sweepLine]

/-- The inside of a block comment is passed over. -/
lemma Seeks.comment {opened : Nat} (h : Seeks start (.block opened) (body ++ (closer ++ rest)) r)
    (hbody : Unclosed body) (hend : CommentEnds closer rest) :
    Seeks start (.block opened) (closer ++ rest) r := by
  induction body with
  | nil => exact h
  | cons a body ih =>
      obtain ⟨hopen, hbody⟩ := unclosed_cons.mp hbody
      refine ih ?_ hbody
      cases hsymbol : a.symbol with
      | none => exact h.newline hsymbol rfl
      | some c =>
          refine h.step hsymbol fun l hl => ?_
          rw [sweepLine]
          rintro t rfl rfl
          refine hopen ⟨hsymbol, ?_⟩
          -- the slash stands in the comment, since a closer begins with a star
          cases body with
          | cons b body => exact ⟨b, rfl, hl⟩
          | nil =>
              rcases hend with hcloser | ⟨rfl, rfl⟩
              · obtain ⟨b, d, rfl, hb, -⟩ := spells_pair.mp hcloser
                have hslash : b.symbol = some '/' := hl
                simp [hb] at hslash
              · simp at hl

/-- A literal is entered. -/
lemma Seeks.openLiteral {quote : Char} (h : Seeks start .code (a :: x) r)
    (ha : a.symbol = some quote) (hquote : quote = '\x22' ∨ quote = '\x27') :
    Seeks start (.literal quote) x r := by
  refine h.step ha fun l _ => ?_
  rw [sweepLine, if_pos hquote]
  · rcases hquote with rfl | rfl <;> simp
  · rcases hquote with rfl | rfl <;> simp
  · rcases hquote with rfl | rfl <;> simp

/-- The inside of a literal is passed over. -/
lemma Seeks.quoted {quote : Char} (hbody : Quoted quote body)
    (h : Seeks start (.literal quote) (body ++ x) r) : Seeks start (.literal quote) x r := by
  induction hbody with
  | nil => exact h
  | @plain a c body ha hquote hbackslash _ ih =>
      refine ih (h.step ha fun l _ => ?_)
      rw [sweepLine, if_neg hquote]
      exact fun _ _ hc _ => hbackslash hc
  | hidden ha hb _ ih => exact ih (h.step_two ha hb fun l => by rw [sweepLine]).2

/-- A literal is left at its quote or at the end of its line. -/
lemma Seeks.literalEnds {quote : Char} (hquote : quote ≠ '\\')
    (h : Seeks start (.literal quote) (closer ++ rest) r) (hend : LiteralEnds quote closer rest) :
    Seeks start .code rest r := by
  rcases hend with hcloser | ⟨hcloser, hend⟩
  · obtain ⟨a, rfl, ha⟩ := spells_singleton.mp hcloser
    refine h.step ha fun l _ => ?_
    rw [sweepLine, if_pos rfl]
    exact fun _ _ hc _ => hquote hc
  · have hrest : Seeks start (.literal quote) rest r := by
      rcases hcloser with rfl | hcloser
      · exact h
      · obtain ⟨a, rfl, ha⟩ := spells_singleton.mp hcloser
        refine h.step ha fun l hl => ?_
        rw [sweepLine, if_neg (Ne.symm hquote)]
        rintro d t - rfl
        obtain ⟨b, hb, hbd⟩ := Option.bind_eq_some_iff.mp hl
        rw [hend b hb] at hbd
        simp at hbd
    cases rest with
    | nil =>
        obtain ⟨index, rfl⟩ := hrest.exists_of_nil
        exact .finished index
    | cons a rest =>
        have ha : a.symbol = none := hend a rfl
        obtain ⟨lower, rfl, rfl⟩ := hrest.exists_of_lineEnd ha
        obtain ⟨p, symbol⟩ := a
        obtain rfl : symbol = none := ha
        exact .onLine p [] lower

/-- A literal is passed over. -/
lemma Seeks.literal {quote : Char} (hquote : quote = '\x22' ∨ quote = '\x27')
    {opener tail : List Place} (h : Seeks start .code (opener ++ (tail ++ rest)) r)
    (hopener : Spells opener [quote]) (hspans : LiteralSpans quote tail rest) :
    Seeks start .code rest r := by
  obtain ⟨a, rfl, ha⟩ := spells_singleton.mp hopener
  obtain ⟨body, closer, rfl, hbody, hend⟩ := hspans
  have hbackslash : quote ≠ '\\' := by rcases hquote with rfl | rfl <;> decide
  have hinside : Seeks start (.literal quote) (body ++ (closer ++ rest)) r := by
    rw [← List.append_assoc]
    exact h.openLiteral ha hquote
  exact (hinside.quoted hbody).literalEnds hbackslash hend

/-- A block comment is passed over, or it is the last thing in the buffer. -/
lemma Seeks.blockComment {opened : Nat} {tail : List Place}
    (h : Seeks start (.block opened) (tail ++ rest) r)
    (hspans : Region.blockComment.Spans tail rest) :
    (rest ≠ [] ∧ Seeks start .code rest r) ∨
      (rest = [] ∧ r = .error (.unterminatedComment (opened + 1))) := by
  obtain ⟨body, closer, rfl, hbody, hend⟩ := hspans
  rw [List.append_assoc] at h
  have hleft : Seeks start (.block opened) (closer ++ rest) r := h.comment hbody hend
  rcases hend with hcloser | ⟨rfl, rfl⟩
  · obtain ⟨a, b, rfl, ha, hb⟩ := spells_pair.mp hcloser
    exact Or.inl (hleft.closeComment ha hb)
  · obtain ⟨index, rfl⟩ := hleft.exists_of_nil
    exact Or.inr ⟨rfl, rfl⟩

/-! ### The outcome of the search -/

/-- The places of segments with what they belong to. -/
def classified (segments : List Segment) : List (Region × Place) :=
  segments.flatMap fun s => s.places.map (s.region, ·)

/-- The first semicolon that is code. -/
def codeSemicolon (segments : List Segment) : Option Position :=
  ((classified segments).find? fun entry => entry.1 = .code ∧ entry.2.symbol = some ';').map
    fun entry => entry.2.position

/-- What is wrong with a statement, beginning on line `start`, that does not end. The end of every
line is a place, so a block comment that comes last is not closed. -/
def endError (start : Nat) (segments : List Segment) : ScanError :=
  match segments.getLast? with
  | some ⟨.blockComment, opener :: _⟩ => .unterminatedComment (opener.position.line + 1)
  | _ => .unexpectedEnd (start + 1)

/-- What segments say about the end of a statement. -/
def outcome (start : Nat) (segments : List Segment) : Except ScanError Position :=
  match codeSemicolon segments with
  | some p => .ok p
  | none => .error (endError start segments)

lemma codeSemicolon_cons {s : Segment} {segments : List Segment}
    (hcode : s.region = .code → ∀ a ∈ s.places, a.symbol ≠ some ';') :
    codeSemicolon (s :: segments) = codeSemicolon segments := by
  have hnone : (s.places.map (s.region, ·)).find?
      (fun entry => decide (entry.1 = .code ∧ entry.2.symbol = some ';')) = none := by
    rw [List.find?_eq_none]
    intro entry hentry
    obtain ⟨a, ha, rfl⟩ := List.mem_map.mp hentry
    simpa using fun h => hcode h a ha
  rw [codeSemicolon, classified, List.flatMap_cons, List.find?_append, hnone, Option.none_or]
  rfl

/-- A segment without a semicolon that is code does not matter, unless it is a block comment that
comes last. -/
lemma outcome_cons {s : Segment} {segments : List Segment}
    (hcode : s.region = .code → ∀ a ∈ s.places, a.symbol ≠ some ';')
    (hlast : segments ≠ [] ∨ s.region ≠ .blockComment) :
    outcome start (s :: segments) = outcome start segments := by
  have herror : endError start (s :: segments) = endError start segments := by
    rw [endError, endError, List.getLast?_cons]
    cases hsegments : segments.getLast? with
    | some t => rfl
    | none =>
        obtain rfl := List.getLast?_eq_none_iff.mp hsegments
        obtain ⟨region, places⟩ := s
        cases region <;> simp_all
  rw [outcome, outcome, codeSemicolon_cons hcode, herror]

lemma Segmented.ne_nil {segments : List Segment} (h : Segmented x segments) (hx : x ≠ []) :
    segments ≠ [] := by
  rintro rfl
  exact hx h.places_eq.symm

/-- The search comes to what the segments of the places in front of it say. -/
lemma Seeks.eq_outcome {segments : List Segment} (hsegments : Segmented x segments)
    (h : Seeks start .code x r) : r = outcome start segments := by
  induction hsegments with
  | nil =>
      obtain ⟨index, rfl⟩ := h.exists_of_nil
      rfl
  | @cons s rest segments hfirst hrest ih =>
      cases hfirst with
      | @code a _ hcode =>
          by_cases ha : a.symbol = some ';'
          · rw [h.semicolon ha]
            simp [outcome, codeSemicolon, classified, ha]
          · rw [ih (h.code hcode ha), outcome_cons (by simpa using ha) (Or.inr (by simp))]
      | @enclosed region text opener tail _ htext hopener hspans =>
          rw [List.append_assoc] at h
          cases region with
          | code => exact hspans.elim
          | lineComment =>
              obtain rfl := Option.some.inj htext
              obtain ⟨a, b, rfl, ha, hb⟩ := spells_pair.mp hopener
              have hcode : Seeks start .code rest r := Seeks.lineComment h ha hb hspans.1 hspans.2
              rw [ih hcode, outcome_cons (by simp) (Or.inr (by simp))]
          | blockComment =>
              obtain rfl := Option.some.inj htext
              obtain ⟨a, b, rfl, ha, hb⟩ := spells_pair.mp hopener
              have hinside : Seeks start (.block a.position.line) (tail ++ rest) r :=
                h.openComment ha hb
              obtain ⟨hne, hcode⟩ | ⟨rfl, rfl⟩ := hinside.blockComment hspans
              · rw [ih hcode, outcome_cons (by simp) (Or.inl (hrest.ne_nil hne))]
              · -- the buffer ends inside the comment
                rw [hrest.unique .nil, outcome, codeSemicolon_cons (by simp)]
                rfl
          | string =>
              obtain rfl := Option.some.inj htext
              rw [ih (h.literal (Or.inl rfl) hopener hspans),
                outcome_cons (by simp) (Or.inr (by simp))]
          | character =>
              obtain rfl := Option.some.inj htext
              rw [ih (h.literal (Or.inr rfl) hopener hspans),
                outcome_cons (by simp) (Or.inr (by simp))]

lemma seeks_delimiter (buffer : Buffer) (p : Position) :
    Seeks p.line .code (buffer.placesFrom p) (delimiter buffer p) := by
  rw [Buffer.placesFrom, delimiter]
  cases buffer.drop p.line with
  | nil => exact .finished 0
  | cons l rest => exact .onLine p (l.drop p.column) rest

/-! ### The lines that errors name -/

/-- The line that an error names. -/
def ScanError.line : ScanError → Nat
  | unterminatedComment line => line
  | unexpectedEnd line => line

/-- The error about a statement names the line on which it starts, or one of its places. -/
lemma endError_line {segments : List Segment} {lines : Nat} (hstart : start < lines)
    (hplaces : ∀ a ∈ segments.flatMap Segment.places, a.position.line < lines) :
    1 ≤ (endError start segments).line ∧ (endError start segments).line ≤ lines := by
  rw [endError]
  split
  · next opener tail hlast =>
      have hmem : opener ∈ segments.flatMap Segment.places :=
        List.mem_flatMap.mpr ⟨_, List.mem_of_getLast? hlast, List.mem_cons_self⟩
      exact ⟨Nat.le_add_left _ _, hplaces opener hmem⟩
  · exact ⟨Nat.le_add_left _ _, hstart⟩

lemma delimiter_error_line {buffer : Buffer} {p : Position} {e : ScanError}
    (hp : p.line < buffer.length) (h : delimiter buffer p = .error e) :
    1 ≤ e.line ∧ e.line ≤ buffer.length := by
  obtain ⟨segments, hsegments⟩ := exists_segmented (buffer.placesFrom p)
  have houtcome := (seeks_delimiter buffer p).eq_outcome hsegments
  rw [h, outcome] at houtcome
  split at houtcome
  · cases houtcome
  · cases houtcome
    refine endError_line hp fun a ha => ?_
    rw [hsegments.places_eq] at ha
    exact Buffer.line_lt_of_mem_placesFrom ha

lemma nextSpan_error_line {buffer : Buffer} {cursor : Position} {e : ScanError}
    (h : nextSpan buffer cursor = .error e) : 1 ≤ e.line ∧ e.line ≤ max 1 buffer.length := by
  rw [nextSpan] at h
  split at h
  · cases h
    simp only [ScanError.line]
    omega
  · next first hfirst =>
      obtain ⟨-, c, hc, -⟩ := Buffer.firstVisible_spec hfirst
      have hline : first.line < buffer.length := Buffer.line_lt_of_charAt hc
      split at h
      · next e' he =>
          cases h
          have hbounds := delimiter_error_line hline he
          omega
      · cases h

lemma statementsFrom_error_line {buffer : Buffer} {afterImport : Bool} {cursor : Position}
    {e : ScanError} (h : statementsFrom buffer afterImport cursor = .error e) :
    1 ≤ e.line ∧ e.line ≤ max 1 buffer.length := by
  fun_induction statementsFrom buffer afterImport cursor with
  | case1 afterImport cursor e' he =>
      cases h
      exact nextSpan_error_line he
  | case2 => cases h
  | case3 afterImport cursor start stop _ s _ e' he ih =>
      cases h
      exact ih he
  | case4 => cases h

/-- The characters of a buffer from a position on, in their order, are read as segments in one way,
and a statement that starts there ends at the first semicolon that is code. Without one, the error
names the line that opens the block comment in which the buffer ends, or else the line of the start.
Errors about a buffer name one of its lines. -/
theorem delimiter_code_semicolon (buffer : Buffer) (start : Position) :
    (∀ p c, ⟨p, some c⟩ ∈ buffer.placesFrom start ↔ start ≤ p ∧ buffer.charAt p = some c) ∧
    (buffer.placesFrom start).Pairwise (·.position < ·.position) ∧
    (∃! segments, Segmented (buffer.placesFrom start) segments) ∧
    (∀ segments, Segmented (buffer.placesFrom start) segments →
      (∀ p, delimiter buffer start = .ok p ↔ codeSemicolon segments = some p) ∧
      ∀ e, delimiter buffer start = .error e ↔
        codeSemicolon segments = none ∧ e = endError start.line segments) ∧
    ∀ e, statements buffer = .error e → 1 ≤ e.line ∧ e.line ≤ max 1 buffer.length := by
  refine ⟨fun _ _ => Buffer.mem_placesFrom, Buffer.pairwise_placesFrom buffer start, ?_,
    fun segments hsegments => ?_, fun e he => statementsFrom_error_line he⟩
  · obtain ⟨segments, hsegments⟩ := exists_segmented (buffer.placesFrom start)
    exact ⟨segments, hsegments, fun _ hother => hother.unique hsegments⟩
  · rw [(seeks_delimiter buffer start).eq_outcome hsegments, outcome]
    cases codeSemicolon segments with
    | some q => simp
    | none => simp [eq_comm]

/-- The quote behind the backslash does not end the literal, and the slash of `/*/` does not end the
comment, in which the buffer ends. -/
theorem delimiter_code_semicolon_open_comment :
    ∃ segments,
      Segmented (Buffer.placesFrom ["import a.A;".toList, "x = '\\';' /*/ ;".toList, "y;".toList]
        ⟨1, 0⟩) segments ∧
      codeSemicolon segments = none ∧ endError 1 segments = .unterminatedComment 2 := by
  have herror : delimiter ["import a.A;".toList, "x = '\\';' /*/ ;".toList, "y;".toList] ⟨1, 0⟩ =
      .error (.unterminatedComment 2) := by decide
  obtain ⟨-, -, ⟨segments, hsegments, -⟩, hdelimiter, -⟩ :=
    delimiter_code_semicolon ["import a.A;".toList, "x = '\\';' /*/ ;".toList, "y;".toList] ⟨1, 0⟩
  obtain ⟨hnone, hend⟩ := ((hdelimiter segments hsegments).2 _).mp herror
  exact ⟨segments, hsegments, hnone, hend.symm⟩

end LintRepair
