import Mathlib.Tactic
import LintRepair.Position

/-!
The regions of a buffer.

Read from a position on, a buffer is code with comments and literals in it. Which of its characters
belong to what is found from left to right, one segment after the other: a line comment goes up to
the end of its line, a block comment up to the first `*/` behind its opener, and a literal up to its
quote or the end of its line, a backslash hiding the character behind it on the same line.

* `Place`, `Buffer.placesFrom`: the characters of a buffer and the ends of its lines.
* `Buffer.mem_placesFrom`, `Buffer.pairwise_placesFrom`: the places from a position on hold just the
  characters from there on, in their order.
* `Region`, `Region.Spans`: code, comments and literals, and how far they go.
* `Segmented`: the segments of places, beginning in code.
* `exists_segmented`, `Segmented.unique`: there is just one way to read them.
-/

namespace LintRepair

/-! ### Places -/

/-- A place of a buffer: a character, or the end of a line. -/
structure Place where
  position : Position
  /-- The character at the place. There is none at the end of a line. -/
  symbol : Option Char

/-- The places of the rest of a line that begins at a position, the end of the line included. -/
def Line.places : Position → Line → List Place
  | p, [] => [⟨p, none⟩]
  | p, c :: rest => ⟨p, some c⟩ :: places p.next rest

namespace Buffer

/-- The places of the lines from number `index` on. -/
def placesBelow : Nat → Buffer → List Place
  | _, [] => []
  | index, l :: rest => Line.places ⟨index, 0⟩ l ++ placesBelow (index + 1) rest

/-- The places of a buffer from a position on. -/
def placesFrom (buffer : Buffer) (p : Position) : List Place :=
  match buffer.drop p.line with
  | [] => []
  | l :: rest => Line.places p (l.drop p.column) ++ placesBelow (p.line + 1) rest

end Buffer

/-- The places of a line are places of this line, not before the first one. -/
lemma Line.position_of_mem_places {a : Place} {p : Position} {l : Line} (h : a ∈ places p l) :
    a.position.line = p.line ∧ p.column ≤ a.position.column := by
  induction l generalizing p with
  | nil =>
      rw [List.mem_singleton.mp h]
      exact ⟨rfl, Nat.le_refl _⟩
  | cons c l ih =>
      rcases List.mem_cons.mp h with rfl | h
      · exact ⟨rfl, Nat.le_refl _⟩
      · obtain ⟨hline, hcolumn⟩ := ih h
        exact ⟨hline, Nat.le_of_succ_le hcolumn⟩

lemma Line.mem_places {p q : Position} {l : Line} {c : Char} :
    ⟨q, some c⟩ ∈ places p l ↔
      q.line = p.line ∧ p.column ≤ q.column ∧ l[q.column - p.column]? = some c := by
  induction l generalizing p with
  | nil => simp [places]
  | cons d l ih =>
      obtain ⟨line, column⟩ := p
      obtain ⟨line', column'⟩ := q
      rw [places, List.mem_cons, ih]
      simp only [Position.next, Place.mk.injEq, Position.mk.injEq, Option.some.injEq]
      rcases Nat.lt_trichotomy column column' with hlt | rfl | hgt
      · have hindex : column' - column = column' - (column + 1) + 1 := by omega
        rw [hindex, List.getElem?_cons_succ]
        grind
      · simp [eq_comm]
      · grind

lemma Line.pairwise_places (p : Position) (l : Line) :
    (places p l).Pairwise (·.position < ·.position) := by
  induction l generalizing p with
  | nil => exact List.pairwise_singleton _ _
  | cons c l ih =>
      refine List.pairwise_cons.mpr ⟨fun a ha => ?_, ih p.next⟩
      obtain ⟨hline, hcolumn⟩ := position_of_mem_places ha
      exact Position.lt_def.mpr (Or.inr ⟨hline.symm, hcolumn⟩)

namespace Buffer

lemma line_of_mem_placesBelow {a : Place} {index : Nat} {lower : Buffer}
    (h : a ∈ placesBelow index lower) :
    index ≤ a.position.line ∧ a.position.line < index + lower.length := by
  induction lower generalizing index with
  | nil => cases h
  | cons l rest ih =>
      rw [List.length_cons]
      rcases List.mem_append.mp h with h | h
      · have hline : a.position.line = index := (Line.position_of_mem_places h).1
        omega
      · have hrest := ih h
        omega

lemma mem_placesBelow {index : Nat} {lower : Buffer} {q : Position} {c : Char} :
    ⟨q, some c⟩ ∈ placesBelow index lower ↔
      index ≤ q.line ∧ lower.charAt ⟨q.line - index, q.column⟩ = some c := by
  induction lower generalizing index with
  | nil => simp [placesBelow, charAt]
  | cons l rest ih =>
      rw [placesBelow, List.mem_append, Line.mem_places, ih]
      simp only [charAt, Nat.zero_le, Nat.sub_zero, true_and]
      rcases Nat.lt_trichotomy index q.line with hlt | rfl | hgt
      · have hindex : q.line - index = q.line - (index + 1) + 1 := by omega
        rw [hindex, List.getElem?_cons_succ]
        grind
      · simp
      · grind

lemma pairwise_places_append {p : Position} {lower : Buffer}
    (h : (placesBelow (p.line + 1) lower).Pairwise (·.position < ·.position)) (l : Line) :
    (Line.places p l ++ placesBelow (p.line + 1) lower).Pairwise (·.position < ·.position) := by
  refine List.pairwise_append.mpr ⟨Line.pairwise_places p l, h, fun a ha b hb => ?_⟩
  have hline := (Line.position_of_mem_places ha).1
  have hbelow := (line_of_mem_placesBelow hb).1
  exact Position.lt_def.mpr (Or.inl (by omega))

lemma pairwise_placesBelow (index : Nat) (lower : Buffer) :
    (placesBelow index lower).Pairwise (·.position < ·.position) := by
  induction lower generalizing index with
  | nil => exact .nil
  | cons l rest ih => exact pairwise_places_append (p := ⟨index, 0⟩) (ih _) l

/-- The places from a position on hold the characters from there on. -/
lemma mem_placesFrom {buffer : Buffer} {p q : Position} {c : Char} :
    ⟨q, some c⟩ ∈ buffer.placesFrom p ↔ p ≤ q ∧ buffer.charAt q = some c := by
  rw [placesFrom, Position.le_def]
  cases hdrop : buffer.drop p.line with
  | nil =>
      have hlength : buffer.length ≤ p.line := List.drop_eq_nil_iff.mp hdrop
      refine iff_of_false List.not_mem_nil ?_
      rintro ⟨hle, hc⟩
      have hline := line_lt_of_charAt hc
      omega
  | cons l rest =>
      obtain ⟨hl, hrest⟩ := of_drop_eq_cons hdrop
      simp only [List.mem_append, Line.mem_places, mem_placesBelow, hrest, charAt,
        List.getElem?_drop]
      grind

lemma line_lt_of_mem_placesFrom {a : Place} {buffer : Buffer} {p : Position}
    (h : a ∈ buffer.placesFrom p) : a.position.line < buffer.length := by
  rw [placesFrom] at h
  cases hdrop : buffer.drop p.line with
  | nil => simp [hdrop] at h
  | cons l rest =>
      have hlength : buffer.length - p.line = rest.length + 1 := by
        rw [← List.length_drop, hdrop, List.length_cons]
      rw [hdrop] at h
      rcases List.mem_append.mp h with h | h
      · have hline := (Line.position_of_mem_places h).1
        omega
      · have hline := line_of_mem_placesBelow h
        omega

/-- The places of a buffer stand in the order in which it is read. -/
lemma pairwise_placesFrom (buffer : Buffer) (p : Position) :
    (buffer.placesFrom p).Pairwise (·.position < ·.position) := by
  rw [placesFrom]
  cases buffer.drop p.line with
  | nil => exact .nil
  | cons l rest => exact pairwise_places_append (pairwise_placesBelow _ rest) _

end Buffer

/-- The characters that stand at some places. -/
def Spells (x : List Place) (text : List Char) : Prop :=
  x.map Place.symbol = text.map some

/-- What follows is the end of a line, or nothing at all. -/
def LineEnds (rest : List Place) : Prop :=
  ∀ a ∈ rest.head?, a.symbol = none

/-! ### Segments -/

/-- What a place belongs to. -/
inductive Region where
  | code
  | lineComment
  | blockComment
  | string
  | character
deriving DecidableEq

/-- The characters with which a comment or a literal begins. -/
def Region.opener : Region → Option (List Char)
  | code => none
  | lineComment => some ['/', '/']
  | blockComment => some ['/', '*']
  | string => some ['\x22']
  | character => some ['\x27']

/-- A stretch of places of one region. -/
structure Segment where
  region : Region
  places : List Place

/-- Places that begin with a comment or a literal. -/
def Opens (x : List Place) : Prop :=
  ∃ (region : Region) (text : List Char) (opener rest : List Place),
    region.opener = some text ∧ Spells opener text ∧ x = opener ++ rest

/-- Places at which no block comment is closed. -/
def Unclosed (body : List Place) : Prop :=
  ¬ [some '*', some '/'] <:+: body.map Place.symbol

/-- A block comment is closed, or there is nothing left that could close it. -/
def CommentEnds (closer rest : List Place) : Prop :=
  Spells closer ['*', '/'] ∨ closer = [] ∧ rest = []

/-- Places inside a literal: characters other than its quote, and characters hidden behind a
backslash. -/
inductive Quoted (quote : Char) : List Place → Prop
  | nil : Quoted quote []
  | plain {a : Place} {c : Char} {body : List Place} (ha : a.symbol = some c) (hquote : c ≠ quote)
      (hbackslash : c ≠ '\\') (hbody : Quoted quote body) : Quoted quote (a :: body)
  | hidden {a b : Place} {c : Char} {body : List Place} (ha : a.symbol = some '\\')
      (hb : b.symbol = some c) (hbody : Quoted quote body) : Quoted quote (a :: b :: body)

/-- A literal is closed by its quote, or ends with its line. A backslash in front of the end of the
line hides nothing. -/
def LiteralEnds (quote : Char) (closer rest : List Place) : Prop :=
  Spells closer [quote] ∨ (closer = [] ∨ Spells closer ['\\']) ∧ LineEnds rest

/-- A literal behind its first quote. -/
def LiteralSpans (quote : Char) (tail rest : List Place) : Prop :=
  ∃ body closer, tail = body ++ closer ∧ Quoted quote body ∧ LiteralEnds quote closer rest

/-- Behind its opener, a comment or a literal goes on for `tail` and ends in front of `rest`. -/
def Region.Spans : Region → List Place → List Place → Prop
  | code, _, _ => False
  | lineComment, tail, rest => (∀ a ∈ tail, a.symbol ≠ none) ∧ LineEnds rest
  | blockComment, tail, rest =>
      ∃ body closer, tail = body ++ closer ∧ Unclosed body ∧ CommentEnds closer rest
  | string, tail, rest => LiteralSpans '\x22' tail rest
  | character, tail, rest => LiteralSpans '\x27' tail rest

/-- A segment that begins in code, in front of the places that are left behind it. -/
inductive Segment.InFrontOf : Segment → List Place → Prop
  | code {a : Place} {rest : List Place} (hcode : ¬ Opens (a :: rest)) : InFrontOf ⟨.code, [a]⟩ rest
  | enclosed {region : Region} {text : List Char} {opener tail rest : List Place}
      (htext : region.opener = some text) (hopener : Spells opener text)
      (hspans : region.Spans tail rest) : InFrontOf ⟨region, opener ++ tail⟩ rest

/-- The segments of places, read from left to right and beginning in code. -/
inductive Segmented : List Place → List Segment → Prop
  | nil : Segmented [] []
  | cons {s : Segment} {rest : List Place} {segments : List Segment} (hfirst : s.InFrontOf rest)
      (hrest : Segmented rest segments) : Segmented (s.places ++ rest) (s :: segments)

/-- Every place belongs to one segment. -/
lemma Segmented.places_eq {x : List Place} {segments : List Segment} (h : Segmented x segments) :
    segments.flatMap Segment.places = x := by
  induction h with
  | nil => rfl
  | cons _ _ ih => rw [List.flatMap_cons, ih]

/-! ### Reading places -/

lemma spells_singleton {x : List Place} {c : Char} :
    Spells x [c] ↔ ∃ a, x = [a] ∧ a.symbol = some c := by
  rw [Spells]
  constructor
  · intro h
    obtain ⟨a, rfl⟩ := List.length_eq_one_iff.mp (by simpa using congrArg List.length h)
    exact ⟨a, rfl, by simpa using h⟩
  · rintro ⟨a, rfl, ha⟩
    simp [ha]

lemma spells_pair {x : List Place} {c d : Char} :
    Spells x [c, d] ↔ ∃ a b, x = [a, b] ∧ a.symbol = some c ∧ b.symbol = some d := by
  rw [Spells]
  constructor
  · intro h
    obtain ⟨a, b, rfl⟩ := List.length_eq_two.mp (by simpa using congrArg List.length h)
    exact ⟨a, b, rfl, by simpa using h⟩
  · rintro ⟨a, b, rfl, ha, hb⟩
    simp [ha, hb]

lemma unclosed_cons {a : Place} {body : List Place} :
    Unclosed (a :: body) ↔
      ¬ (a.symbol = some '*' ∧ ∃ b ∈ body.head?, b.symbol = some '/') ∧ Unclosed body := by
  rw [Unclosed, Unclosed, List.map_cons, List.infix_cons_iff, not_or]
  refine and_congr_left fun _ => not_congr ?_
  cases body with
  | nil => simp [List.prefix_cons_iff]
  | cons b body => simp [List.cons_prefix_cons, eq_comm]

/-- A block comment ends somewhere. -/
lemma exists_commentEnds (x : List Place) :
    ∃ body closer rest, x = body ++ (closer ++ rest) ∧ Unclosed body ∧ CommentEnds closer rest := by
  induction x with
  | nil => exact ⟨[], [], [], rfl, by simp [Unclosed], Or.inr ⟨rfl, rfl⟩⟩
  | cons a x ih =>
      by_cases hclose : a.symbol = some '*' ∧ ∃ b ∈ x.head?, b.symbol = some '/'
      · obtain ⟨ha, b, hb, hslash⟩ := hclose
        obtain ⟨rest, rfl⟩ : ∃ rest, x = b :: rest := List.head?_eq_some_iff.mp hb
        exact ⟨[], [a, b], rest, rfl, by simp [Unclosed],
          Or.inl (spells_pair.mpr ⟨a, b, rfl, ha, hslash⟩)⟩
      · obtain ⟨body, closer, rest, rfl, hbody, hend⟩ := ih
        refine ⟨a :: body, closer, rest, rfl, unclosed_cons.mpr ⟨?_, hbody⟩, hend⟩
        rintro ⟨ha, b, hb, hslash⟩
        refine hclose ⟨ha, b, ?_, hslash⟩
        rw [List.head?_append, hb]
        rfl

/-- A literal ends somewhere. -/
lemma exists_literalEnds (quote : Char) (x : List Place) :
    ∃ body closer rest, x = body ++ (closer ++ rest) ∧ Quoted quote body ∧
      LiteralEnds quote closer rest := by
  induction hn : x.length using Nat.strong_induction_on generalizing x with
  | _ n ih =>
      cases x with
      | nil => exact ⟨[], [], [], rfl, .nil, Or.inr ⟨Or.inl rfl, by simp [LineEnds]⟩⟩
      | cons a x =>
          rw [List.length_cons] at hn
          cases ha : a.symbol with
          | none => exact ⟨[], [], a :: x, rfl, .nil, Or.inr ⟨Or.inl rfl, by simp [LineEnds, ha]⟩⟩
          | some c =>
              by_cases hquote : c = quote
              · exact ⟨[], [a], x, rfl, .nil,
                  Or.inl (spells_singleton.mpr ⟨a, rfl, hquote ▸ ha⟩)⟩
              by_cases hbackslash : c = '\\'
              · have hspells : Spells [a] ['\\'] :=
                  spells_singleton.mpr ⟨a, rfl, hbackslash ▸ ha⟩
                cases x with
                | nil => exact ⟨[], [a], [], rfl, .nil, Or.inr ⟨Or.inr hspells, by simp [LineEnds]⟩⟩
                | cons b x =>
                    cases hb : b.symbol with
                    | none =>
                        exact ⟨[], [a], b :: x, rfl, .nil,
                          Or.inr ⟨Or.inr hspells, by simp [LineEnds, hb]⟩⟩
                    | some d =>
                        obtain ⟨body, closer, rest, rfl, hbody, hend⟩ :=
                          ih x.length (by rw [List.length_cons] at hn; omega) x rfl
                        exact ⟨a :: b :: body, closer, rest, rfl,
                          .hidden (hbackslash ▸ ha) hb hbody, hend⟩
              · obtain ⟨body, closer, rest, rfl, hbody, hend⟩ := ih x.length (by omega) x rfl
                exact ⟨a :: body, closer, rest, rfl, .plain ha hquote hbackslash hbody, hend⟩

lemma exists_literalSpans (quote : Char) (x : List Place) :
    ∃ tail rest, x = tail ++ rest ∧ LiteralSpans quote tail rest := by
  obtain ⟨body, closer, rest, rfl, hbody, hend⟩ := exists_literalEnds quote x
  exact ⟨_, rest, (List.append_assoc _ _ _).symm, body, closer, rfl, hbody, hend⟩

/-- A line ends somewhere. -/
lemma exists_lineEnds (x : List Place) :
    ∃ body rest, x = body ++ rest ∧ (∀ a ∈ body, a.symbol ≠ none) ∧ LineEnds rest := by
  induction x with
  | nil => exact ⟨[], [], rfl, by simp, by simp [LineEnds]⟩
  | cons a x ih =>
      by_cases ha : a.symbol = none
      · exact ⟨[], a :: x, rfl, by simp, by simp [LineEnds, ha]⟩
      · obtain ⟨body, rest, rfl, hbody, hend⟩ := ih
        exact ⟨a :: body, rest, rfl, List.forall_mem_cons.mpr ⟨ha, hbody⟩, hend⟩

lemma Spells.length_eq {x : List Place} {text : List Char} (h : Spells x text) :
    x.length = text.length := by
  simpa using congrArg List.length h

lemma Spells.filterMap_eq {x : List Place} {text : List Char} (h : Spells x text) :
    x.filterMap Place.symbol = text := by
  have hmap := congrArg (List.filterMap id) h
  rwa [List.filterMap_map, List.filterMap_map, Function.id_comp, Function.id_comp,
    List.filterMap_some] at hmap

lemma Region.opener_length_pos {region : Region} {text : List Char}
    (h : region.opener = some text) : 0 < text.length := by
  cases region with
  | code => cases h
  | lineComment | blockComment | string | character =>
      cases h
      decide

/-- A comment or a literal ends somewhere. -/
lemma Region.exists_spans {region : Region} {text : List Char} (h : region.opener = some text)
    (x : List Place) : ∃ tail rest, x = tail ++ rest ∧ region.Spans tail rest := by
  cases region with
  | code => cases h
  | lineComment => exact exists_lineEnds x
  | blockComment =>
      obtain ⟨body, closer, rest, rfl, hbody, hend⟩ := exists_commentEnds x
      exact ⟨_, rest, (List.append_assoc _ _ _).symm, body, closer, rfl, hbody, hend⟩
  | string => exact exists_literalSpans _ x
  | character => exact exists_literalSpans _ x

lemma Segment.InFrontOf.places_ne_nil {s : Segment} {rest : List Place} (h : s.InFrontOf rest) :
    s.places ≠ [] := by
  cases h with
  | code => exact List.cons_ne_nil _ _
  | enclosed htext hopener =>
      have hpos := Region.opener_length_pos htext
      rw [← hopener.length_eq] at hpos
      exact List.append_ne_nil_of_left_ne_nil (List.ne_nil_of_length_pos hpos) _

/-- Places begin with a segment. -/
lemma exists_inFrontOf (a : Place) (x : List Place) :
    ∃ (s : Segment) (rest : List Place), a :: x = s.places ++ rest ∧ s.InFrontOf rest := by
  by_cases hopens : Opens (a :: x)
  · obtain ⟨region, text, opener, y, htext, hopener, heq⟩ := hopens
    obtain ⟨tail, rest, rfl, hspans⟩ := Region.exists_spans htext y
    exact ⟨_, rest, by rw [heq, List.append_assoc], .enclosed htext hopener hspans⟩
  · exact ⟨⟨.code, [a]⟩, x, rfl, .code hopens⟩

/-- Places can be read as segments. -/
lemma exists_segmented (x : List Place) : ∃ segments, Segmented x segments := by
  induction hn : x.length using Nat.strong_induction_on generalizing x with
  | _ n ih =>
      cases x with
      | nil => exact ⟨[], .nil⟩
      | cons a x =>
          obtain ⟨s, rest, heq, hfirst⟩ := exists_inFrontOf a x
          have hpos := List.length_pos_iff.mpr hfirst.places_ne_nil
          rw [heq, List.length_append] at hn
          obtain ⟨segments, hrest⟩ := ih rest.length (by omega) rest rfl
          exact ⟨s :: segments, heq ▸ .cons hfirst hrest⟩

/-! ### One way to read -/

/-- The characters of a line in front of its end. -/
lemma LineEnds.takeWhile_eq {body rest : List Place} (hbody : ∀ a ∈ body, a.symbol ≠ none)
    (hend : LineEnds rest) : (body ++ rest).takeWhile (·.symbol.isSome) = body := by
  rw [List.takeWhile_append_of_pos fun a ha => Option.isSome_iff_ne_none.mpr (hbody a ha)]
  cases rest with
  | nil => simp
  | cons a rest => simp [hend a rfl]

/-- A block comment does not go on behind the place where it ends. -/
lemma CommentEnds.length_le {body body' closer closer' rest rest' : List Place}
    (hend : CommentEnds closer rest) (hbody' : Unclosed body') (hend' : CommentEnds closer' rest')
    (heq : body ++ (closer ++ rest) = body' ++ (closer' ++ rest')) :
    body'.length ≤ body.length := by
  obtain ⟨extra, rfl, -⟩ | ⟨extra, rfl, hextra⟩ := List.append_eq_append_iff.mp heq.symm
  · simp
  cases extra with
  | nil => simp
  | cons a extra =>
      exfalso
      obtain hcloser | ⟨rfl, rfl⟩ := hend
      · obtain ⟨star, slash, rfl, hstar, hslash⟩ := spells_pair.mp hcloser
        simp only [List.cons_append, List.nil_append, List.cons.injEq] at hextra
        obtain ⟨rfl, htail⟩ := hextra
        cases extra with
        | nil =>
            -- The slash would begin the closer of the longer comment.
            obtain hcloser' | ⟨rfl, rfl⟩ := hend'
            · obtain ⟨star', slash', rfl, hstar', -⟩ := spells_pair.mp hcloser'
              obtain ⟨rfl, -⟩ := List.cons.inj htail
              simp [hslash] at hstar'
            · cases htail
        | cons b extra =>
            obtain ⟨rfl, -⟩ := List.cons.inj htail
            exact hbody' ⟨body.map Place.symbol, extra.map Place.symbol, by simp [hstar, hslash]⟩
      · cases hextra

/-- A block comment ends at one place. -/
lemma CommentEnds.unique {body body' closer closer' rest rest' : List Place}
    (hbody : Unclosed body) (hend : CommentEnds closer rest) (hbody' : Unclosed body')
    (hend' : CommentEnds closer' rest')
    (heq : body ++ (closer ++ rest) = body' ++ (closer' ++ rest')) :
    body = body' ∧ closer = closer' ∧ rest = rest' := by
  have hlength : body.length = body'.length :=
    le_antisymm (hend'.length_le hbody hend heq.symm) (hend.length_le hbody' hend' heq)
  obtain ⟨hbodies, htail⟩ := List.append_inj heq hlength
  refine ⟨hbodies, ?_⟩
  obtain hcloser | ⟨rfl, rfl⟩ := hend <;> obtain hcloser' | ⟨rfl, rfl⟩ := hend'
  · exact List.append_inj htail (hcloser.length_eq.trans hcloser'.length_eq.symm)
  · simp [(List.append_eq_nil_iff.mp htail).1, Spells] at hcloser
  · simp [(List.append_eq_nil_iff.mp htail.symm).1, Spells] at hcloser'
  · exact ⟨rfl, rfl⟩

/-- Where a literal ends, there is its quote or a backslash in front of the end of the line. -/
lemma LiteralEnds.backslash {quote c : Char} {a : Place} {closer rest y : List Place}
    (hend : LiteralEnds quote closer rest) (heq : closer ++ rest = a :: y)
    (ha : a.symbol = some c) (hquote : c ≠ quote) : c = '\\' ∧ LineEnds y := by
  obtain hcloser | ⟨rfl | hcloser, hline⟩ := hend
  · obtain ⟨b, rfl, hb⟩ := spells_singleton.mp hcloser
    obtain ⟨rfl, -⟩ := List.cons.inj heq
    exact absurd (Option.some.inj (ha.symm.trans hb)) hquote
  · rw [List.nil_append] at heq
    have hnone : a.symbol = none := hline a (by rw [heq]; rfl)
    simp [ha] at hnone
  · obtain ⟨b, rfl, hb⟩ := spells_singleton.mp hcloser
    obtain ⟨rfl, rfl⟩ := List.cons.inj heq
    exact ⟨Option.some.inj (ha.symm.trans hb), hline⟩

/-- A literal is closed by one character, or by none and the end of the line. -/
lemma LiteralEnds.closer_cases {quote : Char} {closer rest : List Place}
    (hend : LiteralEnds quote closer rest) :
    (closer = [] ∧ LineEnds rest) ∨ ∃ a c, closer = [a] ∧ a.symbol = some c := by
  obtain hcloser | ⟨hnil | hcloser, hline⟩ := hend
  · obtain ⟨a, ha, hsymbol⟩ := spells_singleton.mp hcloser
    exact Or.inr ⟨a, _, ha, hsymbol⟩
  · exact Or.inl ⟨hnil, hline⟩
  · obtain ⟨a, ha, hsymbol⟩ := spells_singleton.mp hcloser
    exact Or.inr ⟨a, _, ha, hsymbol⟩

/-- What closes a literal is read off the places in front of which it ends. -/
lemma LiteralEnds.closer_unique {quote : Char} {closer closer' rest rest' : List Place}
    (hend : LiteralEnds quote closer rest) (hend' : LiteralEnds quote closer' rest')
    (heq : closer ++ rest = closer' ++ rest') : closer = closer' ∧ rest = rest' := by
  obtain ⟨rfl, hline⟩ | ⟨a, c, rfl, ha⟩ := hend.closer_cases <;>
    obtain ⟨rfl, hline'⟩ | ⟨b, d, rfl, hb⟩ := hend'.closer_cases
  · exact ⟨rfl, heq⟩
  · rw [List.nil_append] at heq
    simp [LineEnds, heq, hb] at hline
  · rw [List.nil_append] at heq
    simp [LineEnds, ← heq, ha] at hline'
  · exact List.append_inj heq rfl

/-- A literal ends at one place. -/
lemma LiteralEnds.unique {quote : Char} (hne : quote ≠ '\\')
    {body body' closer closer' rest rest' : List Place} (hbody : Quoted quote body)
    (hend : LiteralEnds quote closer rest) (hbody' : Quoted quote body')
    (hend' : LiteralEnds quote closer' rest')
    (heq : body ++ (closer ++ rest) = body' ++ (closer' ++ rest')) :
    body = body' ∧ closer = closer' ∧ rest = rest' := by
  induction hbody generalizing body' with
  | nil =>
      cases hbody' with
      | nil => exact ⟨rfl, hend.closer_unique hend' heq⟩
      | plain ha hquote hbackslash => exact absurd (hend.backslash heq ha hquote).1 hbackslash
      | hidden ha hb =>
          have hnone := (hend.backslash heq ha hne.symm).2 _ rfl
          simp [hb] at hnone
  | plain ha hquote hbackslash _ ih =>
      cases hbody' with
      | nil => exact absurd (hend'.backslash heq.symm ha hquote).1 hbackslash
      | plain ha' hquote' hbackslash' hbody' =>
          obtain ⟨rfl, htail⟩ := List.cons.inj heq
          obtain ⟨rfl, hclosed⟩ := ih hbody' htail
          exact ⟨rfl, hclosed⟩
      | hidden ha' =>
          obtain ⟨rfl, -⟩ := List.cons.inj heq
          exact absurd (Option.some.inj (ha.symm.trans ha')) hbackslash
  | hidden ha hb _ ih =>
      cases hbody' with
      | nil =>
          have hnone := (hend'.backslash heq.symm ha hne.symm).2 _ rfl
          simp [hb] at hnone
      | plain ha' _ hbackslash' =>
          obtain ⟨rfl, -⟩ := List.cons.inj heq
          exact absurd (Option.some.inj (ha'.symm.trans ha)) hbackslash'
      | hidden ha' hb' hbody' =>
          obtain ⟨rfl, hsecond⟩ := List.cons.inj heq
          obtain ⟨rfl, htail⟩ := List.cons.inj hsecond
          obtain ⟨rfl, hclosed⟩ := ih hbody' htail
          exact ⟨rfl, hclosed⟩

lemma LiteralSpans.unique {quote : Char} (hne : quote ≠ '\\') {tail tail' rest rest' : List Place}
    (h : LiteralSpans quote tail rest) (h' : LiteralSpans quote tail' rest')
    (heq : tail ++ rest = tail' ++ rest') : tail = tail' ∧ rest = rest' := by
  obtain ⟨body, closer, rfl, hbody, hend⟩ := h
  obtain ⟨body', closer', rfl, hbody', hend'⟩ := h'
  rw [List.append_assoc, List.append_assoc] at heq
  obtain ⟨rfl, rfl, rfl⟩ := hend.unique hne hbody hbody' hend' heq
  exact ⟨rfl, rfl⟩

/-- A comment or a literal ends at one place. -/
lemma Region.Spans.unique {region : Region} {tail tail' rest rest' : List Place}
    (h : region.Spans tail rest) (h' : region.Spans tail' rest')
    (heq : tail ++ rest = tail' ++ rest') : tail = tail' ∧ rest = rest' := by
  cases region with
  | code => exact h.elim
  | lineComment =>
      have htails : tail = tail' := by
        rw [← h.2.takeWhile_eq h.1, heq, h'.2.takeWhile_eq h'.1]
      exact List.append_inj heq (congrArg _ htails)
  | blockComment =>
      obtain ⟨body, closer, rfl, hbody, hend⟩ := h
      obtain ⟨body', closer', rfl, hbody', hend'⟩ := h'
      rw [List.append_assoc, List.append_assoc] at heq
      obtain ⟨rfl, rfl, rfl⟩ := hend.unique hbody hbody' hend' heq
      exact ⟨rfl, rfl⟩
  | string => exact LiteralSpans.unique (by decide) h h' heq
  | character => exact LiteralSpans.unique (by decide) h h' heq

/-- No opener begins another. -/
lemma Region.eq_of_prefix {region region' : Region} {text text' : List Char}
    (h : region.opener = some text) (h' : region'.opener = some text')
    (hbegins : text <+: text') : region = region' := by
  cases region <;> cases h <;> cases region' <;> cases h' <;> revert hbegins <;> decide

/-- Places begin with one opener. -/
lemma Spells.opener_unique {region region' : Region} {text text' : List Char}
    {opener opener' y y' : List Place} (htext : region.opener = some text)
    (htext' : region'.opener = some text') (hopener : Spells opener text)
    (hopener' : Spells opener' text') (heq : opener ++ y = opener' ++ y') :
    region = region' ∧ opener = opener' ∧ y = y' := by
  have hregions : region = region' := by
    have hx : opener <+: opener ++ y := List.prefix_append _ _
    have hx' : opener' <+: opener ++ y := heq ▸ List.prefix_append _ _
    rw [← hopener.filterMap_eq] at htext
    rw [← hopener'.filterMap_eq] at htext'
    obtain hbegins | hbegins := List.prefix_or_prefix_of_prefix hx hx'
    · exact Region.eq_of_prefix htext htext' (hbegins.filterMap _)
    · exact (Region.eq_of_prefix htext' htext (hbegins.filterMap _)).symm
  have htexts : text = text' := Option.some.inj (htext.symm.trans (hregions ▸ htext'))
  have hlength : opener.length = opener'.length := by
    rw [hopener.length_eq, hopener'.length_eq, htexts]
  exact ⟨hregions, List.append_inj heq hlength⟩

/-- Places begin with one segment. -/
lemma Segment.InFrontOf.unique {s s' : Segment} {rest rest' : List Place} (h : s.InFrontOf rest)
    (h' : s'.InFrontOf rest') (heq : s.places ++ rest = s'.places ++ rest') :
    s = s' ∧ rest = rest' := by
  cases h with
  | code hcode =>
      cases h' with
      | code =>
          obtain ⟨rfl, rfl⟩ := List.cons.inj heq
          exact ⟨rfl, rfl⟩
      | enclosed htext hopener =>
          exact absurd ⟨_, _, _, _, htext, hopener, heq.trans (List.append_assoc _ _ _)⟩ hcode
  | enclosed htext hopener hspans =>
      cases h' with
      | code hcode =>
          exact absurd ⟨_, _, _, _, htext, hopener, heq.symm.trans (List.append_assoc _ _ _)⟩ hcode
      | enclosed htext' hopener' hspans' =>
          rw [List.append_assoc, List.append_assoc] at heq
          obtain ⟨rfl, rfl, htail⟩ := hopener.opener_unique htext htext' hopener' heq
          obtain ⟨rfl, rfl⟩ := hspans.unique hspans' htail
          exact ⟨rfl, rfl⟩

/-- Places are read as segments in one way. -/
lemma Segmented.unique {x : List Place} {segments segments' : List Segment}
    (h : Segmented x segments) (h' : Segmented x segments') : segments = segments' := by
  induction h generalizing segments' with
  | nil =>
      generalize hx : [] = x at h'
      cases h' with
      | nil => rfl
      | cons hfirst => exact absurd (List.append_eq_nil_iff.mp hx.symm).1 hfirst.places_ne_nil
  | @cons s rest segments hfirst _ ih =>
      generalize hx : s.places ++ rest = x at h'
      cases h' with
      | nil => exact absurd (List.append_eq_nil_iff.mp hx).1 hfirst.places_ne_nil
      | cons hfirst' hrest' =>
          obtain ⟨rfl, rfl⟩ := hfirst.unique hfirst' hx
          rw [ih hrest']

end LintRepair
