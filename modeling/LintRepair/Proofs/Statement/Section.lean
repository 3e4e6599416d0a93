import LintRepair.Proofs.Statement.Tiling

/-!
Import sections written line by line.

Most files begin with a package statement and imports, each of them on a line of its own, with blank
lines between. Such a section is read line by line, whatever the names are and whatever the body is
made of: every visible line is one statement, and the body begins behind the last import.

* `IsDeclaration`: a line that is one statement; `nextSpan_declaration` says how it is found.
* `firstVisible_of_blank`: blank lines and the ends of lines are passed over.
* `lineStatements`: the statements of visible lines; `statementsFrom_lines` for lines in front of
  something else.
* `statementsFrom_body`: what the body behind an import comes to.
* `statements_section`: the statements of a section with its body.
-/

namespace LintRepair

/-! ### Lines that are statements -/

/-- A character that ends neither a statement nor a line and opens no comment and no literal. -/
def isPlain (c : Char) : Bool := decide (c ∉ [';', '/', '\x22', '\x27', '\r', '\n'])

/-- A line with a keyword, a name and a delimiter. -/
def declarationLine (keyword name : List Char) : Line := keyword ++ ' ' :: (name ++ [';'])

/-- The line of a package statement. -/
def packageLine (name : List Char) : Line := declarationLine "package".toList name

/-- The line of an import. -/
def importLine (name : List Char) : Line := declarationLine "import".toList name

/-- A line that is one statement: it begins with a visible character, and its only delimiter is its
last character. -/
def IsDeclaration (l : Line) : Prop :=
  ∃ c x, l = c :: x ++ [';'] ∧ isBlank c = false ∧ ∀ d ∈ c :: x, isPlain d = true

/-- The statement that line `index` is. -/
def lineStatement (index : Nat) (l : Line) : Statement := ⟨⟨index, 0⟩, ⟨index, l.length - 1⟩, l⟩

/-- The statements that the visible lines from number `index` on are. -/
def lineStatements (index : Nat) : Buffer → List Statement
  | [] => []
  | l :: rest =>
      if allBlank l then lineStatements (index + 1) rest
      else lineStatement index l :: lineStatements (index + 1) rest

lemma isDeclaration_declarationLine {c : Char} {keyword name : List Char}
    (hc : isBlank c = false) (hkeyword : (c :: keyword).all isPlain = true)
    (hname : ∀ d ∈ name, isPlain d = true) :
    IsDeclaration (declarationLine (c :: keyword) name) := by
  refine ⟨c, keyword ++ ' ' :: name, by simp [declarationLine], hc, ?_⟩
  intro d hd
  rw [← List.cons_append] at hd
  rcases List.mem_append.mp hd with hd | hd
  · exact List.all_eq_true.mp hkeyword d hd
  · rcases List.mem_cons.mp hd with rfl | hd
    · decide
    · exact hname d hd

lemma isDeclaration_packageLine {name : List Char} (hname : ∀ d ∈ name, isPlain d = true) :
    IsDeclaration (packageLine name) :=
  isDeclaration_declarationLine (by decide) (by decide) hname

lemma isDeclaration_importLine {name : List Char} (hname : ∀ d ∈ name, isPlain d = true) :
    IsDeclaration (importLine name) :=
  isDeclaration_declarationLine (by decide) (by decide) hname

lemma declaresImport_packageLine (name : List Char) :
    declaresImport (packageLine name) = false := by
  have hkeyword : Keyword.gap.run "package".toList = .no := by decide
  rw [declaresImport, packageLine, declarationLine, Keyword.run_append, hkeyword, Keyword.run_no]
  rfl

lemma declaresImport_importLine (name : List Char) :
    declaresImport (importLine name) = true := by
  have hkeyword : Keyword.gap.run ("import".toList ++ [' ']) = .yes := by decide
  rw [declaresImport, importLine, declarationLine, List.append_cons, Keyword.run_append, hkeyword,
    Keyword.run_yes]
  rfl

/-! ### Blanks in front of a line -/

namespace Buffer

variable {buffer : Buffer}

lemma firstVisible_line (buffer : Buffer) (index : Nat) :
    buffer.firstVisible ⟨index, 0⟩ = firstVisibleBelow index (buffer.drop index) := by
  rw [firstVisible]
  cases buffer.drop index with
  | nil => rfl
  | cons l rest =>
      simp only [List.drop_zero, Nat.zero_add]
      rw [firstVisibleBelow]

/-- Blanks up to the end of a line are passed over. -/
lemma firstVisible_of_blank {p : Position} {l : Line} (hl : buffer[p.line]? = some l)
    (hblank : allBlank (l.drop p.column) = true) :
    buffer.firstVisible p = buffer.firstVisible ⟨p.line + 1, 0⟩ := by
  have hnone : (l.drop p.column).findIdx? (!isBlank ·) = none := by
    rw [List.findIdx?_eq_none_iff]
    intro c hc
    simp [List.all_eq_true.mp hblank c hc]
  rw [firstVisible_line, firstVisible, drop_eq_cons hl]
  simp only [hnone]

/-- A line that begins with a visible character is found at its first column. -/
lemma firstVisible_of_visible {p : Position} {c : Char} (h : buffer.charAt p = some c)
    (hc : isBlank c = false) : buffer.firstVisible p = some p := by
  obtain ⟨l, hl, hget⟩ := getElem?_of_charAt h
  obtain ⟨hlt, rfl⟩ := List.getElem?_eq_some_iff.mp hget
  have hzero : (l.drop p.column).findIdx? (!isBlank ·) = some 0 := by
    rw [List.drop_eq_getElem_cons hlt, List.findIdx?_cons, hc]
    rfl
  rw [firstVisible, drop_eq_cons hl]
  simp only [hzero, Nat.add_zero]

lemma textFrom_ne_nil {p : Position} {c : Char} (h : buffer.charAt p = some c) :
    buffer.textFrom p ≠ [] := by
  obtain ⟨l, hl, hget⟩ := getElem?_of_charAt h
  obtain ⟨hlt, rfl⟩ := List.getElem?_eq_some_iff.mp hget
  rw [textFrom, drop_eq_cons hl]
  simp only [List.drop_eq_getElem_cons hlt]
  exact List.cons_ne_nil _ _

lemma exists_firstVisibleBelow {lines : Buffer} (h : ∃ l ∈ lines, allBlank l = false)
    (index : Nat) : ∃ start, firstVisibleBelow index lines = some start := by
  induction lines generalizing index with
  | nil => simp at h
  | cons l rest ih =>
      rw [firstVisibleBelow]
      cases hfind : l.findIdx? (!isBlank ·) with
      | some column => exact ⟨_, rfl⟩
      | none =>
          obtain ⟨k, hk, hvisible⟩ := h
          rcases List.mem_cons.mp hk with rfl | hk
          · rw [allBlank, List.all_eq_false] at hvisible
            obtain ⟨c, hc, hno⟩ := hvisible
            have hall := List.findIdx?_eq_none_iff.mp hfind c hc
            simp [hno] at hall
          · exact ih ⟨k, hk, hvisible⟩ (index + 1)

end Buffer

/-! ### One line -/

/-- The delimiter of plain text is the first semicolon behind it. -/
lemma sweepLine_plain (index column : Nat) {x : List Char} (hx : ∀ c ∈ x, isPlain c = true)
    (r : List Char) :
    sweepLine index .code column (x ++ ';' :: r) = .found (column + x.length) := by
  induction x generalizing column with
  | nil => rw [List.nil_append, sweepLine, List.length_nil, Nat.add_zero]
  | cons c x ih =>
      have hc := hx c List.mem_cons_self
      simp only [isPlain, List.mem_cons, List.not_mem_nil, or_false, not_or,
        decide_eq_true_eq] at hc
      obtain ⟨hsemicolon, hslash, hstring, hcharacter, -⟩ := hc
      have hquote : ¬ (c = '\x22' ∨ c = '\x27') := by
        rintro (rfl | rfl)
        · exact hstring rfl
        · exact hcharacter rfl
      rw [List.cons_append, sweepLine, if_neg hquote, ih (column + 1) fun d hd =>
        hx d (List.mem_cons_of_mem c hd), List.length_cons]
      · congr 1
        omega
      · exact hsemicolon
      · exact fun _ h _ => hslash h
      · exact fun _ h _ => hslash h

section Line

variable {buffer : Buffer} {index : Nat} {l : Line}

/-- The text of a line is its excerpt from end to end. -/
lemma between_line (hl : buffer[index]? = some l) (hne : l ≠ []) :
    Statement.between buffer ⟨index, 0⟩ ⟨index, l.length - 1⟩ = lineStatement index l := by
  have hlength : l.length - 1 + 1 = l.length := Nat.sub_add_cancel (List.length_pos_iff.mpr hne)
  have hcount : index + 1 - index = 1 := by omega
  rw [Statement.between, lineStatement, Buffer.excerpt, Buffer.drop_eq_cons hl, hcount]
  simp [Buffer.excerptLine, hlength]

/-- A line that is one statement is found from every position from which it is the next visible
thing. -/
lemma nextSpan_declaration (h : IsDeclaration l) (hl : buffer[index]? = some l) {cursor : Position}
    (hcursor : buffer.firstVisible cursor = buffer.firstVisible ⟨index, 0⟩) :
    nextSpan buffer cursor = .ok (⟨index, 0⟩, ⟨index, l.length - 1⟩) := by
  obtain ⟨c, x, rfl, hc, hplain⟩ := h
  have hfirst : buffer.firstVisible ⟨index, 0⟩ = some ⟨index, 0⟩ :=
    Buffer.firstVisible_of_visible (c := c) (by simp [Buffer.charAt, hl]) hc
  have hdelimiter : delimiter buffer ⟨index, 0⟩ = .ok ⟨index, (c :: x).length⟩ := by
    rw [delimiter, Buffer.drop_eq_cons hl]
    simp only [List.drop_zero]
    rw [sweepLine_plain index 0 hplain, Nat.zero_add]
  have hstop : includeTrailingComment buffer ⟨index, (c :: x).length⟩ =
      ⟨index, (c :: x).length⟩ := by
    have hrest : (c :: x ++ [';']).drop ((c :: x).length + 1) = [] := by simp
    rw [includeTrailingComment, hl]
    simp only [hrest]
    rfl
  rw [nextSpan, hcursor, hfirst]
  simp only [hdelimiter, hstop, List.length_append, List.length_singleton, Nat.add_sub_cancel]

/-- A line that is one statement comes in front of what is found behind it. -/
lemma statementsFrom_declaration (h : IsDeclaration l) (hl : buffer[index]? = some l)
    {cursor : Position} (hcursor : buffer.firstVisible cursor = buffer.firstVisible ⟨index, 0⟩)
    {afterImport : Bool} (himport : afterImport = true → declaresImport l = true) :
    statementsFrom buffer afterImport cursor =
      (statementsFrom buffer (declaresImport l) ⟨index, l.length⟩).map
        (lineStatement index l :: ·) := by
  have hne : l ≠ [] := by
    obtain ⟨c, x, rfl, -⟩ := h
    simp
  have hyes : (lineStatement index l).isImport = declaresImport l := Statement.isImport_eq _
  have hgo : ¬ (afterImport && !(lineStatement index l).isImport) = true := by
    rw [hyes]
    cases afterImport with
    | false => simp
    | true => simp [himport rfl]
  have hnext : (lineStatement index l).stop.next = ⟨index, l.length⟩ := by
    have hpos := List.length_pos_iff.mpr hne
    simp only [lineStatement, Position.next, Position.mk.injEq, true_and]
    omega
  rw [statementsFrom_of_nextSpan (s := lineStatement index l) (nextSpan_declaration h hl hcursor)
    (between_line hl hne), if_neg hgo, hyes, hnext]

end Line

/-! ### Lines in front of something else -/

section Lines

variable {buffer upper lines lower : Buffer}

/-- Lines of which every visible one is a statement, with no other statement behind an import, come
in front of what is found behind them. -/
lemma statementsFrom_lines (hbuffer : buffer = upper ++ lines ++ lower)
    (hlines : ∀ l ∈ lines, allBlank l = false → IsDeclaration l) {afterImport : Bool}
    (hflags : (afterImport :: (lines.filter (!allBlank ·)).map declaresImport).Pairwise
      fun a b => a = true → b = true)
    {cursor : Position}
    (hcursor : buffer.firstVisible cursor = buffer.firstVisible ⟨upper.length, 0⟩) :
    ∃ cursor', buffer.firstVisible cursor' =
        buffer.firstVisible ⟨upper.length + lines.length, 0⟩ ∧
      statementsFrom buffer afterImport cursor =
        (statementsFrom buffer
          (((lines.filter (!allBlank ·)).map declaresImport).getLast?.getD afterImport)
          cursor').map (lineStatements upper.length lines ++ ·) := by
  induction lines generalizing upper afterImport cursor with
  | nil =>
      refine ⟨cursor, by simpa using hcursor, ?_⟩
      cases hrest : statementsFrom buffer afterImport cursor <;>
        simp [hrest, lineStatements, Except.map]
  | cons l rest ih =>
      have hl : buffer[upper.length]? = some l := by
        rw [hbuffer]
        simp
      have hbuffer' : buffer = (upper ++ [l]) ++ rest ++ lower := by
        rw [hbuffer]
        simp
      have hlength : (upper ++ [l]).length = upper.length + 1 := by simp
      have hend : upper.length + (l :: rest).length = (upper ++ [l]).length + rest.length := by
        simp only [List.length_cons, hlength]
        omega
      have hlines' : ∀ k ∈ rest, allBlank k = false → IsDeclaration k := fun k hk =>
        hlines k (List.mem_cons_of_mem l hk)
      rw [hend, lineStatements]
      cases hblank : allBlank l with
      | true =>
          -- a blank line is passed over
          have hskip := Buffer.firstVisible_of_blank (p := ⟨upper.length, 0⟩) hl hblank
          rw [List.filter_cons_of_neg (by simp [hblank])] at hflags ⊢
          rw [if_pos rfl, ← hlength]
          exact ih hbuffer' hlines' hflags (by rw [hcursor, hskip, hlength])
      | false =>
          have hdeclaration := hlines l List.mem_cons_self hblank
          rw [List.filter_cons_of_pos (by simp [hblank]), List.map_cons] at hflags ⊢
          obtain ⟨hfirst, hrest⟩ := List.pairwise_cons.mp hflags
          have hskip := Buffer.firstVisible_of_blank (p := ⟨upper.length, l.length⟩) hl
            (by rw [List.drop_length]; rfl)
          rw [← hlength] at hskip
          obtain ⟨cursor', hcursor', hstatements⟩ := ih hbuffer' hlines' hrest hskip
          refine ⟨cursor', hcursor', ?_⟩
          rw [statementsFrom_declaration hdeclaration hl hcursor (hfirst _ List.mem_cons_self),
            hstatements, hlength, List.getLast?_cons, Option.getD_some, if_neg (by simp)]
          cases statementsFrom buffer _ cursor' <;> rfl

/-- The statements of lines begin and end on one of them, and each has the text of its line. -/
lemma mem_lineStatements {index : Nat} {s : Statement} (hs : s ∈ lineStatements index lines) :
    index ≤ s.start.line ∧ s.start.line < index + lines.length ∧ s.stop.line = s.start.line := by
  induction lines generalizing index with
  | nil => simp [lineStatements] at hs
  | cons l rest ih =>
      have hrest : s ∈ lineStatements (index + 1) rest →
          index ≤ s.start.line ∧ s.start.line < index + (l :: rest).length ∧
            s.stop.line = s.start.line := by
        intro hmem
        obtain ⟨hle, hlt, hstop⟩ := ih hmem
        rw [List.length_cons]
        exact ⟨by omega, by omega, hstop⟩
      rw [lineStatements] at hs
      split_ifs at hs
      · exact hrest hs
      · rcases List.mem_cons.mp hs with rfl | hs
        · simp [lineStatement]
        · exact hrest hs

/-- The statements of lines stand on different lines. -/
lemma pairwise_lineStatements (index : Nat) (lines : Buffer) :
    (lineStatements index lines).Pairwise fun s t => s.stop.line < t.start.line := by
  induction lines generalizing index with
  | nil => exact List.Pairwise.nil
  | cons l rest ih =>
      rw [lineStatements]
      split_ifs
      · exact ih (index + 1)
      · refine List.pairwise_cons.mpr ⟨fun s hs => ?_, ih (index + 1)⟩
        have hle := (mem_lineStatements hs).1
        simp only [lineStatement]
        omega

lemma map_text_lineStatements (index : Nat) (lines : Buffer) :
    (lineStatements index lines).map Statement.text = lines.filter (!allBlank ·) := by
  induction lines generalizing index with
  | nil => rfl
  | cons l rest ih =>
      rw [lineStatements]
      cases hblank : allBlank l with
      | true => rw [if_pos rfl, ih, List.filter_cons_of_neg (by simp [hblank])]
      | false =>
          rw [if_neg (by simp), List.map_cons, ih, List.filter_cons_of_pos (by simp [hblank])]
          rfl

end Lines

/-- Statements of which each begins below the end of those before it are on separate lines. -/
lemma onSeparateLines_of_pairwise {found : List Statement}
    (h : found.Pairwise fun s t => s.stop.line < t.start.line) : onSeparateLines found = true := by
  have hpairs : ∀ pair ∈ found.zip found.tail, pair.1.stop.line < pair.2.start.line := by
    induction found with
    | nil => simp
    | cons s rest ih =>
        obtain ⟨hfirst, hrest⟩ := List.pairwise_cons.mp h
        cases rest with
        | nil => simp
        | cons t rest =>
            intro pair hpair
            rw [List.tail_cons, List.zip_cons_cons, List.mem_cons] at hpair
            rcases hpair with rfl | hpair
            · exact hfirst t List.mem_cons_self
            · exact ih hrest pair hpair
  have hnone : (found.zip found.tail).findIdx? (fun pair => pair.1.sharesLineWith pair.2) =
      none := by
    rw [List.findIdx?_eq_none_iff]
    intro pair hpair
    have hlt := hpairs pair hpair
    rw [Statement.sharesLineWith, beq_eq_false_iff_ne]
    omega
  rw [onSeparateLines, firstSharedLine, hnone]
  rfl

/-! ### The body -/

section Body

variable {buffer : Buffer} {cursor start d stop : Position}

/-- An excerpt is made of the excerpts up to a position of it and behind that position. -/
lemma Buffer.excerpt_split (hstart : start ≤ d) (hle : d ≤ stop)
    (hstop : stop.line < buffer.length) :
    buffer.excerpt start stop = buffer.excerpt start d ++ buffer.excerpt d.next stop := by
  rw [Position.le_def] at hstart hle
  have hd : d.line < buffer.length := by omega
  have hwhole := Buffer.excerpt_append (p := start) hstop (by omega) (by omega)
  have hfront := Buffer.excerpt_append (p := start) hd (by omega) (by omega)
  have hback := Buffer.excerpt_append (p := d.next) hstop (by simp only [Position.next]; omega)
    (by simp only [Position.next]; omega)
  refine (List.append_left_inj (buffer.textFrom stop.next)).mp ?_
  rw [hwhole, List.append_assoc, hback, hfront]

/-- The reader of a statement is closed at its delimiter. -/
lemma run_excerpt_delimiter (hb : buffer.Unbroken) (hd : delimiter buffer start = .ok d) :
    Reader.code.run (buffer.excerpt start d) = .closed := by
  have hsettles := settles_delimiter hb start
  rw [hd] at hsettles
  obtain ⟨x, r, htext, hclosed, rfl⟩ := hsettles
  rw [Buffer.excerpt_eq hb htext (by decide), hclosed]

/-- Whether a statement is an import is known from its text up to the delimiter. The lines above it
do not matter. -/
lemma isImport_between (hb : Buffer.Unbroken (buffer.drop start.line))
    (hd : delimiter buffer start = .ok d) (hle : d ≤ stop) (hstop : stop.line < buffer.length) :
    (Statement.between buffer start stop).isImport =
      (Statement.between buffer start d).isImport := by
  set other : Buffer := List.replicate start.line [] ++ buffer.drop start.line with hother
  have hb' : other.Unbroken := by
    intro l hl
    rcases List.mem_append.mp hl with hl | hl
    · rw [(List.mem_replicate.mp hl).2]
      exact List.not_mem_nil
    · exact hb l hl
  have hdrop : other.drop start.line = buffer.drop start.line := by
    rw [hother, List.drop_left' (List.length_replicate ..)]
  have hdelimiter : delimiter other start = delimiter buffer start := by
    rw [delimiter, delimiter, hdrop]
  have hexcerpt : other.excerpt start d = buffer.excerpt start d := by
    rw [Buffer.excerpt, Buffer.excerpt, hdrop]
  have hclosed := run_excerpt_delimiter hb' (hdelimiter.trans hd)
  rw [hexcerpt] at hclosed
  rw [Statement.isImport_eq, Statement.isImport_eq, Statement.between, Statement.between,
    Buffer.excerpt_split (delimiter_spec hd).1 hle hstop, declaresImport_append hclosed]

/-- The body behind an import goes up to the end of the buffer, unless it has no delimiter. -/
lemma statementsFrom_body (hb : Buffer.Unbroken (buffer.drop start.line))
    (hcursor : buffer.firstVisible cursor = some start) :
    (∀ d, delimiter buffer start = .ok d →
        (Statement.between buffer start d).isImport = false →
        statementsFrom buffer true cursor =
          .ok [Statement.between buffer start buffer.lastPosition]) ∧
      ∀ e, delimiter buffer start = .error e →
        statementsFrom buffer true cursor = .error e := by
  constructor
  · intro d hd himport
    have hspan : nextSpan buffer cursor = .ok (start, includeTrailingComment buffer d) := by
      rw [nextSpan, hcursor]
      simp only [hd]
    obtain ⟨hle, c, hc⟩ := le_includeTrailingComment buffer d (delimiter_spec hd).2
    rw [← isImport_between hb hd hle (Buffer.line_lt_of_charAt hc)] at himport
    rw [statementsFrom_of_nextSpan
      (s := Statement.between buffer start (includeTrailingComment buffer d)) hspan rfl, himport]
    rfl
  · intro e he
    have hspan : nextSpan buffer cursor = .error e := by
      rw [nextSpan, hcursor]
      simp only [he]
    rw [statementsFrom]
    split
    · next e' he' =>
        rw [hspan, Except.error.injEq] at he'
        rw [he']
    · next he' => simp [hspan] at he'

end Body

/-! ### Sections -/

section Section

variable {header body : Buffer} {packages imports : List (List Char)}

/-- In a section the imports stand behind the package statements. -/
lemma map_declaresImport_section (packages imports : List (List Char)) :
    (packages.map packageLine ++ imports.map importLine).map declaresImport =
      List.replicate packages.length false ++ List.replicate imports.length true := by
  have hpackages : declaresImport ∘ packageLine = fun _ => false :=
    funext declaresImport_packageLine
  have himports : declaresImport ∘ importLine = fun _ => true :=
    funext declaresImport_importLine
  rw [List.map_append, List.map_map, List.map_map, hpackages, himports, List.map_const',
    List.map_const']

/-- The statements of a section, with those of the body still to be found. -/
lemma statements_of_section (himports : imports ≠ [])
    (hplain : ∀ name ∈ packages ++ imports, ∀ c ∈ name, isPlain c = true)
    (hheader : header.filter (!allBlank ·) = packages.map packageLine ++ imports.map importLine)
    (body : Buffer) :
    ∃ cursor, (header ++ body).firstVisible cursor =
        (header ++ body).firstVisible ⟨header.length, 0⟩ ∧
      statements (header ++ body) =
        (statementsFrom (header ++ body) true cursor).map (lineStatements 0 header ++ ·) := by
  have hlines : ∀ l ∈ header, allBlank l = false → IsDeclaration l := by
    intro l hl hblank
    have hmem : l ∈ packages.map packageLine ++ imports.map importLine := by
      rw [← hheader]
      exact List.mem_filter.mpr ⟨hl, by simp [hblank]⟩
    rcases List.mem_append.mp hmem with hmem | hmem
    · obtain ⟨name, hname, rfl⟩ := List.mem_map.mp hmem
      exact isDeclaration_packageLine (hplain name (List.mem_append_left _ hname))
    · obtain ⟨name, hname, rfl⟩ := List.mem_map.mp hmem
      exact isDeclaration_importLine (hplain name (List.mem_append_right _ hname))
  have hflags : ((header.filter (!allBlank ·)).map declaresImport) =
      List.replicate packages.length false ++ List.replicate imports.length true := by
    rw [hheader, map_declaresImport_section]
  have horder : (false :: (header.filter (!allBlank ·)).map declaresImport).Pairwise
      fun a b => a = true → b = true := by
    rw [hflags, List.pairwise_cons, List.pairwise_append]
    simp [List.pairwise_replicate]
  have hlast : ((header.filter (!allBlank ·)).map declaresImport).getLast?.getD false = true := by
    rw [hflags, List.getLast?_append]
    simp [List.getLast?_replicate, himports]
  have hbuffer : header ++ body = [] ++ header ++ body := rfl
  have hcursor : (header ++ body).firstVisible ⟨0, 0⟩ =
      (header ++ body).firstVisible ⟨([] : Buffer).length, 0⟩ := rfl
  obtain ⟨cursor, hrest, hstatements⟩ := statementsFrom_lines hbuffer hlines horder hcursor
  rw [List.length_nil, Nat.zero_add] at hrest
  rw [hlast] at hstatements
  exact ⟨cursor, hrest, hstatements⟩

/-- A section of package statements and imports, one on each of its visible lines, with a body
behind it that is not blank. If the first statement of the body has a delimiter and is no import,
the statements are the visible lines of the section and the body, which goes up to the end; no two
of them share a line. If it has no delimiter, the error is the one about that statement. -/
theorem statements_section (himports : imports ≠ [])
    (hplain : ∀ name ∈ packages ++ imports, ∀ c ∈ name, isPlain c = true)
    (hheader : header.filter (!allBlank ·) = packages.map packageLine ++ imports.map importLine)
    (hb : body.Unbroken) (hvisible : ∃ l ∈ body, allBlank l = false) :
    ∃ start, (header ++ body).firstVisible ⟨header.length, 0⟩ = some start ∧
      (∀ d, delimiter (header ++ body) start = .ok d →
        (Statement.between (header ++ body) start d).isImport = false →
        ∃ found, statements (header ++ body) = .ok found ∧
          found = lineStatements 0 header ++
            [⟨start, (header ++ body).lastPosition, (header ++ body).textFrom start⟩] ∧
          found.dropLast.map Statement.text =
            packages.map packageLine ++ imports.map importLine ∧
          found.map Statement.isImport = List.replicate packages.length false ++
            List.replicate imports.length true ++ [false] ∧
          onSeparateLines found = true) ∧
      ∀ e, delimiter (header ++ body) start = .error e →
        statements (header ++ body) = .error e := by
  obtain ⟨cursor, hcursor, hstatements⟩ := statements_of_section himports hplain hheader body
  have hdrop : (header ++ body).drop header.length = body := List.drop_left
  obtain ⟨start, hstart⟩ := Buffer.exists_firstVisibleBelow hvisible header.length
  have hfirst : (header ++ body).firstVisible ⟨header.length, 0⟩ = some start := by
    rw [Buffer.firstVisible_line, hdrop, hstart]
  obtain ⟨hbehind, c, hc, -⟩ := Buffer.firstVisible_spec hfirst
  have hline : header.length ≤ start.line := by
    rcases Position.le_def.mp hbehind with hlt | ⟨heq, -⟩
    · exact hlt.le
    · exact heq.le
  have hrest : Buffer.Unbroken ((header ++ body).drop start.line) := by
    intro l hl
    refine hb l ?_
    rw [← hdrop]
    exact (List.drop_sublist_drop_left _ hline).subset hl
  obtain ⟨hok, herror⟩ := statementsFrom_body hrest (hcursor.trans hfirst)
  refine ⟨start, hfirst, fun d hd himport => ?_, fun e he => ?_⟩
  · have hbody : Statement.between (header ++ body) start (header ++ body).lastPosition =
        ⟨start, (header ++ body).lastPosition, (header ++ body).textFrom start⟩ := by
      rw [Statement.between, Buffer.excerpt_lastPosition (Buffer.textFrom_ne_nil hc)]
    have hno : declaresImport ((header ++ body).textFrom start) = false := by
      have hdc := (delimiter_spec hd).2
      rw [← isImport_between hrest hd (Buffer.le_lastPosition hdc)
        (Buffer.lastPosition_line_lt hdc), hbody, Statement.isImport_eq] at himport
      exact himport
    refine ⟨_, ?_, rfl, ?_, ?_, ?_⟩
    · rw [hstatements, hok d hd himport, hbody]
      rfl
    · rw [List.dropLast_concat, map_text_lineStatements, hheader]
    · rw [map_isImport, List.map_append, map_text_lineStatements, hheader, List.map_append,
        map_declaresImport_section]
      simp [hno]
    · refine onSeparateLines_of_pairwise (List.pairwise_append.mpr
        ⟨pairwise_lineStatements 0 header, List.pairwise_singleton _ _, fun s hs t ht => ?_⟩)
      obtain ⟨-, hlt, hstop⟩ := mem_lineStatements hs
      rw [List.mem_singleton.mp ht]
      simp only
      omega
  · rw [hstatements, herror e he]
    rfl

/-- Two imports below a package statement, with blank lines, and a body whose first line has
delimiters in a comment and in a string. -/
theorem statements_section_quoted_delimiters :
    ∃ found,
      statements ["package p;".toList, [], "import a.A;".toList, " \t".toList,
          "import b;".toList, "/* ; */ String s = \";\";".toList,
          "  import c;".toList] = .ok found ∧
        found.map Statement.text = ["package p;".toList, "import a.A;".toList,
          "import b;".toList,
          "/* ; */ String s = \";\";\n  import c;".toList] ∧
        found.map Statement.isImport = [false, true, true, false] ∧
        onSeparateLines found = true := by
  have hheader : ["package p;".toList, [], "import a.A;".toList, " \t".toList,
      "import b;".toList].filter (!allBlank ·) =
        ["p".toList].map packageLine ++ ["a.A".toList, "b".toList].map importLine := by decide
  have hb : Buffer.Unbroken ["/* ; */ String s = \";\";".toList,
      "  import c;".toList] := by simp [Buffer.Unbroken]
  have hplain : (["p".toList] ++ ["a.A".toList, "b".toList]).all (·.all isPlain) = true := by
    decide
  obtain ⟨start, hstart, hok, -⟩ :=
    statements_section (by decide)
      (fun name hname => List.all_eq_true.mp (List.all_eq_true.mp hplain name hname)) hheader hb
      (by decide)
  obtain rfl : ⟨5, 0⟩ = start := Option.some.inj (Eq.trans (by decide) hstart)
  obtain ⟨found, hfound, rfl, -, himport, hseparate⟩ := hok ⟨5, 22⟩ (by decide) (by decide)
  exact ⟨_, hfound, by decide, himport, hseparate⟩

end Section

end LintRepair
