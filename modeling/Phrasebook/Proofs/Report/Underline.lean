import Phrasebook.Proofs.Text.Utf8
import Phrasebook.Report

/-!
# Where the underline of a report sits

The line with the input and the line below it begin with the same margin.  The underline is put
where the input alone would reach, so tab stops are counted from the end of the margin.  In the line
as it is shown they are counted from its start, and the margin is half as wide as a tab.

* `Report.displayColumn` : the column that a text reaches in a line that it begins.
* `Report.column_eq_displayColumn` : the columns that reports count are those of the input alone.
* `Report.foldl_advance_shift` : a margin moves all columns alike when no tab follows it, and
  otherwise by whole tabs only.
* `Report.markColumn_eq_shownColumn_iff` : **so the underline sits below the text it marks exactly
  when no tab comes before that text.**
-/

namespace Phrasebook

/-- Offsets of a text where one of its characters begins, or where it ends. -/
inductive Text.Between : Text → Nat → Prop where
  /-- Nothing comes before the start. -/
  | start (t : Text) : Between t 0
  /-- The first character is passed over. -/
  | next {t : Text} {c : Char} {w n : Nat} (h : t.front? = some (c, w))
      (hrest : Between (t.drop w) n) : Between t (w + n)

namespace Report

/-! ### Columns of a line -/

/-- The column after a character: a tab goes on to the next stop, and any other character takes one
column. -/
def advance (column : Nat) (c : Char) : Nat :=
  if c = '\t' then (column / 8 + 1) * 8 else column + 1

/-- The column that a text reaches in a line that it begins. -/
def displayColumn (t : Text) : Nat :=
  t.chars.foldl advance 0

theorem nextColumn_eq_advance : nextColumn = advance := by
  funext column c
  unfold nextColumn advance tabWidth
  split_ifs
  · omega
  · rfl

theorem columnFrom_of_between {t : Text} {n : Nat} (h : t.Between n) (pos column : Nat) :
    columnFrom (pos + n) pos column t.frontList = (Text.chars (t.take n)).foldl advance column := by
  induction h generalizing pos column with
  | start t =>
    have hnone : Text.chars (t.take 0) = [] := by
      rw [List.take_zero, Text.chars, Text.frontList_nil, List.map_nil]
    rw [hnone]
    cases t.frontList with
    | nil => rfl
    | cons front rest => exact if_pos (by omega)
  | @next t c w n hf hrest ih =>
    have hw := Text.front?_width hf
    have hchars : Text.chars (t.take (w + n)) = c :: Text.chars ((t.drop w).take n) := by
      rw [Text.chars, Text.frontList_of_front? (Text.front?_take hf (Nat.le_add_right w n)),
        List.take_add, List.drop_left' (List.length_take_of_le hw.2)]
      rfl
    rw [hchars, List.foldl_cons, Text.frontList_of_front? hf, columnFrom, if_neg (by omega),
      nextColumn_eq_advance, ← ih (pos + w) (advance column c)]
    congr 1
    omega

/-- **The columns that reports count** are those of the input by itself. -/
theorem column_eq_displayColumn {input : Text} {start : Nat} (h : input.Between start) :
    column input start = displayColumn (input.take start) := by
  have hcolumn := columnFrom_of_between h 0 0
  rw [Int.natCast_zero, Int.zero_add] at hcolumn
  exact hcolumn

/-! ### Lines that begin at another column -/

theorem foldl_advance_of_notMem {cs : List Char} (h : '\t' ∉ cs) (column : Nat) :
    cs.foldl advance column = column + cs.length := by
  induction cs generalizing column with
  | nil => rfl
  | cons c cs ih =>
    rw [List.mem_cons, not_or] at h
    rw [List.foldl_cons, ih h.2, advance, if_neg (Ne.symm h.1), List.length_cons]
    omega

theorem foldl_advance_mod (cs : List Char) {k m : Nat} (h : k % tabWidth = m % tabWidth) :
    cs.foldl advance k % tabWidth = cs.foldl advance m % tabWidth := by
  induction cs generalizing k m with
  | nil => exact h
  | cons c cs ih =>
    refine ih ?_
    unfold advance
    unfold tabWidth at *
    split_ifs <;> omega

/-- After a tab, columns no longer tell how far from the edge the line began: both lines go on from
a tab stop. -/
theorem foldl_advance_mod_of_mem {cs : List Char} (h : '\t' ∈ cs) (k m : Nat) :
    cs.foldl advance k % tabWidth = cs.foldl advance m % tabWidth := by
  obtain ⟨before, rest, rfl⟩ := List.append_of_mem h
  simp only [List.foldl_append, List.foldl_cons]
  refine foldl_advance_mod rest ?_
  unfold advance tabWidth
  rw [if_pos rfl, if_pos rfl, Nat.mul_mod_left, Nat.mul_mod_left]

/-- **A line that begins further to the right**, by less than a tab, is moved as a whole when it has
no tab, and by another distance after one. -/
theorem foldl_advance_shift {d : Nat} (hpos : 0 < d) (hlt : d < tabWidth) (cs : List Char) :
    d + cs.foldl advance 0 = cs.foldl advance d ↔ '\t' ∉ cs := by
  constructor
  · intro heq htab
    have hmod := foldl_advance_mod_of_mem htab d 0
    unfold tabWidth at *
    omega
  · intro h
    rw [foldl_advance_of_notMem h, foldl_advance_of_notMem h, Nat.zero_add]

/-! ### The two lines -/

/-- The line with the input, as it is printed. -/
def snippetLine (input : Text) : Text :=
  Subject.margin false ++ input

/-- Bytes that mark a column. -/
def isMark (b : UInt8) : Bool :=
  b == 0x7E || b == 0x5E

/-- The column of the first mark in a line. -/
def markColumn (line : Text) : Nat :=
  displayColumn (line.takeWhile fun b => !isMark b)

/-- The column where an offset of the input is shown. -/
def shownColumn (input : Text) (offset : Nat) : Nat :=
  displayColumn ((snippetLine input).take ((Subject.margin false).length + offset))

/-- What the report on a match is about. -/
def matchSubject (pattern input : Text) (offset : Int) (outcome : Option (Outcome Value)) :
    Subject where
  title := Text.ofString "match"
  pattern := pattern
  input := input
  start := offset
  finding := outcome.map fun o =>
    ⟨o.stop, o.mark, o.describeValues ++ o.captures.map captureText⟩

theorem ofMatch_eq (colours : Bool) (pattern input : Text) (offset : Int)
    (outcome : Option (Outcome Value)) :
    ofMatch colours pattern input offset outcome =
      (matchSubject pattern input offset outcome).text colours := rfl

theorem displayColumn_ofString_append (s : String) (t : Text) :
    displayColumn (Text.ofString s ++ t) = t.chars.foldl advance (s.toList.foldl advance 0) := by
  rw [displayColumn, Text.ofString, Text.chars_ofChars_append, List.foldl_append]

theorem displayColumn_margin_append (t : Text) :
    displayColumn (Subject.margin false ++ t) = t.chars.foldl advance 4 :=
  displayColumn_ofString_append "  | " t

theorem shownColumn_eq (input : Text) (offset : Nat) :
    shownColumn input offset = (Text.chars (input.take offset)).foldl advance 4 := by
  rw [shownColumn, snippetLine, List.take_length_add_append, displayColumn_margin_append]

/-- The line below the input is blank up to the column that was counted, and then holds marks. -/
theorem underline_eq (s : Subject) : ∃ marks rest, marks ≠ [] ∧ (∀ b ∈ marks, isMark b) ∧
    s.underline false = Subject.margin false ++
      List.replicate (column s.input s.start) 0x20 ++ marks ++ 0x0A :: rest := by
  have hcaret : ∀ b ∈ [0x5E], isMark b := List.all_eq_true.1 (by decide)
  unfold Subject.underline
  cases s.finding with
  | none => exact ⟨[0x5E], _, List.cons_ne_nil _ _, hcaret, by simp; rfl⟩
  | some f =>
    simp only
    split_ifs with hwidth
    · exact ⟨[0x5E], [], List.cons_ne_nil _ _, hcaret, by simp; rfl⟩
    · refine ⟨List.replicate _ 0x7E, [], ?_, ?_, by simp; rfl⟩
      · rwa [ne_eq, List.replicate_eq_nil_iff]
      · intro b hb
        rw [List.eq_of_mem_replicate hb]
        rfl

theorem chars_blanks (n : Nat) : Text.chars (List.replicate n 0x20) = List.replicate n ' ' := by
  have hspelled : List.replicate n 0x20 = Text.ofChars (List.replicate n ' ') := by
    rw [Text.ofChars, List.flatMap_replicate, show Text.encodeChar ' ' = [0x20] from rfl,
      List.flatten_replicate_singleton]
  rw [hspelled, Text.chars_ofChars]

theorem margin_false : Subject.margin false = [0x20, 0x20, 0x7C, 0x20] := rfl

theorem markColumn_eq {marks : Text} (hne : marks ≠ []) (hmarks : ∀ b ∈ marks, isMark b) (n : Nat) :
    markColumn (Subject.margin false ++ List.replicate n 0x20 ++ marks) = 4 + n := by
  have hblank : ∀ b ∈ Subject.margin false ++ List.replicate n 0x20, (!isMark b) = true := by
    intro b hb
    have hmargin : ∀ b ∈ Subject.margin false, (!isMark b) = true :=
      List.all_eq_true.1 (by decide)
    rcases List.mem_append.1 hb with hb | hb
    · exact hmargin b hb
    · rw [List.eq_of_mem_replicate hb]
      rfl
  obtain ⟨b, marks, rfl⟩ := List.exists_cons_of_ne_nil hne
  have hmark : isMark b := hmarks b List.mem_cons_self
  have hnotab : '\t' ∉ List.replicate n ' ' := by simp
  rw [markColumn, List.takeWhile_append_of_pos hblank, List.takeWhile_cons_of_neg (by simp [hmark]),
    List.append_nil, displayColumn_margin_append, chars_blanks, foldl_advance_of_notMem hnotab,
    List.length_replicate]

theorem newline_notMem_underline {marks : Text} (hmarks : ∀ b ∈ marks, isMark b) (n : Nat) :
    0x0A ∉ Subject.margin false ++ List.replicate n 0x20 ++ marks := by
  rw [margin_false, List.mem_append, List.mem_append, List.mem_replicate]
  rintro ((h | ⟨-, h⟩) | h)
  · revert h
    decide
  · cases h
  · cases hmarks _ h

/-- **Underlines sit below the text they mark exactly when no tab comes before that text.**  For
every pattern, every input of one line, every place between two of its characters and every outcome,
the report shows the input, and on the line below it a mark.  The mark is in the column where that
place is shown if and only if the input has no tab in front of it. -/
theorem markColumn_eq_shownColumn_iff (pattern : Text) {input : Text} {start : Nat}
    (outcome : Option (Outcome Value)) (hline : 0x0A ∉ input) (hstart : input.Between start) :
    ∃ line rest,
      ofMatch false pattern input start outcome =
        (matchSubject pattern input start outcome).header false ++ Text.ofString "  |\n" ++
          (snippetLine input ++ 0x0A :: (line ++ 0x0A :: rest)) ∧
      0x0A ∉ snippetLine input ∧ 0x0A ∉ line ∧ (∃ b ∈ line, isMark b) ∧
      (markColumn line = shownColumn input start ↔ 0x09 ∉ input.take start) := by
  let s := matchSubject pattern input start outcome
  obtain ⟨marks, rest, hne, hmarks, hunderline⟩ := underline_eq s
  have hcolumn : column input start = displayColumn (input.take start) :=
    column_eq_displayColumn hstart
  refine ⟨Subject.margin false ++ List.replicate (column input start) 0x20 ++ marks,
    rest ++ s.details false, ?_, ?_, newline_notMem_underline hmarks _, ?_, ?_⟩
  · rw [ofMatch_eq, Subject.text, hunderline, Subject.snippet, Style.paint_false]
    simp only [List.append_assoc, List.cons_append, List.nil_append, snippetLine]
    rfl
  · rw [snippetLine, margin_false, List.mem_append, not_or]
    exact ⟨by decide, hline⟩
  · obtain ⟨b, marks, rfl⟩ := List.exists_cons_of_ne_nil hne
    exact ⟨b, List.mem_append_right _ List.mem_cons_self, hmarks b List.mem_cons_self⟩
  · have htab : '\t' ∈ Text.chars (input.take start) ↔ 0x09 ∈ input.take start :=
      Text.mem_chars_iff (b := 0x09) (by decide)
    rw [markColumn_eq hne hmarks, shownColumn_eq, ← htab,
      ← foldl_advance_shift (d := 4) (by decide) (by decide)]
    exact hcolumn ▸ Iff.rfl

/-- A tab behind the text that is marked does not matter, nor how many bytes spell what is before
it. -/
theorem markColumn_eq_shownColumn_beforeTab :
    0x0A ∉ Text.ofString "é a\tb" ∧ Text.Between (Text.ofString "é a\tb") 3 ∧
      ∃ line rest,
        ofMatch false (Text.ofString "x") (Text.ofString "é a\tb") (3 : Nat) none =
          (matchSubject (Text.ofString "x") (Text.ofString "é a\tb") (3 : Nat) none).header false ++
            Text.ofString "  |\n" ++
              (snippetLine (Text.ofString "é a\tb") ++ 0x0A :: (line ++ 0x0A :: rest)) ∧
        (∃ b ∈ line, isMark b) ∧ markColumn line = shownColumn (Text.ofString "é a\tb") 3 := by
  have hline : 0x0A ∉ Text.ofString "é a\tb" := by decide
  have hstart : Text.Between (Text.ofString "é a\tb") 3 :=
    .next (w := 2) (n := 1) rfl (.next (w := 1) (n := 0) rfl (.start _))
  obtain ⟨line, rest, hreport, -, -, hmark, haligned⟩ :=
    markColumn_eq_shownColumn_iff (Text.ofString "x") none hline hstart
  exact ⟨hline, hstart, line, rest, hreport, hmark, haligned.2 (by decide)⟩

/-- In `I`, a tab, `ate`, the caret for the place after the tab is not below that place: the tab
ends at the eighth column of the input, and of the line, whose margin comes before the input. -/
theorem markColumn_ne_shownColumn_afterTab :
    0x0A ∉ Text.ofString "I\tate" ∧ Text.Between (Text.ofString "I\tate") 2 ∧
      ofMatch false (Text.ofString "x") (Text.ofString "I\tate") 2 none =
        Text.ofString "error: match\n --> x\n  |\n" ++
          (snippetLine (Text.ofString "I\tate") ++ 0x0A ::
            (Text.ofString "  |         ^" ++ Text.ofString "\n  = no match\n")) ∧
      markColumn (Text.ofString "  |         ^") = 12 ∧
      shownColumn (Text.ofString "I\tate") 2 = 8 := by
  have hstart : Text.Between (Text.ofString "I\tate") 2 :=
    .next (w := 1) (n := 1) rfl (.next (w := 1) (n := 0) rfl (.start _))
  exact ⟨by decide, hstart, by decide +kernel, by decide +kernel, by decide +kernel⟩

end Report

end Phrasebook
