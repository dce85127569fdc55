import Phrasebook.Proofs.Pattern.Nodes
import Phrasebook.Proofs.Pattern.RoundTrip
import Phrasebook.Proofs.Registry.Runs
import Phrasebook.Proofs.Text.Quoted
import Phrasebook.Report.Tree

/-!
# Trees on paper tell patterns apart

A tree on paper has one line for each node, and how far a line is indented says where it belongs.
What follows the lines of a node is never deeper than the node, so the lines of a node end where the
others begin, and the tree can be told from its lines.

* `Report.Resumes` : what may follow the lines of a node.
* `Report.IsLegible` : nodes whose own line can be told apart: no line ends within it, and the names
  of types are names.
* `Report.same_of_treeLines_eq` : **the lines of a node tell the node, and where they end.**
* `Report.treeLines_congr` : trees that are the same have the same lines.
* `Report.tree_eq_tree_iff` : **compiled trees look alike on paper exactly when they are the same.**
-/

namespace Phrasebook

/-- A text is cut where its bytes stop being of a kind in one way only. -/
theorem Text.span_unique {p : UInt8 → Bool} {s t u v : Text} (hs : ∀ b ∈ s, p b)
    (ht : ∀ b ∈ t, p b) (hu : ∀ b ∈ u.head?, p b = false) (hv : ∀ b ∈ v.head?, p b = false)
    (h : s ++ u = t ++ v) : s = t ∧ u = v := by
  have takes {s u : Text} (hs : ∀ b ∈ s, p b) (hu : ∀ b ∈ u.head?, p b = false) :
      (s ++ u).takeWhile p = s := by
    rw [List.takeWhile_append_of_pos hs]
    cases u with
    | nil => simp
    | cons b u => simp [hu b rfl]
  obtain rfl : s = t := by rw [← takes hs hu, h, takes ht hv]
  exact ⟨rfl, List.append_cancel_left h⟩

/-- A line of a text ends in one way only. -/
theorem Text.line_unique {s t u v : Text} (hs : 0x0A ∉ s) (ht : 0x0A ∉ t)
    (h : s ++ 0x0A :: u = t ++ 0x0A :: v) : s = t ∧ u = v := by
  have inLine {s : Text} (hs : 0x0A ∉ s) : ∀ b ∈ s, (b != 0x0A) = true := by
    intro b hb
    rw [bne_iff_ne]
    rintro rfl
    exact hs hb
  obtain ⟨hst, hrest⟩ := span_unique (inLine hs) (inLine ht) (by simp) (by simp) h
  exact ⟨hst, (List.cons.inj hrest).2⟩

namespace Report

open Pattern (Same SameBranch AllNodes isTypeName)

/-! ### Indentation -/

/-- What may follow the lines of a node: nothing, or a line that is not deeper. -/
def Resumes (level : Nat) (t : Text) : Prop :=
  t = [] ∨ ∃ other b rest, other ≤ level ∧ b ≠ 0x20 ∧ t = indent other ++ b :: rest

theorem Resumes.mono {level deeper : Nat} {t : Text} (h : Resumes level t) (hle : level ≤ deeper) :
    Resumes deeper t := by
  rcases h with rfl | ⟨other, b, rest, hother, hb, rfl⟩
  · exact .inl rfl
  · exact .inr ⟨other, b, rest, Nat.le_trans hother hle, hb, rfl⟩

/-- How far a line is indented is told from the line. -/
theorem indent_unique {level level' : Nat} {b c : UInt8} {r s : Text} (hb : b ≠ 0x20)
    (hc : c ≠ 0x20) (h : indent level ++ b :: r = indent level' ++ c :: s) :
    level = level' ∧ b :: r = c :: s := by
  have hblank (level : Nat) : ∀ a ∈ indent level, (a == 0x20) = true := by
    intro a ha
    rw [List.eq_of_mem_replicate ha]
    rfl
  obtain ⟨hindent, hrest⟩ := Text.span_unique (hblank level) (hblank level')
    (by simpa using hb) (by simpa using hc) h
  have := congrArg List.length hindent
  simp only [indent, List.length_replicate] at this
  exact ⟨by omega, hrest⟩

/-- A line that is deeper does not resume. -/
theorem not_resumes_of_lt {level deeper : Nat} {b : UInt8} {rest : Text} (hlt : level < deeper)
    (hb : b ≠ 0x20) : ¬ Resumes level (indent deeper ++ b :: rest) := by
  rintro (hnil | ⟨other, c, rest', hother, hc, heq⟩)
  · simp at hnil
  · obtain ⟨rfl, -⟩ := indent_unique hb hc heq
    omega

/-! ### The lines of a node -/

/-- What follows the kind of a node in its lines. -/
def nodeRest (level : Nat) : Pattern → Text
  | .text content => 0x20 :: (content.quoted ++ [0x0A])
  | .regex source _ => 0x20 :: (source ++ [0x0A])
  | .slot s => 0x20 :: (slotTypes s ++ flagsText false (slotFlags s) ++ [0x0A])
  | .sequence children => 0x0A :: childLines false (level + 1) children
  | .optional child => 0x0A :: treeLines false (level + 1) child
  | .choice alternatives => 0x0A :: branchLines false (level + 1) alternatives
  | .unknown label => 0x20 :: (label ++ [0x0A])

theorem treeLines_eq (level : Nat) (p : Pattern) :
    treeLines false level p = indent level ++ (p.kindText ++ nodeRest level p) := by
  cases p <;> simp [treeLines, nodeHead, nodeRest]

theorem markLine_eq (level : Nat) (mark : Mark) : markLine false level mark =
    indent level ++ (Text.ofString "mark" ++ 0x20 :: (Text.ofInt mark.toInt ++ [0x0A])) := by
  have hword : Text.ofString "mark " = Text.ofString "mark" ++ [0x20] := by decide
  simp [markLine, hword]

/-- Whether a byte can stand in a word. -/
def isInWord (b : UInt8) : Bool :=
  0x20 < b

theorem isInWord_of_mem_kindText {p : Pattern} : ∀ b ∈ p.kindText, isInWord b := by
  cases p <;> exact List.all_eq_true.1 (by simp only [Pattern.kindText]; decide)

theorem isInWord_nodeRest (level : Nat) (p : Pattern) (r : Text) :
    ∀ b ∈ (nodeRest level p ++ r).head?, isInWord b = false := by
  cases p <;> rintro b ⟨⟩ <;> rfl

/-- The lines of a node begin with a letter that is indented as far as the node. -/
theorem exists_treeLines (level : Nat) (p : Pattern) :
    ∃ b rest, b ≠ 0x20 ∧ treeLines false level p = indent level ++ b :: rest := by
  have hword : ∃ b rest, p.kindText = b :: rest := by
    cases p <;> exact ⟨_, _, rfl⟩
  obtain ⟨b, rest, hkind⟩ := hword
  refine ⟨b, rest ++ nodeRest level p, ?_, ?_⟩
  · rintro rfl
    have := isInWord_of_mem_kindText (p := p) 0x20 (by simp [hkind])
    exact absurd this (by decide)
  · rw [treeLines_eq, hkind, List.cons_append]

theorem resumes_treeLines (level : Nat) (p : Pattern) (r : Text) :
    Resumes level (treeLines false level p ++ r) := by
  obtain ⟨b, rest, hb, hlines⟩ := exists_treeLines level p
  refine .inr ⟨level, b, rest ++ r, Nat.le_refl _, hb, ?_⟩
  rw [hlines, List.append_assoc, List.cons_append]

/-! ### Slots -/

/-- A reference to a type whose name is a name. -/
def IsNamed (ref : TypeRef) : Prop :=
  ∃ type, ref.type = some type ∧ isTypeName type.name

theorem notMem_of_isTypeName {name : Text} (h : isTypeName name) :
    0x20 ∉ name ∧ 0x0A ∉ name ∧ 0x28 ∉ name ∧ 0x2F ∉ name := by
  have hclass : ∀ b ∈ ([0x20, 0x0A, 0x28, 0x2F] : Text), b.toNat < 0x80 ∧
      (Unicode.isLetter (Char.ofNat b.toNat) || Unicode.isDigit (Char.ofNat b.toNat) ||
        Char.ofNat b.toNat == '_') = false := List.all_iff_forall_prop.1 (by decide)
  have hnot : ∀ b ∈ ([0x20, 0x0A, 0x28, 0x2F] : Text), b ∉ name := by
    intro b hb hmem
    obtain ⟨hascii, hfalse⟩ := hclass b hb
    rw [Pattern.isNameChar_of_mem h hascii hmem] at hfalse
    cases hfalse
  simpa using hnot

/-- What tells a plural. -/
def pluralSign : Text :=
  Text.ofString "(plural)"

theorem toText_of_isNamed {ref : TypeRef} (h : IsNamed ref) : ∃ name, isTypeName name ∧
    ref.name? = some name ∧ ref.toText = if ref.single then name else name ++ pluralSign := by
  obtain ⟨type, htype, hname⟩ := h
  refine ⟨type.name, hname, ?_, ?_⟩
  · rw [TypeRef.name?, htype, Option.map_some]
  · rw [TypeRef.toText, htype]
    rfl

theorem notMem_toText {ref : TypeRef} (h : IsNamed ref) :
    0x20 ∉ ref.toText ∧ 0x0A ∉ ref.toText ∧ 0x2F ∉ ref.toText := by
  obtain ⟨name, hname, -, htext⟩ := toText_of_isNamed h
  have hsign : 0x20 ∉ pluralSign ∧ 0x0A ∉ pluralSign ∧ 0x2F ∉ pluralSign := by decide
  have hnot := notMem_of_isTypeName hname
  rw [htext]
  split_ifs <;> simp [hnot, hsign]

/-- **A reference in words tells the reference.** -/
theorem same_of_toText_eq {r s : TypeRef} (hr : IsNamed r) (hs : IsNamed s)
    (h : r.toText = s.toText) : r.same s := by
  obtain ⟨name, hname, hr, htext⟩ := toText_of_isNamed hr
  obtain ⟨name', hname', hs, htext'⟩ := toText_of_isNamed hs
  have hopen {name other : Text} (hname : isTypeName name) : name ≠ other ++ pluralSign := by
    rintro rfl
    refine (notMem_of_isTypeName hname).2.2.1 (List.mem_append_right _ ?_)
    decide
  rw [htext, htext'] at h
  rw [TypeRef.same_iff, hr, hs, Option.some.injEq]
  split_ifs at h with hsingle hsingle' hsingle'
  · exact ⟨hsingle.trans hsingle'.symm, h⟩
  · exact absurd h (hopen hname)
  · exact absurd h.symm (hopen hname')
  · rw [Bool.not_eq_true] at hsingle hsingle'
    exact ⟨hsingle.trans hsingle'.symm, List.append_cancel_right h⟩

theorem sameRefs_of_map_toText_eq {refs refs' : List TypeRef} (h : ∀ ref ∈ refs, IsNamed ref)
    (h' : ∀ ref ∈ refs', IsNamed ref)
    (heq : refs.map TypeRef.toText = refs'.map TypeRef.toText) : Pattern.sameRefs refs refs' := by
  match refs, refs' with
  | [], [] => rfl
  | [], _ :: _ => simp at heq
  | _ :: _, [] => simp at heq
  | ref :: refs, ref' :: refs' =>
    obtain ⟨href, hrefs⟩ := List.forall_mem_cons.1 h
    obtain ⟨href', hrefs'⟩ := List.forall_mem_cons.1 h'
    obtain ⟨hhead, htail⟩ := List.cons.inj heq
    rw [Pattern.sameRefs, same_of_toText_eq href href' hhead, Bool.true_and]
    exact sameRefs_of_map_toText_eq hrefs hrefs' htail

/-- What may fill a slot, as far as it has a meaning. -/
def declaredAcceptances : List Acceptance :=
  [.both, .literals, .expressions]

/-- The times that a slot may be read at, as far as they have a meaning. -/
def declaredTenses : List Tense :=
  [.none, .past, .future]

/-- A flag comes after a blank. -/
theorem head?_flagsText (flags : List Text) :
    ∀ b ∈ (flagsText false flags).head?, (b != 0x20) = false := by
  cases flags <;> simp [flagsText]

/-- A slot whose line can be told apart. -/
structure IsLegibleSlot (s : Slot) : Prop where
  /-- It has types. -/
  types_ne : s.types ≠ []
  /-- Its types have names. -/
  named : ∀ ref ∈ s.types, IsNamed ref
  /-- What may fill it has a meaning. -/
  acceptance : s.acceptance.isDeclared
  /-- The time it is read at has a meaning. -/
  tense : s.tense.isDeclared

namespace IsLegibleSlot

variable {s s' : Slot}

theorem notMem_slotTypes (h : IsLegibleSlot s) : 0x20 ∉ slotTypes s ∧ 0x0A ∉ slotTypes s := by
  constructor <;> intro hmem <;> obtain hslash | ⟨name, hname, hmem⟩ := Text.mem_join hmem
  · exact absurd hslash (by decide)
  · obtain ⟨ref, href, rfl⟩ := List.mem_map.1 hname
    exact (notMem_toText (h.named ref href)).1 hmem
  · exact absurd hslash (by decide)
  · obtain ⟨ref, href, rfl⟩ := List.mem_map.1 hname
    exact (notMem_toText (h.named ref href)).2.1 hmem

theorem sameRefs_of_slotTypes_eq (h : IsLegibleSlot s) (h' : IsLegibleSlot s')
    (heq : slotTypes s = slotTypes s') : Pattern.sameRefs s.types s'.types := by
  have splits {s : Slot} (h : IsLegibleSlot s) :
      Text.splitOn 0x2F (slotTypes s) = s.types.map TypeRef.toText := by
    refine Text.splitOn_join (by simpa using h.types_ne) fun name hname => ?_
    obtain ⟨ref, href, rfl⟩ := List.mem_map.1 hname
    exact (notMem_toText (h.named ref href)).2.2
  refine sameRefs_of_map_toText_eq h.named h'.named ?_
  rw [← splits h, heq, splits h']

/-- The slot without its types has the same flags. -/
theorem exists_flags (h : IsLegibleSlot s) :
    ∃ acceptance ∈ declaredAcceptances, ∃ tense ∈ declaredTenses, s.acceptance = acceptance ∧
      s.tense = tense ∧ slotFlags s = slotFlags ⟨[], s.nullable, acceptance, tense, []⟩ := by
  refine ⟨s.acceptance, ?_, s.tense, ?_, rfl, rfl, rfl⟩
  · have := h.acceptance
    cases hs : s.acceptance <;> simp_all [declaredAcceptances, Acceptance.isDeclared]
  · have := h.tense
    cases hs : s.tense <;> simp_all [declaredTenses, Tense.isDeclared]

theorem newline_notMem_flagsText (h : IsLegibleSlot s) : 0x0A ∉ flagsText false (slotFlags s) := by
  have hall : ∀ a ∈ declaredAcceptances, ∀ t ∈ declaredTenses, ∀ n : Bool,
      0x0A ∉ flagsText false (slotFlags ⟨[], n, a, t, []⟩) := by decide
  obtain ⟨a, ha, t, ht, -, -, hflags⟩ := h.exists_flags
  rw [hflags]
  exact hall a ha t ht s.nullable

theorem eq_of_flagsText_eq (h : IsLegibleSlot s) (h' : IsLegibleSlot s')
    (heq : flagsText false (slotFlags s) = flagsText false (slotFlags s')) :
    s.nullable = s'.nullable ∧ s.acceptance = s'.acceptance ∧ s.tense = s'.tense := by
  have hall : ∀ a ∈ declaredAcceptances, ∀ t ∈ declaredTenses, ∀ n : Bool,
      ∀ a' ∈ declaredAcceptances, ∀ t' ∈ declaredTenses, ∀ n' : Bool,
      flagsText false (slotFlags ⟨[], n, a, t, []⟩) =
        flagsText false (slotFlags ⟨[], n', a', t', []⟩) → n = n' ∧ a = a' ∧ t = t' := by
    decide +kernel
  obtain ⟨a, ha, t, ht, hacceptance, htense, hflags⟩ := h.exists_flags
  obtain ⟨a', ha', t', ht', hacceptance', htense', hflags'⟩ := h'.exists_flags
  rw [hflags, hflags'] at heq
  rw [hacceptance, htense, hacceptance', htense']
  exact hall a ha t ht s.nullable a' ha' t' ht' s'.nullable heq

/-- **The line of a slot tells the slot.** -/
theorem sameSlot_of_line_eq (h : IsLegibleSlot s) (h' : IsLegibleSlot s')
    (heq : slotTypes s ++ flagsText false (slotFlags s) =
      slotTypes s' ++ flagsText false (slotFlags s')) : Pattern.sameSlot s s' := by
  have noBlank {s : Slot} (h : IsLegibleSlot s) : ∀ b ∈ slotTypes s, (b != 0x20) = true := by
    intro b hb
    rw [bne_iff_ne]
    rintro rfl
    exact h.notMem_slotTypes.1 hb
  obtain ⟨htypes, hflags⟩ := Text.span_unique (noBlank h) (noBlank h')
    (head?_flagsText _) (head?_flagsText _) heq
  obtain ⟨hnullable, hacceptance, htense⟩ := h.eq_of_flagsText_eq h' hflags
  simp [Pattern.sameSlot, hnullable, hacceptance, htense, h.sameRefs_of_slotTypes_eq h' htypes]

end IsLegibleSlot

/-! ### Nodes -/

/-- A node whose own lines can be told apart. -/
def IsLegible : Pattern → Prop
  | .choice alternatives => ∀ branch ∈ alternatives, 0 ≤ branch.1.toInt
  | .regex source _ => 0x0A ∉ source
  | .slot s => IsLegibleSlot s
  | .unknown _ => False
  | .text _ | .sequence _ | .optional _ => True

/-- The line of a mark tells the mark. -/
theorem mark_unique {level : Nat} {mark mark' : Mark} {r s : Text} (h : 0 ≤ mark.toInt)
    (h' : 0 ≤ mark'.toInt)
    (heq : markLine false level mark ++ r = markLine false level mark' ++ s) :
    mark = mark' ∧ r = s := by
  simp only [markLine_eq, List.append_assoc, List.cons_append, List.nil_append] at heq
  replace heq := (List.cons.inj (List.append_cancel_left (List.append_cancel_left heq))).2
  obtain ⟨-, hdigits, -, hvalue⟩ := Pattern.ofInt_mark h
  obtain ⟨-, hdigits', -, hvalue'⟩ := Pattern.ofInt_mark h'
  obtain ⟨hnumber, -, hrest⟩ := Pattern.digits_unique hdigits hdigits' (by decide) (by decide) heq
  refine ⟨?_, hrest⟩
  rw [← hvalue, hnumber, hvalue']

theorem resumes_childLines {level : Nat} {r : Text} (hr : Resumes level r) (ps : List Pattern) :
    Resumes level (childLines false level ps ++ r) := by
  cases ps with
  | nil => exact hr
  | cons p ps =>
    rw [childLines, List.append_assoc]
    exact resumes_treeLines level p _

/-- The lines of branches begin with those of a node, or with the line of a mark. -/
theorem exists_branchLines (level : Nat) (branch : Mark × Pattern) (rest : List (Mark × Pattern)) :
    ∃ b more, b ≠ 0x20 ∧ branchLines false level (branch :: rest) = indent level ++ b :: more := by
  obtain ⟨mark, p⟩ := branch
  rw [branchLines]
  split_ifs
  · obtain ⟨b, more, hb, hlines⟩ := exists_treeLines level p
    exact ⟨b, more ++ branchLines false level rest, hb, by simp [hlines]⟩
  · rw [markLine_eq, List.append_assoc, List.append_assoc]
    exact ⟨_, _, by decide, rfl⟩

theorem resumes_branchLines {level : Nat} {r : Text} (hr : Resumes level r)
    (branches : List (Mark × Pattern)) :
    Resumes level (branchLines false level branches ++ r) := by
  cases branches with
  | nil => exact hr
  | cons branch rest =>
    obtain ⟨b, more, hb, hlines⟩ := exists_branchLines level branch rest
    exact .inr ⟨level, b, more ++ r, Nat.le_refl _, hb, by simp [hlines]⟩

/-- Lines of one level begin with one kind, and go on alike. -/
theorem kindText_unique {level : Nat} {a b : Pattern} {r s : Text}
    (h : treeLines false level a ++ r = treeLines false level b ++ s) :
    a.kindText = b.kindText ∧ nodeRest level a ++ r = nodeRest level b ++ s := by
  rw [treeLines_eq, treeLines_eq, List.append_assoc, List.append_assoc, List.append_assoc,
    List.append_assoc] at h
  exact Text.span_unique isInWord_of_mem_kindText isInWord_of_mem_kindText
    (isInWord_nodeRest level a r) (isInWord_nodeRest level b s) (List.append_cancel_left h)

/-- The line of a mark is not that of a node. -/
theorem treeLines_ne_markLine {level : Nat} {p : Pattern} {mark : Mark} {r s : Text} :
    treeLines false level p ++ r ≠ markLine false level mark ++ s := by
  intro h
  rw [treeLines_eq, markLine_eq, List.append_assoc, List.append_assoc, List.append_assoc,
    List.append_assoc] at h
  have hmark : ∀ b ∈ Text.ofString "mark", isInWord b := List.all_eq_true.1 (by decide)
  have hword := (Text.span_unique isInWord_of_mem_kindText hmark
    (isInWord_nodeRest level p r) (by rintro b ⟨⟩; rfl) (List.append_cancel_left h)).1
  cases p <;> revert hword <;> simp only [Pattern.kindText] <;> decide

mutual

/-- **The lines of a node tell the node, and where they end.** -/
theorem same_of_treeLines_eq {a b : Pattern} {level : Nat} {r s : Text}
    (ha : AllNodes IsLegible a) (hb : AllNodes IsLegible b) (hr : Resumes level r)
    (hs : Resumes level s) (h : treeLines false level a ++ r = treeLines false level b ++ s) :
    Same a b ∧ r = s := by
  obtain ⟨hkind, hrest⟩ := kindText_unique h
  cases a with
  | text content =>
    cases b with
    | text content' =>
      simp only [nodeRest, List.cons_append, List.append_assoc, List.nil_append] at hrest
      obtain ⟨hquoted, hrest⟩ := Text.line_unique (Text.newline_notMem_quoted _)
        (Text.newline_notMem_quoted _) (List.cons.inj hrest).2
      exact ⟨Pattern.same_text.2 (by rw [Text.quoted_injective hquoted]), hrest⟩
    | _ => exact absurd hkind (by simp only [Pattern.kindText]; decide)
  | regex source finder =>
    cases b with
    | regex source' finder' =>
      simp only [nodeRest, List.cons_append, List.append_assoc, List.nil_append] at hrest
      obtain ⟨rfl, hmore⟩ := Text.line_unique (ha _ (.root _)) (hb _ (.root _))
        (List.cons.inj hrest).2
      exact ⟨Pattern.same_regex.2 ⟨_, rfl⟩, hmore⟩
    | _ => exact absurd hkind (by simp only [Pattern.kindText]; decide)
  | slot s =>
    cases b with
    | slot s' =>
      have hslot : IsLegibleSlot s := ha _ (.root _)
      have hslot' : IsLegibleSlot s' := hb _ (.root _)
      have inLine {s : Slot} (h : IsLegibleSlot s) :
          0x0A ∉ slotTypes s ++ flagsText false (slotFlags s) := by
        simp [h.notMem_slotTypes.2, h.newline_notMem_flagsText]
      simp only [nodeRest, List.cons_append] at hrest
      rw [List.append_assoc, List.append_assoc (slotTypes s' ++ _)] at hrest
      obtain ⟨hline, hrest⟩ := Text.line_unique (inLine hslot) (inLine hslot')
        (List.cons.inj hrest).2
      exact ⟨Pattern.same_slot.2 ⟨s, rfl, hslot.sameSlot_of_line_eq hslot' hline⟩, hrest⟩
    | _ => exact absurd hkind (by simp only [Pattern.kindText]; decide)
  | sequence as =>
    cases b with
    | sequence bs =>
      obtain ⟨hall, hrest⟩ := same_of_childLines_eq ha.child hb.child hr hs (List.cons.inj hrest).2
      exact ⟨Pattern.same_sequence.2 hall, hrest⟩
    | _ => exact absurd hkind (by simp only [Pattern.kindText]; decide)
  | optional a =>
    cases b with
    | optional b =>
      obtain ⟨hsame, hrest⟩ := same_of_treeLines_eq ha.inside hb.inside (hr.mono (Nat.le_succ _))
        (hs.mono (Nat.le_succ _)) (List.cons.inj hrest).2
      exact ⟨Pattern.same_optional.2 hsame, hrest⟩
    | _ => exact absurd hkind (by simp only [Pattern.kindText]; decide)
  | choice as =>
    cases b with
    | choice bs =>
      obtain ⟨hall, hrest⟩ := same_of_branchLines_eq (ha _ (.root _)) (hb _ (.root _)) ha.branch
        hb.branch hr hs (List.cons.inj hrest).2
      exact ⟨Pattern.same_choice.2 hall, hrest⟩
    | _ => exact absurd hkind (by simp only [Pattern.kindText]; decide)
  | unknown label => exact (ha _ (.root _)).elim

/-- The lines of the parts of a node tell how many there are: what follows is not as deep. -/
theorem same_of_childLines_eq {as bs : List Pattern} {level : Nat} {r s : Text}
    (ha : ∀ p ∈ as, AllNodes IsLegible p) (hb : ∀ p ∈ bs, AllNodes IsLegible p)
    (hr : Resumes level r) (hs : Resumes level s)
    (h : childLines false (level + 1) as ++ r = childLines false (level + 1) bs ++ s) :
    List.Forall₂ Same as bs ∧ r = s := by
  match as, bs with
  | [], [] => exact ⟨.nil, h⟩
  | [], b :: bs =>
    obtain ⟨c, rest, hc, hlines⟩ := exists_treeLines (level + 1) b
    rw [childLines, List.nil_append, childLines, hlines, List.append_assoc, List.append_assoc,
      List.cons_append] at h
    exact absurd (h ▸ hr) (not_resumes_of_lt (Nat.lt_succ_self _) hc)
  | a :: as, [] =>
    obtain ⟨c, rest, hc, hlines⟩ := exists_treeLines (level + 1) a
    rw [childLines, childLines, List.nil_append, hlines, List.append_assoc, List.append_assoc,
      List.cons_append] at h
    exact absurd (h ▸ hs) (not_resumes_of_lt (Nat.lt_succ_self _) hc)
  | a :: as, b :: bs =>
    obtain ⟨ha, has⟩ := List.forall_mem_cons.1 ha
    obtain ⟨hb, hbs⟩ := List.forall_mem_cons.1 hb
    rw [childLines, childLines, List.append_assoc, List.append_assoc] at h
    obtain ⟨hsame, h⟩ := same_of_treeLines_eq ha hb
      (resumes_childLines (hr.mono (Nat.le_succ _)) as)
      (resumes_childLines (hs.mono (Nat.le_succ _)) bs) h
    obtain ⟨hall, hrest⟩ := same_of_childLines_eq has hbs hr hs h
    exact ⟨.cons hsame hall, hrest⟩

/-- A branch with a mark stands below the line of the mark, and one without does not. -/
theorem same_of_branchLines_eq {as bs : List (Mark × Pattern)} {level : Nat} {r s : Text}
    (hmark : ∀ branch ∈ as, 0 ≤ branch.1.toInt) (hmark' : ∀ branch ∈ bs, 0 ≤ branch.1.toInt)
    (ha : ∀ branch ∈ as, AllNodes IsLegible branch.2)
    (hb : ∀ branch ∈ bs, AllNodes IsLegible branch.2) (hr : Resumes level r) (hs : Resumes level s)
    (h : branchLines false (level + 1) as ++ r = branchLines false (level + 1) bs ++ s) :
    List.Forall₂ SameBranch as bs ∧ r = s := by
  match as, bs with
  | [], [] => exact ⟨.nil, h⟩
  | [], b :: bs =>
    obtain ⟨c, rest, hc, hlines⟩ := exists_branchLines (level + 1) b bs
    rw [branchLines, List.nil_append, hlines, List.append_assoc, List.cons_append] at h
    exact absurd (h ▸ hr) (not_resumes_of_lt (Nat.lt_succ_self _) hc)
  | a :: as, [] =>
    obtain ⟨c, rest, hc, hlines⟩ := exists_branchLines (level + 1) a as
    rw [branchLines, List.nil_append, hlines, List.append_assoc, List.cons_append] at h
    exact absurd (h ▸ hs) (not_resumes_of_lt (Nat.lt_succ_self _) hc)
  | (mark, a) :: as, (mark', b) :: bs =>
    obtain ⟨hm, hmark⟩ := List.forall_mem_cons.1 hmark
    obtain ⟨hm', hmark'⟩ := List.forall_mem_cons.1 hmark'
    obtain ⟨ha, has⟩ := List.forall_mem_cons.1 ha
    obtain ⟨hb, hbs⟩ := List.forall_mem_cons.1 hb
    have hr' := resumes_branchLines (hr.mono (Nat.le_succ _)) as
    have hs' := resumes_branchLines (hs.mono (Nat.le_succ _)) bs
    rw [branchLines, branchLines, List.append_assoc, List.append_assoc] at h
    split_ifs at h with hzero hzero' hzero'
    · obtain ⟨hsame, h⟩ := same_of_treeLines_eq ha hb hr' hs' h
      obtain ⟨hall, hrest⟩ := same_of_branchLines_eq hmark hmark' has hbs hr hs h
      exact ⟨.cons ⟨hzero.trans hzero'.symm, hsame⟩ hall, hrest⟩
    · rw [List.append_assoc] at h
      exact absurd h treeLines_ne_markLine
    · rw [List.append_assoc] at h
      exact absurd h.symm treeLines_ne_markLine
    · rw [List.append_assoc, List.append_assoc] at h
      obtain ⟨hmarks, h⟩ := mark_unique hm hm' h
      obtain ⟨hsame, h⟩ := same_of_treeLines_eq ha hb (hr'.mono (Nat.le_succ _))
        (hs'.mono (Nat.le_succ _)) h
      obtain ⟨hall, hrest⟩ := same_of_branchLines_eq hmark hmark' has hbs hr hs h
      exact ⟨.cons ⟨hmarks, hsame⟩ hall, hrest⟩

end

/-! ### Trees that are the same -/

theorem toText_congr {r s : TypeRef} (h : r.same s) : r.toText = s.toText := by
  obtain ⟨hsingle, hname⟩ := TypeRef.same_iff.1 h
  obtain ⟨type, single⟩ := r
  obtain ⟨type', single'⟩ := s
  obtain rfl : single = single' := hsingle
  cases type <;> cases type' <;> simp_all [TypeRef.name?, TypeRef.toText]

theorem map_toText_congr {refs refs' : List TypeRef} (h : Pattern.sameRefs refs refs') :
    refs.map TypeRef.toText = refs'.map TypeRef.toText := by
  match refs, refs' with
  | [], [] => rfl
  | ref :: refs, ref' :: refs' =>
    obtain ⟨hfirst, hrest⟩ := Bool.and_eq_true_iff.1 h
    rw [List.map_cons, List.map_cons, toText_congr hfirst, map_toText_congr hrest]

mutual

/-- **Trees that are the same have the same lines**, at every level and in every colour. -/
theorem treeLines_congr (colours : Bool) (level : Nat) {a b : Pattern} (h : Same a b) :
    treeLines colours level a = treeLines colours level b := by
  cases b with
  | text content => rw [Pattern.same_text.1 h]
  | regex source finder =>
    obtain ⟨finder', rfl⟩ := Pattern.same_regex.1 h
    rfl
  | slot s =>
    obtain ⟨s', rfl, hslot⟩ := Pattern.same_slot.1 h
    simp only [Pattern.sameSlot, Bool.and_eq_true, beq_iff_eq] at hslot
    obtain ⟨⟨⟨hnullable, htense⟩, hacceptance⟩, hrefs⟩ := hslot
    have htypes : slotTypes s' = slotTypes s :=
      congrArg (Text.join [0x2F]) (map_toText_congr hrefs)
    have hflags : slotFlags s' = slotFlags s := by
      rw [slotFlags, slotFlags, hnullable, hacceptance, htense]
    rw [treeLines, treeLines, htypes, hflags]
    rfl
  | sequence bs =>
    obtain ⟨as, rfl, hall⟩ := Pattern.exists_of_same_sequence h
    rw [treeLines, treeLines, childLines_congr colours (level + 1) hall]
    rfl
  | optional b =>
    obtain ⟨a, rfl, hsame⟩ := Pattern.exists_of_same_optional h
    rw [treeLines, treeLines, treeLines_congr colours (level + 1) hsame]
    rfl
  | choice bs =>
    obtain ⟨as, rfl, hall⟩ := Pattern.exists_of_same_choice h
    rw [treeLines, treeLines, branchLines_congr colours (level + 1) hall]
    rfl
  | unknown label => exact absurd h Pattern.not_same_unknown

theorem childLines_congr (colours : Bool) (level : Nat) {as bs : List Pattern}
    (h : List.Forall₂ Same as bs) : childLines colours level as = childLines colours level bs := by
  match bs, h with
  | [], .nil => rfl
  | b :: bs, .cons hsame hall =>
    rw [childLines, childLines, treeLines_congr colours level hsame,
      childLines_congr colours level hall]

theorem branchLines_congr (colours : Bool) (level : Nat) {as bs : List (Mark × Pattern)}
    (h : List.Forall₂ SameBranch as bs) :
    branchLines colours level as = branchLines colours level bs := by
  match bs, h with
  | [], .nil => rfl
  | (mark, b) :: bs, @List.Forall₂.cons _ _ _ (mark', a) _ as _ ⟨hmark, hsame⟩ hall =>
    obtain rfl : mark' = mark := hmark
    rw [branchLines, branchLines, treeLines_congr colours level hsame,
      treeLines_congr colours (level + 1) hsame, branchLines_congr colours level hall]

end

/-! ### Compiled trees -/

mutual

/-- The sources of the regular expressions in a tree. -/
def expressions : Pattern → List Text
  | .sequence children => allExpressions children
  | .optional child => expressions child
  | .choice alternatives => branchExpressions alternatives
  | .regex source _ => [source]
  | .text _ | .slot _ | .unknown _ => []

/-- The sources of the regular expressions in trees. -/
def allExpressions : List Pattern → List Text
  | [] => []
  | p :: ps => expressions p ++ allExpressions ps

/-- The sources of the regular expressions in branches. -/
def branchExpressions : List (Mark × Pattern) → List Text
  | [] => []
  | (_, p) :: rest => expressions p ++ branchExpressions rest

end

theorem mem_allExpressions {p : Pattern} {ps : List Pattern} {source : Text} (hmem : p ∈ ps)
    (h : source ∈ expressions p) : source ∈ allExpressions ps := by
  induction hmem with
  | head ps => exact List.mem_append_left _ h
  | tail q _ ih => exact List.mem_append_right _ ih

theorem mem_branchExpressions {mark : Mark} {p : Pattern} {branches : List (Mark × Pattern)}
    {source : Text} (hmem : (mark, p) ∈ branches) (h : source ∈ expressions p) :
    source ∈ branchExpressions branches := by
  induction hmem with
  | head rest => exact List.mem_append_left _ h
  | tail other _ ih => exact List.mem_append_right _ ih

theorem mem_expressions {p node : Pattern} {source : Text} {finder : Option Regex.Finder}
    (h : p.HasNode node) (hnode : node = .regex source finder) : source ∈ expressions p := by
  induction h with
  | root p =>
    subst hnode
    exact List.mem_singleton_self source
  | child hmem _ ih => exact mem_allExpressions hmem (ih hnode)
  | inside _ ih => exact ih hnode
  | branch hmem _ ih => exact mem_branchExpressions hmem (ih hnode)

section Compiled

variable {dialect : Regex.Dialect} {registry : Registry}

/-- The types of a slot that is read have the names of types of the registry. -/
theorem isLegibleSlot_of_readSlot? (hnames : ∀ type ∈ registry.types, isTypeName type.name)
    {inner : Text} {s : Slot} (h : Pattern.readSlot? registry inner = some s) :
    IsLegibleSlot s := by
  obtain ⟨hacceptance, htense, hne, -, -⟩ :=
    Pattern.isNormal_iff.1 (Pattern.isNormal_of_readSlot? h)
  refine ⟨hne, fun ref href => ?_, hacceptance, htense⟩
  obtain ⟨name, hname⟩ := Pattern.typeRef?_of_readSlot? h ref href
  obtain ⟨type, hmem, htype⟩ := Registry.exists_mem_of_typeRef? hname
  exact ⟨type, htype, hnames type hmem⟩

/-- The nodes of a compiled tree can be told apart, if no line ends within its regular
expressions. -/
theorem isLegible_of_compile (hnames : ∀ type ∈ registry.types, isTypeName type.name)
    {source : Text} {t : Pattern} (h : Pattern.compile dialect registry source = .ok t)
    (hlines : ∀ expression ∈ expressions t, 0x0A ∉ expression) : AllNodes IsLegible t := by
  have hrules : Pattern.NodeRules dialect registry fun p =>
      (∀ source finder, p = .regex source finder → 0x0A ∉ source) → IsLegible p :=
    { text := fun _ _ => trivial
      sequence := fun _ _ _ _ => trivial
      optional := fun _ _ => trivial
      choice := fun _ _ hmark _ => hmark
      regex := fun source find _ _ hline => hline source _ rfl
      slot := fun _ _ hs _ => isLegibleSlot_of_readSlot? hnames hs }
  intro node hnode
  refine Pattern.allNodes_of_compile hrules h node hnode fun source finder hregex => ?_
  exact hlines source (mem_expressions hnode hregex)

end Compiled

/-- **Trees on paper tell patterns apart.**  When the names of a registry's types are made of
letters, digits and underscores, two trees that are compiled with it look alike on paper, without
colours, exactly when they are the same; no line may end within a regular expression. -/
theorem tree_eq_tree_iff {dialect : Regex.Dialect} {registry : Registry}
    (hnames : ∀ type ∈ registry.types, isTypeName type.name) {source source' : Text}
    {a b : Pattern} (ha : Pattern.compile dialect registry source = .ok a)
    (hb : Pattern.compile dialect registry source' = .ok b)
    (hlinesa : ∀ expression ∈ expressions a, 0x0A ∉ expression)
    (hlinesb : ∀ expression ∈ expressions b, 0x0A ∉ expression) :
    tree false a = tree false b ↔ Pattern.equal? a b = some true := by
  constructor
  · intro h
    have hlines : treeLines false 0 a ++ [] = treeLines false 0 b ++ [] := by
      rw [List.append_nil, List.append_nil]
      exact h
    exact (same_of_treeLines_eq (isLegible_of_compile hnames ha hlinesa)
      (isLegible_of_compile hnames hb hlinesb) (.inl rfl) (.inl rfl) hlines).1
  · intro h
    exact treeLines_congr false 0 h

/-- Two ways to write one order, with a mark, with a slot for several strings, and with an
expression that reads like the line of a mark. -/
def orders : Text × Text :=
  (Text.ofString "(2¦a|[b%texts/number@1%])<mark 2>",
    Text.ofString "(02¦a|[b%strings/number@1%])<mark 2>")

/-- They are written back differently, and look alike on paper: so they are the same. -/
theorem tree_eq_tree_iff_orders :
    (∀ type ∈ Pattern.builtinTypes.types, isTypeName type.name) ∧
    ∃ a b, Pattern.compile Regex.backtracking Pattern.builtinTypes orders.1 = .ok a ∧
      Pattern.compile Regex.backtracking Pattern.builtinTypes orders.2 = .ok b ∧
      (∀ expression ∈ expressions a, 0x0A ∉ expression) ∧
      (∀ expression ∈ expressions b, 0x0A ∉ expression) ∧ a.render ≠ b.render ∧
      tree false a = tree false b ∧ Pattern.equal? a b = some true := by
  have hnames : (Pattern.builtinTypes.types.map ValueType.name).all isTypeName := by
    decide +kernel
  replace hnames : ∀ type ∈ Pattern.builtinTypes.types, isTypeName type.name := by
    simpa using hnames
  have hcompiles : (Pattern.compile Regex.backtracking Pattern.builtinTypes orders.1).toOption.any
      fun a => (Pattern.compile Regex.backtracking Pattern.builtinTypes orders.2).toOption.any
        fun b => decide (∀ expression ∈ expressions a, 0x0A ∉ expression) &&
          decide (∀ expression ∈ expressions b, 0x0A ∉ expression) &&
          decide (a.render ≠ b.render) && decide (tree false a = tree false b) := by
    decide +kernel
  simp only [Option.any_eq_true, Pattern.toOption_eq_some, Bool.and_eq_true, decide_eq_true_eq]
    at hcompiles
  obtain ⟨a, ha, b, hb, ⟨⟨hlines, hlines'⟩, hrender⟩, htree⟩ := hcompiles
  exact ⟨hnames, a, b, ha, hb, hlines, hlines', hrender, htree,
    (tree_eq_tree_iff hnames ha hb hlines hlines').1 htree⟩

end Report

end Phrasebook
