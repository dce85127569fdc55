import Phrasebook.Files
import Phrasebook.Proofs.Text.Pieces

/-!
# Paths without detours

Cleaning a path keeps the names that it really goes along.  They are kept as a stack, the latest
first, in which names that go up can only be at the bottom, and such a stack is read back from the
path that it spells.

* `Path.IsTidy` : stacks of names without detours.
* `Path.kept_clean` : cleaning a path again changes nothing.
* `Path.below` : the path that names lead to from a folder.
* `Path.child_below` : it is reached name by name.
* `Path.below_inj` : **different names lead to different paths.**
-/

namespace Phrasebook

namespace Path

/-- Names that something in a folder can have. -/
structure IsName (name : Text) : Prop where
  /-- The name is one name. -/
  notMem : separator ∉ name
  /-- It does not stay in the folder. -/
  notHere : isHere name = false
  /-- It does not go to the folder around. -/
  notUp : isUp name = false

instance (name : Text) : Decidable (IsName name) :=
  decidable_of_iff (separator ∉ name ∧ isHere name = false ∧ isUp name = false)
    ⟨fun ⟨hmem, hhere, hup⟩ => ⟨hmem, hhere, hup⟩, fun h => ⟨h.notMem, h.notHere, h.notUp⟩⟩

/-- Whether a path begins at the root of everything. -/
def isFromRoot (path : Text) : Bool :=
  decide (path.head? = some separator)

/-- The names that cleaning a path keeps, the latest first. -/
def kept (path : Text) : List Text :=
  (names path).foldl (addName (isFromRoot path)) []

/-- The path along names that were kept. -/
def ofKept (fromRoot : Bool) (before : List Text) : Text :=
  if fromRoot then separator :: Text.join [separator] before.reverse
  else if before = [] then Text.ofString "."
  else Text.join [separator] before.reverse

theorem clean_eq (path : Text) : clean path = ofKept (isFromRoot path) (kept path) := by
  simp only [clean, ofKept, kept, isFromRoot, decide_eq_true_eq, List.isEmpty_iff,
    List.reverse_eq_nil_iff]
  congr

/-! ### Stacks of names -/

/-- Stacks of names without detours: names that go up have nothing but such names below them, and
there are none where there is nothing above. -/
def IsTidy (fromRoot : Bool) : List Text → Prop
  | [] => True
  | name :: before =>
    (separator ∉ name ∧ isHere name = false ∧
      (isUp name → fromRoot = false ∧ ∀ other ∈ before, isUp other)) ∧
    IsTidy fromRoot before

section Stacks

variable {fromRoot : Bool} {before : List Text} {name : Text}

theorem IsTidy.cons (h : IsTidy fromRoot before) (hname : IsName name) :
    IsTidy fromRoot (name :: before) :=
  ⟨⟨hname.notMem, hname.notHere, by simp [hname.notUp]⟩, h⟩

theorem IsTidy.forall_mem (h : IsTidy fromRoot before) :
    ∀ name ∈ before, separator ∉ name ∧ isHere name = false := by
  induction before with
  | nil => simp
  | cons first before ih => exact List.forall_mem_cons.2 ⟨⟨h.1.1, h.1.2.1⟩, ih h.2⟩

theorem addName_of_isName (hname : IsName name) :
    addName fromRoot before name = name :: before := by
  unfold addName
  rw [if_neg (by simp [hname.notHere]), if_neg (by simp [hname.notUp])]

theorem IsTidy.addName (h : IsTidy fromRoot before) (hname : separator ∉ name) :
    IsTidy fromRoot (addName fromRoot before name) := by
  by_cases hhere : isHere name = true
  · unfold Path.addName
    rwa [if_pos hhere]
  rw [Bool.not_eq_true] at hhere
  by_cases hup : isUp name = true
  · unfold Path.addName
    rw [if_neg (by simp [hhere]), if_pos hup]
    cases before with
    | nil =>
      cases fromRoot with
      | true => exact trivial
      | false => exact ⟨⟨hname, hhere, fun _ => ⟨rfl, by simp⟩⟩, trivial⟩
    | cons last rest =>
      simp only
      split_ifs with hlast
      · obtain ⟨hroot, hrest⟩ := h.1.2.2 hlast
        exact ⟨⟨hname, hhere, fun _ => ⟨hroot, List.forall_mem_cons.2 ⟨hlast, hrest⟩⟩⟩, h⟩
      · exact h.2
  · rw [Bool.not_eq_true] at hup
    have hplain : IsName name := ⟨hname, hhere, hup⟩
    rw [addName_of_isName hplain]
    exact h.cons hplain

theorem IsTidy.foldl {names : List Text} (h : IsTidy fromRoot before)
    (hnames : ∀ name ∈ names, separator ∉ name) :
    IsTidy fromRoot (names.foldl (Path.addName fromRoot) before) := by
  induction names generalizing before with
  | nil => exact h
  | cons name names ih =>
    obtain ⟨hname, hnames⟩ := List.forall_mem_cons.1 hnames
    exact ih (h.addName hname) hnames

/-- A name is put on top where the stack stays tidy. -/
theorem addName_of_isTidy (h : IsTidy fromRoot (name :: before)) :
    addName fromRoot before name = name :: before := by
  obtain ⟨⟨-, hhere, hup⟩, -⟩ := h
  unfold addName
  rw [if_neg (by simp [hhere])]
  by_cases hname : isUp name = true
  · rw [if_pos hname]
    obtain ⟨rfl, hbefore⟩ := hup hname
    cases before with
    | nil => rfl
    | cons last rest => exact if_pos (hbefore last List.mem_cons_self)
  · rw [if_neg hname]

theorem foldl_reverse_of_isTidy (h : IsTidy fromRoot before) :
    before.reverse.foldl (addName fromRoot) [] = before := by
  induction before with
  | nil => rfl
  | cons name before ih =>
    rw [List.reverse_cons, List.foldl_append, ih h.2]
    exact addName_of_isTidy h

theorem foldl_of_isName {names : List Text} (h : ∀ name ∈ names, IsName name) :
    names.foldl (addName fromRoot) before = names.reverse ++ before := by
  induction names generalizing before with
  | nil => rfl
  | cons name names ih =>
    obtain ⟨hname, hnames⟩ := List.forall_mem_cons.1 h
    rw [List.foldl_cons, addName_of_isName hname, ih hnames, List.reverse_cons, List.append_assoc,
      List.singleton_append]

theorem isTidy_kept (path : Text) : IsTidy (isFromRoot path) (kept path) :=
  IsTidy.foldl trivial fun _ hname hmem => (Text.mem_of_mem_splitOn hname _ hmem).2 rfl

theorem head?_join {first : Text} (hne : first ≠ []) (rest : List Text) :
    (Text.join [separator] (first :: rest)).head? = first.head? := by
  obtain ⟨b, name, rfl⟩ := List.exists_cons_of_ne_nil hne
  cases rest <;> rfl

theorem IsTidy.exists_first (h : IsTidy fromRoot before) (hne : before ≠ []) :
    ∃ b first rest, before.reverse = (b :: first) :: rest ∧ b ≠ separator := by
  obtain ⟨name, rest, hreverse⟩ := List.exists_cons_of_ne_nil (List.reverse_ne_nil_iff.2 hne)
  have hmem : name ∈ before := List.mem_reverse.1 (hreverse ▸ List.mem_cons_self)
  obtain ⟨hslash, hhere⟩ := h.forall_mem name hmem
  cases name with
  | nil => cases hhere
  | cons b first =>
    rw [List.mem_cons, not_or] at hslash
    exact ⟨b, first, rest, hreverse, Ne.symm hslash.1⟩

theorem names_join (h : IsTidy fromRoot before) (hne : before ≠ []) :
    names (Text.join [separator] before.reverse) = before.reverse :=
  Text.splitOn_join (List.reverse_ne_nil_iff.2 hne) fun name hname =>
    (h.forall_mem name (List.mem_reverse.1 hname)).1

/-- Names that were kept are read back from the path along them. -/
theorem kept_ofKept (h : IsTidy fromRoot before) :
    isFromRoot (ofKept fromRoot before) = fromRoot ∧ kept (ofKept fromRoot before) = before := by
  cases fromRoot with
  | true =>
    refine ⟨rfl, ?_⟩
    -- the empty piece in front of the first separator stays where it is
    change ([] :: names (Text.join [separator] before.reverse)).foldl (addName true) [] = before
    by_cases hne : before = []
    · subst hne
      rfl
    · rw [names_join h hne]
      exact foldl_reverse_of_isTidy h
  | false =>
    by_cases hne : before = []
    · subst hne
      exact ⟨rfl, rfl⟩
    · obtain ⟨b, first, rest, hreverse, hb⟩ := h.exists_first hne
      have hroot : isFromRoot (Text.join [separator] before.reverse) = false := by
        rw [hreverse, isFromRoot, head?_join (List.cons_ne_nil b first)]
        exact decide_eq_false fun hhead => hb (Option.some.inj hhead)
      rw [ofKept, if_neg Bool.false_ne_true, if_neg hne]
      refine ⟨hroot, ?_⟩
      rw [kept, hroot, names_join h hne, foldl_reverse_of_isTidy h]

theorem ofKept_ne_nil (h : IsTidy fromRoot before) : ofKept fromRoot before ≠ [] := by
  intro hnil
  cases fromRoot with
  | true => cases hnil
  | false =>
    by_cases hne : before = []
    · subst hne
      cases hnil
    · obtain ⟨b, first, rest, hreverse, -⟩ := h.exists_first hne
      have hhead := head?_join (List.cons_ne_nil b first) rest
      rw [ofKept, if_neg Bool.false_ne_true, if_neg hne, hreverse] at hnil
      rw [hnil] at hhead
      cases hhead

end Stacks

/-! ### Paths along names -/

theorem isFromRoot_clean (path : Text) : isFromRoot (clean path) = isFromRoot path := by
  rw [clean_eq]
  exact (kept_ofKept (isTidy_kept path)).1

/-- **Cleaning keeps the names** that it would keep again. -/
theorem kept_clean (path : Text) : kept (clean path) = kept path := by
  rw [clean_eq]
  exact (kept_ofKept (isTidy_kept path)).2

theorem clean_clean (path : Text) : clean (clean path) = clean path := by
  rw [clean_eq (clean path), isFromRoot_clean, kept_clean, ← clean_eq]

theorem clean_ne_nil (path : Text) : clean path ≠ [] := by
  rw [clean_eq]
  exact ofKept_ne_nil (isTidy_kept path)

/-- The path of what names lead to, one inside the other, from a folder. -/
def below (folder : Text) (names : List Text) : Text :=
  clean (Text.join [separator] (folder :: names))

theorem child_eq_below (folder name : Text) : child folder name = below folder [name] := by
  rw [child, below, Text.join_cons _ _ (List.cons_ne_nil name []), List.append_assoc]
  rfl

section Below

variable {folder : Text} {names : List Text}

theorem isFromRoot_below (hfolder : folder ≠ []) (names : List Text) :
    isFromRoot (below folder names) = isFromRoot folder := by
  rw [below, isFromRoot_clean, isFromRoot, head?_join hfolder, isFromRoot]

theorem kept_below (hfolder : folder ≠ []) (hnames : ∀ name ∈ names, IsName name) :
    kept (below folder names) = names.reverse ++ kept folder := by
  rw [below, kept_clean]
  by_cases hne : names = []
  · subst hne
    rfl
  · have hsplit : Path.names (Text.join [separator] (folder :: names)) =
        Path.names folder ++ names := by
      rw [Text.join_cons _ _ hne, List.append_assoc, List.singleton_append, Path.names,
        Text.splitOn_append, Text.splitOn_join hne fun name hname => (hnames name hname).notMem]
      rfl
    have hroot : isFromRoot (Text.join [separator] (folder :: names)) = isFromRoot folder := by
      rw [isFromRoot, head?_join hfolder, isFromRoot]
    rw [kept, hsplit, hroot, List.foldl_append, foldl_of_isName hnames]
    rfl

theorem below_eq (hfolder : folder ≠ []) (hnames : ∀ name ∈ names, IsName name) :
    below folder names = ofKept (isFromRoot folder) (names.reverse ++ kept folder) := by
  rw [← isFromRoot_below hfolder names, ← kept_below hfolder hnames, ← clean_eq]
  exact (clean_clean _).symm

/-- The path of a name in a folder ends with the name, and a separator stands in front of it. -/
theorem exists_child_eq (hfolder : folder ≠ []) {name : Text} (hname : IsName name) :
    ∃ front, child folder name = front ++ name ∧ ∀ b ∈ front.getLast?, b = separator := by
  have hjoin : ∃ front, Text.join [separator] ((kept folder).reverse ++ [name]) = front ++ name ∧
      ∀ b ∈ front.getLast?, b = separator := by
    by_cases hne : (kept folder).reverse = []
    · exact ⟨[], by rw [hne]; rfl, by simp⟩
    · exact ⟨_, Text.join_concat _ _ hne, by simp⟩
  obtain ⟨front, hfront, hlast⟩ := hjoin
  rw [child_eq_below, below_eq hfolder (by simpa using hname), List.reverse_singleton,
    List.singleton_append, ofKept, List.reverse_cons, if_neg (List.cons_ne_nil name _), hfront]
  split_ifs
  · refine ⟨separator :: front, rfl, fun b hb => ?_⟩
    rw [List.getLast?_cons] at hb
    cases hfrontLast : front.getLast? with
    | none =>
      rw [hfrontLast] at hb
      exact (Option.some.inj hb).symm
    | some last =>
      rw [hfrontLast] at hb
      exact Option.some.inj hb ▸ hlast last hfrontLast
  · exact ⟨front, rfl, hlast⟩

/-- **Different names lead to different paths.** -/
theorem below_inj {others : List Text} (hfolder : folder ≠ [])
    (hnames : ∀ name ∈ names, IsName name) (hothers : ∀ name ∈ others, IsName name)
    (h : below folder names = below folder others) : names = others := by
  have hkept := kept_below hfolder hnames
  rw [h, kept_below hfolder hothers] at hkept
  exact (List.reverse_injective (List.append_cancel_right hkept)).symm

/-- The path that names lead to is reached name by name. -/
theorem child_below (hfolder : folder ≠ []) (hnames : ∀ name ∈ names, IsName name) {name : Text}
    (hname : IsName name) : child (below folder names) name = below folder (names ++ [name]) := by
  have hlast : ∀ other ∈ names ++ [name], IsName other := by
    rintro other hother
    rcases List.mem_append.1 hother with hother | hother
    · exact hnames other hother
    · exact List.mem_singleton.1 hother ▸ hname
  have hne : below folder names ≠ [] := clean_ne_nil _
  rw [child_eq_below, below_eq hne (by simpa using hname), below_eq hfolder hlast,
    isFromRoot_below hfolder, kept_below hfolder hnames, List.reverse_append, List.append_assoc]

end Below

end Path

end Phrasebook
