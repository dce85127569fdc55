import Mathlib.Data.List.Forall2
import Mathlib.Data.List.Nodup
import Phrasebook.Proofs.Files.Extensions
import Phrasebook.Proofs.Files.Paths

/-!
# Which files a scan finds

A scan walks through a tree of folders.  What it finds is told without the walk: the files that
names lead to from the folder, except below hidden folders, whose own names end with an extension of
a format.

* `Entry.IsWellNamed` : trees in which every name is that of one entry.
* `Entry.mem_filesBelow`, `Entry.nodup_filesBelow` : the files of a tree are those that names lead
  to, each of them once.
* `Entry.walk_eq` : the walk passes over all of them and keeps those that can be seen.
* `Text.le_iff` : texts are compared byte by byte.
* `scan_sees` : **a scan finds the definition files that can be seen, each of them once and in the
  order of their paths.**
-/

namespace Phrasebook

namespace Entry

/-- Trees whose folders have no name twice, and in which all names can stand in a path. -/
inductive IsWellNamed : Entry → Prop where
  /-- A file has no names in it. -/
  | file (contents : Text) : IsWellNamed (.file contents)
  /-- The entries of a folder have names of their own. -/
  | folder {entries : List (Text × Entry)} (hnodup : (entries.map Prod.fst).Nodup)
      (hnames : ∀ item ∈ entries, Path.IsName item.1)
      (hentries : ∀ item ∈ entries, IsWellNamed item.2) : IsWellNamed (.folder entries)

/-! ### The files of a tree -/

theorem filesAmong_eq (names : List Text) (entries : List (Text × Entry)) :
    filesAmong names entries =
      entries.flatMap fun item => filesBelow (names ++ [item.1]) item.2 := by
  induction entries with
  | nil => rfl
  | cons item rest ih => exact congrArg (filesBelow (names ++ [item.1]) item.2 ++ ·) ih

theorem lookup_eq_some_iff {entries : List (Text × Entry)} (h : (entries.map Prod.fst).Nodup)
    {name : Text} {e : Entry} : entries.lookup name = some e ↔ (name, e) ∈ entries := by
  induction entries with
  | nil => simp
  | cons item rest ih =>
    obtain ⟨other, e'⟩ := item
    obtain ⟨hother, hrest⟩ := List.nodup_cons.1 h
    by_cases hname : name = other
    · subst hname
      have hnot : (name, e) ∉ rest := fun hmem => hother (List.mem_map.2 ⟨_, hmem, rfl⟩)
      rw [List.lookup_cons_self, List.mem_cons, or_iff_left hnot, Option.some.injEq, Prod.mk.injEq,
        eq_comm, and_iff_right rfl]
    · have hne : (name, e) ≠ (other, e') := fun heq => hname (Prod.mk.inj heq).1
      rw [List.lookup_cons, beq_false_of_ne hname, List.mem_cons, or_iff_right hne]
      exact ih hrest

/-- The files of a tree are those that names lead to. -/
theorem mem_filesBelow {e : Entry} (h : e.IsWellNamed) {names place : List Text} {contents : Text} :
    (place, contents) ∈ filesBelow names e ↔
      ∃ rest, place = names ++ rest ∧ e.at? rest = some (.file contents) := by
  induction h generalizing names with
  | file stored =>
    constructor
    · intro hmem
      obtain ⟨rfl, rfl⟩ := Prod.mk.inj (List.mem_singleton.1 hmem)
      exact ⟨[], (List.append_nil _).symm, rfl⟩
    · rintro ⟨rest, rfl, hat⟩
      cases rest with
      | nil =>
        obtain rfl : stored = contents := Entry.file.inj (Option.some.inj hat)
        rw [List.append_nil]
        exact List.mem_singleton_self _
      | cons name rest => cases hat
  | @folder entries hnodup hnames hentries ih =>
    change (place, contents) ∈ filesAmong names entries ↔ _
    rw [filesAmong_eq, List.mem_flatMap]
    constructor
    · rintro ⟨item, hitem, hmem⟩
      obtain ⟨rest, rfl, hat⟩ := (ih item hitem).1 hmem
      refine ⟨item.1 :: rest, by simp, ?_⟩
      rw [at?, (lookup_eq_some_iff hnodup).2 hitem]
      exact hat
    · rintro ⟨rest, rfl, hat⟩
      cases rest with
      | nil => cases hat
      | cons name rest =>
        rw [at?] at hat
        cases hlookup : entries.lookup name with
        | none => simp [hlookup] at hat
        | some e =>
          rw [hlookup] at hat
          have hitem := (lookup_eq_some_iff hnodup).1 hlookup
          exact ⟨(name, e), hitem, (ih _ hitem).2 ⟨rest, by simp, hat⟩⟩

/-- Each file of a tree is listed once. -/
theorem nodup_filesBelow {e : Entry} (h : e.IsWellNamed) (names : List Text) :
    (filesBelow names e).Nodup := by
  induction h generalizing names with
  | file stored => exact List.nodup_singleton _
  | @folder entries hnodup hnames hentries ih =>
    change (filesAmong names entries).Nodup
    rw [filesAmong_eq, List.nodup_flatMap]
    refine ⟨fun item hitem => ih item hitem _, ?_⟩
    refine (List.pairwise_map.1 hnodup).imp_of_mem fun {a b} ha hb hne => ?_
    rintro ⟨place, contents⟩ hina hinb
    obtain ⟨resta, rfl, -⟩ := (mem_filesBelow (hentries a ha)).1 hina
    obtain ⟨restb, heq, -⟩ := (mem_filesBelow (hentries b hb)).1 hinb
    rw [List.append_assoc, List.append_assoc] at heq
    exact hne (List.cons.inj (List.append_cancel_left heq)).1

/-! ### The walk -/

/-- Whether a scan keeps the file that names lead to from a folder. -/
def isKept (path : Text) (place : List Text × Text) : Bool :=
  !place.1.dropLast.any isHidden && (formatOf? (Path.below path place.1)).isSome

/-- The file that names lead to from a folder, as a scan finds it. -/
def fileAt (path : Text) (place : List Text × Text) : FoundFile :=
  ⟨Path.below path place.1, formatOf? (Path.below path place.1), place.2.length⟩

/-- A folder is walked through entry by entry. -/
theorem walkAll_eq_of_walk_eq {path folder : Text} {names : List Text}
    {entries : List (Text × Entry)}
    (h : ∀ item ∈ entries, walk folder item.1 item.2 =
      ((filesBelow (names ++ [item.1]) item.2).filter (isKept path)).map (fileAt path)) :
    walkAll folder entries =
      ((filesAmong names entries).filter (isKept path)).map (fileAt path) := by
  have hwalk : walkAll folder entries = entries.flatMap fun item => walk folder item.1 item.2 := by
    clear h
    induction entries with
    | nil => rfl
    | cons item rest ih => exact congrArg (walk folder item.1 item.2 ++ ·) ih
  rw [hwalk, filesAmong_eq, List.filter_flatMap, List.map_flatMap]
  exact List.flatMap_congr h

/-- The walk passes over the files of an entry and keeps those that can be seen. -/
theorem walk_eq {path : Text} (hpath : path ≠ []) {e : Entry} (h : e.IsWellNamed) {folder : Text}
    {names : List Text} (hnames : ∀ name ∈ names, Path.IsName name)
    (hseen : names.any isHidden = false)
    (hfolder : ∀ name, Path.IsName name →
      Path.child folder name = Path.below path (names ++ [name]))
    {name : Text} (hname : Path.IsName name) : walk folder name e =
      ((filesBelow (names ++ [name]) e).filter (isKept path)).map (fileAt path) := by
  induction h generalizing folder names name with
  | file contents =>
    rw [walk, hfolder name hname, filesBelow, List.filter_singleton, isKept, List.dropLast_concat,
      hseen]
    cases hformat : formatOf? (Path.below path (names ++ [name])) with
    | none => rfl
    | some format => simp [fileAt, hformat]
  | @folder entries hnodup hentryNames hentries ih =>
    by_cases hhidden : isHidden name = true
    · have hnone : ∀ place ∈ filesBelow (names ++ [name]) (.folder entries),
          ¬ isKept path place := by
        rintro ⟨place, contents⟩ hmem
        obtain ⟨rest, rfl, hat⟩ :=
          (mem_filesBelow (.folder hnodup hentryNames hentries)).1 hmem
        cases rest with
        | nil => cases hat
        | cons first rest =>
          rw [isKept, List.dropLast_append_of_ne_nil (List.cons_ne_nil first rest)]
          simp [hhidden]
      rw [walk, if_pos hhidden, List.filter_eq_nil_iff.2 hnone, List.map_nil]
    · have hinside : (names ++ [name]).any isHidden = false := by simp [hseen, hhidden]
      have hnames' : ∀ other ∈ names ++ [name], Path.IsName other := by
        intro other hother
        rcases List.mem_append.1 hother with hother | hother
        · exact hnames other hother
        · exact List.mem_singleton.1 hother ▸ hname
      have hfolder' : ∀ other, Path.IsName other → Path.child (Path.child folder name) other =
          Path.below path (names ++ [name] ++ [other]) := by
        intro other hother
        rw [hfolder name hname, Path.child_below hpath hnames' hother]
      rw [walk, if_neg hhidden]
      exact walkAll_eq_of_walk_eq fun item hitem =>
        ih item hitem hnames' hinside hfolder' (hentryNames item hitem)

/-! ### What can be seen -/

/-- The file that names lead to from a folder can be seen: no folder on the way is hidden, and its
own name ends with an extension of a format. -/
structure Sees (folder : Entry) (names : List Text) (contents : Text) : Prop where
  /-- The names lead to the file. -/
  at_eq : folder.at? names = some (.file contents)
  /-- The names of folders do not begin with a point. -/
  notHidden : ∀ name ∈ names.dropLast, name.head? ≠ some 0x2E
  /-- The name of the file has an extension. -/
  ends : ∃ name ∈ names.getLast?, ∃ format : Format, format.Ends name

/-- A file that was found is the one that names lead to from a folder. -/
structure Shows (path : Text) (place : List Text × Text) (file : FoundFile) : Prop where
  /-- Its path leads along the names. -/
  path_eq : file.path = Path.below path place.1
  /-- Its format is that of its extension. -/
  format_eq : ∃ format, file.format = some format ∧ ∃ name ∈ place.1.getLast?, format.Ends name
  /-- Its size is that of its contents. -/
  size_eq : file.size = place.2.length

theorem isName_of_at? {e : Entry} (h : e.IsWellNamed) {names : List Text} {other : Entry}
    (hat : e.at? names = some other) : ∀ name ∈ names, Path.IsName name := by
  induction h generalizing names with
  | file stored =>
    cases names with
    | nil => simp
    | cons name rest => cases hat
  | @folder entries hnodup hnames hentries ih =>
    cases names with
    | nil => simp
    | cons name rest =>
      rw [at?] at hat
      cases hlookup : entries.lookup name with
      | none => simp [hlookup] at hat
      | some e =>
        rw [hlookup] at hat
        have hitem := (lookup_eq_some_iff hnodup).1 hlookup
        exact List.forall_mem_cons.2 ⟨hnames _ hitem, ih _ hitem hat⟩

section Scan

variable {path : Text} {names : List Text}

/-- The format of a file is told by its own name. -/
theorem formatOf?_below (hpath : path ≠ []) {name : Text}
    (hnames : ∀ other ∈ names, Path.IsName other) (hname : Path.IsName name) {format : Format} :
    formatOf? (Path.below path (names ++ [name])) = some format ↔ format.Ends name := by
  have hne : Path.below path names ≠ [] := Path.clean_ne_nil _
  obtain ⟨front, hfront, hlast⟩ := Path.exists_child_eq hne hname
  rw [← Path.child_below hpath hnames hname, formatOf?_eq_some_iff, hfront,
    Format.ends_append_iff hlast hname.notMem]

/-- The files that a scan keeps are those that can be seen. -/
theorem isKept_iff (hpath : path ≠ []) {entries : List (Text × Entry)}
    (h : (folder entries).IsWellNamed) {contents : Text}
    (hat : (folder entries).at? names = some (.file contents)) :
    isKept path (names, contents) ↔ (folder entries).Sees names contents := by
  have hall := isName_of_at? h hat
  rcases List.eq_nil_or_concat' names with rfl | ⟨front, name, rfl⟩
  · cases hat
  have hnames : ∀ other ∈ front, Path.IsName other :=
    fun other hother => hall other (List.mem_append_left _ hother)
  have hname : Path.IsName name := hall name (List.mem_append_right _ List.mem_cons_self)
  have hseen : (!front.any isHidden) = true ↔ ∀ other ∈ front, other.head? ≠ some 0x2E := by
    simp [isHidden]
  have hends : (formatOf? (Path.below path (front ++ [name]))).isSome ↔
      ∃ format : Format, format.Ends name := by
    simp only [Option.isSome_iff_exists, formatOf?_below hpath hnames hname]
  rw [isKept, List.dropLast_concat, Bool.and_eq_true, hseen, hends]
  constructor
  · rintro ⟨hfront, format, hformat⟩
    exact ⟨hat, by rwa [List.dropLast_concat], name, by simp, format, hformat⟩
  · intro hsees
    obtain ⟨last, hlast, hformat⟩ := hsees.ends
    rw [List.getLast?_concat] at hlast
    have hfront := hsees.notHidden
    rw [List.dropLast_concat] at hfront
    exact ⟨hfront, Option.some.inj hlast ▸ hformat⟩

theorem shows_fileAt (hpath : path ≠ []) {entries : List (Text × Entry)}
    (h : (folder entries).IsWellNamed) {contents : Text}
    (hsees : (folder entries).Sees names contents) :
    Shows path (names, contents) (fileAt path (names, contents)) := by
  have hall := isName_of_at? h hsees.at_eq
  obtain ⟨name, hlast, format, hformat⟩ := hsees.ends
  obtain ⟨front, rfl⟩ := List.getLast?_eq_some_iff.1 hlast
  have hnames : ∀ other ∈ front, Path.IsName other :=
    fun other hother => hall other (List.mem_append_left _ hother)
  have hname : Path.IsName name := hall name (List.mem_append_right _ List.mem_cons_self)
  exact ⟨rfl, ⟨format, (formatOf?_below hpath hnames hname).2 hformat, name, hlast, hformat⟩, rfl⟩

end Scan

end Entry

theorem Text.le_iff {s t : Text} : s.le t = true ↔ s ≤ t := by
  fun_induction Text.le s t with
  | case1 t => simp
  | case2 a s => simp
  | case3 a s b t ih =>
    rw [List.cons_le_cons_iff, ← ih]
    simp [UInt8.lt_iff_toNat_lt]

/-- **What a scan finds.**  A scan of a folder lists the files below it that can be seen, each once,
with the format of its extension and its size, in the order of the bytes of their paths. -/
theorem scan_sees {path : Text} {entries : List (Text × Entry)} (hpath : path ≠ [])
    (h : (Entry.folder entries).IsWellNamed) :
    ∃ places files, scan path (.ok (.folder entries)) = .ok files ∧
      places.Nodup ∧
      (∀ names contents, (names, contents) ∈ places ↔ (Entry.folder entries).Sees names contents) ∧
      List.Forall₂ (Entry.Shows path) places files ∧
      files.Pairwise fun a b => a.path < b.path := by
  let order (a b : FoundFile) : Bool := a.path.le b.path
  let places := ((Entry.filesAmong [] entries).filter (Entry.isKept path)).mergeSort
    fun a b => order (Entry.fileAt path a) (Entry.fileAt path b)
  have hwalk : Entry.walkAll path entries =
      ((Entry.filesAmong [] entries).filter (Entry.isKept path)).map (Entry.fileAt path) := by
    cases h with
    | folder _ hnames hentries =>
      exact Entry.walkAll_eq_of_walk_eq fun item hitem =>
        Entry.walk_eq hpath (hentries item hitem) (by simp) rfl
          (fun name _ => Path.child_eq_below path name) (hnames item hitem)
  have hfiles : scan path (.ok (.folder entries)) = .ok (places.map (Entry.fileAt path)) := by
    rw [scan, Entry.scan, hwalk]
    exact congrArg _ (List.map_mergeSort (s := order) fun _ _ _ _ => rfl).symm
  have hmem : ∀ names contents,
      (names, contents) ∈ places ↔ (Entry.folder entries).Sees names contents := by
    intro names contents
    have hbelow : (names, contents) ∈ Entry.filesAmong [] entries ↔ _ := Entry.mem_filesBelow h
    rw [List.mem_mergeSort, List.mem_filter, hbelow]
    constructor
    · rintro ⟨⟨rest, rfl, hat⟩, hkept⟩
      exact (Entry.isKept_iff hpath h hat).1 hkept
    · intro hsees
      exact ⟨⟨names, rfl, hsees.at_eq⟩, (Entry.isKept_iff hpath h hsees.at_eq).2 hsees⟩
  have hnodup : places.Nodup :=
    (List.mergeSort_perm _ _).nodup_iff.2 ((Entry.nodup_filesBelow h []).filter _)
  refine ⟨places, _, hfiles, hnodup, hmem, ?_, ?_⟩
  · rw [List.forall₂_map_right_iff, List.forall₂_same]
    rintro ⟨names, contents⟩ hplace
    exact Entry.shows_fileAt hpath h ((hmem names contents).1 hplace)
  · have hsorted : places.Pairwise fun a b =>
        order (Entry.fileAt path a) (Entry.fileAt path b) := by
      refine List.pairwise_mergeSort ?_ ?_ _
      · intro a b c hab hbc
        exact Text.le_iff.2 (List.le_trans (Text.le_iff.1 hab) (Text.le_iff.1 hbc))
      · intro a b
        rw [Bool.or_eq_true, Text.le_iff, Text.le_iff]
        exact List.le_total _ _
    refine List.pairwise_map.2 ((hsorted.and hnodup).imp_of_mem ?_)
    rintro ⟨namesa, contentsa⟩ ⟨namesb, contentsb⟩ ha hb ⟨hle, hne⟩
    have hseesa := (hmem _ _).1 ha
    have hseesb := (hmem _ _).1 hb
    refine Std.lt_of_le_of_ne (Text.le_iff.1 hle) fun hpaths => hne ?_
    obtain rfl := Path.below_inj hpath (Entry.isName_of_at? h hseesa.at_eq)
      (Entry.isName_of_at? h hseesb.at_eq) hpaths
    have hfile := hseesa.at_eq.symm.trans hseesb.at_eq
    rw [Entry.file.inj (Option.some.inj hfile)]

/-- A hidden file is found, and a file in a hidden folder is not. -/
theorem scan_sees_hidden :
    ∃ places files,
      scan (Text.ofString "defs") (.ok (.folder
        [(Text.ofString ".git", .folder [(Text.ofString "config.yaml", .file [])]),
          (Text.ofString ".x.YML", .file [0x61])])) = .ok files ∧
      List.Forall₂ (Entry.Shows (Text.ofString "defs")) places files ∧
      ([Text.ofString ".x.YML"], [0x61]) ∈ places ∧
      ([Text.ofString ".git", Text.ofString "config.yaml"], []) ∉ places := by
  have hinside : (Entry.folder [(Text.ofString "config.yaml", .file [])]).IsWellNamed :=
    .folder (by decide) (by decide) (List.forall_mem_singleton.2 (.file []))
  have h : (Entry.folder
      [(Text.ofString ".git", .folder [(Text.ofString "config.yaml", .file [])]),
        (Text.ofString ".x.YML", .file [0x61])]).IsWellNamed :=
    .folder (by decide) (by decide)
      (List.forall_mem_cons.2 ⟨hinside, List.forall_mem_singleton.2 (.file [0x61])⟩)
  have hpath : Text.ofString "defs" ≠ [] := by decide
  obtain ⟨places, files, hscan, -, hmem, hshows, -⟩ := scan_sees hpath h
  refine ⟨places, files, hscan, hshows, (hmem _ _).2 ⟨rfl, by decide, ?_⟩, fun hgit => ?_⟩
  · exact ⟨_, rfl, .yaml, Text.ofString ".x", Text.ofString ".YML", by decide, by decide⟩
  · exact ((hmem _ _).1 hgit).notHidden _ List.mem_cons_self (by decide)

end Phrasebook
