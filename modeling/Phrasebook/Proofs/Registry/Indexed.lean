import Mathlib.Data.List.Induction
import Phrasebook.Proofs.Except
import Phrasebook.Proofs.Registry.Runs
import Phrasebook.Registry.Indexed

/-!
# The index and the list of a registry

What is registered is kept in an index by name and in a list in order.  Requests to register a type
come one after the other, and each of them is refused, adds a type, or puts a type in the place of
another; what is true of the two after every sequence of requests follows from these three cases.

* `Registry.Indexed.Registers` : what a request is answered, and what it leaves.
* `Registry.Indexed.Consistent` : the index and the list hold the same objects, one for each name.
* `Registry.Indexed.RefersTo` : what a text refers to.
* `Registry.Indexed.lawful_after` : **what holds after any sequence of requests.**
* `Registry.Indexed.reachable_iff` : the types of the list, in order, are the registry that all
  other modules know.

Only names and kinds decide about a request, apart from whether its expression can be compiled; the
dialect of regular expressions is arbitrary.
-/

namespace Phrasebook

namespace Registry

namespace Indexed

variable {dialect : Regex.Dialect} {t : Indexed} {q : Request}

/-! ### What a request does -/

/-- Why a request is refused. -/
inductive Refuses (dialect : Regex.Dialect) (t : Indexed) (q : Request) : Error → Prop where
  /-- It has no name. -/
  | emptyName (hname : q.name = []) : Refuses dialect t q .emptyName
  /-- The expression for the spellings is refused. -/
  | invalidSpellings {reason : Text} (hname : q.name ≠ [])
      (hfinder : dialect.compile (Regex.whole q.spellings) = .error reason) :
      Refuses dialect t q (.invalidSpellings q.spellings reason)
  /-- The name is taken by a type of another kind. -/
  | kindConflict {finder : Regex.Finder} {former : Object} (hname : q.name ≠ [])
      (hfinder : dialect.compile (Regex.whole q.spellings) = .ok finder)
      (hformer : t.byName q.name = some former) (hkind : former.type.kind ≠ q.kind) :
      Refuses dialect t q (.kindConflict q.name former.type.kind q.kind)

/-- What a request is answered, and what it leaves. -/
inductive Registers (dialect : Regex.Dialect) (t : Indexed) (q : Request) :
    Except Error Object × Indexed → Prop where
  /-- It is refused, and nothing changes. -/
  | refused {e : Error} (h : Refuses dialect t q e) : Registers dialect t q (.error e, t)
  /-- The name is new, and its type comes last. -/
  | added {finder : Regex.Finder} (hname : q.name ≠ [])
      (hfinder : dialect.compile (Regex.whole q.spellings) = .ok finder)
      (hnew : t.byName q.name = none) :
      Registers dialect t q
        (.ok (t.make q finder), t.record (t.make q finder) (t.order ++ [t.make q finder]))
  /-- The name is that of a type of the same kind, whose place the new type takes. -/
  | replaced {finder : Regex.Finder} {former : Object} {front rest : List Object}
      (hname : q.name ≠ [])
      (hfinder : dialect.compile (Regex.whole q.spellings) = .ok finder)
      (hformer : t.byName q.name = some former) (hkind : former.type.kind = q.kind)
      (hplace : t.order = front ++ former :: rest) :
      Registers dialect t q
        (.ok (t.make q finder), t.record (t.make q finder) (front ++ t.make q finder :: rest))

/-- The index and the list hold the same. -/
structure Consistent (t : Indexed) : Prop where
  /-- The index leads from the names of the objects in the list to these objects. -/
  byName_iff : ∀ {name : Text} {o : Object},
    t.byName name = some o ↔ o ∈ t.order ∧ o.type.name = name
  /-- No two types in the list have one name. -/
  nodup_names : t.names.Nodup
  /-- No two places of the list have one object. -/
  nodup_serials : (t.order.map Object.serial).Nodup
  /-- The next object is none of those in the list. -/
  serial_lt : ∀ o ∈ t.order, o.serial < t.made

theorem consistent_empty : empty.Consistent where
  byName_iff := by simp [empty]
  nodup_names := List.nodup_nil
  nodup_serials := List.nodup_nil
  serial_lt := by simp [empty]

theorem names_eq_map_order (t : Indexed) : t.names = t.order.map fun o => o.type.name := by
  simp [names, types]

theorem Consistent.byName_eq_none (h : t.Consistent) {name : Text} :
    t.byName name = none ↔ name ∉ t.names := by
  simp [Option.eq_none_iff_forall_not_mem, h.byName_iff, names_eq_map_order]

/-- One object takes the place of another, and all others stay. -/
theorem substitute_append {former object : Object} {front rest : List Object}
    (h : ((front ++ former :: rest).map Object.serial).Nodup) :
    substitute former object (front ++ former :: rest) = front ++ object :: rest := by
  rw [List.map_append, List.map_cons, List.nodup_middle, List.nodup_cons, ← List.map_append] at h
  have hothers : ∀ o ∈ front ++ rest, o.serial ≠ former.serial :=
    fun o ho heq => h.1 (heq ▸ List.mem_map_of_mem ho)
  have hstay (l : List Object) (hl : ∀ o ∈ l, o ∈ front ++ rest) :
      l.map (fun o => if o.serial = former.serial then object else o) = l :=
    (List.map_congr_left fun o ho => if_neg (hothers o (hl o ho))).trans (List.map_id l)
  rw [substitute, List.map_append, List.map_cons, if_pos rfl,
    hstay front fun o ho => List.mem_append_left _ ho,
    hstay rest fun o ho => List.mem_append_right _ ho]

/-- **What a request does** to a registry whose index and list hold the same. -/
theorem Consistent.registers (h : t.Consistent) (dialect : Regex.Dialect) (q : Request) :
    Registers dialect t q (t.register dialect q) := by
  unfold register
  by_cases hname : q.name = []
  · rw [if_pos (List.isEmpty_iff.2 hname)]
    exact .refused (.emptyName hname)
  rw [if_neg (by simpa using hname)]
  cases hfinder : dialect.compile (Regex.whole q.spellings) with
  | error reason => exact .refused (.invalidSpellings hname hfinder)
  | ok finder =>
    cases hformer : t.byName q.name with
    | none => exact .added hname hfinder hformer
    | some former =>
      simp only
      by_cases hkind : former.type.kind = q.kind
      · obtain ⟨front, rest, hplace⟩ := List.append_of_mem (h.byName_iff.1 hformer).1
        rw [if_pos hkind, hplace, substitute_append (hplace ▸ h.nodup_serials)]
        exact .replaced hname hfinder hformer hkind hplace
      · rw [if_neg hkind]
        exact .refused (.kindConflict hname hfinder hformer hkind)

/-! ### What all requests keep -/

/-- A new object is recorded consistently between what is left of the list without its name. -/
theorem Consistent.record (h : t.Consistent) {object : Object} {front rest : List Object}
    (hserial : object.serial = t.made) (hsub : (front ++ rest).Sublist t.order)
    (hmem : ∀ o, o ∈ front ++ rest ↔ o ∈ t.order ∧ o.type.name ≠ object.type.name) :
    (t.record object (front ++ object :: rest)).Consistent where
  byName_iff := by
    intro name o
    change (if name = object.type.name then some object else t.byName name) = some o ↔
      o ∈ front ++ object :: rest ∧ o.type.name = name
    rw [List.perm_middle.mem_iff, List.mem_cons, hmem]
    by_cases hname : name = object.type.name
    · rw [if_pos hname, Option.some.injEq]
      constructor
      · rintro rfl
        exact ⟨.inl rfl, hname.symm⟩
      · rintro ⟨rfl | ⟨-, hne⟩, rfl⟩
        · rfl
        · exact absurd hname hne
    · rw [if_neg hname, h.byName_iff]
      constructor
      · rintro ⟨ho, rfl⟩
        exact ⟨.inr ⟨ho, hname⟩, rfl⟩
      · rintro ⟨rfl | ⟨ho, -⟩, rfl⟩
        · exact absurd rfl hname
        · exact ⟨ho, rfl⟩
  nodup_names := by
    have hnames := h.nodup_names
    rw [names_eq_map_order] at hnames ⊢
    change ((front ++ object :: rest).map fun o => o.type.name).Nodup
    rw [List.map_append, List.map_cons, List.nodup_middle, List.nodup_cons, ← List.map_append]
    refine ⟨fun hname => ?_, hnames.sublist (hsub.map _)⟩
    obtain ⟨o, ho, heq⟩ := List.mem_map.1 hname
    exact ((hmem o).1 ho).2 heq
  nodup_serials := by
    change ((front ++ object :: rest).map Object.serial).Nodup
    rw [List.map_append, List.map_cons, List.nodup_middle, List.nodup_cons, ← List.map_append]
    refine ⟨fun hold => ?_, h.nodup_serials.sublist (hsub.map _)⟩
    obtain ⟨o, ho, heq⟩ := List.mem_map.1 hold
    exact Nat.ne_of_lt (h.serial_lt o (hsub.subset ho)) (heq.trans hserial)
  serial_lt := by
    intro o ho
    change o.serial < t.made + 1
    obtain rfl | ho := List.mem_cons.1 (List.perm_middle.mem_iff.1 ho)
    · exact hserial ▸ Nat.lt_succ_self _
    · exact Nat.lt_succ_of_lt (h.serial_lt o (hsub.subset ho))

/-- Where the list holds an object, no other in it has its name. -/
theorem Consistent.mem_others (h : t.Consistent) {former : Object} {front rest : List Object}
    (hplace : t.order = front ++ former :: rest) (o : Object) :
    o ∈ front ++ rest ↔ o ∈ t.order ∧ o.type.name ≠ former.type.name := by
  have hnames := h.nodup_names
  rw [names_eq_map_order, hplace, List.map_append, List.map_cons, List.nodup_middle,
    List.nodup_cons, ← List.map_append] at hnames
  rw [hplace, List.perm_middle.mem_iff, List.mem_cons]
  constructor
  · intro ho
    exact ⟨.inr ho, fun heq => hnames.1 (List.mem_map.2 ⟨o, ho, heq⟩)⟩
  · rintro ⟨rfl | ho, hne⟩
    · exact absurd rfl hne
    · exact ho

/-- **Each request keeps** the index and the list in accord. -/
theorem Consistent.register (h : t.Consistent) (dialect : Regex.Dialect) (q : Request) :
    (t.register dialect q).2.Consistent := by
  have hr := h.registers dialect q
  generalize t.register dialect q = r at hr
  cases hr with
  | refused _ => exact h
  | @added finder hname hfinder hnew =>
    refine h.record rfl (by simp) fun o => ?_
    rw [List.append_nil]
    refine ⟨fun ho => ⟨ho, fun heq => ?_⟩, And.left⟩
    exact h.byName_eq_none.1 hnew (names_eq_map_order t ▸ List.mem_map.2 ⟨o, ho, heq⟩)
  | @replaced finder former front rest hname hfinder hformer hkind hplace =>
    obtain ⟨-, hformer⟩ := h.byName_iff.1 hformer
    refine h.record rfl ?_ fun o => ?_
    · rw [hplace]
      exact (List.sublist_cons_self former rest).append_left front
    · rw [h.mem_others hplace, hformer]
      rfl

theorem after_concat (t : Indexed) (requests : List Request) (q : Request) :
    t.after dialect (requests ++ [q]) = ((t.after dialect requests).register dialect q).2 := by
  simp [after]

theorem after_append (t : Indexed) (requests later : List Request) :
    t.after dialect (requests ++ later) = (t.after dialect requests).after dialect later :=
  List.foldl_append

/-- **All requests keep** the index and the list in accord. -/
theorem Consistent.after (h : t.Consistent) (dialect : Regex.Dialect) (requests : List Request) :
    (t.after dialect requests).Consistent := by
  induction requests using List.reverseRecOn with
  | nil => exact h
  | append_singleton requests q ih =>
    rw [after_concat]
    exact ih.register dialect q

/-! ### Names -/

theorem answers_concat (t : Indexed) (requests : List Request) (q : Request) :
    t.answers dialect (requests ++ [q]) =
      t.answers dialect requests ++ [((t.after dialect requests).register dialect q).1] := by
  induction requests generalizing t with
  | nil => rfl
  | cons q' requests ih => exact congrArg _ (ih _)

theorem accepted_concat (t : Indexed) (requests : List Request) (q : Request) :
    t.accepted dialect (requests ++ [q]) = t.accepted dialect requests ++
      ((t.after dialect requests).register dialect q).1.toOption.toList := by
  rw [accepted, answers_concat, List.filterMap_append]
  cases ((t.after dialect requests).register dialect q).1 <;> rfl

/-- Only what is new comes last. -/
theorem eraseDups_concat (names : List Text) (name : Text) :
    (names ++ [name]).eraseDups =
      if name ∈ names then names.eraseDups else names.eraseDups ++ [name] := by
  rw [List.eraseDups_append, List.cons_removeAll, List.nil_removeAll]
  by_cases h : name ∈ names
  · simp [h]
  · simp [h, List.eraseDups_cons]

/-- **The names are in the order** in which they were first accepted. -/
theorem names_after (dialect : Regex.Dialect) (requests : List Request) :
    (empty.after dialect requests).names =
      ((empty.accepted dialect requests).map fun o => o.type.name).eraseDups := by
  induction requests using List.reverseRecOn with
  | nil => rfl
  | append_singleton requests q ih =>
    have h := consistent_empty.after dialect requests
    rw [after_concat, accepted_concat, List.map_append]
    generalize empty.after dialect requests = t at h ih
    have hr := h.registers dialect q
    generalize t.register dialect q = r at hr
    cases hr with
    | refused _ => simpa [Except.toOption] using ih
    | @added finder hname hfinder hnew =>
      have hnew := h.byName_eq_none.1 hnew
      rw [ih, List.mem_eraseDups] at hnew
      change _ = (_ ++ [q.name]).eraseDups
      rw [eraseDups_concat, if_neg hnew, ← ih, names_eq_map_order, names_eq_map_order]
      exact List.map_append
    | @replaced finder former front rest hname hfinder hformer hkind hplace =>
      obtain ⟨hmem, hformer⟩ := h.byName_iff.1 hformer
      have hold : q.name ∈ t.names :=
        names_eq_map_order t ▸ List.mem_map.2 ⟨former, hmem, hformer⟩
      rw [ih, List.mem_eraseDups] at hold
      change _ = (_ ++ [q.name]).eraseDups
      rw [eraseDups_concat, if_pos hold, ← ih, names_eq_map_order, names_eq_map_order, hplace,
        List.map_append, List.map_cons, hformer]
      exact List.map_append

/-! ### Kinds -/

/-- A request keeps the kind of each name. -/
theorem Consistent.kind_register (h : t.Consistent) (dialect : Regex.Dialect) (q : Request)
    {name : Text} {o : Object} (ho : t.byName name = some o) :
    ∃ o', (t.register dialect q).2.byName name = some o' ∧ o'.type.kind = o.type.kind := by
  have hr := h.registers dialect q
  generalize t.register dialect q = r at hr
  cases hr with
  | refused _ => exact ⟨o, ho, rfl⟩
  | @added finder hname hfinder hnew =>
    have hne : name ≠ q.name := by
      rintro rfl
      simp [hnew] at ho
    exact ⟨o, (if_neg hne).trans ho, rfl⟩
  | @replaced finder former front rest hname hfinder hformer hkind hplace =>
    by_cases heq : name = q.name
    · subst heq
      obtain rfl := Option.some.inj (hformer.symm.trans ho)
      exact ⟨_, if_pos rfl, hkind.symm⟩
    · exact ⟨o, (if_neg heq).trans ho, rfl⟩

/-- **The kind of a name never changes.** -/
theorem Consistent.kind_after (h : t.Consistent) (dialect : Regex.Dialect) (later : List Request)
    {name : Text} {o : Object} (ho : t.byName name = some o) :
    ∃ o', (t.after dialect later).byName name = some o' ∧ o'.type.kind = o.type.kind := by
  induction later using List.reverseRecOn with
  | nil => exact ⟨o, ho, rfl⟩
  | append_singleton later q ih =>
    obtain ⟨o', ho', hkind'⟩ := ih
    obtain ⟨o'', ho'', hkind''⟩ := (h.after dialect later).kind_register dialect q ho'
    exact ⟨o'', by rwa [after_concat], hkind''.trans hkind'⟩

/-! ### Looking up -/

/-- What a text refers to. -/
inductive RefersTo (t : Indexed) (text : Text) : Option TypeRef → Prop where
  /-- It is the name of a type, which it means in the singular. -/
  | exact {o : Object} (hname : t.byName text = some o) :
    RefersTo t text (some ⟨some o.type, true⟩)
  /-- It is no name, and the first type that it spells is the one found by spelling. -/
  | spelled {front rest : List ValueType} {type : ValueType} {plural : Bool}
      (hname : t.byName text = none) (hplace : t.types = front ++ type :: rest)
      (hfront : ∀ former ∈ front, former.spelling? text = none)
      (hspelling : type.spelling? text = some plural) (hby : t.bySpelling? text = some type) :
      RefersTo t text (some ⟨some type, !plural⟩)
  /-- It is no name, and it spells no type. -/
  | unknown (hname : t.byName text = none) (hnone : ∀ type ∈ t.types, type.spelling? text = none)
      (hby : t.bySpelling? text = none) : RefersTo t text none

theorem refersTo_typeRef? (t : Indexed) (text : Text) : RefersTo t text (t.typeRef? text) := by
  unfold typeRef?
  cases hname : t.byName text with
  | some o => exact .exact hname
  | none =>
    simp only
    cases hfound : t.types.findSome? fun type =>
        (type.spelling? text).map fun plural => (⟨some type, !plural⟩ : TypeRef) with
    | none =>
      have hnone : ∀ type ∈ t.types, type.spelling? text = none := by simpa using hfound
      refine .unknown hname hnone (List.find?_eq_none.2 fun type htype => ?_)
      simp [hnone type htype]
    | some ref =>
      obtain ⟨front, type, rest, hplace, href, hfront⟩ := List.findSome?_eq_some_iff.1 hfound
      obtain ⟨plural, hspelling, rfl⟩ := Option.map_eq_some_iff.1 href
      have hfront : ∀ former ∈ front, former.spelling? text = none := by simpa using hfront
      refine .spelled hname hplace hfront hspelling (List.find?_eq_some_iff_append.2 ?_)
      exact ⟨by simp [hspelling], front, rest, hplace,
        fun former hmem => by simp [hfront former hmem]⟩

/-- **A new name** changes what no other text refers to. -/
theorem Consistent.typeRef?_register (h : t.Consistent) (dialect : Regex.Dialect) (q : Request)
    (hnew : t.byName q.name = none) {text : Text} (hne : text ≠ q.name) {ref : TypeRef}
    (href : t.typeRef? text = some ref) : (t.register dialect q).2.typeRef? text = some ref := by
  have hr := h.registers dialect q
  generalize t.register dialect q = r at hr
  cases hr with
  | refused _ => exact href
  | @added finder hname hfinder _ =>
    unfold typeRef? at href ⊢
    have hsame : (t.record (t.make q finder) (t.order ++ [t.make q finder])).byName text =
        t.byName text := if_neg hne
    rw [hsame]
    cases hbyName : t.byName text with
    | some o => simpa [hbyName] using href
    | none =>
      -- the new type comes last, so the first that is spelled is still the first
      rw [hbyName] at href
      have htypes : (t.record (t.make q finder) (t.order ++ [t.make q finder])).types =
          t.types ++ [q.type finder] := List.map_append
      simp only at href ⊢
      rw [htypes, List.findSome?_append, href]
      rfl
  | @replaced finder former front rest hname hfinder hformer _ _ =>
    rw [hnew] at hformer
    cases hformer

/-! ### The registry as a list of types -/

theorem Consistent.typeNamed?_registry (h : t.Consistent) (name : Text) :
    t.registry.typeNamed? name = t.typeNamed? name := by
  unfold typeNamed?
  cases hname : t.byName name with
  | none => exact typeNamed?_eq_none.2 (h.byName_eq_none.1 hname)
  | some o =>
    obtain ⟨hmem, rfl⟩ := h.byName_iff.1 hname
    have hfound : (t.registry.typeNamed? o.type.name).isSome := by
      rw [Option.isSome_iff_ne_none, Ne, typeNamed?_eq_none, not_not]
      exact List.mem_map_of_mem (List.mem_map_of_mem hmem)
    obtain ⟨type, htype⟩ := Option.isSome_iff_exists.1 hfound
    have heq : type.name = o.type.name := by simpa using List.find?_some htype
    rw [htype, Option.map_some, List.inj_on_of_nodup_map h.nodup_names
      (List.mem_of_find?_eq_some htype) (List.mem_map_of_mem hmem) heq]

theorem Consistent.typeRef?_registry (h : t.Consistent) (text : Text) :
    t.registry.typeRef? text = t.typeRef? text := by
  unfold Registry.typeRef? typeRef?
  rw [h.typeNamed?_registry, typeNamed?]
  cases t.byName text <;> rfl

/-- Looking for the object of a name is looking for the name. -/
theorem Consistent.replace_registry (h : t.Consistent) {former : Object} (object : Object)
    {front rest : List Object} (hplace : t.order = front ++ former :: rest)
    (hname : former.type.name = object.type.name) :
    t.registry.replace object.type = ⟨(front ++ object :: rest).map Object.type⟩ := by
  have hstay (l : List Object) (hl : ∀ o ∈ l, o ∈ front ++ rest) :
      (l.map Object.type).map
          (fun old => if old.name == object.type.name then object.type else old) =
        l.map Object.type := by
    rw [List.map_map]
    refine List.map_congr_left fun o ho => if_neg ?_
    rw [beq_iff_eq, ← hname]
    exact ((h.mem_others hplace o).1 (hl o ho)).2
  unfold replace
  rw [registry, types, hplace, List.map_append, List.map_cons, List.map_append, List.map_cons,
    hstay front fun o ho => List.mem_append_left _ ho,
    hstay rest fun o ho => List.mem_append_right _ ho, if_pos (beq_iff_eq.2 hname), List.map_append,
    List.map_cons]

/-- **Registering** with an index is registering. -/
theorem Consistent.register_registry (h : t.Consistent) (dialect : Regex.Dialect) (q : Request) :
    t.registry.register dialect q.name q.kind q.spellings q.literal =
      (t.register dialect q).1.map fun o => ((t.register dialect q).2.registry, o.type) := by
  have hr := h.registers dialect q
  generalize t.register dialect q = r at hr
  unfold Registry.register
  rw [h.typeNamed?_registry, typeNamed?]
  cases hr with
  | refused hrefuses =>
    cases hrefuses with
    | emptyName hname =>
      rw [if_pos (List.isEmpty_iff.2 hname)]
      rfl
    | invalidSpellings hname hfinder =>
      rw [if_neg (by simpa using hname), hfinder]
      rfl
    | kindConflict hname hfinder hformer hkind =>
      rw [if_neg (by simpa using hname), hfinder, hformer]
      exact if_neg hkind
  | @added finder hname hfinder hnew =>
    rw [if_neg (by simpa using hname), hfinder, hnew]
    have htypes : (t.order ++ [t.make q finder]).map Object.type = t.types ++ [q.type finder] :=
      List.map_append
    exact congrArg (fun types => Except.ok (Registry.mk types, q.type finder)) htypes.symm
  | @replaced finder former front rest hname hfinder hformer hkind hplace =>
    obtain ⟨-, hsame⟩ := h.byName_iff.1 hformer
    rw [if_neg (by simpa using hname), hfinder, hformer]
    refine (if_pos hkind).trans (congrArg (fun r => Except.ok (r, q.type finder)) ?_)
    exact h.replace_registry (t.make q finder) hplace hsame

/-- The registries that can come about are those that requests lead to. -/
theorem reachable_iff {r : Registry} :
    Reachable dialect r ↔ ∃ requests, (empty.after dialect requests).registry = r := by
  constructor
  · intro hr
    induction hr with
    | empty => exact ⟨[], rfl⟩
    | @register r r' name spellings kind literal type _ hregister ih =>
      obtain ⟨requests, rfl⟩ := ih
      have h := consistent_empty.after dialect requests
      rw [h.register_registry dialect ⟨name, kind, spellings, literal⟩] at hregister
      obtain ⟨o, -, heq⟩ := exists_of_map_eq_ok hregister
      exact ⟨requests ++ [⟨name, kind, spellings, literal⟩], by
        rw [after_concat]
        exact congrArg Prod.fst heq⟩
  · rintro ⟨requests, rfl⟩
    induction requests using List.reverseRecOn with
    | nil => exact .empty
    | append_singleton requests q ih =>
      have h := consistent_empty.after dialect requests
      have hregister := h.register_registry dialect q
      have hr := h.registers dialect q
      rw [after_concat]
      generalize (empty.after dialect requests).register dialect q = r at hregister hr
      cases hr with
      | refused _ => exact ih
      | added _ _ _ => exact ih.register hregister
      | replaced _ _ _ _ _ => exact ih.register hregister

/-! ### Sequences of requests -/

/-- A registry that is as it should be after a sequence of requests. -/
structure Lawful (dialect : Regex.Dialect) (requests : List Request) (t : Indexed) : Prop where
  /-- The index and the list hold the same objects, each under its own name. -/
  byName_iff : ∀ name o, t.byName name = some o ↔ o ∈ t.order ∧ o.type.name = name
  /-- No two types have one name. -/
  nodup_names : t.names.Nodup
  /-- The names are in the order in which a type of that name was first accepted. -/
  names_eq : t.names = ((empty.accepted dialect requests).map fun o => o.type.name).eraseDups
  /-- A further request is refused and changes nothing, adds a type, or replaces one in place. -/
  registers : ∀ q, Registers dialect t q (t.register dialect q)
  /-- A name keeps its kind, whatever is requested later. -/
  kind_eq : ∀ later name o, t.byName name = some o →
    ∃ o', (empty.after dialect (requests ++ later)).byName name = some o' ∧
      o'.type.kind = o.type.kind
  /-- A text refers to the type of that name, or else to the first type that it spells. -/
  refersTo : ∀ text, RefersTo t text (t.typeRef? text)
  /-- A new name changes what no other text refers to. -/
  typeRef?_register : ∀ q, t.byName q.name = none → ∀ text ref, text ≠ q.name →
    t.typeRef? text = some ref → (t.register dialect q).2.typeRef? text = some ref
  /-- The types in order are a registry, which is asked and changed in the same way. -/
  registry : (∀ text, t.registry.typeNamed? text = t.typeNamed? text ∧
      t.registry.bySpelling? text = t.bySpelling? text ∧
      t.registry.typeRef? text = t.typeRef? text) ∧
    ∀ q, t.registry.register dialect q.name q.kind q.spellings q.literal =
      (t.register dialect q).1.map fun o => ((t.register dialect q).2.registry, o.type)

/-- **After any sequence of requests**, accepted or refused, the registry is as it should be. -/
theorem lawful_after (dialect : Regex.Dialect) (requests : List Request) :
    Lawful dialect requests (empty.after dialect requests) := by
  have h := consistent_empty.after dialect requests
  exact
    { byName_iff := fun _ _ => h.byName_iff
      nodup_names := h.nodup_names
      names_eq := names_after dialect requests
      registers := h.registers dialect
      kind_eq := fun later name o ho => by
        rw [after_append]
        exact h.kind_after dialect later ho
      refersTo := refersTo_typeRef? _
      typeRef?_register := fun q hnew text ref hne href =>
        h.typeRef?_register dialect q hnew hne href
      registry :=
        ⟨fun text => ⟨h.typeNamed?_registry text, rfl, h.typeRef?_registry text⟩,
          h.register_registry dialect⟩ }

end Indexed

end Registry

end Phrasebook
