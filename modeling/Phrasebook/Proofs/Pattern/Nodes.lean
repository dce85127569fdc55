import Phrasebook.Proofs.Pattern.Marks
import Phrasebook.Proofs.Pattern.Slots

/-!
# The nodes of compiled trees

* `Pattern.HasNode` : a tree holds a node, at any depth.
* `Pattern.allNodes_of_compile` : what is so of each node that a rule makes is so of all nodes of a
  compiled tree.
* `Pattern.bound_of_compile` : the regular expressions in a compiled tree search with what their own
  sources were compiled to, and its slots refer to types of the registry.
-/

namespace Phrasebook

namespace Pattern

/-- A tree holds a node. -/
inductive HasNode : Pattern → Pattern → Prop where
  /-- The node is the root. -/
  | root (p : Pattern) : HasNode p p
  /-- The node is in a part of a sequence. -/
  | child {children : List Pattern} {p node : Pattern} (hmem : p ∈ children) (h : HasNode p node) :
      HasNode (.sequence children) node
  /-- The node is in an optional part. -/
  | inside {child node : Pattern} (h : HasNode child node) : HasNode (.optional child) node
  /-- The node is in a branch of a choice. -/
  | branch {alternatives : List (Mark × Pattern)} {mark : Mark} {p node : Pattern}
      (hmem : (mark, p) ∈ alternatives) (h : HasNode p node) : HasNode (.choice alternatives) node

variable {dialect : Regex.Dialect} {registry : Registry} {P : Pattern → Prop}

/-- All nodes of a tree have a property. -/
def AllNodes (P : Pattern → Prop) (p : Pattern) : Prop :=
  ∀ node, p.HasNode node → P node

namespace AllNodes

theorem child {children : List Pattern} (h : AllNodes P (.sequence children)) :
    ∀ p ∈ children, AllNodes P p :=
  fun _ hmem node hnode => h node (.child hmem hnode)

theorem inside {child : Pattern} (h : AllNodes P (.optional child)) : AllNodes P child :=
  fun node hnode => h node (.inside hnode)

theorem branch {alternatives : List (Mark × Pattern)} (h : AllNodes P (.choice alternatives)) :
    ∀ branch ∈ alternatives, AllNodes P branch.2 :=
  fun _ hmem node hnode => h node (.branch hmem hnode)

end AllNodes

/-- A property that each node has when a rule makes it. -/
structure NodeRules (dialect : Regex.Dialect) (registry : Registry) (P : Pattern → Prop) : Prop where
  /-- Literal text has it. -/
  text : ∀ content, P (.text content)
  /-- A sequence has it that was made of several items. -/
  sequence : ∀ children, 2 ≤ children.length → separated children → P (.sequence children)
  /-- Optional parts have it. -/
  optional : ∀ child, P (.optional child)
  /-- A choice has it with branches and marks that can be written. -/
  choice : ∀ alternatives, alternatives ≠ [] → (∀ branch ∈ alternatives, 0 ≤ branch.1.toInt) →
    P (.choice alternatives)
  /-- A regular expression has it that searches with what its source was compiled to, and that was
  written between brackets. -/
  regex : ∀ source find, balances 0x3C 0x3E source →
    dialect.compile (Regex.anchored source) = .ok find → P (.regex source (some find))
  /-- A slot has it that was read with the registry. -/
  slot : ∀ inner s, readSlot? registry inner = some s → P (.slot s)

namespace NodeRules

variable (rules : NodeRules dialect registry P)
include rules

theorem allNodes_text (content : Text) : AllNodes P (.text content) := by
  intro node hnode
  cases hnode with
  | root _ => exact rules.text content

theorem allNodes_sequence {children : List Pattern} (hlen : 2 ≤ children.length)
    (hs : separated children) (h : ∀ p ∈ children, AllNodes P p) :
    AllNodes P (.sequence children) := by
  intro node hnode
  cases hnode with
  | root _ => exact rules.sequence children hlen hs
  | child hmem hnode => exact h _ hmem node hnode

theorem allNodes_optional {child : Pattern} (h : AllNodes P child) :
    AllNodes P (.optional child) := by
  intro node hnode
  cases hnode with
  | root _ => exact rules.optional child
  | inside hnode => exact h node hnode

theorem allNodes_choice {alternatives : List (Mark × Pattern)} (hne : alternatives ≠ [])
    (hmark : ∀ branch ∈ alternatives, 0 ≤ branch.1.toInt)
    (h : ∀ branch ∈ alternatives, AllNodes P branch.2) : AllNodes P (.choice alternatives) := by
  intro node hnode
  cases hnode with
  | root _ => exact rules.choice alternatives hne hmark
  | branch hmem hnode => exact h _ hmem node hnode

theorem allNodes_ofItems {parts : List Pattern} (hs : separated parts)
    (h : ∀ p ∈ parts, AllNodes P p) : AllNodes P (ofItems parts) := by
  match parts with
  | [] => exact rules.allNodes_text []
  | [p] => exact h p (List.mem_singleton_self p)
  | p :: q :: rest => exact rules.allNodes_sequence (by simp) hs h

theorem allNodes_optionalItem {inner : Text} {inside : Pattern} (h : AllNodes P inside) :
    AllNodes P (optionalItem (optionalInside inner).1 inside) := by
  unfold optionalInside
  cases hs : splitMark inner with
  | none => exact rules.allNodes_optional h
  | some marked =>
    refine rules.allNodes_optional (rules.allNodes_choice (by simp) ?_ (by simpa using h))
    simpa using toInt_nonneg_of_splitMark hs

theorem allNodes_textItem (pending : Text) : ∀ p ∈ textItem pending, AllNodes P p := by
  intro p hp
  unfold textItem at hp
  split_ifs at hp
  · exact absurd hp List.not_mem_nil
  · obtain rfl := List.mem_singleton.1 hp
    exact rules.allNodes_text pending

/-- Literal text in front and an item after it, with the others behind. -/
theorem allNodes_item {pending : Text} {item : Pattern} {more : List Pattern}
    (hgroup : item.isGroup) (hitem : AllNodes P item)
    (hmore : separated more ∧ ∀ p ∈ more, AllNodes P p) :
    separated (textItem pending ++ item :: more) ∧
      ∀ p ∈ textItem pending ++ item :: more, AllNodes P p :=
  ⟨separated_textItem_cons pending hgroup hmore.1, List.forall_mem_append.2
    ⟨rules.allNodes_textItem pending, List.forall_mem_cons.2 ⟨hitem, hmore.2⟩⟩⟩

end NodeRules

/-- **What each rule of reading gives to the node it makes**, all nodes of a compiled tree have. -/
theorem allNodes_of_compile (rules : NodeRules dialect registry P) {source : Text} {t : Pattern}
    (h : compile dialect registry source = .ok t) : AllNodes P t := by
  obtain ⟨parts, hparts, rfl⟩ := compile_eq_ok.1 h
  have hread := (@read?_induction dialect registry
    (fun parts => separated parts ∧ ∀ p ∈ parts, AllNodes P p)
    (fun branches => ∀ branch ∈ branches, 0 ≤ branch.1.toInt ∧ AllNodes P branch.2)
    ?_ ?_ ?_ ?_ ?_ ?_ ?_).1 [] 0 source parts hparts
  · exact rules.allNodes_ofItems hread.1 hread.2
  · intro pending
    exact ⟨separated_textItem pending, rules.allNodes_textItem pending⟩
  · intro pending inner inside more hinside hmore
    refine rules.allNodes_item ?_ ?_ hmore
    · cases (optionalInside inner).1 <;> rfl
    · exact rules.allNodes_optionalItem (rules.allNodes_ofItems hinside.1 hinside.2)
  · intro pending inside more hne hinside hmore
    refine rules.allNodes_item rfl (rules.allNodes_choice hne ?_ ?_) hmore
    · exact fun branch hbranch => (hinside branch hbranch).1
    · exact fun branch hbranch => (hinside branch hbranch).2
  · intro pending source find more hbalances hfind hmore
    refine rules.allNodes_item rfl (fun node hnode => ?_) hmore
    cases hnode with
    | root _ => exact rules.regex source find hbalances hfind
  · intro pending inner s more hs hmore
    refine rules.allNodes_item rfl (fun node hnode => ?_) hmore
    cases hnode with
    | root _ => exact rules.slot inner s hs
  · intro branch hbranch
    exact absurd hbranch List.not_mem_nil
  · intro branch inside more hinside hmore
    refine List.forall_mem_cons.2 ⟨⟨toInt_markOf_nonneg branch, ?_⟩, hmore⟩
    exact rules.allNodes_ofItems hinside.1 hinside.2

/-- What a node refers to is what its source stands for: a regular expression searches with what its
source was compiled to, and the types of a slot are the registry's. -/
def Bound (dialect : Regex.Dialect) (registry : Registry) : Pattern → Prop
  | .regex source finder =>
    ∃ find, finder = some find ∧ dialect.compile (Regex.anchored source) = .ok find
  | .slot s => ∀ ref ∈ s.types, ∃ name, registry.typeRef? name = some ref
  | .unknown _ => False
  | _ => True

/-- **All nodes of a compiled tree are bound.** -/
theorem bound_of_compile {source : Text} {t : Pattern}
    (h : compile dialect registry source = .ok t) : AllNodes (Bound dialect registry) t := by
  refine allNodes_of_compile ⟨fun _ => trivial, fun _ _ _ => trivial, fun _ => trivial,
    fun _ _ _ => trivial, ?_, ?_⟩ h
  · intro source find _ hfind
    exact ⟨find, rfl, hfind⟩
  · intro inner s hs
    exact typeRef?_of_readSlot? hs

/-- All regular expressions of a tree have been compiled from their sources. -/
def AllCompiled (dialect : Regex.Dialect) (p : Pattern) : Prop :=
  ∀ source finder, p.HasNode (.regex source finder) →
    ∃ find, finder = some find ∧ dialect.compile (Regex.anchored source) = .ok find

/-- **The regular expressions of a compiled tree are compiled from their own sources.** -/
theorem allCompiled_of_compile {source : Text} {t : Pattern}
    (h : compile dialect registry source = .ok t) : AllCompiled dialect t :=
  fun _ _ hnode => bound_of_compile h _ hnode

end Pattern

end Phrasebook
