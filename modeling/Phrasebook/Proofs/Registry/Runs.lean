import Mathlib.Data.List.Nodup
import Phrasebook.Registry

/-!
# The registries that can come about

A registry starts out without types, and types are registered one after the other.  A type that is
refused leaves the registry as it was, so what can come about is what accepted types lead to.

* `Registry.Reachable` : the registries that can come about.
* `Registry.register_cases` : what registering a type does.
* `Registry.nodup_names` : **no two types of a registry have one name.**
* `Registry.eq_of_same` : so that a reference says by its type's name and its number which one it is.
-/

namespace Phrasebook

namespace Registry

variable {dialect : Regex.Dialect} {r r' : Registry}

/-- The registries that registering types one after the other leads to. -/
inductive Reachable (dialect : Regex.Dialect) : Registry → Prop where
  /-- There are no types. -/
  | empty : Reachable dialect .empty
  /-- A type is accepted. -/
  | register {r r' : Registry} {name spellings : Text} {kind : Kind} {literal : Option LiteralForm}
      {type : ValueType} (h : Reachable dialect r)
      (hr : r.register dialect name kind spellings literal = .ok (r', type)) : Reachable dialect r'

/-- The names of the types, in order. -/
def names (r : Registry) : List Text :=
  r.types.map ValueType.name

theorem typeNamed?_eq_none {name : Text} : r.typeNamed? name = none ↔ name ∉ r.names := by
  simp [typeNamed?, names, List.find?_eq_none]

theorem names_replace (r : Registry) (type : ValueType) : (r.replace type).names = r.names := by
  simp only [names, replace, List.map_map]
  refine List.map_congr_left fun old _ => ?_
  by_cases h : old.name = type.name <;> simp [h]

/-- **What registering does:** a new name comes last, and a name that is known keeps its place and
its kind. -/
theorem register_cases {name spellings : Text} {kind : Kind} {literal : Option LiteralForm}
    {type : ValueType} (h : r.register dialect name kind spellings literal = .ok (r', type)) :
    type.name = name ∧
      ((name ∉ r.names ∧ r' = ⟨r.types ++ [type]⟩) ∨
        ∃ former, r.typeNamed? name = some former ∧ former.kind = kind ∧ r' = r.replace type) := by
  unfold register at h
  split_ifs at h with hname
  split at h
  · cases h
  · rename_i finder hfinder
    simp only at h
    split at h
    · rename_i hnew
      obtain ⟨rfl, rfl⟩ := Prod.mk.inj (Except.ok.inj h)
      exact ⟨rfl, .inl ⟨typeNamed?_eq_none.1 hnew, rfl⟩⟩
    · rename_i former hformer
      split_ifs at h with hkind
      obtain ⟨rfl, rfl⟩ := Prod.mk.inj (Except.ok.inj h)
      exact ⟨rfl, .inr ⟨former, hformer, hkind, rfl⟩⟩

/-- **No two types of a registry have one name.** -/
theorem nodup_names (h : Reachable dialect r) : r.names.Nodup := by
  induction h with
  | empty => exact List.nodup_nil
  | register _ hr ih =>
    obtain ⟨rfl, ⟨hnew, rfl⟩ | ⟨former, -, -, rfl⟩⟩ := register_cases hr
    · rw [names, List.map_append, List.map_singleton]
      refine List.nodup_append.2 ⟨ih, List.nodup_singleton _, ?_⟩
      rintro a ha b hb rfl
      obtain rfl := List.mem_singleton.1 hb
      exact hnew ha
    · rwa [names_replace]

/-- A reference is to one of the types. -/
theorem exists_mem_of_typeRef? {text : Text} {ref : TypeRef} (h : r.typeRef? text = some ref) :
    ∃ type ∈ r.types, ref.type = some type := by
  unfold typeRef? at h
  split at h
  · rename_i type htype
    obtain rfl := Option.some.inj h
    exact ⟨type, List.mem_of_find?_eq_some htype, rfl⟩
  · obtain ⟨type, hmem, htype⟩ := List.exists_of_findSome?_eq_some h
    obtain ⟨plural, -, rfl⟩ := Option.map_eq_some_iff.1 htype
    exact ⟨type, hmem, rfl⟩

/-- **References that are the same by name and number** are one reference, however their types were
spelled. -/
theorem eq_of_same (hr : Reachable dialect r) {text text' : Text} {ref ref' : TypeRef}
    (h : r.typeRef? text = some ref) (h' : r.typeRef? text' = some ref') (hsame : ref.same ref') :
    ref = ref' := by
  obtain ⟨type, hmem, htype⟩ := exists_mem_of_typeRef? h
  obtain ⟨type', hmem', htype'⟩ := exists_mem_of_typeRef? h'
  obtain ⟨ref, single⟩ := ref
  obtain ⟨ref', single'⟩ := ref'
  obtain rfl : ref = some type := htype
  obtain rfl : ref' = some type' := htype'
  simp only [TypeRef.same, TypeRef.name?, Option.map_some, Bool.and_eq_true, beq_iff_eq,
    Option.some.injEq] at hsame
  obtain ⟨rfl, hname⟩ := hsame
  rw [List.inj_on_of_nodup_map (nodup_names hr) hmem hmem' hname]

/-- Registering several types, up to the first that is refused, leads on from one registry that can
come about to another. -/
theorem Reachable.registerAll {r : Registry} (h : Reachable dialect r) (entries : List Entry) :
    Reachable dialect (r.registerAll dialect entries).1 := by
  induction entries generalizing r with
  | nil => exact h
  | cons e rest ih =>
    unfold Registry.registerAll
    split
    · rename_i hr
      exact ih (h.register hr)
    · exact h

/-- A type is registered with the written form that it is given. -/
theorem literal_of_register {name spellings : Text} {kind : Kind} {literal : Option LiteralForm}
    {type : ValueType} (h : r.register dialect name kind spellings literal = .ok (r', type)) :
    type.literal = literal := by
  unfold register at h
  split_ifs at h
  split at h
  · cases h
  · simp only at h
    split at h
    · obtain ⟨-, rfl⟩ := Prod.mk.inj (Except.ok.inj h)
      rfl
    · split_ifs at h
      obtain ⟨-, rfl⟩ := Prod.mk.inj (Except.ok.inj h)
      rfl

/-- A type that registering one leads to was there before, or is that one. -/
theorem mem_types_of_register {name spellings : Text} {kind : Kind} {literal : Option LiteralForm}
    {type old : ValueType} (h : r.register dialect name kind spellings literal = .ok (r', type))
    (hmem : old ∈ r'.types) : old ∈ r.types ∨ old = type := by
  obtain ⟨-, ⟨-, rfl⟩ | ⟨former, -, -, rfl⟩⟩ := register_cases h
  · exact (List.mem_append.1 hmem).imp_right List.mem_singleton.1
  · obtain ⟨other, hother, rfl⟩ := List.mem_map.1 hmem
    split_ifs
    · exact .inr rfl
    · exact .inl hother

/-- Each type that registering several leads to was there before, or has the name and the written
form of one of them. -/
theorem mem_types_of_registerAll {r : Registry} {entries : List Entry} {type : ValueType}
    (h : type ∈ (r.registerAll dialect entries).1.types) :
    type ∈ r.types ∨ ∃ e ∈ entries, type.name = e.name ∧ type.literal = some e.literal := by
  induction entries generalizing r with
  | nil => exact .inl h
  | cons e rest ih =>
    unfold registerAll at h
    split at h
    · rename_i r' new hregister
      rcases ih h with hmem | ⟨e', he', hnamed⟩
      · rcases mem_types_of_register hregister hmem with hmem | rfl
        · exact .inl hmem
        · have hname := (register_cases hregister).1
          have hliteral := literal_of_register hregister
          exact .inr ⟨e, List.mem_cons_self, hname, hliteral⟩
      · exact .inr ⟨e', List.mem_cons_of_mem _ he', hnamed⟩
    · exact .inl h

/-- Types of new names, all with spellings that can be compiled, are registered one and all. -/
theorem registerAll_eq_none {entries : List Entry}
    (hname : ∀ e ∈ entries, e.name ≠ []) (hnew : ∀ e ∈ entries, e.name ∉ r.names)
    (hnodup : (entries.map Entry.name).Nodup)
    (hcompile : ∀ e ∈ entries, ∃ finder, dialect.compile (Regex.whole e.spellings) = .ok finder) :
    (r.registerAll dialect entries).2 = none := by
  induction entries generalizing r with
  | nil => rfl
  | cons e rest ih =>
    obtain ⟨⟨finder, hfinder⟩, hcompile⟩ := List.forall_mem_cons.1 hcompile
    obtain ⟨hfirst, hnew⟩ := List.forall_mem_cons.1 hnew
    obtain ⟨hempty, hname⟩ := List.forall_mem_cons.1 hname
    obtain ⟨hdistinct, hnodup⟩ := List.nodup_cons.1 hnodup
    have hregister : ∃ type, type.name = e.name ∧
        r.register dialect e.name (.ofForm e.literal) e.spellings (some e.literal) =
          .ok (⟨r.types ++ [type]⟩, type) := by
      simp only [register, List.isEmpty_iff, hempty, if_false, hfinder, typeNamed?_eq_none.2 hfirst]
      exact ⟨_, rfl, rfl⟩
    obtain ⟨type, htype, hregister⟩ := hregister
    simp only [registerAll, hregister]
    refine ih hname (fun e' he' hmem => ?_) hnodup hcompile
    rw [names, List.map_append, List.mem_append, List.map_singleton, List.mem_singleton] at hmem
    rcases hmem with hmem | hmem
    · exact hnew e' he' hmem
    · exact hdistinct (List.mem_map.2 ⟨e', he', hmem.trans htype⟩)

end Registry

end Phrasebook
