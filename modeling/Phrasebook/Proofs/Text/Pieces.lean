import Mathlib.Data.List.Basic
import Phrasebook.Text

/-!
# Pieces of a text

A text is cut at every place where some byte is, and pieces are joined with that byte between them.

* `Text.join_splitOn`, `Text.splitOn_join` : cutting and joining undo each other.
* `Text.splitOn_append` : a text is cut on the two sides of such a byte by themselves.
-/

namespace Phrasebook

namespace Text

variable {b : UInt8}

theorem join_cons (separator p : Text) {ps : List Text} (h : ps ≠ []) :
    join separator (p :: ps) = p ++ separator ++ join separator ps := by
  cases ps with
  | nil => exact absurd rfl h
  | cons q qs => rfl

theorem join_concat (separator p : Text) {ps : List Text} (h : ps ≠ []) :
    join separator (ps ++ [p]) = join separator ps ++ separator ++ p := by
  induction ps with
  | nil => exact absurd rfl h
  | cons q qs ih =>
    by_cases hnil : qs = []
    · subst hnil
      rfl
    · rw [List.cons_append, join_cons _ _ (by simp), ih hnil, join_cons _ _ hnil]
      simp only [List.append_assoc]

theorem splitOn_ne_nil (b : UInt8) (t : Text) : splitOn b t ≠ [] := by
  fun_induction splitOn b t <;> simp_all

theorem splitOn_of_notMem {p : Text} (h : b ∉ p) : splitOn b p = [p] := by
  induction p with
  | nil => rfl
  | cons a p ih =>
    rw [List.mem_cons, not_or] at h
    rw [splitOn, if_neg (Ne.symm h.1), ih h.2]

theorem splitOn_append (b : UInt8) (s t : Text) :
    splitOn b (s ++ b :: t) = splitOn b s ++ splitOn b t := by
  induction s with
  | nil => exact if_pos rfl
  | cons a s ih =>
    rw [List.cons_append, splitOn, splitOn, ih]
    split_ifs
    · rfl
    · obtain ⟨piece, pieces, hs⟩ := List.exists_cons_of_ne_nil (splitOn_ne_nil b s)
      rw [hs]
      rfl

/-- Pieces joined by a byte that none of them has are the pieces between these bytes. -/
theorem splitOn_join {pieces : List Text} (hne : pieces ≠ []) (h : ∀ p ∈ pieces, b ∉ p) :
    splitOn b (join [b] pieces) = pieces := by
  induction pieces with
  | nil => exact absurd rfl hne
  | cons p ps ih =>
    obtain ⟨hp, hps⟩ := List.forall_mem_cons.1 h
    by_cases hnil : ps = []
    · rw [hnil]
      exact splitOn_of_notMem hp
    · rw [join_cons _ _ hnil, List.append_assoc, List.singleton_append, splitOn_append, ih hnil hps,
        splitOn_of_notMem hp, List.singleton_append]

theorem join_splitOn (b : UInt8) (t : Text) : join [b] (splitOn b t) = t := by
  induction t with
  | nil => rfl
  | cons a t ih =>
    rw [splitOn]
    split_ifs with hab
    · subst hab
      rw [join_cons _ _ (splitOn_ne_nil _ _), ih]
      rfl
    · cases hs : splitOn b t with
      | nil => exact absurd hs (splitOn_ne_nil b t)
      | cons piece pieces =>
        rw [hs] at ih
        cases pieces with
        | nil => exact congrArg (a :: ·) ih
        | cons q qs => exact congrArg (a :: ·) ih

theorem mem_join {c : UInt8} {pieces : List Text} (h : c ∈ join [b] pieces) :
    c = b ∨ ∃ p ∈ pieces, c ∈ p := by
  match pieces with
  | [] => simp [join] at h
  | [p] => exact .inr ⟨p, by simp, h⟩
  | p :: q :: ps =>
    change c ∈ p ++ [b] ++ join [b] (q :: ps) at h
    simp only [List.mem_append, List.mem_singleton] at h
    obtain (h | h) | h := h
    · exact .inr ⟨p, by simp, h⟩
    · exact .inl h
    · obtain h | ⟨r, hr, hc⟩ := mem_join h
      · exact .inl h
      · exact .inr ⟨r, List.mem_cons_of_mem _ hr, hc⟩

/-- The pieces have the bytes of the text, without the one that parts them. -/
theorem mem_of_mem_splitOn {t piece : Text} (h : piece ∈ splitOn b t) :
    ∀ c ∈ piece, c ∈ t ∧ c ≠ b := by
  induction t generalizing piece with
  | nil =>
    obtain rfl := List.mem_singleton.1 h
    simp
  | cons a t ih =>
    rw [splitOn] at h
    split_ifs at h with hab
    · rcases List.mem_cons.1 h with rfl | h
      · simp
      · exact fun c hc => ⟨List.mem_cons_of_mem _ (ih h c hc).1, (ih h c hc).2⟩
    · cases hs : splitOn b t with
      | nil => exact absurd hs (splitOn_ne_nil b t)
      | cons first pieces =>
        rw [hs] at h ih
        rcases List.mem_cons.1 h with rfl | h
        · have hfirst := ih List.mem_cons_self
          refine List.forall_mem_cons.2 ⟨⟨List.mem_cons_self, hab⟩, fun c hc => ?_⟩
          exact ⟨List.mem_cons_of_mem _ (hfirst c hc).1, (hfirst c hc).2⟩
        · have hlater := ih (List.mem_cons_of_mem _ h)
          exact fun c hc => ⟨List.mem_cons_of_mem _ (hlater c hc).1, (hlater c hc).2⟩

end Text

end Phrasebook
