import Mathlib.Data.List.Basic
import Mathlib.Logic.Function.Basic

/-!
# Texts of words of one width

A list written as words of one fixed width has one reading (`FixedWidth.flatMap_inj`), and where a
text of words ends in another text of words, the cut between them is a cut between two words
(`FixedWidth.split`): the words in front of it are those of the longer list.
-/

set_option autoImplicit false

namespace PhiChain.Foundations

universe u v

variable {α : Type u} {β : Type v} {f : α → List β} {w : Nat}

/-- Different items have different words, all of the same positive width. -/
structure FixedWidth (f : α → List β) (w : Nat) : Prop where
  pos : 0 < w
  length_eq : ∀ a, (f a).length = w
  inj : Function.Injective f

namespace FixedWidth

theorem length_flatMap (h : FixedWidth f w) (l : List α) :
    (l.flatMap f).length = l.length * w := by
  induction l with
  | nil => simp
  | cons a rest ih =>
    rw [List.flatMap_cons, List.length_append, h.length_eq, ih, List.length_cons, Nat.add_mul]
    omega

theorem flatMap_inj (h : FixedWidth f w) {l l' : List α} (heq : l.flatMap f = l'.flatMap f) :
    l = l' := by
  have hlen : l.length = l'.length := by
    apply Nat.eq_of_mul_eq_mul_right h.pos
    rw [← h.length_flatMap, ← h.length_flatMap, heq]
  -- word by word: the first words of both texts end at the same place
  induction l generalizing l' with
  | nil => exact (List.length_eq_zero_iff.1 hlen.symm).symm
  | cons a rest ih =>
    cases l' with
    | nil => cases hlen
    | cons a' rest' =>
      rw [List.flatMap_cons, List.flatMap_cons] at heq
      obtain ⟨hword, hrest⟩ := List.append_inj heq (by rw [h.length_eq, h.length_eq])
      rw [h.inj hword, ih hrest (Nat.succ.inj hlen)]

/-- A text of words with another one at its end and `m ++ [c]` in front: some words of the longer
list are written as `m ++ [c]`, and the other ones are the shorter list. -/
theorem split (h : FixedWidth f w) {l l' : List α} {m : List β} {c : β}
    (heq : l.flatMap f = m ++ c :: l'.flatMap f) :
    ∃ front last, l = front ++ last :: l' ∧ front.flatMap f ++ f last = m ++ [c] := by
  have hsize : l.length * w = m.length + 1 + l'.length * w := by
    have := congrArg List.length heq
    rw [List.length_append, List.length_cons, h.length_flatMap, h.length_flatMap] at this
    omega
  obtain ⟨n, hn⟩ : ∃ n, l.length = n + l'.length := by
    have hle : l'.length ≤ l.length := by
      apply Nat.le_of_mul_le_mul_right _ h.pos
      omega
    exact ⟨l.length - l'.length, by omega⟩
  have hfront : n * w = m.length + 1 := by
    rw [hn, Nat.add_mul] at hsize
    omega
  have hcut : (l.take n).flatMap f ++ (l.drop n).flatMap f = (m ++ [c]) ++ l'.flatMap f := by
    rw [← List.flatMap_append, List.take_append_drop, heq, List.append_assoc, List.singleton_append]
  have htake : ((l.take n).flatMap f).length = (m ++ [c]).length := by
    rw [h.length_flatMap, List.length_take, Nat.min_eq_left (by omega), hfront]
    simp
  obtain ⟨hm, hl'⟩ := List.append_inj hcut htake
  have hdrop : l.drop n = l' := h.flatMap_inj hl'
  rcases List.eq_nil_or_concat (l.take n) with hnil | ⟨front, last, hconcat⟩
  · rw [hnil] at hm
    exact absurd hm.symm (by simp)
  · refine ⟨front, last, ?_, ?_⟩
    · rw [← hdrop, ← List.singleton_append, ← List.append_assoc, ← List.concat_eq_append, ← hconcat,
        List.take_append_drop]
    · rw [← hm, hconcat, List.concat_eq_append, List.flatMap_append, List.flatMap_singleton]

end FixedWidth

end PhiChain.Foundations
