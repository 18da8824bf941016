import Mathlib.Logic.Function.Iterate
import PhiChain.Foundations.OrdMap

/-!
# Ring sweeps

A ring sweep visits the keys of an ordered map in ascending order, a bounded number in each
call, and deletes those that pass a test. Between calls it keeps the last key it visited,
which it may just have deleted; a call that reaches the end of the map drops that cursor, and
the next one starts over.

`ahead_sweep` is the step: a call that does not reach the end leaves exactly the unvisited
keys ahead. From it `pass` follows by induction on the number of calls: whatever lies ahead
has been tested by the time the cursor is dropped. Two passes cover the map from any cursor
(`sweep_complete`).
-/

set_option autoImplicit false

namespace PhiChain.Foundations

universe u v

/-- A map under a ring sweep, with the last key visited. -/
structure SweepRing (κ : Type u) (ν : Type v) [LinearOrder κ] where
  map : OrdMap κ ν
  cursor : Option κ

namespace SweepRing

variable {κ : Type u} {ν : Type v} [LinearOrder κ]

/-- Whether a key lies behind the cursor in the order of the sweep. -/
def awaits (cursor : Option κ) (k : κ) : Bool :=
  match cursor with
  | some c => c < k
  | none => true

variable {k : κ} {r : SweepRing κ ν}

theorem awaits_some {c : κ} : awaits (some c) k = true ↔ c < k := decide_eq_true_iff

/-- The keys that the sweep visits before it starts over. -/
def ahead (r : SweepRing κ ν) : List κ := r.map.keysWhere (awaits r.cursor)

/-- One call: visit at most `budget` keys and delete those in `p`. -/
def sweep (p : κ → Bool) (budget : Nat) (r : SweepRing κ ν) : SweepRing κ ν :=
  let visited := r.ahead.take budget
  { map := r.map.eraseAll (visited.filter p)
    cursor := if r.ahead.length ≤ budget then none else visited.getLast? }

variable {p : κ → Bool} {budget : Nat}

theorem mem_ahead :
    k ∈ r.ahead ↔ awaits r.cursor k = true ∧ r.map.has k = true := OrdMap.mem_keysWhere

theorem ahead_ascending (r : SweepRing κ ν) : r.ahead.Pairwise (· < ·) :=
  List.pairwise_map.2 (r.map.ascending.filter _)

theorem length_ahead_le (r : SweepRing κ ν) : r.ahead.length ≤ r.map.entries.length := by
  rw [← OrdMap.length_keysWhere_true r.map]
  exact OrdMap.length_keysWhere_le fun k _ hhas => ⟨rfl, hhas⟩

/-- A call deletes keys that pass the test and nothing else. -/
theorem thins_sweep (p : κ → Bool) (budget : Nat) (r : SweepRing κ ν) :
    OrdMap.Thins (p · = true) r.map (sweep p budget r).map :=
  OrdMap.thins_eraseAll (fun _ hk => (List.mem_filter.1 hk).2) r.map

theorem thins_iterate (p : κ → Bool) (budget : Nat) (r : SweepRing κ ν) (n : Nat) :
    OrdMap.Thins (p · = true) r.map ((sweep p budget)^[n] r).map := by
  induction n with
  | zero => exact OrdMap.Thins.refl _ _
  | succ n ih =>
    rw [Function.iterate_succ_apply']
    exact ih.trans (thins_sweep p budget _)

/-- A deleted key stays away. -/
theorem gone_iterate (h : r.map.get? k = none) (n : Nat) :
    ((sweep p budget)^[n] r).map.get? k = none := by
  cases hget : ((sweep p budget)^[n] r).map.get? k with
  | none => rfl
  | some x =>
    rw [(thins_iterate p budget r n).fewer k x hget] at h
    cases h

theorem gone_of_visited (hk : k ∈ r.ahead.take budget)
    (hp : p k = true) : (sweep p budget r).map.get? k = none :=
  OrdMap.get?_eraseAll_of_mem r.map (List.mem_filter.2 ⟨hk, hp⟩)

/-- In an ascending list nothing exceeds the last element. -/
theorem le_getLast {ks : List κ} (hks : ks.Pairwise (· < ·)) {last : κ}
    (hlast : ks.getLast? = some last) (hk : k ∈ ks) : k ≤ last := by
  obtain ⟨init, rfl⟩ := List.getLast?_eq_some_iff.1 hlast
  rcases List.mem_append.1 hk with hinit | hend
  · exact ((List.pairwise_append.1 hks).2.2 k hinit last (List.mem_singleton_self last)).le
  · exact (List.mem_singleton.1 hend).le

/-- The keys behind the last visited one wait for the cursor to reach them. -/
theorem awaits_trans {cursor : Option κ} {last : κ} (hlast : awaits cursor last = true)
    (hlt : last < k) : awaits cursor k = true := by
  cases cursor with
  | none => rfl
  | some c => exact awaits_some.2 ((awaits_some.1 hlast).trans hlt)

/-- A call that does not reach the end leaves ahead what it has not visited. -/
theorem ahead_sweep (hbudget : 0 < budget) (h : budget < r.ahead.length) :
    (sweep p budget r).ahead = r.ahead.drop budget := by
  have hsplit := List.take_append_drop budget r.ahead
  have hnonempty : r.ahead.take budget ≠ [] := by
    intro hnil
    have hlength := congrArg List.length hnil
    rw [List.length_take, List.length_nil] at hlength
    omega
  obtain ⟨last, hlast⟩ := List.getLast?_isSome.2 hnonempty |> Option.isSome_iff_exists.1
  have hcursor : (sweep p budget r).cursor = some last := by
    simp only [sweep, if_neg (Nat.not_le.2 h), hlast]
  have hmem : last ∈ r.ahead.take budget := List.mem_of_getLast? hlast
  have hascending := r.ahead_ascending
  rw [← hsplit, List.pairwise_append] at hascending
  obtain ⟨hvisited, hdrop, hacross⟩ := hascending
  refine (ahead_ascending _).eq_of_mem_iff hdrop fun k => ?_
  rw [mem_ahead, hcursor]
  constructor
  · rintro ⟨hlt, hhas⟩
    have hlt' : last < k := awaits_some.1 hlt
    have hahead : k ∈ r.ahead :=
      mem_ahead.2 ⟨awaits_trans (mem_ahead.1 (List.mem_of_mem_take hmem)).1 hlt',
        OrdMap.has_of_eraseAll hhas⟩
    rw [← hsplit, List.mem_append] at hahead
    rcases hahead with hseen | hrest
    · exact absurd (le_getLast hvisited hlast hseen) (not_le.2 hlt')
    · exact hrest
  · intro hk
    refine ⟨awaits_some.2 (hacross last hmem k hk), ?_⟩
    -- the deleted keys are visited ones, and those come before `k`
    have hspared : k ∉ (r.ahead.take budget).filter p := fun hseen =>
      (hacross k (List.mem_filter.1 hseen).1 k hk).false
    obtain ⟨x, hx⟩ := OrdMap.has_iff.1 (mem_ahead.1 (List.mem_of_mem_drop hk)).2
    exact OrdMap.has_iff.2 ⟨x, (OrdMap.get?_eraseAll_of_not_mem r.map hspared).trans hx⟩

/-- Within `n` calls the sweep reaches the end of the map, and it has tested what was ahead. -/
theorem pass (hbudget : 0 < budget) {n : Nat} (hn : 0 < n) (hlength : r.ahead.length ≤ n * budget) :
    ∃ calls, calls ≤ n ∧ ((sweep p budget)^[calls] r).cursor = none ∧
      ∀ k ∈ r.ahead, p k = true → ((sweep p budget)^[calls] r).map.get? k = none := by
  induction n generalizing r with
  | zero => exact absurd hn (Nat.lt_irrefl 0)
  | succ n ih =>
    rcases Nat.lt_or_ge budget r.ahead.length with hlong | hshort
    · have hahead : (sweep p budget r).ahead = r.ahead.drop budget := ahead_sweep hbudget hlong
      have hrest : (sweep p budget r).ahead.length ≤ n * budget := by
        rw [hahead, List.length_drop]
        rw [Nat.succ_mul] at hlength
        omega
      have hpos : 0 < n := by
        rcases Nat.eq_zero_or_pos n with rfl | hpos
        · omega
        · exact hpos
      obtain ⟨calls, hcalls, hcursor, hgone⟩ := ih hpos hrest
      refine ⟨calls + 1, Nat.succ_le_succ hcalls, hcursor, fun k hk hp => ?_⟩
      rw [← List.take_append_drop budget r.ahead, List.mem_append] at hk
      rcases hk with hseen | hwaiting
      · exact gone_iterate (gone_of_visited hseen hp) calls
      · exact hgone k (hahead ▸ hwaiting) hp
    · refine ⟨1, Nat.succ_le_succ (Nat.zero_le n), ?_, fun k hk hp => ?_⟩
      · exact if_pos hshort
      · apply gone_of_visited _ hp
        rwa [List.take_of_length_le hshort]

/-- Two passes test every key, wherever the cursor stood. -/
theorem sweep_complete (hbudget : 0 < budget) {n : Nat} (hn : 0 < n)
    (hlength : r.map.entries.length ≤ n * budget) {calls : Nat} (hcalls : 2 * n ≤ calls)
    (hp : p k = true) : ((sweep p budget)^[calls] r).map.get? k = none := by
  obtain ⟨first, hfirst, hcursor, -⟩ :=
    pass (p := p) hbudget hn (r.length_ahead_le.trans hlength)
  -- the second pass starts at the front, on a map with no more keys
  have hfewer : ((sweep p budget)^[first] r).map.entries.length ≤ r.map.entries.length := by
    rw [← OrdMap.length_keysWhere_true, ← OrdMap.length_keysWhere_true r.map]
    refine OrdMap.length_keysWhere_le fun k _ hhas => ⟨rfl, ?_⟩
    obtain ⟨x, hx⟩ := OrdMap.has_iff.1 hhas
    exact OrdMap.has_iff.2 ⟨x, (thins_iterate p budget r first).fewer k x hx⟩
  obtain ⟨second, hsecond, -, hgone⟩ :=
    pass (p := p) hbudget hn (((length_ahead_le _).trans hfewer).trans hlength)
  have hboth : ((sweep p budget)^[second] ((sweep p budget)^[first] r)).map.get? k = none := by
    cases hget : ((sweep p budget)^[first] r).map.get? k with
    | none => exact gone_iterate hget second
    | some x =>
      apply hgone k _ hp
      rw [mem_ahead, hcursor]
      exact ⟨rfl, OrdMap.has_iff.2 ⟨x, hget⟩⟩
  have hsum : calls = calls - (second + first) + (second + first) := by omega
  rw [hsum, Function.iterate_add_apply, Function.iterate_add_apply]
  exact gone_iterate hboth _

end SweepRing

end PhiChain.Foundations
