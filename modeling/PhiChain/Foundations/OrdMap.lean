import Mathlib.Data.List.Lex
import Mathlib.Data.List.Sort
import Mathlib.Algebra.BigOperators.Group.List.Basic

/-!
# Ordered finite maps

A finite map is kept as the list of its entries in strictly ascending key order,
so that iterating it visits the keys in the order an ordered key-value store
does. The order is a field of the structure: an unsorted or duplicated entry
list is not a map.

The lookup laws are `get?_put`, `get?_erase` and the two laws of `eraseAll`. Totals over the
entries follow one key at a time: `total_put` and `total_eq_erase` split a total
into the contribution of one key and the total of the map without it. `Thins` says that a
map lost some keys of a kind and nothing else.
-/

set_option autoImplicit false

namespace PhiChain.Foundations

universe u v w

variable {κ : Type u} {ν : Type v}

/-- Finite map whose entries are listed in strictly ascending key order. -/
structure OrdMap (κ : Type u) (ν : Type v) [LinearOrder κ] where
  entries : List (κ × ν)
  ascending : entries.Pairwise fun a b => a.1 < b.1

namespace OrdMap

variable [LinearOrder κ]

variable {es : List (κ × ν)} {j k : κ} {x : ν} {m m' : OrdMap κ ν} {ks : List κ} {p : κ → Prop}

/-- First value listed under a key. -/
def lookupIn (k : κ) : List (κ × ν) → Option ν
  | [] => none
  | e :: rest => if e.1 = k then some e.2 else lookupIn k rest

/-- Ordered insertion, replacing the entry of an equal key. -/
def putIn (k : κ) (x : ν) : List (κ × ν) → List (κ × ν)
  | [] => [(k, x)]
  | e :: rest =>
    if k < e.1 then (k, x) :: e :: rest
    else if k = e.1 then (k, x) :: rest
    else e :: putIn k x rest

/-- The entries whose key is not `k`. -/
def dropIn (k : κ) (es : List (κ × ν)) : List (κ × ν) := es.filter fun e => e.1 ≠ k

theorem mem_putIn {e : κ × ν} (h : e ∈ putIn k x es) : e = (k, x) ∨ e ∈ es := by
  induction es with
  | nil => exact Or.inl (by simpa [putIn] using h)
  | cons a rest ih =>
    unfold putIn at h
    split at h
    · rcases List.mem_cons.1 h with h | h
      · exact Or.inl h
      · exact Or.inr h
    · split at h
      · rcases List.mem_cons.1 h with h | h
        · exact Or.inl h
        · exact Or.inr (List.mem_cons_of_mem _ h)
      · rcases List.mem_cons.1 h with h | h
        · exact Or.inr (h ▸ List.mem_cons_self)
        · rcases ih h with h | h
          · exact Or.inl h
          · exact Or.inr (List.mem_cons_of_mem _ h)

theorem putIn_ascending (k : κ) (x : ν) (h : es.Pairwise fun a b => a.1 < b.1) :
    (putIn k x es).Pairwise fun a b => a.1 < b.1 := by
  induction es with
  | nil => simp [putIn]
  | cons a rest ih =>
    obtain ⟨hhead, htail⟩ := List.pairwise_cons.1 h
    unfold putIn
    split
    · rename_i hlt
      refine List.pairwise_cons.2 ⟨?_, h⟩
      intro b hb
      rcases List.mem_cons.1 hb with rfl | hb
      · exact hlt
      · exact hlt.trans (hhead b hb)
    · split
      · rename_i hkey
        exact List.pairwise_cons.2 ⟨fun b hb => hkey ▸ hhead b hb, htail⟩
      · rename_i hnlt hne
        refine List.pairwise_cons.2 ⟨?_, ih htail⟩
        intro b hb
        rcases mem_putIn hb with rfl | hb
        · exact lt_of_le_of_ne (not_lt.1 hnlt) (Ne.symm hne)
        · exact hhead b hb

theorem lookupIn_putIn (k j : κ) (x : ν) (es : List (κ × ν)) :
    lookupIn j (putIn k x es) = if k = j then some x else lookupIn j es := by
  induction es with
  | nil => simp [putIn, lookupIn]
  | cons a rest ih =>
    unfold putIn
    split
    · simp [lookupIn]
    · split
      · rename_i hkey
        by_cases hj : k = j
        · simp [lookupIn, hj]
        · have ha : a.1 ≠ j := fun h => hj (hkey.trans h)
          simp [lookupIn, hj, ha]
      · rename_i hne
        by_cases ha : a.1 = j
        · have hj : k ≠ j := fun h => hne (h.trans ha.symm)
          simp [lookupIn, ha, hj]
        · simp only [lookupIn, if_neg ha]
          exact ih

theorem lookupIn_dropIn (k j : κ) (es : List (κ × ν)) :
    lookupIn j (dropIn k es) = if k = j then none else lookupIn j es := by
  induction es with
  | nil => simp [dropIn, lookupIn]
  | cons a rest ih =>
    by_cases hk : a.1 = k
    · have hdrop : dropIn k (a :: rest) = dropIn k rest := by simp [dropIn, hk]
      rw [hdrop, ih]
      by_cases hj : k = j
      · simp [hj]
      · have ha : a.1 ≠ j := fun h => hj (hk.symm.trans h)
        simp [lookupIn, hj, ha]
    · have hdrop : dropIn k (a :: rest) = a :: dropIn k rest := by simp [dropIn, hk]
      rw [hdrop]
      by_cases ha : a.1 = j
      · have hj : k ≠ j := fun h => hk (ha.trans h.symm)
        simp [lookupIn, ha, hj]
      · simp only [lookupIn, if_neg ha]
        exact ih

theorem lookupIn_eq_none (h : ∀ e ∈ es, e.1 ≠ k) :
    lookupIn k es = none := by
  induction es with
  | nil => rfl
  | cons a rest ih =>
    have ha : a.1 ≠ k := h a List.mem_cons_self
    simp only [lookupIn, if_neg ha]
    exact ih fun e he => h e (List.mem_cons_of_mem _ he)

theorem mem_iff_lookupIn (h : es.Pairwise fun a b => a.1 < b.1) :
    (k, x) ∈ es ↔ lookupIn k es = some x := by
  induction es with
  | nil => simp [lookupIn]
  | cons a rest ih =>
    obtain ⟨hhead, htail⟩ := List.pairwise_cons.1 h
    by_cases ha : a.1 = k
    · have hout : (k, x) ∉ rest := by
        intro hm
        have hlt : a.1 < k := hhead (k, x) hm
        exact lt_irrefl k (ha ▸ hlt)
      simp only [lookupIn, if_pos ha, List.mem_cons, hout, or_false, Option.some.injEq]
      constructor
      · intro heq
        rw [← heq]
      · intro heq
        rw [← ha, ← heq]
    · have hne : (k, x) ≠ a := fun heq => ha (heq ▸ rfl)
      simp only [lookupIn, if_neg ha, List.mem_cons, hne, false_or]
      exact ih htail

/-- The map with no entries. -/
def empty : OrdMap κ ν := ⟨[], List.Pairwise.nil⟩

instance : EmptyCollection (OrdMap κ ν) := ⟨empty⟩

instance : Inhabited (OrdMap κ ν) := ⟨empty⟩

/-- Value stored under a key. -/
def get? (m : OrdMap κ ν) (k : κ) : Option ν := lookupIn k m.entries

/-- Value stored under a key, or a default. -/
def getD (m : OrdMap κ ν) (k : κ) (d : ν) : ν := (m.get? k).getD d

/-- Whether a key is present. -/
def has (m : OrdMap κ ν) (k : κ) : Bool := (m.get? k).isSome

/-- Store a value under a key. -/
def put (m : OrdMap κ ν) (k : κ) (x : ν) : OrdMap κ ν :=
  ⟨putIn k x m.entries, putIn_ascending k x m.ascending⟩

/-- Remove a key. -/
def erase (m : OrdMap κ ν) (k : κ) : OrdMap κ ν :=
  ⟨dropIn k m.entries, m.ascending.filter _⟩

/-- Remove every key of a list. -/
def eraseAll (m : OrdMap κ ν) (ks : List κ) : OrdMap κ ν := ks.foldl erase m

/-- Keys satisfying a test, in iteration order. -/
def keysWhere (m : OrdMap κ ν) (p : κ → Bool) : List κ :=
  (m.entries.filter fun e => p e.1).map Prod.fst

theorem ext_entries {n : OrdMap κ ν} (h : m.entries = n.entries) : m = n := by
  cases m
  cases n
  cases h
  rfl

theorem mem_entries :
    (k, x) ∈ m.entries ↔ m.get? k = some x :=
  mem_iff_lookupIn m.ascending

/-- A map is what it holds. -/
theorem ext_get? {n : OrdMap κ ν} (h : ∀ k, m.get? k = n.get? k) : m = n := by
  refine ext_entries (m.ascending.eq_of_mem_iff n.ascending fun e => ?_)
  exact mem_entries.trans ((h e.1).congr_left.trans mem_entries.symm)

@[simp] theorem get?_empty (k : κ) : (∅ : OrdMap κ ν).get? k = none := rfl

theorem get?_put (m : OrdMap κ ν) (k j : κ) (x : ν) [Decidable (k = j)] :
    (m.put k x).get? j = if k = j then some x else m.get? j := by
  refine (lookupIn_putIn k j x m.entries).trans ?_
  split
  · rfl
  · rfl

@[simp] theorem get?_put_self (m : OrdMap κ ν) (k : κ) (x : ν) :
    (m.put k x).get? k = some x := by
  rw [get?_put, if_pos rfl]

theorem get?_put_ne (m : OrdMap κ ν) (x : ν) (h : k ≠ j) :
    (m.put k x).get? j = m.get? j := by
  rw [get?_put, if_neg h]

theorem get?_erase (m : OrdMap κ ν) (k j : κ) [Decidable (k = j)] :
    (m.erase k).get? j = if k = j then none else m.get? j := by
  refine (lookupIn_dropIn k j m.entries).trans ?_
  split
  · rfl
  · rfl

@[simp] theorem get?_erase_self (m : OrdMap κ ν) (k : κ) : (m.erase k).get? k = none := by
  rw [get?_erase, if_pos rfl]

theorem get?_erase_ne (m : OrdMap κ ν) (h : k ≠ j) :
    (m.erase k).get? j = m.get? j := by
  rw [get?_erase, if_neg h]

/-- Storing a value again changes nothing. -/
theorem put_of_get? (h : m.get? k = some x) : m.put k x = m := by
  refine ext_get? fun j => ?_
  rw [get?_put]
  split
  · rename_i hkey
    rw [← hkey, h]
  · rfl

/-- Erasing an absent key changes nothing. -/
theorem erase_of_get?_none (h : m.get? k = none) : m.erase k = m := by
  refine ext_get? fun j => ?_
  rw [get?_erase]
  split
  · rename_i hkey
    rw [← hkey, h]
  · rfl

theorem get?_eraseAll_of_not_mem (m : OrdMap κ ν) (h : j ∉ ks) :
    (m.eraseAll ks).get? j = m.get? j := by
  induction ks generalizing m with
  | nil => rfl
  | cons k rest ih =>
    have hstep : m.eraseAll (k :: rest) = (m.erase k).eraseAll rest := rfl
    have hk : k ≠ j := fun heq => h (heq ▸ List.mem_cons_self)
    rw [hstep, ih _ fun hm => h (List.mem_cons_of_mem _ hm), get?_erase_ne m hk]

theorem get?_eraseAll_of_mem (m : OrdMap κ ν) (h : j ∈ ks) :
    (m.eraseAll ks).get? j = none := by
  induction ks generalizing m with
  | nil => cases h
  | cons k rest ih =>
    have hstep : m.eraseAll (k :: rest) = (m.erase k).eraseAll rest := rfl
    rw [hstep]
    by_cases hj : j ∈ rest
    · exact ih _ hj
    · have hk : j = k := by
        rcases List.mem_cons.1 h with h | h
        · exact h
        · exact absurd h hj
      rw [get?_eraseAll_of_not_mem _ hj, hk, get?_erase_self]

/-- What is stored after erasing was stored before. -/
theorem get?_of_eraseAll (h : (m.eraseAll ks).get? j = some x) : m.get? j = some x := by
  rcases Classical.em (j ∈ ks) with hj | hj
  · rw [get?_eraseAll_of_mem m hj] at h
    cases h
  · rwa [get?_eraseAll_of_not_mem m hj] at h

/-- Storing the images of listed entries, one after another, over a map. -/
theorem get?_foldl_put {ν' : Type w} (f : ν → ν') (hes : es.Pairwise fun a b => a.1 < b.1)
    (m : OrdMap κ ν') (k : κ) :
    (es.foldl (fun m e => m.put e.1 (f e.2)) m).get? k =
      ((lookupIn k es).map f).or (m.get? k) := by
  induction es generalizing m with
  | nil => rfl
  | cons e rest ih =>
    obtain ⟨hfirst, hrest⟩ := List.pairwise_cons.1 hes
    rw [List.foldl_cons, ih hrest, get?_put, lookupIn]
    by_cases hk : e.1 = k
    · -- later entries have larger keys
      have hnone : lookupIn k rest = none :=
        lookupIn_eq_none fun e' he' heq => absurd (hfirst e' he') (by rw [hk, heq]; exact lt_irrefl k)
      rw [if_pos hk, if_pos hk, hnone]
      rfl
    · rw [if_neg hk, if_neg hk]

/-- Entries in ascending order, stored one after another, are the map they list. -/
theorem foldl_put_entries (hes : es.Pairwise fun a b => a.1 < b.1) :
    es.foldl (fun m e => m.put e.1 e.2) ∅ = (⟨es, hes⟩ : OrdMap κ ν) := by
  refine ext_get? fun k => ?_
  rw [get?_foldl_put (fun x => x) hes, get?_empty, Option.or_none, Option.map_id']
  rfl

theorem has_iff : m.has k = true ↔ ∃ x, m.get? k = some x := by
  unfold has
  exact Option.isSome_iff_exists

/-- A set of keys is the keys it has. -/
theorem ext_has {m n : OrdMap κ Unit} (h : ∀ k, m.has k = true ↔ n.has k = true) : m = n := by
  refine ext_get? fun k => Option.ext fun x => ?_
  have hunit : ∀ l : OrdMap κ Unit, l.get? k = some x ↔ l.has k = true := fun l =>
    ⟨fun hget => has_iff.2 ⟨x, hget⟩, fun hhas => (has_iff.1 hhas).elim fun _ hget => hget⟩
  exact (hunit m).trans ((h k).trans (hunit n).symm)

theorem has_put :
    (m.put k x).has j = true ↔ k = j ∨ m.has j = true := by
  rw [has_iff, has_iff, get?_put]
  split
  · rename_i h
    simp [h]
  · rename_i h
    simp [h]

theorem has_erase :
    (m.erase k).has j = true ↔ k ≠ j ∧ m.has j = true := by
  rw [has_iff, has_iff, get?_erase]
  split
  · rename_i h
    simp [h]
  · rename_i h
    simp [h]

theorem has_of_erase (h : (m.erase k).has j = true) : m.has j = true := (has_erase.1 h).2

theorem has_eq_false : m.has k = false ↔ m.get? k = none := by
  unfold has
  exact Option.isSome_eq_false_iff.trans Option.isNone_iff_eq_none

theorem mem_keysWhere {p : κ → Bool} :
    k ∈ m.keysWhere p ↔ p k = true ∧ m.has k = true := by
  unfold keysWhere
  constructor
  · intro h
    obtain ⟨e, he, hfst⟩ := List.mem_map.1 h
    obtain ⟨hmem, hp⟩ := List.mem_filter.1 he
    subst hfst
    exact ⟨hp, has_iff.2 ⟨e.2, mem_entries.1 hmem⟩⟩
  · rintro ⟨hp, hhas⟩
    obtain ⟨x, hx⟩ := has_iff.1 hhas
    exact List.mem_map.2 ⟨(k, x), List.mem_filter.2 ⟨mem_entries.2 hx, hp⟩, rfl⟩

section Totals

variable {μ : Type w} [AddCommMonoid μ]

/-- Sum of a weight over all entries. -/
def total (f : κ → ν → μ) (m : OrdMap κ ν) : μ := (m.entries.map fun e => f e.1 e.2).sum

theorem sum_putIn (f : κ → ν → μ) (k : κ) (x : ν) (h : es.Pairwise fun a b => a.1 < b.1) :
    ((putIn k x es).map fun e => f e.1 e.2).sum =
      f k x + ((dropIn k es).map fun e => f e.1 e.2).sum := by
  induction es with
  | nil => simp [putIn, dropIn]
  | cons a rest ih =>
    obtain ⟨hhead, htail⟩ := List.pairwise_cons.1 h
    have hrest : ∀ j, j ≤ a.1 → dropIn j rest = rest := by
      intro j hj
      refine List.filter_eq_self.2 fun e he => ?_
      exact decide_eq_true (ne_of_gt (lt_of_le_of_lt hj (hhead e he)))
    unfold putIn
    split
    · rename_i hlt
      have hdrop : dropIn k (a :: rest) = a :: rest := by
        have hsame := hrest k hlt.le
        unfold dropIn at hsame ⊢
        rw [List.filter_cons_of_pos (by simpa using ne_of_gt hlt), hsame]
      rw [hdrop]
      simp
    · split
      · rename_i hkey
        have hdrop : dropIn k (a :: rest) = rest := by
          have hsame := hrest k hkey.le
          unfold dropIn at hsame ⊢
          rw [List.filter_cons_of_neg (by simp [hkey]), hsame]
        rw [hdrop]
        simp
      · rename_i hne
        have hdrop : dropIn k (a :: rest) = a :: dropIn k rest := by
          unfold dropIn
          rw [List.filter_cons_of_pos (by simpa using Ne.symm hne)]
        rw [hdrop]
        simp only [List.map_cons, List.sum_cons]
        rw [ih htail, add_left_comm]

/-- Storing under a key replaces that key's contribution. -/
theorem total_put (f : κ → ν → μ) (m : OrdMap κ ν) (k : κ) (x : ν) :
    total f (m.put k x) = f k x + total f (m.erase k) :=
  sum_putIn f k x m.ascending

/-- A stored key contributes its weight to the total. -/
theorem total_eq_erase (f : κ → ν → μ)
    (h : m.get? k = some x) : total f m = f k x + total f (m.erase k) := by
  calc total f m = total f (m.put k x) := by rw [put_of_get? h]
    _ = f k x + total f (m.erase k) := total_put f m k x

/-- A sum of the values is the value of one key and the sum of the others. -/
theorem total_eq_getD (m : OrdMap κ μ) (k : κ) :
    total (fun _ x => x) m = m.getD k 0 + total (fun _ x => x) (m.erase k) := by
  rw [getD]
  cases hget : m.get? k with
  | none => rw [erase_of_get?_none hget, Option.getD_none, zero_add]
  | some x => rw [total_eq_erase _ hget, Option.getD_some]

/-- Balance of one update: what the key contributed before against what it does now. -/
theorem total_put_add (f : κ → ν → μ) (m : OrdMap κ ν) (k : κ) (x : ν) :
    total f (m.put k x) + (m.get? k).elim 0 (f k) = f k x + total f m := by
  rw [total_put]
  cases h : m.get? k with
  | none => rw [erase_of_get?_none h, Option.elim_none, add_zero]
  | some y => rw [total_eq_erase f h, Option.elim_some, add_assoc, add_comm (f k y)]

theorem total_eq_zero {f : κ → ν → μ}
    (h : ∀ k x, m.get? k = some x → f k x = 0) : total f m = 0 := by
  refine List.sum_eq_zero fun y hy => ?_
  obtain ⟨e, he, rfl⟩ := List.mem_map.1 hy
  exact h e.1 e.2 (mem_entries.1 he)

/-- A total is the sum over the keys where the weight lives. -/
theorem total_eq_filter {f : κ → ν → μ} [DecidablePred p] (hf : ∀ k x, ¬ p k → f k x = 0)
    (m : OrdMap κ ν) :
    total f m = ((m.entries.filter fun e => p e.1).map fun e => f e.1 e.2).sum := by
  unfold total
  induction m.entries with
  | nil => rfl
  | cons e rest ih =>
    by_cases he : p e.1
    · rw [List.filter_cons_of_pos (by simpa using he)]
      simp only [List.map_cons, List.sum_cons, ih]
    · rw [List.filter_cons_of_neg (by simpa using he)]
      simp only [List.map_cons, List.sum_cons, hf _ _ he, zero_add, ih]

/-- Two maps that agree where the weight lives have the same total. -/
theorem total_congr {f : κ → ν → μ} [DecidablePred p] (hf : ∀ k x, ¬ p k → f k x = 0)
    {n : OrdMap κ ν} (h : ∀ k, p k → m.get? k = n.get? k) :
    total f m = total f n := by
  have hfilter : (m.entries.filter fun e => p e.1) = n.entries.filter fun e => p e.1 := by
    refine (m.ascending.filter _).eq_of_mem_iff (n.ascending.filter _) fun e => ?_
    simp only [List.mem_filter, decide_eq_true_eq]
    refine and_congr_left fun he => ?_
    exact mem_entries.trans ((h e.1 he) ▸ mem_entries.symm)
  rw [total_eq_filter hf, total_eq_filter hf, hfilter]

end Totals

theorem total_one (m : OrdMap κ ν) : total (fun _ _ => 1) m = m.entries.length := by
  simp [total]

/-- Counting by ones is the length of the filtered entries. -/
theorem total_indicator (p : κ → ν → Bool) (m : OrdMap κ ν) :
    total (fun k x => if p k x then 1 else 0) m = (m.entries.filter fun e => p e.1 e.2).length := by
  unfold total
  induction m.entries with
  | nil => rfl
  | cons e rest ih =>
    rw [List.map_cons, List.sum_cons, ih, List.filter_cons]
    cases hp : p e.1 e.2 with
    | true => simp [hp, Nat.add_comm]
    | false => simp [hp]

/-- A map that holds the images of another's values, on the keys that pass a test, has as
many of them with any property. -/
theorem length_filter_image {ν' : Type w} {n : OrdMap κ ν'} {p : κ → Bool} {f : ν → ν'}
    (h : ∀ k, p k = true → n.get? k = (m.get? k).map f) (q : ν' → Bool) :
    (n.entries.filter fun e => p e.1 && q e.2).length =
      (m.entries.filter fun e => p e.1 && q (f e.2)).length := by
  have himage : (n.entries.filter fun e => p e.1 && q e.2) =
      (m.entries.filter fun e => p e.1 && q (f e.2)).map fun e => (e.1, f e.2) := by
    refine (n.ascending.filter _).eq_of_mem_iff
      (List.pairwise_map.2 (m.ascending.filter _)) fun e => ?_
    obtain ⟨k, y⟩ := e
    simp only [List.mem_filter, List.mem_map, Bool.and_eq_true, mem_entries, Prod.mk.injEq,
      Prod.exists]
    constructor
    · rintro ⟨hy, hp, hq⟩
      rw [h k hp] at hy
      obtain ⟨x, hx, rfl⟩ := Option.map_eq_some_iff.1 hy
      exact ⟨k, x, ⟨hx, hp, hq⟩, rfl, rfl⟩
    · rintro ⟨k, x, ⟨hx, hp, hq⟩, rfl, rfl⟩
      refine ⟨?_, hp, hq⟩
      rw [h k hp, hx]
      rfl
  rw [himage, List.length_map]

theorem length_put_of_get? {y : ν} (h : m.get? k = some y) (x : ν) :
    (m.put k x).entries.length = m.entries.length := by
  have hbalance := total_put_add (fun _ _ => 1) m k x
  rw [total_one, total_one, h, Option.elim_some] at hbalance
  omega

theorem length_put_of_none (h : m.get? k = none) (x : ν) :
    (m.put k x).entries.length = m.entries.length + 1 := by
  have hbalance := total_put_add (fun _ _ => 1) m k x
  rw [total_one, total_one, h, Option.elim_none] at hbalance
  omega

theorem length_erase {y : ν} (h : m.get? k = some y) :
    (m.erase k).entries.length + 1 = m.entries.length := by
  have hsplit := total_eq_erase (fun _ _ => 1) h
  rw [total_one, total_one] at hsplit
  omega

theorem mem_keys : k ∈ m.entries.map Prod.fst ↔ m.has k = true := by
  rw [has_iff, List.mem_map]
  constructor
  · rintro ⟨e, he, rfl⟩
    exact ⟨e.2, mem_entries.1 he⟩
  · rintro ⟨x, hx⟩
    exact ⟨(k, x), mem_entries.2 hx, rfl⟩

/-- Keys are listed once. -/
theorem nodup_keys (m : OrdMap κ ν) : (m.entries.map Prod.fst).Nodup :=
  List.pairwise_map.2 (m.ascending.imp ne_of_lt)

/-- The values in the order of their keys. -/
def values (m : OrdMap κ ν) : List ν := m.entries.map Prod.snd

theorem mem_values : x ∈ m.values ↔ ∃ k, m.get? k = some x := by
  simp only [values, List.mem_map, Prod.exists, exists_eq_right, mem_entries]

/-- Counting values is a total of ones. -/
theorem countP_values (p : ν → Bool) (m : OrdMap κ ν) :
    m.values.countP p = total (fun _ x => if p x then 1 else 0) m := by
  unfold values total
  induction m.entries with
  | nil => rfl
  | cons e rest ih => rw [List.map_cons, List.countP_cons, ih, List.map_cons, List.sum_cons,
      Nat.add_comm]

theorem countP_values_put_of_none (h : m.get? k = none) (p : ν → Bool)
    (x : ν) : (m.put k x).values.countP p = m.values.countP p + if p x then 1 else 0 := by
  have hbalance := total_put_add (fun _ x => if p x then 1 else 0) m k x
  rw [← countP_values, ← countP_values, h, Option.elim_none] at hbalance
  omega

/-- `m'` is `m` without some of the keys in `p`. -/
structure Thins (p : κ → Prop) (m m' : OrdMap κ ν) : Prop where
  kept : ∀ k, ¬ p k → m'.get? k = m.get? k
  fewer : ∀ k x, m'.get? k = some x → m.get? k = some x

theorem Thins.refl (p : κ → Prop) (m : OrdMap κ ν) : Thins p m m := ⟨fun _ _ => rfl, fun _ _ => id⟩

theorem Thins.mono {q : κ → Prop} (h : Thins p m m') (hpq : ∀ k, p k → q k) :
    Thins q m m' :=
  ⟨fun k hk => h.kept k fun hp => hk (hpq k hp), h.fewer⟩

theorem Thins.trans {m₁ m₂ m₃ : OrdMap κ ν} (h : Thins p m₁ m₂)
    (h' : Thins p m₂ m₃) : Thins p m₁ m₃ :=
  ⟨fun k hk => (h'.kept k hk).trans (h.kept k hk), fun k x hx => h.fewer k x (h'.fewer k x hx)⟩

theorem thins_erase (hk : p k) (m : OrdMap κ ν) : Thins p m (m.erase k) where
  kept j hj := get?_erase_ne m fun hkj => hj (hkj ▸ hk)
  fewer j x hx := by
    rw [get?_erase] at hx
    split at hx
    · cases hx
    · exact hx

theorem thins_eraseAll (hks : ∀ k ∈ ks, p k) (m : OrdMap κ ν) :
    Thins p m (m.eraseAll ks) :=
  ⟨fun j hj => get?_eraseAll_of_not_mem m fun hmem => hj (hks j hmem), fun _ _ => get?_of_eraseAll⟩

theorem has_of_eraseAll (h : (m.eraseAll ks).has j = true) :
    m.has j = true := by
  obtain ⟨x, hx⟩ := has_iff.1 h
  exact has_iff.2 ⟨x, get?_of_eraseAll hx⟩

theorem nodup_keysWhere (m : OrdMap κ ν) (p : κ → Bool) : (m.keysWhere p).Nodup :=
  m.nodup_keys.sublist (List.filter_sublist.map Prod.fst)

/-- The keys that pass a test depend on the keys that are there. -/
theorem keysWhere_congr {p : κ → Bool}
    (h : ∀ k, p k = true → m'.get? k = m.get? k) : m'.keysWhere p = m.keysWhere p := by
  have hascending : ∀ l : OrdMap κ ν, (l.keysWhere p).Pairwise (· < ·) := fun l =>
    List.pairwise_map.2 (l.ascending.filter _)
  refine (hascending m').eq_of_mem_iff (hascending m) fun k => ?_
  rw [mem_keysWhere, mem_keysWhere]
  refine and_congr_right fun hp => ?_
  unfold has
  rw [h k hp]

theorem length_keysWhere_true (m : OrdMap κ ν) :
    (m.keysWhere fun _ => true).length = m.entries.length := by
  simp [keysWhere]

/-- Fewer keys pass a stronger test on a smaller map. -/
theorem length_keysWhere_le {ν' : Type w} {m' : OrdMap κ ν'} {p q : κ → Bool}
    (h : ∀ k, q k = true → m'.has k = true → p k = true ∧ m.has k = true) :
    (m'.keysWhere q).length ≤ (m.keysWhere p).length := by
  refine (List.subperm_of_subset (m'.nodup_keysWhere q) fun k hk => ?_).length_le
  obtain ⟨hq, hhas⟩ := mem_keysWhere.1 hk
  exact mem_keysWhere.2 (h k hq hhas)

/-- Erasing present keys that pass the test removes as many of them. -/
theorem length_keysWhere_eraseAll {p : κ → Bool} (hnodup : ks.Nodup)
    (hks : ∀ k ∈ ks, k ∈ m.keysWhere p) :
    ((m.eraseAll ks).keysWhere p).length + ks.length = (m.keysWhere p).length := by
  -- the keys left and the erased ones are the keys there were
  have hperm : ((m.eraseAll ks).keysWhere p ++ ks).Perm (m.keysWhere p) := by
    refine (List.perm_ext_iff_of_nodup ?_ (m.nodup_keysWhere p)).2 fun k => ?_
    · refine ((m.eraseAll ks).nodup_keysWhere p).append hnodup fun k hleft hk => ?_
      obtain ⟨x, hx⟩ := has_iff.1 (mem_keysWhere.1 hleft).2
      rw [get?_eraseAll_of_mem m hk] at hx
      cases hx
    · rw [List.mem_append]
      constructor
      · rintro (hleft | hk)
        · obtain ⟨hp, hhas⟩ := mem_keysWhere.1 hleft
          exact mem_keysWhere.2 ⟨hp, has_of_eraseAll hhas⟩
        · exact hks k hk
      · intro hk
        rcases Classical.em (k ∈ ks) with hmem | hmem
        · exact .inr hmem
        · obtain ⟨hp, hhas⟩ := mem_keysWhere.1 hk
          refine .inl (mem_keysWhere.2 ⟨hp, ?_⟩)
          unfold has at hhas ⊢
          rwa [get?_eraseAll_of_not_mem m hmem]
  rw [← hperm.length_eq, List.length_append]

theorem length_eraseAll (hnodup : ks.Nodup) (hks : ∀ k ∈ ks, m.has k = true) :
    (m.eraseAll ks).entries.length + ks.length = m.entries.length := by
  have hlength := length_keysWhere_eraseAll (p := fun _ => true) hnodup
    fun k hk => mem_keysWhere.2 ⟨rfl, hks k hk⟩
  rw [length_keysWhere_true, length_keysWhere_true] at hlength
  exact hlength

theorem length_erase_add (m : OrdMap κ ν) (k : κ) :
    (m.erase k).entries.length + (if m.has k then 1 else 0) = m.entries.length := by
  cases hget : m.get? k with
  | none =>
    rw [erase_of_get?_none hget, has_eq_false.2 hget]
    rfl
  | some x =>
    rw [has_iff.2 ⟨x, hget⟩]
    exact length_erase hget

end OrdMap

end PhiChain.Foundations
