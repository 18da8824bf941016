import PhiChain.Foundations.OrdMap

/-!
# Maps of records under their own keys

A record store whose key is a field of the record: every record is found under its
own key, by construction. A write goes to the key the record names.
-/

set_option autoImplicit false

namespace PhiChain.Foundations

universe u v

/-- Finite map of records, each stored under its own key. -/
structure KeyedMap (κ : Type u) (ν : Type v) [LinearOrder κ] (key : ν → κ) where
  records : OrdMap κ ν
  keyed : ∀ k x, records.get? k = some x → key x = k

namespace KeyedMap

variable {κ : Type u} {ν : Type v} [LinearOrder κ] {key : ν → κ}

def empty : KeyedMap κ ν key := ⟨∅, fun _ _ h => nomatch h⟩

instance : EmptyCollection (KeyedMap κ ν key) := ⟨empty⟩

def get? (m : KeyedMap κ ν key) (k : κ) : Option ν := m.records.get? k

def has (m : KeyedMap κ ν key) (k : κ) : Bool := m.records.has k

/-- Store a record under its own key. -/
def set (m : KeyedMap κ ν key) (x : ν) : KeyedMap κ ν key where
  records := m.records.put (key x) x
  keyed k y h := by
    rw [OrdMap.get?_put] at h
    split at h
    · rename_i hk
      cases h
      exact hk
    · exact m.keyed k y h

def erase (m : KeyedMap κ ν key) (k : κ) : KeyedMap κ ν key where
  records := m.records.erase k
  keyed j y h := by
    rw [OrdMap.get?_erase] at h
    split at h
    · cases h
    · exact m.keyed j y h

variable {k : κ} {m : KeyedMap κ ν key} {x : ν}

theorem key_of_get? (h : m.get? k = some x) : key x = k :=
  m.keyed k x h

theorem get?_set (m : KeyedMap κ ν key) (x : ν) (k : κ) [Decidable (key x = k)] :
    (m.set x).get? k = if key x = k then some x else m.get? k :=
  OrdMap.get?_put m.records (key x) k x

@[simp] theorem get?_set_self (m : KeyedMap κ ν key) (x : ν) : (m.set x).get? (key x) = some x :=
  OrdMap.get?_put_self m.records (key x) x

theorem get?_set_ne (m : KeyedMap κ ν key) (h : key x ≠ k) :
    (m.set x).get? k = m.get? k :=
  OrdMap.get?_put_ne m.records x h

/-- A map is what it holds. -/
theorem ext_get? {n : KeyedMap κ ν key} (h : ∀ k, m.get? k = n.get? k) : m = n := by
  obtain ⟨records, keyed⟩ := m
  obtain ⟨records', keyed'⟩ := n
  obtain rfl : records = records' := OrdMap.ext_get? h
  rfl

/-- What holds of all records and of a new one holds of all records with the new one. -/
theorem forall_set {p : ν → Prop} (h : ∀ k y, m.get? k = some y → p y)
    (hx : p x) : ∀ k y, (m.set x).get? k = some y → p y := by
  intro k y hy
  rw [get?_set] at hy
  split at hy
  · cases hy
    exact hx
  · exact h k y hy

theorem get?_erase (m : KeyedMap κ ν key) (j k : κ) [Decidable (j = k)] :
    (m.erase j).get? k = if j = k then none else m.get? k :=
  OrdMap.get?_erase m.records j k

theorem has_iff : m.has k = true ↔ ∃ x, m.get? k = some x :=
  OrdMap.has_iff

theorem has_eq_false : m.has k = false ↔ m.get? k = none :=
  OrdMap.has_eq_false

/-- The records in the order of their keys. -/
def values (m : KeyedMap κ ν key) : List ν := m.records.values

theorem mem_values : x ∈ m.values ↔ m.get? (key x) = some x := by
  refine OrdMap.mem_values.trans ⟨?_, fun h => ⟨key x, h⟩⟩
  rintro ⟨k, hk⟩
  rw [m.keyed k x hk]
  exact hk

/-- No two records share a key. -/
theorem nodup_values_keys (m : KeyedMap κ ν key) : (m.values.map key).Nodup := by
  have hkeys : m.values.map key = m.records.entries.map Prod.fst := by
    unfold values OrdMap.values
    rw [List.map_map]
    refine List.map_congr_left fun e he => ?_
    exact m.keyed e.1 e.2 (OrdMap.mem_entries.1 he)
  rw [hkeys]
  exact m.records.nodup_keys

theorem get?_foldl_set_of_not_mem {xs : List ν} (m : KeyedMap κ ν key)
    (h : k ∉ xs.map key) : (xs.foldl set m).get? k = m.get? k := by
  induction xs generalizing m with
  | nil => rfl
  | cons x rest ih =>
    rw [List.map_cons, List.mem_cons, not_or] at h
    exact (ih (m.set x) h.2).trans (get?_set_ne m (Ne.symm h.1))

theorem get?_foldl_set_of_mem {xs : List ν} (hnodup : (xs.map key).Nodup) (m : KeyedMap κ ν key)
    (h : x ∈ xs) : (xs.foldl set m).get? (key x) = some x := by
  induction xs generalizing m with
  | nil => cases h
  | cons y rest ih =>
    rw [List.map_cons, List.nodup_cons] at hnodup
    rcases List.mem_cons.1 h with rfl | hrest
    · exact (get?_foldl_set_of_not_mem (m.set x) hnodup.1).trans (get?_set_self m x)
    · exact ih hnodup.2 (m.set y) hrest

/-- The records of a map, stored one after another, are the map. -/
theorem foldl_set_values (m : KeyedMap κ ν key) : m.values.foldl set ∅ = m := by
  refine ext_get? fun k => ?_
  cases hget : m.get? k with
  | none =>
    refine get?_foldl_set_of_not_mem ∅ fun hmem => ?_
    obtain ⟨x, hx, rfl⟩ := List.mem_map.1 hmem
    cases hget.symm.trans (mem_values.1 hx)
  | some x =>
    obtain rfl := key_of_get? hget
    exact get?_foldl_set_of_mem m.nodup_values_keys ∅ (mem_values.2 hget)

theorem countP_values_set_of_none (h : m.get? (key x) = none)
    (p : ν → Bool) : (m.set x).values.countP p = m.values.countP p + if p x then 1 else 0 :=
  OrdMap.countP_values_put_of_none h p x

end KeyedMap

end PhiChain.Foundations
