import PhiChain.Foundations.OrdMap
import PhiChain.Foundations.Bytes

/-!
# Keys with a zero byte between two parts

An ordered store keyed by `a ‖ 0x00 ‖ b` is read by prefix: `under m a` lists the second
parts of the keys behind `a ‖ 0x00`, in key order. The list is exact for any bytes
(`mem_under`); different first parts are kept apart when they contain no zero byte
(`nulKey_inj`), and then a key splits at its first zero byte (`splitNul_nulKey`).
-/

set_option autoImplicit false

namespace PhiChain.Foundations

universe v

/-- Two parts with a zero byte between them. -/
def nulKey (a b : Bytes) : Bytes := a ++ 0 :: b

theorem nulKey_ne_nil (a b : Bytes) : nulKey a b ≠ [] :=
  List.append_ne_nil_of_right_ne_nil a (List.cons_ne_nil 0 b)

/-- A byte string without zero bytes. -/
def NulFree (a : Bytes) : Prop := (0 : Byte) ∉ a

instance (a : Bytes) : Decidable (NulFree a) := inferInstanceAs (Decidable ((0 : Byte) ∉ a))

/-- The parts before and behind the first zero byte. -/
def splitNul : Bytes → Option (Bytes × Bytes)
  | [] => none
  | c :: rest => if c = 0 then some ([], rest) else (splitNul rest).map fun p => (c :: p.1, p.2)

theorem splitNul_nulKey {a : Bytes} (ha : NulFree a) (b : Bytes) :
    splitNul (nulKey a b) = some (a, b) := by
  induction a with
  | nil => rfl
  | cons c rest ih =>
    have hc : c ≠ 0 := fun h => ha (h ▸ List.mem_cons_self)
    have hrest : splitNul (nulKey rest b) = some (rest, b) :=
      ih fun h => ha (List.mem_cons_of_mem _ h)
    have hcons : splitNul (nulKey (c :: rest) b) =
        (splitNul (nulKey rest b)).map fun p => (c :: p.1, p.2) := if_neg hc
    rw [hcons, hrest]
    rfl

theorem nulKey_inj {a a' b b' : Bytes} (ha : NulFree a) (ha' : NulFree a') :
    nulKey a b = nulKey a' b' ↔ a = a' ∧ b = b' := by
  constructor
  · intro h
    have hsplit := congrArg splitNul h
    rw [splitNul_nulKey ha, splitNul_nulKey ha'] at hsplit
    exact Prod.mk.inj (Option.some.inj hsplit)
  · rintro ⟨rfl, rfl⟩
    rfl

variable {ν : Type v}

/-- The second parts of the keys behind `a ‖ 0x00`, in key order. -/
def under (m : OrdMap Bytes ν) (a : Bytes) : List Bytes :=
  (m.entries.filter fun e => (a ++ [0]).isPrefixOf e.1).map fun e => e.1.drop (a.length + 1)

theorem nulKey_of_isPrefixOf {a key : Bytes} (h : (a ++ [0]).isPrefixOf key = true) :
    nulKey a (key.drop (a.length + 1)) = key := by
  obtain ⟨b, rfl⟩ := List.isPrefixOf_iff_prefix.1 h
  have hlen : a.length + 1 = (a ++ [0]).length := by simp
  rw [hlen, List.drop_left]
  simp [nulKey]

theorem isPrefixOf_nulKey (a b : Bytes) : (a ++ [0]).isPrefixOf (nulKey a b) = true := by
  refine List.isPrefixOf_iff_prefix.2 ⟨b, ?_⟩
  simp [nulKey]

theorem mem_under {m : OrdMap Bytes ν} {a b : Bytes} :
    b ∈ under m a ↔ m.has (nulKey a b) = true := by
  unfold under
  constructor
  · intro h
    obtain ⟨⟨key, x⟩, he, rfl⟩ := List.mem_map.1 h
    obtain ⟨hmem, hpre⟩ := List.mem_filter.1 he
    rw [nulKey_of_isPrefixOf hpre]
    exact OrdMap.has_iff.2 ⟨x, OrdMap.mem_entries.1 hmem⟩
  · intro h
    obtain ⟨x, hx⟩ := OrdMap.has_iff.1 h
    refine List.mem_map.2 ⟨(nulKey a b, x), ?_, ?_⟩
    · exact List.mem_filter.2 ⟨OrdMap.mem_entries.2 hx, isPrefixOf_nulKey a b⟩
    · simp [nulKey, List.drop_append]

/-- The keys behind one prefix are compared by their second parts. -/
theorem nulKey_lt_nulKey {a b b' : Bytes} : nulKey a b < nulKey a b' ↔ b < b' := by
  induction a with
  | nil =>
    have hcons : nulKey [] b < nulKey [] b' ↔ ((0 : Byte) :: b) < (0 : Byte) :: b' := Iff.rfl
    rw [hcons, List.cons_lt_cons_iff]
    simp
  | cons c rest ih =>
    have hcons : nulKey (c :: rest) b < nulKey (c :: rest) b' ↔
        c :: nulKey rest b < c :: nulKey rest b' := Iff.rfl
    rw [hcons, List.cons_lt_cons_iff]
    simpa using ih

theorem under_ascending (m : OrdMap Bytes ν) (a : Bytes) :
    (under m a).Pairwise fun b b' => b < b' := by
  unfold under
  refine List.pairwise_map.2 ?_
  refine (m.ascending.filter _).imp_of_mem ?_
  intro e e' he he' hlt
  have hpre := (List.mem_filter.1 he).2
  have hpre' := (List.mem_filter.1 he').2
  rw [← nulKey_lt_nulKey (a := a), nulKey_of_isPrefixOf hpre, nulKey_of_isPrefixOf hpre']
  exact hlt

end PhiChain.Foundations
