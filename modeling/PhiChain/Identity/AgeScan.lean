import PhiChain.Identity.Electorate

/-!
# The electorate counted over the stored keys

The number of controllers that are old enough is the total less a scan: the mirror is read
from its last key downwards until a creation time is not above the cutoff. The keys are byte
strings, the creation time first with its sign bit flipped. `ageKey_lt` says that they are
ordered as the pairs of time and controller are, for every signed 64-bit time, so that the
scan over bytes is the scan over pairs; `fast_count_exact` says that the answer is exact
in every state that writes of documents lead to.
-/

set_option autoImplicit false

namespace PhiChain.Identity

open Foundations Sdk

/-! ## Keys -/

/-- A signed number in eight bytes, with its sign bit flipped. -/
def sortableInt64 (v : Int) : Bytes := bigEndian 8 (uint64 v ^^^ 2 ^ 63)

def parseSortableInt64 (b : Bytes) : Int := int64 (ofBigEndian b ^^^ 2 ^ 63 : Nat)

/-- Key of the age mirror, behind the byte of its keyspace. -/
def ageKey (createdAt : Int) (controller : Bytes) : Bytes := sortableInt64 createdAt ++ controller

def createdAtFromEligibilityByAgeKey (key : Bytes) : Option Int :=
  if key.length < 8 then none else some (parseSortableInt64 (key.take 8))

/-- Flipping the highest of 64 bits that is not set adds it. -/
theorem xor_high {n : Nat} (h : n < 2 ^ 63) : n ^^^ 2 ^ 63 = n + 2 ^ 63 := by
  refine Nat.eq_of_testBit_eq fun i => ?_
  rw [Nat.testBit_xor, Nat.testBit_two_pow, Nat.add_comm]
  rcases lt_trichotomy i 63 with hi | rfl | hi
  · rw [Nat.testBit_two_pow_add_gt hi, decide_eq_false (ne_of_gt hi), Bool.xor_false]
  · rw [Nat.testBit_two_pow_add_eq, decide_eq_true rfl, Bool.xor_true]
  · have hlarge : 2 ^ 63 + n < 2 ^ i :=
      calc 2 ^ 63 + n < 2 ^ 63 + 2 ^ 63 := Nat.add_lt_add_left h _
        _ = 2 ^ 64 := by norm_num
        _ ≤ 2 ^ i := Nat.pow_le_pow_right Nat.two_pos hi
    rw [Nat.testBit_lt_two_pow hlarge, decide_eq_false (ne_of_lt hi), Bool.xor_false,
      Nat.testBit_lt_two_pow (lt_of_le_of_lt (Nat.le_add_left _ _) hlarge)]

/-- The flipped number is the number counted from the least one. -/
theorem flipped {v : Int} (h : InInt64 v) : uint64 v ^^^ 2 ^ 63 = (v + 2 ^ 63).toNat := by
  obtain ⟨hlow, hhigh⟩ := h
  rcases lt_or_ge v 0 with hneg | hpos
  · have hwrapped : uint64 v = (v + 2 ^ 63).toNat + 2 ^ 63 := by
      rw [uint64]
      omega
    rw [hwrapped, ← xor_high (by omega), Nat.xor_xor_cancel_right]
  · have hsame : uint64 v = v.toNat := by
      rw [uint64]
      omega
    rw [hsame, xor_high (by omega)]
    omega

theorem parseSortableInt64_sortableInt64 {v : Int} (h : InInt64 v) :
    parseSortableInt64 (sortableInt64 v) = v := by
  obtain ⟨hlow, hhigh⟩ := h
  have hrange : (v + 2 ^ 63).toNat < 256 ^ 8 := by omega
  have hback : uint64 v ^^^ 2 ^ 63 ^^^ 2 ^ 63 = uint64 v := Nat.xor_xor_cancel_right _ _
  rw [parseSortableInt64, sortableInt64, ofBigEndian_bigEndian, flipped ⟨hlow, hhigh⟩,
    Nat.mod_eq_of_lt hrange, ← flipped ⟨hlow, hhigh⟩, hback]
  have hcast : ((uint64 v : Nat) : Int) = v % (2 ^ 64 : Nat) := by
    rw [uint64]
    omega
  rw [hcast, int64, Int.emod_bmod, ← int64, int64_of_inInt64 ⟨hlow, hhigh⟩]

theorem createdAt_ageKey {v : Int} (h : InInt64 v) (c : Bytes) :
    createdAtFromEligibilityByAgeKey (ageKey v c) = some v := by
  have hlength : (sortableInt64 v).length = 8 := length_bigEndian _ _
  rw [createdAtFromEligibilityByAgeKey, ageKey, List.length_append, hlength,
    if_neg (by omega), List.take_left' hlength, parseSortableInt64_sortableInt64 h]

/-- The keys are ordered as the pairs of time and controller. -/
theorem ageKey_lt {t t' : Int} {c c' : Bytes} (ht : InInt64 t) (ht' : InInt64 t')
    (h : eligibilityByAgeKey t c < eligibilityByAgeKey t' c') : ageKey t c < ageKey t' c' := by
  rw [ageKey, ageKey, sortableInt64, sortableInt64, flipped ht, flipped ht']
  obtain ⟨hlow, hhigh⟩ := ht
  obtain ⟨hlow', hhigh'⟩ := ht'
  rcases Prod.Lex.toLex_lt_toLex.1 h with hlt | ⟨heq, hlt⟩
  · refine bigEndian_append_lt ?_ c c'
    have hlt : t < t' := hlt
    rw [Nat.mod_eq_of_lt (by omega), Nat.mod_eq_of_lt (by omega)]
    omega
  · have heq : t = t' := heq
    rw [heq]
    exact List.append_left_lt hlt

/-! ## The scan -/

/-- `countNewer` over the keys as they are stored: a key without a time ends it. -/
def scanNewer (cutoff : Int) (ceiling : Nat) : List Bytes → Nat → Nat × Bool
  | [], n => (n, false)
  | key :: rest, n =>
    if ceiling ≤ n then (n, true)
    else
      match createdAtFromEligibilityByAgeKey key with
      | none => (n, false)
      | some createdAt =>
        if createdAt ≤ cutoff then (n, false) else scanNewer cutoff ceiling rest (n + 1)

/-- Unix time of an instant less an age, both in nanoseconds. -/
def unixCutoff (t minAge : Int) : Int := (t - minAge) / 1000000000

namespace Directory

variable {dir : Directory}

/-- The keyspace of the age mirror. -/
def ageKeyspace (dir : Directory) : OrdMap Bytes Unit :=
  (dir.eligibilityByAge.entries.map fun e => (ageKey (ofLex e.1).1 (ofLex e.1).2, ())).foldl
    (fun m e => m.put e.1 e.2) ∅

/-- The count over the stored keys, at an instant and for an age in nanoseconds. -/
def countEligibleByKeys (dir : Directory) (t minAge : Int) : Nat :=
  let keys := (dir.ageKeyspace.entries.map Prod.fst).reverse
  let tail := (scanNewer (unixCutoff t minAge) maxEligibilityTailScan keys 0).1
  if dir.eligibleControllerTotal < tail then dir.eligibleControllerTotal
  else dir.eligibleControllerTotal - tail

/-- Creation times, and with them the ages on record, are signed 64-bit numbers. -/
structure Timed (dir : Directory) : Prop where
  mirrored : Mirrored dir
  documents : ∀ did d, dir.identities.get? did = some d → InInt64 d.createdAt
  records : ∀ c r, dir.eligibility.get? c = some r → InInt64 r.oldest

theorem timed_fresh : Timed fresh where
  mirrored := mirrored_fresh
  documents _ _ hget := by cases hget
  records _ _ hget := by cases hget

theorem timed_putDocument {d : DIDDocument} (h : Timed dir) (hd : InInt64 d.createdAt) :
    Timed (dir.putDocument d) where
  mirrored := mirrored_putDocument h.mirrored d
  documents did e hget := by
    have hget' : (dir.identities.set d).get? did = some e := hget
    rw [KeyedMap.get?_set] at hget'
    split at hget'
    · cases hget'
      exact hd
    · exact h.documents did e hget'
  records := h.records

/-- A rebuilt record carries the creation time of one of the documents. -/
theorem timed_refresh (h : Timed dir) (now : Int) (c : Bytes) : Timed (dir.refresh now c) := by
  have hrefreshed := refreshed_refresh dir now c
  refine ⟨hrefreshed.mirrored h.mirrored, fun did d hget => ?_, fun c' r hr => ?_⟩
  · rw [hrefreshed.identities] at hget
    exact h.documents did d hget
  · by_cases hc : c' = c
    · subst hc
      have hold : dir.oldestStanding c' = some r.oldest := by
        rw [← hrefreshed.oldest]
        exact recordedOldest_of_get? hr
      obtain ⟨d, hd, hcreated⟩ := List.mem_map.1 (List.min?_mem hold)
      obtain ⟨did, -, hget⟩ := List.mem_filterMap.1 (List.mem_filter.1 hd).1
      rw [← hcreated]
      exact h.documents did d hget
    · rw [hrefreshed.others c' hc] at hr
      exact h.records c' r hr

theorem timed_setIdentity {d : DIDDocument} (h : Timed dir) (now : Int)
    (hd : InInt64 d.createdAt) : Timed (dir.setIdentity now d) := by
  have hwritten := timed_refresh (timed_putDocument h hd) now d.controller
  rw [setIdentity]
  split
  · exact timed_refresh hwritten now _
  · exact hwritten

theorem timed_of_writes {ws : List (Int × DIDDocument)} (h : ∀ w ∈ ws, InInt64 w.2.createdAt) :
    Timed (run write fresh ws) :=
  @run_preserves _ _ write (fun _ w => InInt64 w.2.createdAt) Timed
    (fun _ w hw hdir => timed_setIdentity hdir w.1 hw) _ timed_fresh _ (along_of_forall h)

theorem Timed.mirror (h : Timed dir) {e : AgeKey × Unit} (he : e ∈ dir.eligibilityByAge.entries) :
    InInt64 (ofLex e.1).1 := by
  have hhas : dir.eligibilityByAge.has e.1 = true :=
    OrdMap.has_iff.2 ⟨e.2, OrdMap.mem_entries.1 he⟩
  obtain ⟨r, hr, holdest⟩ := Option.map_eq_some_iff.1
    ((h.mirrored.mirror (ofLex e.1).1 (ofLex e.1).2).1 hhas)
  rw [← holdest]
  exact h.records _ r hr

/-- The stored keys, in their order, are those of the pairs in theirs. -/
theorem ageKeyspace_keys (h : Timed dir) :
    dir.ageKeyspace.entries.map Prod.fst =
      dir.eligibilityByAge.entries.map fun e => ageKey (ofLex e.1).1 (ofLex e.1).2 := by
  have hascending : (dir.eligibilityByAge.entries.map fun e =>
      (ageKey (ofLex e.1).1 (ofLex e.1).2, ())).Pairwise fun a b => a.1 < b.1 := by
    refine List.pairwise_map.2 (dir.eligibilityByAge.ascending.imp_of_mem ?_)
    intro a b ha hb hlt
    exact ageKey_lt (h.mirror ha) (h.mirror hb) hlt
  rw [ageKeyspace, OrdMap.foldl_put_entries hascending, List.map_map]
  rfl

/-- The scan over the stored keys is the scan over the pairs. -/
theorem scanNewer_map (cutoff : Int) (ceiling : Nat) (es : List (AgeKey × Unit))
    (hes : ∀ e ∈ es, InInt64 (ofLex e.1).1) (n : Nat) :
    scanNewer cutoff ceiling (es.map fun e => ageKey (ofLex e.1).1 (ofLex e.1).2) n =
      countNewer cutoff ceiling es n := by
  induction es generalizing n with
  | nil => rfl
  | cons e rest ih =>
    have htime := createdAt_ageKey (hes e List.mem_cons_self) (ofLex e.1).2
    simp only [List.map_cons, scanNewer, countNewer, htime,
      ih fun e' he' => hes e' (List.mem_cons_of_mem _ he')]

/-- A scan from the youngest that is not cut off finds every entry above the cutoff. -/
theorem countNewer_eq (cutoff : Int) {ceiling : Nat} {es : List (AgeKey × Unit)}
    (hdescending : es.Pairwise fun a b => b.1 < a.1) {n : Nat} (hfits : n + es.length ≤ ceiling) :
    (countNewer cutoff ceiling es n).1 =
      n + (es.filter fun e => cutoff < (ofLex e.1).1).length := by
  induction es generalizing n with
  | nil => rfl
  | cons e rest ih =>
    obtain ⟨hfirst, hrest⟩ := List.pairwise_cons.1 hdescending
    rw [List.length_cons] at hfits
    rw [countNewer, if_neg (by omega)]
    split
    · -- the first entry that is old enough is above all that follow
      rename_i hold
      have hnone : ((e :: rest).filter fun e => cutoff < (ofLex e.1).1) = [] := by
        refine List.filter_eq_nil_iff.2 fun e' he' hnewer => ?_
        have hlt : cutoff < (ofLex e'.1).1 := of_decide_eq_true hnewer
        rcases List.mem_cons.1 he' with rfl | he'
        · omega
        · have hle : (ofLex e'.1).1 ≤ (ofLex e.1).1 := by
            rcases Prod.Lex.lt_iff.1 (hfirst e' he') with hfst | ⟨hfst, -⟩
            · exact le_of_lt hfst
            · exact le_of_eq hfst
          omega
      rw [hnone, List.length_nil, Nat.add_zero]
    · rename_i hnewer
      have hcounted : decide (cutoff < (ofLex e.1).1) = true := decide_eq_true (not_le.1 hnewer)
      rw [List.filter_cons, if_pos hcounted, List.length_cons, ih hrest (by omega)]
      omega

theorem isEligibleControllerAt_iff {c : Bytes} {t minAge : Int} :
    dir.isEligibleControllerAt c t minAge = true ↔ c ∈ dir.electorateAt (t - minAge) := by
  rw [isEligibleControllerAt, Option.any_eq_true, mem_electorateAt]
  simp only [decide_eq_true_eq]

/-- The number reported when the scan is not cut off. -/
theorem countEligibleControllersAt_eq (h : Mirrored dir)
    (hsize : dir.eligibility.entries.length ≤ maxEligibilityTailScan) (t minAge : Int) :
    dir.countEligibleControllersAt t minAge = (dir.electorateAt (t - minAge)).length := by
  have hfits : 0 + dir.eligibilityByAge.entries.reverse.length ≤ maxEligibilityTailScan := by
    rw [Nat.zero_add, List.length_reverse, length_mirror h]
    exact hsize
  have hscan := countNewer_eq (t - minAge) (List.pairwise_reverse.2 dir.eligibilityByAge.ascending)
    hfits
  have hsplit := dir.length_electorateAt_add (t - minAge)
  rw [List.filter_reverse, List.length_reverse, length_newer h] at hscan
  simp only [countEligibleControllersAt, countEligibleNewerThanCapped, hscan, h.total]
  split <;> omega

/-- After any sequence of writes of documents with signed 64-bit creation times, with no more
controllers on record than the scan may examine: for every instant and minimum age the count over
the stored keys is the number of controllers that are eligible at that instant for that age. -/
theorem fast_count_exact {ws : List (Int × DIDDocument)}
    (htimes : ∀ w ∈ ws, InInt64 w.2.createdAt)
    (hsize : (run write fresh ws).eligibility.entries.length ≤ maxEligibilityTailScan)
    (t minAge : Int) :
    let dir := run write fresh ws
    ∃ electorate : List Bytes, electorate.Nodup ∧
      (∀ c, c ∈ electorate ↔ dir.isEligibleControllerAt c (unixCutoff t minAge) 0 = true) ∧
      dir.countEligibleByKeys t minAge = electorate.length ∧
      dir.countEligibleControllersAt (unixCutoff t minAge) 0 = electorate.length := by
  intro dir
  have htimed : Timed dir := timed_of_writes htimes
  have hpairs := countEligibleControllersAt_eq htimed.mirrored hsize (unixCutoff t minAge) 0
  refine ⟨dir.electorateAt (unixCutoff t minAge - 0), dir.nodup_electorateAt _,
    fun c => isEligibleControllerAt_iff.symm, ?_, hpairs⟩
  rw [← hpairs, countEligibleByKeys, countEligibleControllersAt, countEligibleNewerThanCapped,
    ageKeyspace_keys htimed, ← List.map_reverse, Int.sub_zero]
  have hreversed : ∀ e ∈ dir.eligibilityByAge.entries.reverse, InInt64 (ofLex e.1).1 :=
    fun e he => htimed.mirror (List.mem_reverse.1 he)
  simp only [scanNewer_map _ _ _ hreversed]

/-- Two controllers with documents before and after 1970. -/
theorem fast_count_exact_signed :
    let ws := [(7, { sample [1] [2] with createdAt := -5 }), (7, sample [3] [4])]
    (run write fresh ws).countEligibleByKeys 3000000000 1000000000 = 1 ∧
      ∃ electorate : List Bytes, electorate.Nodup ∧
        (∀ c, c ∈ electorate ↔
          (run write fresh ws).isEligibleControllerAt c (unixCutoff 3000000000 1000000000) 0 = true) ∧
        (run write fresh ws).countEligibleByKeys 3000000000 1000000000 = electorate.length ∧
        (run write fresh ws).countEligibleControllersAt (unixCutoff 3000000000 1000000000) 0 =
          electorate.length := by
  intro ws
  exact ⟨by decide +kernel, fast_count_exact (by decide) (by decide +kernel) _ _⟩

end Directory

end PhiChain.Identity
