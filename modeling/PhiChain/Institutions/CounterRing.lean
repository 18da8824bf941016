import PhiChain.Foundations.RingSweep
import PhiChain.Institutions.Caps

/-!
# The sweep of the cap counters

`pruneCounterPrefix` is the ring sweep of the library over the counters of caps: it starts
behind the stored cursor, which a zero byte added to the cursor expresses, and it tests the
kind and the day that it reads from a key (`counterRing_pruneCounterPrefix`).

The keys of the keyspace are made of fields (`CounterFields`), and on such keys the test is
what the sweep is for: a daily counter of a day before the staleness day
(`isStaleCounter_key`). The result on repeated calls, `ring_sweep_exact`, is the result on
ring sweeps at these keys.
-/

set_option autoImplicit false

namespace PhiChain.Institutions

open Foundations Sdk

variable {D : Type} [LinearOrder D]

/-- The fields of a counter key, within the widths of their encodings. The totals of an
institution have no account. -/
structure CounterFields where
  id : Bytes
  kind : Bytes
  day : Int
  account : Bytes
  id_short : id.length ≤ maxInstitutionIDLen
  kind_short : kind.length < 256
  day_signed : InInt64 day

namespace CounterFields

def key (f : CounterFields) : Bytes := counterUserKey f.id f.kind f.day f.account

/-- A counter of a daily cap, of a day before `staleBefore`. -/
def Outdated (staleBefore : Int) (f : CounterFields) : Prop :=
  f.kind ∈ [kindMintDaily, kindMintUser, kindRedeemDaily, kindRedeemUser] ∧ f.day < staleBefore

theorem key_eq_cons (f : CounterFields) : ∃ rest, f.key = (0x40 : Byte) :: rest :=
  ⟨_, counterUserKey_eq f.id f.kind f.day f.account⟩

/-- What the sweep reads from a key decides as the fields do. -/
theorem isStaleCounter_key (staleBefore : Int) (f : CounterFields) :
    isStaleCounter staleBefore f.key = true ↔ f.Outdated staleBefore := by
  have hparse : parseCounterKeyDay f.key = some (f.kind, f.day) :=
    parseCounterKeyDay_key f.id_short f.kind_short f.day_signed
  simp only [isStaleCounter, hparse, isPrunableCounterKind, Outdated, decide_eq_true_eq,
    List.mem_cons, List.not_mem_nil, or_false]

end CounterFields

/-- The counters and the cursor, as a map under a ring sweep. -/
def counterRing (s : Store D) : SweepRing Bytes Nat := ⟨s.counters, s.pruneCursor⟩

/-- The keys from the start of the iteration on. -/
def upcomingCounters (s : Store D) : List Bytes :=
  s.counters.keysWhere fun key =>
    (match s.pruneCursor with
      | some cursor => if cursor = [] then [(0x40 : Byte)] else cursor ++ [0x00]
      | none => [(0x40 : Byte)]) ≤ key

/-- The keys that a call examines. -/
def examinedCounters (s : Store D) : List Bytes := (upcomingCounters s).take counterPruneBudget

theorem pruneCounterPrefix_eq (staleBefore : Int) (s : Store D) :
    pruneCounterPrefix staleBefore s =
      { s with
        counters := s.counters.eraseAll ((examinedCounters s).filter (isStaleCounter staleBefore))
        pruneCursor :=
          if (upcomingCounters s).length ≤ counterPruneBudget then none
          else (examinedCounters s).getLast? } := rfl

/-- Every key of the keyspace is made of fields. -/
def WellFormedCounters (s : Store D) : Prop :=
  ∀ key, s.counters.has key = true → ∃ f : CounterFields, key = f.key

/-- The start of the iteration stands right behind the cursor. -/
theorem upcomingCounters_eq {s : Store D} (h : WellFormedCounters s) :
    upcomingCounters s = (counterRing s).ahead := by
  have hfront : ∀ key, s.counters.has key = true → [(0x40 : Byte)] ≤ key := by
    intro key hkey
    obtain ⟨f, rfl⟩ := h key hkey
    obtain ⟨rest, hrest⟩ := f.key_eq_cons
    rw [hrest]
    apply not_lt.1
    rw [List.cons_lt_cons_iff]
    rintro (hlt | ⟨-, hlt⟩)
    · exact lt_irrefl _ hlt
    · exact List.not_lt_nil _ hlt
  unfold upcomingCounters counterRing SweepRing.ahead OrdMap.keysWhere
  congr 1
  refine List.filter_congr fun e he => ?_
  have hkey : s.counters.has e.1 = true := OrdMap.mem_keys.1 (List.mem_map_of_mem he)
  cases hcursor : s.pruneCursor with
  | none => exact decide_eq_true (hfront e.1 hkey)
  | some cursor =>
    dsimp only
    rw [Bool.eq_iff_iff, decide_eq_true_eq, SweepRing.awaits_some]
    split
    · -- an empty cursor would mean the front of the keyspace
      rename_i hempty
      obtain ⟨f, hf⟩ := h e.1 hkey
      obtain ⟨rest, hrest⟩ := f.key_eq_cons
      have hbehind : cursor < e.1 := by
        rw [hempty, hf, hrest]
        exact List.nil_lt_cons _ _
      exact iff_of_true (hfront e.1 hkey) hbehind
    · exact not_lt.symm.trans not_lt_append_zero_iff

/-- A call is one call of the ring sweep. -/
theorem counterRing_pruneCounterPrefix {s : Store D} (h : WellFormedCounters s) (staleBefore : Int) :
    counterRing (pruneCounterPrefix staleBefore s) =
      SweepRing.sweep (isStaleCounter staleBefore) counterPruneBudget (counterRing s) := by
  rw [pruneCounterPrefix_eq]
  simp only [counterRing, SweepRing.sweep, examinedCounters]
  rw [upcomingCounters_eq h]
  rfl

theorem WellFormedCounters.prune {s : Store D} (h : WellFormedCounters s) (staleBefore : Int) :
    WellFormedCounters (pruneCounterPrefix staleBefore s) :=
  fun key hkey => h key (OrdMap.has_of_eraseAll hkey)

/-- Repeated calls are repeated calls of the ring sweep. -/
theorem counterRing_iterate {s : Store D} (h : WellFormedCounters s) (staleBefore : Int)
    (calls : Nat) : counterRing ((pruneCounterPrefix staleBefore)^[calls] s) =
      (SweepRing.sweep (isStaleCounter staleBefore) counterPruneBudget)^[calls]
        (counterRing s) := by
  induction calls generalizing s with
  | zero => rfl
  | succ calls ih =>
    rw [Function.iterate_succ_apply, Function.iterate_succ_apply, ih (h.prune staleBefore),
      counterRing_pruneCounterPrefix h]

/-- Repeated calls delete the outdated daily counters and nothing else. Two rounds of the ring
are enough from any cursor, also from one whose key is gone. -/
theorem ring_sweep_exact (staleBefore : Int) {s : Store D} (h : WellFormedCounters s) :
    (∀ calls, (examinedCounters ((pruneCounterPrefix staleBefore)^[calls] s)).length ≤ 256) ∧
      (∀ calls key, (¬ ∃ f : CounterFields, key = f.key ∧ f.Outdated staleBefore) →
        ((pruneCounterPrefix staleBefore)^[calls] s).counters.get? key = s.counters.get? key) ∧
      ∀ calls, 2 * ((s.counters.entries.length + 255) / 256) + 2 ≤ calls →
        ∀ f : CounterFields, f.Outdated staleBefore →
          ((pruneCounterPrefix staleBefore)^[calls] s).counters.get? f.key = none := by
  have hcounters : ∀ calls, ((pruneCounterPrefix staleBefore)^[calls] s).counters =
      ((SweepRing.sweep (isStaleCounter staleBefore) counterPruneBudget)^[calls]
        (counterRing s)).map := fun calls =>
    congrArg SweepRing.map (counterRing_iterate h staleBefore calls)
  refine ⟨fun calls => List.length_take_le _ _, fun calls key hkey => ?_,
    fun calls hcalls f hf => ?_⟩
  · have hthins := SweepRing.thins_iterate (isStaleCounter staleBefore) counterPruneBudget
      (counterRing s) calls
    rw [hcounters]
    cases hget : s.counters.get? key with
    | none =>
      exact SweepRing.gone_iterate (p := isStaleCounter staleBefore) (r := counterRing s) hget calls
    | some x =>
      rw [hthins.kept key fun hstale => ?_]
      · exact hget
      · obtain ⟨f, rfl⟩ := h key (OrdMap.has_iff.2 ⟨x, hget⟩)
        exact hkey ⟨f, rfl, (f.isStaleCounter_key staleBefore).1 hstale⟩
  · have hwidth : counterPruneBudget = 256 := rfl
    rw [hcounters]
    apply SweepRing.sweep_complete (n := (s.counters.entries.length + 255) / 256 + 1)
      (by decide) (Nat.succ_pos _)
    · show s.counters.entries.length ≤ _
      rw [hwidth]
      omega
    · omega
    · exact (f.isStaleCounter_key staleBefore).2 hf

/-- The mints of an institution on the sixth day. -/
def sixthDayMints : CounterFields :=
  ⟨[1], kindMintDaily, 5, [], by decide, by decide, by decide⟩

/-- What an account has redeemed in an emergency that started in the sixth second. -/
def earlyEmergency : CounterFields :=
  ⟨[1], kindEmergency, 5, [2], by decide, by decide, by decide⟩

/-- Both counters, with the cursor on the last key. -/
def sweptStore : Store Nat :=
  { (Store.fresh : Store Nat) with
    counters := ((∅ : OrdMap Bytes Nat).put sixthDayMints.key 7).put earlyEmergency.key 9
    pruneCursor := some sixthDayMints.key }

theorem ring_sweep_exact_kinds :
    WellFormedCounters sweptStore ∧
      ((pruneCounterPrefix 10)^[4] sweptStore).counters.get? sixthDayMints.key = none ∧
      ((pruneCounterPrefix 10)^[4] sweptStore).counters.get? earlyEmergency.key = some 9 := by
  have hformed : WellFormedCounters sweptStore := by
    intro key hkey
    rcases OrdMap.has_put.1 hkey with rfl | hkey
    · exact ⟨earlyEmergency, rfl⟩
    · rcases OrdMap.has_put.1 hkey with rfl | hkey
      · exact ⟨sixthDayMints, rfl⟩
      · cases hkey
  have hdaily : sixthDayMints.Outdated 10 := ⟨List.mem_cons_self, by decide⟩
  -- no fields of an outdated daily counter give the key of the emergency counter
  have hspared : ¬ ∃ f : CounterFields, earlyEmergency.key = f.key ∧ f.Outdated 10 := by
    rintro ⟨f, hkey, hf⟩
    have hstale := (f.isStaleCounter_key 10).2 hf
    rw [← hkey] at hstale
    revert hstale
    decide
  obtain ⟨-, hkept, hgone⟩ := ring_sweep_exact 10 hformed
  refine ⟨hformed, hgone 4 (by decide) sixthDayMints hdaily, ?_⟩
  rw [hkept 4 earlyEmergency.key hspared]
  decide

end PhiChain.Institutions
