import PhiChain.Governance.Turnout
import PhiChain.Identity.Electorate

/-!
# Ballots against the frozen electorate

x/governance freezes the basis of a proposal once and counts a ballot when x/identity says
that the voter passes the test of that basis. Here both modules run side by side: identity
messages change the records while proposals are open, and the answers of the identity keeper
are those of its store at the time of the ballot. Beside the two stores the state keeps the
controllers that were old enough when the basis of a proposal was taken.

`turnout_within_electorate` is the result: the voters counted are among those controllers, and
no more than the denominator, in every run in which no document that is old enough changes
hands in the second of a freeze. A record is stamped with the second in which its controller
got it, and the test admits stamps up to the second of the freeze: `turnout_above_denominator`
is a run in which the old and the new controller of one document are both counted.
-/

set_option autoImplicit false

namespace PhiChain.FrozenBasis

open Foundations Sdk
open Governance (FrozenEligibility VoteCtx ValidatorGovInfo takeBasis)
open Identity (Directory Nameable)

/-! ## The two modules -/

/-- Answers of the identity keeper. -/
def identitySource (s : Identity.Store) : Governance.IdentitySource where
  isEligibleControllerSince := s.directory.isEligibleControllerSince
  countEligibleControllersAt := s.directory.countEligibleControllersAt
  eligibleControllerTotal := s.directory.eligibleControllerTotal
  minIdentityAge := s.minIdentityAge

/-- An identity transaction, or an action on proposals with its block time and what staking
says about validators. -/
inductive Input where
  | identity (tx : Identity.Tx)
  | governance (now : Int) (isOperator : Bytes → Bool) (validators : OrdMap Bytes ValidatorGovInfo)
      (action : Governance.Action)

def Input.time : Input → Int
  | .identity tx => tx.env.blockTime
  | .governance now _ _ _ => now

structure Chain where
  identity : Identity.World
  governance : Governance.World
  /-- The controllers that were old enough when the basis of a proposal was taken. -/
  electorates : Nat → List Bytes
  now : Int

/-- The electorate of a proposal after a step: taken when a basis appears, kept otherwise. -/
def electorateAfter (dir : Directory) (s s' : Governance.Store) (id : Nat) (kept : List Bytes) :
    List Bytes :=
  match s.eligibility.get? id, s'.eligibility.get? id with
  | none, some basis => dir.electorateAt basis.cutoff
  | _, _ => kept

def step (k : Identity.Keeper) (authority : Bytes) (c : Chain) : Input → Chain
  | .identity tx =>
    { c with
      identity := Identity.step k c.identity tx
      now := tx.env.blockTime }
  | .governance now isOperator validators action =>
    let ctx : VoteCtx := ⟨now, identitySource c.identity.store, isOperator, validators⟩
    let w := Governance.step authority c.governance (ctx, action)
    { c with
      governance := w
      electorates := fun id => electorateAfter c.identity.store.directory c.governance.gov w.gov id
        (c.electorates id)
      now := now }

/-- Block times do not decrease. -/
def inOrder (c : Chain) (i : Input) : Bool := c.now ≤ i.time

/-- A document that is handed to a controller is younger than the cutoff of each stored basis,
or the basis carries a time and was not taken in this second. -/
def apart (c : Chain) : Input → Bool
  | .identity tx =>
    (tx.action.grants tx.env c.identity.store).all fun created =>
      c.governance.gov.eligibility.entries.all fun e =>
        e.2.cutoff < created ∨ e.2.frozenAt ≠ 0 ∧ e.2.frozenAt ≠ tx.env.blockTime
  | .governance _ _ _ _ => true

/-! ## One proposal -/

/-- What holds of a proposal with a basis. -/
structure Within (dir : Directory) (now : Int) (electorate : List Bytes) (s : Governance.Store)
    (id : Nat) (basis : FrozenEligibility) : Prop where
  past : basis.frozenAt ≤ now
  size : electorate.length ≤ basis.denominator
  passing : ∀ c, dir.isEligibleControllerSince c basis.cutoff 0 basis.frozenAt = true →
    c ∈ electorate
  counted : ∀ voter m, s.getCountedVote id voter = some m → accAddressString voter ∈ electorate
  turnout : s.turnout id ≤ basis.denominator

/-- A proposal without a basis has counted nobody; one with a basis is within it. -/
structure Measured (dir : Directory) (now : Int) (electorate : List Bytes) (s : Governance.Store)
    (id : Nat) : Prop where
  unfrozen : s.eligibility.get? id = none → (∀ voter, s.getCountedVote id voter = none) ∧
    s.turnout id = 0
  frozen : ∀ basis, s.eligibility.get? id = some basis → Within dir now electorate s id basis

/-- The accounts recorded as counted for a proposal, as addresses. -/
def voters (s : Governance.Store) (id : Nat) : List Bytes :=
  (s.countedVotes.entries.filter fun e => e.1.proposal = id).map fun e => accAddressString e.1.voter

theorem countedBallots_le_voters (s : Governance.Store) (id : Nat) :
    s.countedBallots id ≤ (voters s id).length := by
  unfold Governance.Store.countedBallots voters
  rw [OrdMap.total_eq_filter (p := fun k => k.proposal = id)
    (fun k m hk => if_neg fun hand => hk hand.1), List.length_map]
  refine (List.sum_le_card_nsmul _ 1 ?_).trans ?_
  · intro n hn
    obtain ⟨e, -, rfl⟩ := List.mem_map.1 hn
    split
    · exact Nat.le_refl 1
    · exact Nat.zero_le 1
  · exact Nat.le_of_eq ((Nat.mul_one _).trans (List.length_map _))

theorem nodup_voters (s : Governance.Store) (id : Nat) : (voters s id).Nodup := by
  refine List.Nodup.map_on ?_ ((List.Nodup.of_map _ s.countedVotes.nodup_keys).filter _)
  rintro ⟨⟨p, v⟩, m⟩ he ⟨⟨p', v'⟩, m'⟩ he' heq
  obtain ⟨hmem, hp⟩ := List.mem_filter.1 he
  obtain ⟨hmem', hp'⟩ := List.mem_filter.1 he'
  obtain rfl : p = id := of_decide_eq_true hp
  obtain rfl : p' = p := of_decide_eq_true hp'
  obtain rfl : v = v' := accAddressString_inj heq
  obtain rfl : m = m' :=
    Option.some.inj ((OrdMap.mem_entries.1 hmem).symm.trans (OrdMap.mem_entries.1 hmem'))
  rfl

/-- Counted voters who are all in a list are not more than the list has. -/
theorem countedBallots_le {s : Governance.Store} {id : Nat} {electorate : List Bytes}
    (h : ∀ voter m, s.getCountedVote id voter = some m → accAddressString voter ∈ electorate) :
    s.countedBallots id ≤ electorate.length := by
  have hsub : voters s id ⊆ electorate := by
    intro x hx
    obtain ⟨⟨⟨p, voter⟩, m⟩, he, rfl⟩ := List.mem_map.1 hx
    obtain ⟨hmem, hp⟩ := List.mem_filter.1 he
    obtain rfl : p = id := of_decide_eq_true hp
    exact h voter m (OrdMap.mem_entries.1 hmem)
  exact (countedBallots_le_voters s id).trans
    (List.subperm_of_subset (nodup_voters s id) hsub).length_le

variable {ctx : VoteCtx} {is : Identity.Store}

section Proposal

variable {dir : Directory} {now now' : Int} {electorate : List Bytes} {s s' : Governance.Store}
  {id j : Nat}

theorem Measured.later (h : Measured dir now electorate s id) (hle : now ≤ now') :
    Measured dir now' electorate s id := by
  refine ⟨h.unfrozen, fun basis hbasis => ?_⟩
  obtain ⟨hpast, hsize, hpassing, hcounted, hturnout⟩ := h.frozen basis hbasis
  exact ⟨hpast.trans hle, hsize, hpassing, hcounted, hturnout⟩

/-- A proposal that keeps its basis and its turnout, and of whose votes some may go. -/
theorem Measured.frame (h : Measured dir now electorate s id)
    (hbasis : s'.eligibility.get? id = s.eligibility.get? id)
    (hturnout : s'.tallyTurnout.get? id = s.tallyTurnout.get? id)
    (hvotes : ∀ voter m, s'.getCountedVote id voter = some m → s.getCountedVote id voter = some m) :
    Measured dir now electorate s' id := by
  have hcount : s'.turnout id = s.turnout id := by
    unfold Governance.Store.turnout OrdMap.getD
    rw [hturnout]
  constructor
  · intro hnone
    obtain ⟨hnobody, hzero⟩ := h.unfrozen (hbasis.symm.trans hnone)
    refine ⟨fun voter => Option.eq_none_iff_forall_not_mem.2 fun m hm => ?_, hcount.trans hzero⟩
    cases (hnobody voter).symm.trans (hvotes voter m hm)
  · intro basis hsome
    obtain ⟨hpast, hsize, hpassing, hcounted, hbound⟩ := h.frozen basis (hbasis.symm.trans hsome)
    exact ⟨hpast, hsize, hpassing, fun voter m hm => hcounted voter m (hvotes voter m hm),
      hcount ▸ hbound⟩

theorem Measured.same (h : Measured dir now electorate s id) (hsame : Governance.SameRecords s s' id) :
    Measured dir now electorate s' id :=
  h.frame hsame.basis hsame.turnout fun voter _ hm => (hsame.votes voter).symm.trans hm

theorem electorateAfter_kept (hbasis : s'.eligibility.get? id = s.eligibility.get? id) :
    electorateAfter dir s s' id electorate = electorate := by
  unfold electorateAfter
  rw [hbasis]
  cases s.eligibility.get? id with
  | none => rfl
  | some basis => rfl

/-- Where the records of a proposal stay, so does its electorate. -/
theorem Measured.step_same (h : Measured dir now electorate s id)
    (hsame : Governance.SameRecords s s' id) :
    Measured dir now (electorateAfter dir s s' id electorate) s' id := by
  rw [electorateAfter_kept hsame.basis]
  exact h.same hsame

theorem measured_of_cleared (h : Governance.Cleared s id) : Measured dir now electorate s id := by
  refine ⟨fun _ => ⟨h.votes, ?_⟩, fun basis hbasis => ?_⟩
  · unfold Governance.Store.turnout OrdMap.getD
    rw [h.turnout]
    rfl
  · cases h.basis.symm.trans hbasis

/-- A basis that is taken now counts everybody who passes its test. -/
theorem measured_of_taken {p : Governance.Proposal} (hindexed : is.directory.Indexed)
    (hctx : ctx.identity = identitySource is)
    (h : Measured is.directory ctx.blockTime electorate s id)
    (hnone : s.eligibility.get? id = none) :
    Measured is.directory ctx.blockTime (is.directory.electorateAt (takeBasis ctx p).cutoff)
      { s with eligibility := s.eligibility.put id (takeBasis ctx p) } id := by
  obtain ⟨hnobody, hzero⟩ := h.unfrozen hnone
  constructor
  · intro hgone
    cases (OrdMap.get?_put_self _ _ _).symm.trans hgone
  · intro basis hbasis
    obtain rfl : takeBasis ctx p = basis :=
      Option.some.inj ((OrdMap.get?_put_self _ _ _).symm.trans hbasis)
    have hdenominator : (takeBasis ctx p).denominator =
        is.directory.countEligibleControllersAt (takeBasis ctx p).cutoff 0 := by
      unfold takeBasis
      rw [hctx]
      rfl
    refine ⟨Int.le_refl _, ?_, ?_, ?_, ?_⟩
    · rw [hdenominator]
      exact Directory.length_electorateAt_le hindexed.mirrored _
    · intro c hpass
      obtain ⟨r, hr, hold, -⟩ := Directory.isEligibleControllerSince_iff.1 hpass
      exact Directory.mem_electorateAt.2 ⟨r, hr, by omega⟩
    · intro voter m hm
      cases (hnobody voter).symm.trans hm
    · have hturnout : Governance.Store.turnout
          { s with eligibility := s.eligibility.put id (takeBasis ctx p) } id = 0 := hzero
      rw [hturnout]
      exact Nat.zero_le _

theorem electorateAfter_taken {basis : FrozenEligibility} (hnone : s.eligibility.get? id = none)
    (hsome : s'.eligibility.get? id = some basis) :
    electorateAfter dir s s' id electorate = dir.electorateAt basis.cutoff := by
  unfold electorateAfter
  rw [hnone, hsome]

theorem measured_of_freeze {p : Governance.Proposal} (hindexed : is.directory.Indexed)
    (hctx : ctx.identity = identitySource is)
    (h : Measured is.directory ctx.blockTime electorate s j) :
    Measured is.directory ctx.blockTime
      (electorateAfter is.directory s (Governance.freezeEligibilityOnce ctx id p s).2 j electorate)
      (Governance.freezeEligibilityOnce ctx id p s).2 j := by
  by_cases hj : id = j
  · subst hj
    rcases Governance.freezeEligibilityOnce_cases ctx id p s with ⟨basis, -, heq⟩ | ⟨hnone, heq⟩
    · rw [heq]
      exact h.step_same (Governance.SameRecords.refl s id)
    · rw [heq, electorateAfter_taken hnone (OrdMap.get?_put_self _ _ _)]
      exact measured_of_taken hindexed hctx h hnone
  · exact h.step_same (Governance.freeze_untouched hj).toSameRecords

/-- The electorate does not depend on what a ballot records. -/
theorem electorateAfter_congr {s₁ s₂ : Governance.Store}
    (hbasis : s₂.eligibility.get? id = s₁.eligibility.get? id) :
    electorateAfter dir s s₂ id electorate = electorateAfter dir s s₁ id electorate := by
  unfold electorateAfter
  rw [hbasis]

/-- A ballot of a voter who passes the test is counted within the electorate. -/
theorem measured_of_recordVote {basis : FrozenEligibility} {voter : Bytes} {o : Byte}
    (h : Measured dir now electorate s id) (hbasis : s.eligibility.get? id = some basis)
    (hpass : dir.isEligibleControllerSince (accAddressString voter) basis.cutoff 0 basis.frozenAt =
      true)
    (ho : o ≠ Governance.ineligibleVoteMarker) (hconsistent : Governance.Consistent s id) :
    Measured dir now electorate (s.recordVote id voter o true).2 id := by
  have hframe : (s.recordVote id voter o true).2.eligibility = s.eligibility :=
    (Governance.recordVote_frame true).1
  obtain ⟨hpast, hsize, hpassing, hcounted, -⟩ := h.frozen basis hbasis
  have hall : ∀ u m, (s.recordVote id voter o true).2.getCountedVote id u = some m →
      accAddressString u ∈ electorate := by
    intro u m hm
    by_cases hu : voter = u
    · rw [← hu]
      exact hpassing _ hpass
    · rw [Governance.recordVote_getCountedVote_ne true hu] at hm
      exact hcounted u m hm
  constructor
  · intro hnone
    rw [hframe, hbasis] at hnone
    cases hnone
  · intro basis' hbasis'
    rw [hframe, hbasis] at hbasis'
    obtain rfl : basis = basis' := Option.some.inj hbasis'
    refine ⟨hpast, hsize, hpassing, hall, ?_⟩
    rw [← (Governance.recordVote_consistent ho hconsistent).counted]
    exact (countedBallots_le hall).trans hsize

end Proposal

/-! ## Actions -/

/-- Every action on proposals keeps every proposal within its basis. -/
theorem measured_of_apply {authority : Bytes} {w w' : Governance.World} {a : Governance.Action}
    {electorates : Nat → List Bytes} (h : Governance.apply authority ctx w a = .ok w')
    (hindexed : is.directory.Indexed) (hctx : ctx.identity = identitySource is)
    (horderly : Governance.Orderly w) (htallied : Governance.Tallied w)
    (hw : ∀ id, Measured is.directory ctx.blockTime (electorates id) w.gov id) (j : Nat) :
    Measured is.directory ctx.blockTime
      (electorateAfter is.directory w.gov w'.gov j (electorates j)) w'.gov j := by
  cases a with
  | submit id msgs expedited =>
    obtain ⟨-, rfl⟩ := Governance.submit_ok h
    exact (hw j).step_same (Governance.SameRecords.refl _ j)
  | deposit id activates =>
    obtain ⟨p, -, -, -, -, hgov | hgov⟩ := Governance.deposit_ok h
    · rw [hgov]
      exact (hw j).step_same (Governance.SameRecords.refl _ j)
    · rw [hgov]
      exact measured_of_freeze hindexed hctx (hw j)
  | vote id voter options =>
    obtain ⟨p, hp, hopen, -, -, hballot⟩ := Governance.vote_ok h
    have hfrozen : Measured is.directory ctx.blockTime _
        (Governance.freezeEligibilityOnce ctx id p w.gov).2 j :=
      measured_of_freeze hindexed hctx (hw j)
    rcases Governance.recordBallot_ok hballot with ⟨-, -, hgov⟩ | ⟨-, hpass, hgov⟩
    · rw [hgov]
      exact hfrozen
    · have hbasis : w'.gov.eligibility.get? j =
          (Governance.freezeEligibilityOnce ctx id p w.gov).2.eligibility.get? j := by
        rw [hgov, (Governance.recordVote_frame true).1]
      rw [electorateAfter_congr hbasis, hgov]
      by_cases hj : id = j
      · subst hj
        have hqueue := horderly.not_queued hp (Governance.not_ended_of_voting hopen)
        rw [hctx] at hpass
        exact measured_of_recordVote hfrozen Governance.freeze_get? hpass
          (Governance.VoteOption.code_ne_marker _)
          (Governance.freeze_consistent (htallied id hqueue))
      · exact hfrozen.same (Governance.recordVote_other true hj)
  | updateParams signer params =>
    obtain ⟨-, -, rfl⟩ := Governance.updateParams_ok h
    exact (hw j).step_same (Governance.params_same w.gov params j)
  | endVoting id outcome =>
    obtain ⟨p, -, -, -, -, ⟨-, hgov⟩ | ⟨-, hgov⟩⟩ := Governance.endVoting_ok h
    · rw [hgov]
      exact (hw j).step_same (Governance.SameRecords.refl _ j)
    · rw [hgov]
      exact (hw j).step_same (Governance.enqueue_same w.gov id j)
  | pruneStep budget =>
    cases h
    cases Governance.pruneStep_pruned w.gov budget j with
    | untouched hsame => exact (hw j).step_same hsame.toSameRecords
    | begun hbegun =>
      rw [electorateAfter_kept hbegun.basis]
      exact (hw j).frame hbegun.basis hbegun.turnout hbegun.votes
    | cleared _ hcleared => exact measured_of_cleared hcleared

/-! ## Runs -/

/-- The stores of both modules are sound, and every proposal is within its basis. -/
structure Bounded (c : Chain) : Prop where
  sound : Identity.Sound Nameable c.identity.store
  orderly : Governance.Orderly c.governance
  tallied : Governance.Tallied c.governance
  measured : ∀ id, Measured c.identity.store.directory c.now (c.electorates id) c.governance.gov id

variable {k : Identity.Keeper} {authority : Bytes} {c : Chain}

/-- An identity message makes nobody pass the test of a stored basis. -/
theorem measured_of_event {tx : Identity.Tx} {w' : Identity.World} (hc : Bounded c)
    (horder : inOrder c (.identity tx) = true) (hapart : apart c (.identity tx) = true)
    (hbasic : tx.action.validateBasic = .ok ())
    (hevent : Identity.Event k tx.env c.identity tx.action w') (id : Nat) :
    Measured w'.store.directory tx.env.blockTime (c.electorates id) c.governance.gov id := by
  have hlater : c.now ≤ tx.env.blockTime := of_decide_eq_true horder
  refine ⟨(hc.measured id).unfrozen, fun basis hbasis => ?_⟩
  obtain ⟨hpast, hsize, hpassing, hcounted, hturnout⟩ := (hc.measured id).frozen basis hbasis
  refine ⟨hpast.trans hlater, hsize, fun x hpass => ?_, hcounted, hturnout⟩
  rcases Identity.newly_eligible_of_event hbasic hevent hc.sound hpass with
    hbefore | ⟨created, hgrants, hold, htime⟩
  · exact hpassing x hbefore
  · -- the stamp would have to be from the second of the freeze
    unfold apart at hapart
    dsimp only at hapart
    rw [hgrants] at hapart
    have hentry := List.all_eq_true.1 hapart _ (OrdMap.mem_entries.2 hbasis)
    rcases of_decide_eq_true hentry with hyoung | ⟨hset, hother⟩
    · dsimp only at hyoung
      omega
    · dsimp only at hset hother
      omega

theorem bounded_identity {tx : Identity.Tx} (hc : Bounded c)
    (horder : inOrder c (.identity tx) = true) (hapart : apart c (.identity tx) = true) :
    Bounded (step k authority c (.identity tx)) := by
  have hlater : c.now ≤ tx.env.blockTime := of_decide_eq_true horder
  have hworld : Identity.Sound Nameable (Identity.step k c.identity tx).store ∧
      ∀ id, Measured (Identity.step k c.identity tx).store.directory tx.env.blockTime
        (c.electorates id) c.governance.gov id := by
    refine Identity.step_preserves (p := fun w : Identity.World =>
      Identity.Sound Nameable w.store ∧ ∀ id, Measured w.store.directory tx.env.blockTime
        (c.electorates id) c.governance.gov id) ?_ ?_
    · exact ⟨hc.sound, fun id => (hc.measured id).later hlater⟩
    · intro w' hbasic hevent
      exact ⟨Identity.sound_of_event hbasic hevent (fun _ h => h)
        (Identity.nameable_newController hbasic) hc.sound,
        measured_of_event hc horder hapart hbasic hevent⟩
  exact ⟨hworld.1, hc.orderly, hc.tallied, hworld.2⟩

theorem bounded_governance {now : Int} {isOperator : Bytes → Bool}
    {validators : OrdMap Bytes ValidatorGovInfo} {a : Governance.Action} (hc : Bounded c)
    (horder : inOrder c (.governance now isOperator validators a) = true) :
    Bounded (step k authority c (.governance now isOperator validators a)) := by
  have hlater : c.now ≤ now := of_decide_eq_true horder
  have hmeasured : ∀ id, Measured c.identity.store.directory now (c.electorates id)
      c.governance.gov id := fun id => (hc.measured id).later hlater
  have hworld : Governance.Orderly (step k authority c (.governance now isOperator validators a)
        ).governance ∧
      Governance.Tallied (step k authority c (.governance now isOperator validators a)
        ).governance ∧
      ∀ id, Measured c.identity.store.directory now (electorateAfter c.identity.store.directory
        c.governance.gov (step k authority c (.governance now isOperator validators a)
          ).governance.gov id (c.electorates id))
        (step k authority c (.governance now isOperator validators a)).governance.gov id := by
    refine commit_preserves (p := fun w : Governance.World => Governance.Orderly w ∧
      Governance.Tallied w ∧ ∀ id, Measured c.identity.store.directory now
        (electorateAfter c.identity.store.directory c.governance.gov w.gov id (c.electorates id))
        w.gov id) ?_ ?_
    · exact ⟨hc.orderly, hc.tallied, fun id =>
        (hmeasured id).step_same (Governance.SameRecords.refl _ id)⟩
    · intro w' happly
      exact ⟨Governance.apply_orderly happly hc.orderly, Governance.apply_tallied happly hc.tallied,
        measured_of_apply happly hc.sound.indexed rfl hc.orderly hc.tallied hmeasured⟩
  exact ⟨hc.sound, hworld.1, hworld.2.1, hworld.2.2⟩

theorem bounded_step {i : Input} (hc : Bounded c) (horder : inOrder c i = true)
    (hapart : apart c i = true) : Bounded (step k authority c i) := by
  cases i with
  | identity tx => exact bounded_identity hc horder hapart
  | governance now isOperator validators a => exact bounded_governance hc horder

/-- The two modules after genesis. -/
def Chain.start (w : Identity.World) (g : Governance.World) (now : Int) : Chain :=
  ⟨w, g, fun _ => [], now⟩

/-- From an accepted genesis without tally state, in every run in time order in which no document
that is old enough for a stored basis is handed to a controller in the second that basis was taken,
the turnout of a proposal is at most its frozen denominator, and everybody recorded as counted was
among the controllers that were old enough when the basis was taken. -/
theorem turnout_within_electorate {env : Identity.Env} {gs : Identity.GenesisState} {bank : Bank}
    {w : Identity.World} {g : Governance.World} {inputs : List Input}
    (hgenesis : Identity.initGenesis k env gs bank = .ok w) (hempty : g.gov.Empty)
    (hrun : Along (step k authority) (fun c i => inOrder c i = true ∧ apart c i = true)
      (Chain.start w g env.blockTime) inputs)
    (id : Nat) (basis : FrozenEligibility)
    (hbasis : (run (step k authority) (Chain.start w g env.blockTime) inputs
      ).governance.gov.eligibility.get? id = some basis) :
    (run (step k authority) (Chain.start w g env.blockTime) inputs).governance.gov.turnout id ≤
        basis.denominator ∧
      ∀ voter m, (run (step k authority) (Chain.start w g env.blockTime) inputs
        ).governance.gov.getCountedVote id voter = some m →
        accAddressString voter ∈
          (run (step k authority) (Chain.start w g env.blockTime) inputs).electorates id := by
  have hstart : Bounded (Chain.start w g env.blockTime) :=
    ⟨Identity.sound_of_initGenesis hgenesis, hempty.orderly,
      fun id _ => (hempty.cleared id).consistent, fun id => measured_of_cleared (hempty.cleared id)⟩
  have hbounded := @run_preserves _ _ (step k authority) _ Bounded
    (fun c i hok hc => bounded_step hc hok.1 hok.2) _ hstart _ hrun
  have hwithin := (hbounded.measured id).frozen basis hbasis
  exact ⟨hwithin.turnout, hwithin.counted⟩

/-- An action on proposals while nobody is a validator. -/
def onProposal (now : Int) (a : Governance.Action) : Input := .governance now (fun _ => false) ∅ a

def smallChain : Chain :=
  Chain.start ⟨⟨∅, ∅⟩, Identity.importStore (Identity.smallEnv 10)
    (Identity.guardedGenesis Identity.smallParams)⟩ Governance.emptyWorld 10

/-- The recovery of the first DID is due, the basis of proposal 1 is taken with three
controllers, and all three vote. -/
def threeVoted : List Input :=
  [.identity ⟨Identity.smallEnv 100, Identity.recoverFirst 24 9⟩,
    .identity ⟨Identity.smallEnv 101, Identity.approveFirst 22 2 9⟩,
    onProposal 102 (.submit 1 (some []) false), onProposal 112 (.deposit 1 true),
    onProposal 112 (.vote 1 [21] (Governance.plainBallot .yes)),
    onProposal 112 (.vote 1 [22] (Governance.plainBallot .yes)),
    onProposal 112 (.vote 1 [23] (Governance.plainBallot .no))]

/-- The recovery is executed, and the new controller votes. -/
def thenFourth (now : Fin 10000) : List Input :=
  [.identity ⟨Identity.smallEnv now, Identity.executeFirst 24 9⟩,
    onProposal now.val (.vote 1 [24] (Governance.plainBallot .no))]

/-- A second later the new controller of the first DID is turned away. -/
theorem turnout_within_electorate_recovered :
    (run (step Identity.recoveryKeeper []) smallChain (threeVoted ++ thenFourth 113)
      ).identity.store.directory.eligibility.has (accAddressString [24]) = true ∧
    (run (step Identity.recoveryKeeper []) smallChain (threeVoted ++ thenFourth 113)
      ).governance.gov.turnout 1 ≤ 3 := by
  refine ⟨by decide +kernel, ?_⟩
  exact (turnout_within_electorate
    (Identity.initGenesis_of_validate Identity.validate_guardedGenesis)
    Governance.emptyWorld_empty (by decide +kernel) 1 ⟨3, 112, 112⟩ (by decide +kernel)).1

/-- In the second of the freeze four voters are counted out of three: the new controller of the
first DID after its old one, who was in the electorate. -/
theorem turnout_above_denominator :
    isOk (Identity.GenesisState.validate Identity.recoveryKeeper
      (Identity.guardedGenesis Identity.smallParams)) = true ∧
    Along (step Identity.recoveryKeeper []) (fun c i => inOrder c i = true) smallChain
      (threeVoted ++ thenFourth 112) ∧
    (run (step Identity.recoveryKeeper []) smallChain (threeVoted ++ thenFourth 112)
      ).governance.gov.eligibility.get? 1 = some ⟨3, 112, 112⟩ ∧
    (run (step Identity.recoveryKeeper []) smallChain (threeVoted ++ thenFourth 112)
      ).governance.gov.turnout 1 = 4 ∧
    ((run (step Identity.recoveryKeeper []) smallChain (threeVoted ++ thenFourth 112)
      ).governance.gov.getCountedVote 1 [24]).isSome = true ∧
    accAddressString [24] ∉
      (run (step Identity.recoveryKeeper []) smallChain (threeVoted ++ thenFourth 112)
        ).electorates 1 := by
  refine ⟨Identity.validate_guardedGenesis, ?_⟩
  decide +kernel

end PhiChain.FrozenBasis
