import PhiChain.App.DailyCaps
import PhiChain.App.Export

/-!
# The emergency brake over runs

While the emergency brake is on and less than ninety days old, the redemptions of a holder at
an institution are counted in a counter of their own, under the time the emergency started at.
The brake rests on two facts about runs. The start does not move: an activation stamps a new one
only where none stands or where ninety days are over (`startedAt_of_perform`). The counter does
not fall: it is written by such redemptions and by nothing else, and the sweep of the counters,
which share its keyspace, leaves its kind (`emergencyCounter_of_perform`).

A record of the braked redemptions runs next to the chain. Its sums are below the counters
(`Counted.step`), and a redemption passed its cap against the counter.
-/

set_option autoImplicit false

namespace PhiChain.App

open Foundations Sdk Institutions

variable {D : Type} [LinearOrder D] {k : Keeper D} {ctx : Ctx} {w w' : World D} {op : Op}

/-! ## The start -/

/-- The step leaves the emergency settings to `SetEmergencyRedemption`. -/
def Op.keepsEmergency (s : Store D) : Op → Bool
  | .deliver (.updateParams msg) _ =>
    msg.params.emergencyRedemption = s.params.emergencyRedemption
  | _ => true

theorem nextEmergency_keeps {em : EmergencyRedemption} {now : Int} {msg : MsgSetEmergencyRedemption}
    (hstarted : 0 < em.startedAt) (hyoung : now < em.startedAt + emergencyDay90) :
    (nextEmergency em now msg).startedAt = em.startedAt := by
  unfold nextEmergency
  split
  · -- the stamp moves only from zero, or after ninety days
    refine if_neg ?_
    rintro (hzero | ⟨-, hold⟩) <;> omega
  · rfl

/-- No step moves the start of an emergency that is less than ninety days old. -/
theorem startedAt_of_perform (hkeeps : op.keepsEmergency w.inst = true)
    (hstarted : 0 < w.inst.params.emergencyRedemption.startedAt)
    (hyoung : ctx.blockTime < w.inst.params.emergencyRedemption.startedAt + emergencyDay90)
    (h : perform k ctx w op = .ok w') :
    w'.inst.params.emergencyRedemption.startedAt =
      w.inst.params.emergencyRedemption.startedAt := by
  rcases params_of_change (change_of_perform h) with
    hsame | ⟨msg, ⟨hrunning, rfl⟩, hparams⟩ | ⟨msg, hparams⟩
  · rw [hsame]
  · rw [hparams]
    exact congrArg _ (of_decide_eq_true hkeeps)
  · rw [hparams]
    exact nextEmergency_keeps hstarted hyoung

/-- Nor does a run of such steps. -/
theorem startedAt_of_run {start : Int} (hstarted : 0 < start) {ops : List (Ctx × Op)}
    (hkeeps : Along (advance k) (fun w op => op.2.keepsEmergency w.inst = true) w ops)
    (hyoung : ∀ op ∈ ops, op.1.blockTime < start + emergencyDay90)
    (h : w.inst.params.emergencyRedemption.startedAt = start) :
    (run (advance k) w ops).inst.params.emergencyRedemption.startedAt = start := by
  induction ops generalizing w with
  | nil => exact h
  | cons op ops ih =>
    refine ih hkeeps.2 (fun op' hop' => hyoung op' (List.mem_cons_of_mem _ hop')) ?_
    rcases advance_cases k w op with hsame | hok
    · rw [hsame, h]
    · subst h
      exact startedAt_of_perform hkeeps.1 hstarted (hyoung op List.mem_cons_self) hok

/-! ## The counters -/

theorem getCounter_le_addCounter (s : Store D) (key key' : Bytes) {amt : Int} (hamt : 0 ≤ amt) :
    s.getCounter key' ≤ (s.addCounter key amt).getCounter key' := by
  rw [getCounter_addCounter s key key' hamt]
  split <;> omega

theorem getCounter_le_mintStore {msg : MsgInstitutionMint} {plan : MintPlan}
    (htoman : 0 ≤ plan.toman) (s : Store D) (key : Bytes) :
    s.getCounter key ≤ (mintStore ctx msg plan s).getCounter key := by
  let s₀ := s.setInstitution { plan.inst with vaultBalance := plan.inst.vaultBalance + plan.toman }
  calc s₀.getCounter key
      ≤ (s₀.addCounter (counterTotalKey plan.inst.id kindMintDaily ctx.dayIndex)
          plan.toman).getCounter key := getCounter_le_addCounter _ _ _ htoman
    _ ≤ _ := getCounter_le_addCounter _ _ _ htoman

/-- A redemption is added to the emergency counter of its holder while a cap is in force. -/
theorem getCounter_redeemStore {msg : MsgInstitutionRedeem} {plan : RedeemPlan}
    {split : RedeemSplit} (htoman : 0 ≤ plan.toman) (s : Store D) (key : Bytes) :
    s.getCounter key + (if (activeEmergencyCap ctx s).isSome ∧
        emergencyKey s plan.inst plan.holder = key then plan.toman else 0) ≤
      (redeemStore ctx msg plan split s).getCounter key := by
  let s₀ := s.setInstitution
    { plan.inst with vaultBalance := plan.inst.vaultBalance - split.tomanOut }
  let s₁ := s₀.addCounter (counterTotalKey plan.inst.id kindRedeemDaily ctx.dayIndex) plan.toman
  let s₂ := s₁.addCounter (counterUserKey plan.inst.id kindRedeemUser ctx.dayIndex plan.holder)
    plan.toman
  let s₃ := s₂.addRedeemSubjectTotal ctx.dayIndex (redeemSubject ctx plan.holder).1
    (redeemSubject ctx plan.holder).2 plan.uphi
  have hdaily : s.getCounter key ≤ s₃.getCounter key :=
    (getCounter_le_addCounter s₀ _ key htoman).trans (getCounter_le_addCounter s₁ _ key htoman)
  have hcounters : (redeemStore ctx msg plan split s).getCounter key =
      (if (activeEmergencyCap ctx s).isSome then
        s₃.addCounter (emergencyKey s plan.inst plan.holder) plan.toman else s₃).getCounter key := rfl
  rw [hcounters]
  by_cases hcap : (activeEmergencyCap ctx s).isSome = true
  · rw [if_pos hcap, getCounter_addCounter _ _ _ htoman]
    simp only [hcap, true_and]
    omega
  · rw [if_neg hcap, if_neg (fun h => hcap h.1)]
    omega

/-- The assignment of a tier works on the tiers. -/
theorem inst_of_assignKycTier {instID holder : Bytes} {tier : Nat}
    (h : perform k ctx w (.assignKycTier instID holder tier) = .ok w') :
    ∃ kycTiers, w'.inst = { w.inst with kycTiers := kycTiers } := by
  simp only [perform, onInstitutions, assignKycTier, bind_eq_ok, orFail_eq_ok, pure_eq_ok] at h
  obtain ⟨s, ⟨inst, -, rfl⟩, rfl⟩ := h
  exact ⟨_, rfl⟩

section Counter

variable {id : Bytes} (hid : id.length ≤ maxInstitutionIDLen) (start : Int) (holder : Bytes)

include hid

/-- The sweep of the counters leaves those of emergencies, however old. -/
theorem emergencyCounter_pruneCounterPrefix (staleBefore : Int) (s : Store D) :
    (pruneCounterPrefix staleBefore s).getCounter (counterUserKey id kindEmergency start holder) =
      s.getCounter (counterUserKey id kindEmergency start holder) := by
  have hkept := isStaleCounter_emergency hid staleBefore start holder
  unfold Store.getCounter OrdMap.getD pruneCounterPrefix
  dsimp only
  rw [OrdMap.get?_eraseAll_of_not_mem]
  intro hmem
  rw [(List.mem_filter.1 hmem).2] at hkept
  cases hkept

theorem emergencyCounter_beginBlock (s : Store D) :
    (beginBlock ctx s).getCounter (counterUserKey id kindEmergency start holder) =
      s.getCounter (counterUserKey id kindEmergency start holder) := by
  obtain ⟨roles, approvals, kycTiers, queue, hframe⟩ := beginBlock_frame ctx s
  have hcounters : (beginBlock ctx s).counters = (pruneStaleCounters ctx s).counters := by
    rw [hframe]
  simp only [Store.getCounter, hcounters, pruneStaleCounters]
  split
  · rfl
  · exact emergencyCounter_pruneCounterPrefix hid start holder _ _

theorem emergencyCounter_of_apply {a : Action} (hrunning : a ≠ .restart)
    (h : apply k ctx w a = .ok w') :
    w.inst.getCounter (counterUserKey id kindEmergency start holder) ≤
      w'.inst.getCounter (counterUserKey id kindEmergency start holder) := by
  cases a with
  | mint msg =>
    rcases mint_ok h with ⟨-, approvals, heq⟩ | ⟨plan, approvals, hacc, -, heq⟩
    · rw [heq]
      exact le_rfl
    · rw [heq]
      exact getCounter_le_mintStore hacc.positive.le { w.inst with approvals := approvals } _
  | redeem msg =>
    obtain ⟨plan, split, hacc, -, heq⟩ := redeem_ok h
    have hcounter := @getCounter_redeemStore _ _ ctx msg plan split hacc.positive.le w.inst
      (counterUserKey id kindEmergency start holder)
    have htoman := hacc.positive.le
    rw [heq]
    split at hcounter <;> omega
  | beginBlock =>
    cases h
    exact (emergencyCounter_beginBlock hid start holder w.inst).ge
  | restart => exact absurd rfl hrunning
  | _ =>
    obtain ⟨-, hcounters, -⟩ := sameLedgers_of_apply rfl h
    simp only [Store.getCounter, hcounters, le_rfl]

/-- An emergency counter never falls. -/
theorem emergencyCounter_of_perform (h : perform k ctx w op = .ok w') :
    w.inst.getCounter (counterUserKey id kindEmergency start holder) ≤
      w'.inst.getCounter (counterUserKey id kindEmergency start holder) := by
  cases op with
  | deliver a hrunning =>
    simp only [perform, bind_eq_ok] at h
    obtain ⟨⟨⟩, -, h⟩ := h
    exact emergencyCounter_of_apply hid start holder hrunning h
  | assignKycTier instID holder' tier =>
    obtain ⟨kycTiers, heq⟩ := inst_of_assignKycTier h
    rw [heq]
    exact le_rfl

end Counter

theorem short_of_perform (hs : ShortIds w.inst) (h : perform k ctx w op = .ok w') :
    ShortIds w'.inst := by
  cases op with
  | deliver a hrunning =>
    simp only [perform, bind_eq_ok] at h
    obtain ⟨⟨⟩, -, h⟩ := h
    exact short_of_apply hs h
  | assignKycTier instID holder tier =>
    obtain ⟨kycTiers, heq⟩ := inst_of_assignKycTier h
    rw [heq]
    exact hs.of_eq rfl rfl

/-! ## Braked redemptions -/

/-- A redemption under the brake, with the start of the emergency. -/
structure BrakedRedemption where
  start : Int
  institution : Bytes
  holder : Bytes
  toman : Int

/-- The emergency is active and less than ninety days old. -/
def emergencyInForce (ctx : Ctx) (s : Store D) : Bool :=
  s.params.emergencyRedemption.active ∧
    ctx.blockTime - s.params.emergencyRedemption.startedAt < emergencyDay90

/-- The redemption that a step executes while the emergency is in force. -/
def brakedRedemption (k : Keeper D) (ctx : Ctx) (w : World D) : Op → Option BrakedRedemption
  | .deliver (.redeem msg) hrunning =>
    if emergencyInForce ctx w.inst then do
      let toman ← newIntFromString msg.amountToman
      let holder ← accAddressFromBech32 msg.holder
      (perform k ctx w (.deliver (.redeem msg) hrunning)).toOption.map fun _ =>
        ⟨w.inst.params.emergencyRedemption.startedAt, msg.institution, holder, toman⟩
    else none
  | _ => none

theorem activeEmergencyCap_of_inForce {s : Store D} (h : emergencyInForce ctx s = true) :
    ∃ cap, emergencyCapForElapsed s.params.emergencyRedemption
        (ctx.blockTime - s.params.emergencyRedemption.startedAt) = some cap ∧
      activeEmergencyCap ctx s = some cap := by
  obtain ⟨hactive, hyoung⟩ := of_decide_eq_true h
  have hcap : ∃ cap, emergencyCapForElapsed s.params.emergencyRedemption
      (ctx.blockTime - s.params.emergencyRedemption.startedAt) = some cap := by
    simp only [emergencyCapForElapsed, if_pos hyoung]
    split
    · exact ⟨_, rfl⟩
    · split
      · exact ⟨_, rfl⟩
      · exact ⟨_, rfl⟩
  obtain ⟨cap, hcap⟩ := hcap
  exact ⟨cap, hcap, (if_pos hactive).trans hcap⟩

/-- What a braked redemption is, and what it did. -/
theorem brakedRedemption_ok {r : BrakedRedemption} (h : brakedRedemption k ctx w op = some r) :
    ∃ msg plan split, emergencyInForce ctx w.inst = true ∧ RedeemAccepted ctx msg w.inst plan ∧
      r = ⟨w.inst.params.emergencyRedemption.startedAt, plan.inst.id, plan.holder, plan.toman⟩ ∧
      (advance k w (ctx, op)).inst = redeemStore ctx msg plan split w.inst := by
  unfold brakedRedemption at h
  split at h
  · rename_i msg hrunning
    split at h
    · rename_i hforce
      cases hperform : perform k ctx w (.deliver (.redeem msg) hrunning) with
      | error e =>
        rw [hperform] at h
        simp [Except.toOption] at h
      | ok w' =>
        have happly : apply k ctx w (.redeem msg) = .ok w' := by
          simp only [perform, bind_eq_ok] at hperform
          obtain ⟨⟨⟩, -, happly⟩ := hperform
          exact happly
        obtain ⟨plan, split, hacc, -, heq⟩ := redeem_ok happly
        refine ⟨msg, plan, split, hforce, hacc, ?_, ?_⟩
        · have hid : plan.inst.id = msg.institution := Registry.id_of_get? hacc.found
          rw [hperform, hacc.toman, hacc.holder, ← hid] at h
          exact (Option.some.inj h).symm
        · simp only [advance, hperform, commit]
          exact heq
    · cases h
  · cases h

/-! ## Runs -/

/-- The chain, and the redemptions that executed under the brake. -/
structure Brake (D : Type) [LinearOrder D] where
  world : World D
  redemptions : List BrakedRedemption

def Brake.step (k : Keeper D) (b : Brake D) (op : Ctx × Op) : Brake D where
  world := advance k b.world op
  redemptions := (brakedRedemption k op.1 b.world op.2).toList ++ b.redemptions

/-- What a holder has redeemed at an institution under the brake since a start. -/
def redeemedSince (redemptions : List BrakedRedemption) (start : Int) (id holder : Bytes) : Int :=
  ((redemptions.filter fun r => r.start = start ∧ r.institution = id ∧ r.holder = holder).map
    BrakedRedemption.toman).sum

theorem redeemedSince_cons (r : BrakedRedemption) (rs : List BrakedRedemption) (start : Int)
    (id holder : Bytes) : redeemedSince (r :: rs) start id holder =
      redeemedSince rs start id holder +
        if r.start = start ∧ r.institution = id ∧ r.holder = holder then r.toman else 0 := by
  unfold redeemedSince
  rw [List.filter_cons]
  split
  · rename_i hmatch
    rw [if_pos (of_decide_eq_true hmatch), List.map_cons, List.sum_cons, Int.add_comm]
  · rename_i hother
    rw [if_neg (fun h => hother (decide_eq_true h)), Int.add_zero]

/-- Ids are short, and the record is covered by the emergency counters. -/
structure Counted (b : Brake D) : Prop where
  short : ShortIds b.world.inst
  covered : ∀ start id holder, id.length ≤ maxInstitutionIDLen →
    redeemedSince b.redemptions start id holder ≤
      b.world.inst.getCounter (counterUserKey id kindEmergency start holder)

/-- A step that executes no braked redemption. -/
theorem Counted.idle {b : Brake D} (hb : Counted b) (hperform : perform k ctx b.world op = .ok w') :
    Counted ⟨w', b.redemptions⟩ where
  short := short_of_perform hb.short hperform
  covered start id holder hid :=
    (hb.covered start id holder hid).trans (emergencyCounter_of_perform hid start holder hperform)

theorem Counted.redeemed {b : Brake D} (hb : Counted b) {r : BrakedRedemption}
    (hbraked : brakedRedemption k ctx b.world op = some r) : Counted (b.step k (ctx, op)) := by
  obtain ⟨msg, plan, split, hforce, hacc, rfl, heq⟩ := brakedRedemption_ok hbraked
  obtain ⟨cap, -, hcap⟩ := activeEmergencyCap_of_inForce hforce
  have hrecord : (b.step k (ctx, op)).redemptions =
      ⟨b.world.inst.params.emergencyRedemption.startedAt, plan.inst.id, plan.holder, plan.toman⟩ ::
        b.redemptions := by
    simp only [Brake.step, hbraked, Option.toList_some, List.singleton_append]
  have hinst : (b.step k (ctx, op)).world.inst = redeemStore ctx msg plan split b.world.inst := heq
  refine ⟨?_, fun start id holder hid => ?_⟩
  · rcases advance_cases k b.world (ctx, op) with hsame | hok
    · exact (congrArg World.inst hsame).symm ▸ hb.short
    · exact short_of_perform hb.short hok
  · have hcounter := @getCounter_redeemStore _ _ ctx msg plan split hacc.positive.le b.world.inst
      (counterUserKey id kindEmergency start holder)
    have hbefore := hb.covered start id holder hid
    have htoman := hacc.positive.le
    rw [hrecord, hinst, redeemedSince_cons]
    dsimp only
    by_cases hmatch : b.world.inst.params.emergencyRedemption.startedAt = start ∧
        plan.inst.id = id ∧ plan.holder = holder
    · obtain ⟨rfl, rfl, rfl⟩ := hmatch
      rw [hcap, if_pos ⟨rfl, rfl⟩] at hcounter
      rw [if_pos ⟨rfl, rfl, rfl⟩]
      omega
    · rw [if_neg hmatch]
      split at hcounter <;> omega

theorem Counted.step {b : Brake D} (hb : Counted b) (op : Ctx × Op) : Counted (b.step k op) := by
  obtain ⟨ctx, op⟩ := op
  cases hbraked : brakedRedemption k ctx b.world op with
  | some r => exact hb.redeemed hbraked
  | none =>
    cases hperform : perform k ctx b.world op with
    | error e =>
      have hstep : b.step k (ctx, op) = b := by
        simp only [Brake.step, advance, hperform, hbraked, commit, Option.toList_none,
          List.nil_append]
      rw [hstep]
      exact hb
    | ok w' =>
      have hstep : b.step k (ctx, op) = ⟨w', b.redemptions⟩ := by
        simp only [Brake.step, advance, hperform, hbraked, commit, Option.toList_none,
          List.nil_append]
      rw [hstep]
      exact hb.idle hperform

/-- After a braked redemption the redemptions of its holder at its institution, since the start
of the emergency, are under the cap of the step that the emergency is in. -/
def BrakeHolds (k : Keeper D) (b : Brake D) (ctx : Ctx) (op : Op) : Prop :=
  ∀ r, brakedRedemption k ctx b.world op = some r →
    r.start = b.world.inst.params.emergencyRedemption.startedAt ∧
    ∃ cap, emergencyCapForElapsed b.world.inst.params.emergencyRedemption
        (ctx.blockTime - r.start) = some cap ∧
      redeemedSince (b.step k (ctx, op)).redemptions r.start r.institution r.holder ≤ cap

theorem Counted.brakeHolds {b : Brake D} (hb : Counted b) (ctx : Ctx) (op : Op) :
    BrakeHolds k b ctx op := by
  intro r hr
  obtain ⟨msg, plan, split, hforce, hacc, rfl, -⟩ := brakedRedemption_ok hr
  obtain ⟨cap, helapsed, hactive⟩ := activeEmergencyCap_of_inForce hforce
  refine ⟨rfl, cap, helapsed, ?_⟩
  have hid := hb.short.institutions _ _ (Store.getInstitution_self hacc.found)
  have hbefore := hb.covered b.world.inst.params.emergencyRedemption.startedAt plan.inst.id
    plan.holder hid
  -- the cap was checked against the counter, which covers the record
  have hchecked : b.world.inst.getCounter (emergencyKey b.world.inst plan.inst plan.holder) +
      plan.toman ≤ cap := by
    have hcaps := hacc.caps
    simp only [enforceRedeemCaps, bind_eq_ok, ensure_eq_ok, exists_const] at hcaps
    obtain ⟨-, ⟨⟩, -, -, -, floor, -, -, hemergency⟩ := hcaps
    exact hemergency cap hactive
  simp only [Brake.step, hr, Option.toList_some, List.singleton_append]
  rw [redeemedSince_cons, if_pos ⟨rfl, rfl, rfl⟩]
  exact (Int.add_le_add_right hbefore plan.toman).trans hchecked

/-- From an accepted genesis, in every run that leaves the emergency settings to
`SetEmergencyRedemption`: the start of an emergency stands for ninety days, and every redemption
under the brake leaves the redemptions of its holder at its institution since that start under the
cap of the step. -/
theorem emergency_brake_holds {gs : GenesisState D} {bank : Bank} {c : Coin.Store}
    (hgenesis : initGenesis ctx gs bank c = .ok w) {ops : List (Ctx × Op)}
    (hkeeps : Along (advance k) (fun w op => op.2.keepsEmergency w.inst = true) w ops) :
    (∀ before after start, ops = before ++ after → 0 < start →
      (run (advance k) w before).inst.params.emergencyRedemption.startedAt = start →
      (∀ op ∈ after, op.1.blockTime < start + emergencyDay90) →
      (run (advance k) w ops).inst.params.emergencyRedemption.startedAt = start) ∧
    Along (Brake.step k) (fun b op => BrakeHolds k b op.1 op.2) ⟨w, []⟩ ops := by
  constructor
  · rintro before after start rfl hstarted hstart hyoung
    rw [run_append]
    exact startedAt_of_run hstarted (along_append.1 hkeeps).2 hyoung hstart
  · have hfirst : Counted ⟨w, []⟩ :=
      ⟨short_of_initGenesis hgenesis, fun _ _ _ _ => w.inst.getCounter_nonneg _⟩
    exact @along_of_invariant _ _ (Brake.step k) (fun _ _ => True) Counted _
      (fun _ op _ hb => hb.step op) (fun _ op _ hb => hb.brakeHolds op.1 op.2) _ hfirst _
      (along_of_forall fun _ _ => trivial)

def brakeKeeper : Keeper Bytes := { textKeeper with authority := accAddressString [5] }

def toggle (active : Bool) : MsgSetEmergencyRedemption where
  authority := accAddressString [5]
  active := active
  capBeforeDay30 := ascii "100000"
  capFromDay30 := []
  capFromDay60 := []

/-- The brake is pulled, released and pulled again before a redemption of one toman. -/
def brakeTwice : List (Ctx × Op) :=
  [(smallCtx 86400, .deliver (.mint (largeMint [1])) (by simp)),
    (smallCtx 86401, .deliver (.mint (largeMint [2])) (by simp)),
    (smallCtx 86402, .deliver (.setEmergency (toggle true)) (by simp)),
    (smallCtx 86403, .deliver (.setEmergency (toggle false)) (by simp)),
    (smallCtx 86404, .deliver (.setEmergency (toggle true)) (by simp)),
    (smallCtx 86405, .deliver (.redeem redeemOne) (by simp))]

/-- The start is that of the first activation, and the redemption is on record under it. -/
theorem emergency_brake_holds_toggled :
    (multisigRestart.toOption.map fun w =>
      let b := run (Brake.step brakeKeeper) ⟨w, []⟩ brakeTwice
      (b.world.inst.params.emergencyRedemption.startedAt,
        redeemedSince b.redemptions 86402 (ascii "a") [9])) = some (86402, 1) ∧
    ∃ w, multisigRestart = .ok w ∧
      Along (Brake.step brakeKeeper) (fun b op => BrakeHolds brakeKeeper b op.1 op.2) ⟨w, []⟩
        brakeTwice := by
  refine ⟨by decide +kernel, ?_⟩
  have haccepted : isOk multisigRestart = true := by decide +kernel
  obtain ⟨w, hw⟩ := isOk_iff.1 haccepted
  have hkeeps : Along (advance brakeKeeper) (fun w op => op.2.keepsEmergency w.inst = true) w
      brakeTwice := ⟨rfl, rfl, rfl, rfl, rfl, rfl, trivial⟩
  exact ⟨w, hw, (emergency_brake_holds hw hkeeps).2⟩

end PhiChain.App
