import PhiChain.App.Chain
import PhiChain.Institutions.Effects

/-!
# Actions as effects

Every action other than a restart changes the authority state of institutions by a
sequence of primitive effects (`apply_effects`), so an invariant of the effects is an
invariant of the runs.
-/

set_option autoImplicit false

namespace PhiChain.App

open Foundations Sdk Institutions
open Relation (ReflTransGen)

variable {D : Type} [LinearOrder D] {k : Keeper D} {calm : Prop}

variable {s s' : Store D} {inst : Institution} {msg : SensitiveMsg} {w w' : World D} {ctx : Ctx}

theorem sweepLoop_effects (rounds budget : Nat) (hs : Sound s) :
    ReflTransGen (Effect k calm none) s (sweepLoop rounds budget s) := by
  induction rounds generalizing budget s with
  | zero => exact .refl
  | succ rounds ih =>
    unfold sweepLoop
    split
    · exact .refl
    · split
      · exact .refl
      · rename_i id hfirst
        have hdrain : Effect k calm none s (drainInstitutionRanged s id budget).2 :=
          .drain id budget (firstPendingRemoval_pending hs.queued hfirst)
        dsimp only
        split
        · rename_i hempty
          have hdequeue : Effect k calm none (drainInstitutionRanged s id budget).2
              (dequeueRemoval (drainInstitutionRanged s id budget).2 id) := .dequeue id hempty
          exact .head hdrain (.head hdequeue (ih _ (hdequeue.sound (hdrain.sound hs))))
        · exact .single hdrain

theorem quiet_of_eq (institutions : s'.institutions = s.institutions) (roles : s'.roles = s.roles)
    (approvals : s'.approvals = s.approvals) (epochs : s'.adminEpochs = s.adminEpochs)
    (attestors : s'.lastAttestors = s.lastAttestors) (queue : s'.removalQueue = s.removalQueue)
    (fx : ∀ id, s'.fxRequests.has id = true →
      s.fxRequests.has id = true ∨ id.length ≤ maxInstitutionIDLen) : Quiet s s' where
  admins id := by
    unfold Store.getInstitution
    rw [institutions]
  roles := roles
  approvals := approvals
  epochs := epochs
  attestors := attestors
  queue := queue
  fx := fx

/-- A record overwritten by one with the same root admin. -/
theorem quiet_setInstitution (inst : Institution) {old : Institution}
    (hold : s.getInstitution inst.id = some old) (hadmin : inst.admin = old.admin) :
    Quiet s (s.setInstitution inst) where
  admins id := by
    rw [getInstitution_setInstitution]
    split
    · rename_i hid
      rw [← hid, hold]
      exact congrArg some hadmin
    · rfl
  roles := rfl
  approvals := rfl
  epochs := rfl
  attestors := rfl
  queue := rfl
  fx _ := .inl

theorem beginBlock_effects (ctx : Ctx) (hs : Sound s) :
    ReflTransGen (Effect k calm none) s (Institutions.beginBlock ctx s) := by
  have hquiet : Quiet s (pruneStaleCounters ctx s) := by
    obtain ⟨counters, redeemSubjects, cursor, hprune⟩ := pruneStaleCounters_frame ctx s
    rw [hprune]
    exact quiet_of_eq rfl rfl rfl rfl rfl rfl fun _ => .inl
  have hprune : Effect k calm none s (pruneStaleCounters ctx s) := .quiet hquiet
  exact .head hprune (sweepLoop_effects _ _ (hprune.sound hs))

omit [LinearOrder D] in
/-- The content of a sensitive message starts with a short tag of its own. -/
theorem contentHash_tag (msg : SensitiveMsg) :
    ∃ tag parts, msg.contentHash k = k.contentHashOf (tag :: parts) ∧
      tag.length < 256 ^ lengthWidth ∧ tag ≠ directionMint := by
  cases msg with
  | grant | revoke | appConfig | params | depositKey => exact ⟨_, _, rfl, by decide, by decide⟩

/-- No role grant takes ADMIN away from its grantee. -/
def keepsAdmins (w : World D) : Action → Prop
  | .sensitive msg => ∀ inst, w.inst.getInstitution msg.institution = some inst →
      msg.keepsAdmins inst w.inst
  | _ => True

theorem executeSensitive_effects (found : s.getInstitution inst.id = some inst)
    (hcalm : calm → msg.keepsAdmins inst s)
    (h : executeSensitive k msg inst s = .ok s') : ReflTransGen (Effect k calm none) s s' := by
  cases msg with
  | grant m =>
    simp only [executeSensitive, bind_eq_ok, orFail_eq_ok, pure_eq_ok] at h
    obtain ⟨grantee, hgrantee, rfl⟩ := h
    exact .single (.grant inst grantee m.role _ found fun hc => hcalm hc grantee hgrantee)
  | revoke m =>
    simp only [executeSensitive, bind_eq_ok, orFail_eq_ok, pure_eq_ok] at h
    obtain ⟨grantee, -, rfl⟩ := h
    exact .single (.revoke inst grantee _ found)
  | appConfig m =>
    cases h
    exact .head (.quiet (quiet_setInstitution { inst with appConfig := m.config } found rfl))
      (.single (.clear _ _))
  | params m =>
    cases h
    exact .head (.quiet (quiet_setInstitution { inst with params := m.params } found rfl))
      (.single (.clear _ _))
  | depositKey m =>
    cases h
    exact .head
      (.quiet (quiet_setInstitution { inst with depositPubkey := m.depositPubkey } found rfl))
      (.single (.clear _ _))

/-- Effects of one action: at most one approval is recorded, and before anything else. -/
inductive Effects (k : Keeper D) (calm : Prop) :
    Option (ApprovalKey D) → Store D → Store D → Prop where
  | silent {s s' : Store D} (h : ReflTransGen (Effect k calm none) s s') : Effects k calm none s s'
  | approving {key : ApprovalKey D} {s s₁ s' : Store D} (first : Effect k calm (some key) s s₁)
      (rest : ReflTransGen (Effect k calm none) s₁ s') : Effects k calm (some key) s s'

theorem keepsAdmins_recordApproval {inst' : Institution} {ch : D} {signer : Bytes}
    (h : msg.keepsAdmins inst s) :
    msg.keepsAdmins inst (s.recordApproval inst' ch signer) := by
  cases msg with
  | grant m => exact h
  | _ => trivial

/-- The approval an action records when it succeeds. -/
def recordedKey (k : Keeper D) (w : World D) : Action → Option (ApprovalKey D)
  | .mint msg => do
    let inst ← w.inst.getInstitution msg.institution
    let signer ← accAddressFromBech32 msg.admin
    let toman ← newIntFromString msg.amountToman
    if isLargeMint w.inst toman then some ⟨inst.id, mintContentHash k inst.id msg, signer⟩
    else none
  | .sensitive msg => do
    let inst ← w.inst.getInstitution msg.institution
    let signer ← accAddressFromBech32 msg.signer
    some ⟨inst.id, msg.contentHash k, signer⟩
  | _ => none

theorem sensitiveAction_effects {r : SensitiveResult}
    (hcalm : calm → keepsAdmins w (.sensitive msg))
    (h : sensitiveAction k msg w.inst = .ok (r, s')) :
    Effects k calm (recordedKey k w (.sensitive msg)) w.inst s' := by
  obtain ⟨inst, signer, hinst, hsigner, hrole, h⟩ := sensitiveAction_ok h
  have found := Store.getInstitution_self hinst
  have hkey : recordedKey k w (.sensitive msg) = some ⟨inst.id, msg.contentHash k, signer⟩ := by
    simp only [recordedKey, hinst, hsigner, Option.bind_eq_bind, Option.bind_some]
  obtain ⟨tag, parts, hhash, hlen, htag⟩ := contentHash_tag (k := k) msg
  have happrove : Effect k calm (some ⟨inst.id, msg.contentHash k, signer⟩) w.inst
      (w.inst.recordApproval inst (msg.contentHash k) signer) := by
    rw [hhash]
    exact .approve inst tag parts signer hlen found hrole fun hmint => absurd hmint htag
  rw [hkey]
  rcases h with ⟨-, rfl⟩ | ⟨-, hexec⟩
  · exact .approving happrove .refl
  · exact .approving happrove
      (executeSensitive_effects found (fun hc => keepsAdmins_recordApproval (hcalm hc inst hinst)) hexec)

/-- The separation check of a mint: an attestor is recorded, and it is not the minter. -/
theorem requireMintSeparation_ok {minterBech : Bytes} {u : Unit}
    (h : requireMintSeparation s inst minterBech = .ok u) :
    ∃ minter attestor, accAddressFromBech32 minterBech = some minter ∧
      s.lastAttestor inst.id = some attestor ∧ attestor ≠ minter := by
  simp only [requireMintSeparation, bind_eq_ok, ensure_eq_ok, orFail_eq_ok, exists_const] at h
  obtain ⟨-, minter, hminter, attestor, hattestor, hne⟩ := h
  exact ⟨minter, attestor, hminter, hattestor, hne⟩

/-- The gate records an approval of a large mint, and otherwise does nothing. -/
theorem mintGate_effects {msg : MsgInstitutionMint} {plan : MintPlan} {gate : MintGate}
    (hacc : MintAccepted k ctx msg w.inst plan) (h : mintGate k msg plan w.inst = .ok (gate, s')) :
    Effects k calm (recordedKey k w (.mint msg)) w.inst s' := by
  obtain ⟨minter, attestor, hminter, hattestor, hne⟩ := requireMintSeparation_ok hacc.separation
  have hkey : recordedKey k w (.mint msg) =
      if isLargeMint w.inst plan.toman then
        some ⟨plan.inst.id, mintContentHash k plan.inst.id msg, minter⟩
      else none := by
    simp only [recordedKey, hacc.found, hminter, hacc.toman, Option.bind_eq_bind, Option.bind_some]
  obtain ⟨hsmall, -, rfl⟩ | ⟨hlarge, signer, hsigner, hrole, h⟩ := mintGate_ok h
  · rw [hkey, if_neg hsmall]
    exact .silent .refl
  · obtain rfl : minter = signer := Option.some.inj (hminter.symm.trans hsigner)
    have happrove : Effect k calm (some ⟨plan.inst.id, mintContentHash k plan.inst.id msg, minter⟩) w.inst
        (w.inst.recordApproval plan.inst (mintContentHash k plan.inst.id msg) minter) :=
      .approve plan.inst directionMint _ minter (by decide) (Store.getInstitution_self hacc.found)
        hrole fun _ => ⟨attestor, hattestor, hne⟩
    rw [hkey, if_pos hlarge]
    rcases h with ⟨r, -, rfl⟩ | ⟨-, rfl⟩
    · exact .approving happrove .refl
    · exact .approving happrove (.single (.clear _ _))

theorem silent_preserve {p : Store D → Prop} (h : ReflTransGen (Effect k calm none) s s')
    (hp : ∀ s s', Effect k calm none s s' → p s → p s') (hs : p s) : p s' := by
  induction h with
  | refl => exact hs
  | tail _ heffect ih => exact hp _ _ heffect ih

/-- Rule for properties that every effect keeps. -/
theorem Effects.preserve {p : Store D → Prop} {l : Option (ApprovalKey D)}
    (h : Effects k calm l s s') (hp : ∀ l s s', Effect k calm l s s' → p s → p s') (hs : p s) :
    p s' := by
  cases h with
  | silent h => exact silent_preserve h (hp none) hs
  | approving first rest => exact silent_preserve rest (hp none) (hp _ _ _ first hs)

theorem Effects.tail {l : Option (ApprovalKey D)} {s₁ : Store D} (h : Effects k calm l s s₁)
    (last : Effect k calm none s₁ s') : Effects k calm l s s' := by
  cases h with
  | silent h => exact .silent (h.tail last)
  | approving first rest => exact .approving first (rest.tail last)

/-- Recording a mint or a redemption leaves the authority state alone. -/
theorem mintStore_quiet {msg : MsgInstitutionMint} {plan : MintPlan}
    (found : s.getInstitution plan.inst.id = some plan.inst) :
    Quiet s (mintStore ctx msg plan s) := by
  have hset := quiet_setInstitution
    { plan.inst with vaultBalance := plan.inst.vaultBalance + plan.toman } found rfl
  exact ⟨hset.admins, rfl, rfl, rfl, rfl, rfl, fun _ => .inl⟩

theorem redeemStore_quiet {msg : MsgInstitutionRedeem} {plan : RedeemPlan} {split : RedeemSplit}
    (found : s.getInstitution plan.inst.id = some plan.inst) :
    Quiet s (redeemStore ctx msg plan split s) := by
  have hset := quiet_setInstitution
    { plan.inst with vaultBalance := plan.inst.vaultBalance - split.tomanOut } found rfl
  unfold redeemStore addRedeemCounters
  dsimp only
  split
  · exact ⟨hset.admins, rfl, rfl, rfl, rfl, rfl, fun _ => .inl⟩
  · exact ⟨hset.admins, rfl, rfl, rfl, rfl, rfl, fun _ => .inl⟩

theorem onInstitutions_effects {x : Result (Store D)}
    (hx : ∀ s, x = .ok s → ReflTransGen (Effect k calm none) w.inst s)
    (h : onInstitutions w x = .ok w') :
    Effects k calm none w.inst w'.inst := by
  obtain ⟨s, hs, rfl⟩ := onInstitutions_ok h
  exact .silent (hx s hs)

/-- Every action but a restart is a sequence of effects. -/
theorem apply_effects {a : Action} (hids : ShortIds w.inst) (hs : a = .beginBlock → Sound w.inst)
    (hrestart : a ≠ .restart) (hcalm : calm → keepsAdmins w a) (h : apply k ctx w a = .ok w') :
    Effects k calm (recordedKey k w a) w.inst w'.inst := by
  cases a with
  | mint msg =>
    obtain ⟨-, r, hmint⟩ := apply_mint_ok h
    obtain ⟨plan, gate, s, hacc, hgate, h⟩ := institutionMint_ok hmint
    have hgates : Effects k calm _ w.inst s := mintGate_effects hacc hgate
    obtain ⟨approvals, rfl⟩ := mintGate_frame hgate
    rcases h with ⟨p, -, -, rfl⟩ | ⟨-, -, b, -, rfl⟩
    · exact hgates
    · have found := Store.getInstitution_self hacc.found
      exact hgates.tail (.quiet (mintStore_quiet found))
  | redeem msg =>
    obtain ⟨r, hredeem⟩ := apply_redeem_ok h
    obtain ⟨plan, split, coin, b, hacc, -, -, -, rfl⟩ := institutionRedeem_ok hredeem
    exact .silent (.single (.quiet (redeemStore_quiet (Store.getInstitution_self hacc.found))))
  | register msg =>
    refine onInstitutions_effects (fun s hs' => ?_) h
    obtain ⟨hlen, hnew, hidle, rfl⟩ := registerInstitution_ok hs'
    exact .single (.register _ hlen hnew hidle)
  | remove msg =>
    refine onInstitutions_effects (fun s hs' => ?_) h
    obtain ⟨inst, hinst, -, rfl⟩ := removeInstitution_ok hs'
    have hid : inst.id = msg.id := Registry.id_of_get? hinst
    rw [← hid] at hinst ⊢
    exact .single (.remove inst hinst)
  | freeze msg =>
    refine onInstitutions_effects (fun s hs' => ?_) h
    obtain ⟨inst, status, hself, rfl⟩ := freezeInstitution_ok hs'
    exact .single (.quiet (quiet_setInstitution { inst with status := status } hself rfl))
  | attest msg =>
    refine onInstitutions_effects (fun s hs' => ?_) h
    obtain ⟨inst, attestor, reserve, status, hself, ⟨hne, hrole⟩, rfl⟩ :=
      publishInstitutionAttestation_ok hs'
    have hself' : (w.inst.setLastAttestor inst.id attestor).getInstitution inst.id = some inst :=
      hself
    exact .head (.attest inst attestor hself hne hrole)
      (.single (.quiet (quiet_setInstitution _ hself' rfl)))
  | updateParams msg =>
    refine onInstitutions_effects (fun s hs' => ?_) h
    obtain ⟨hv, rfl, -⟩ := setParams_ok (updateParams_ok hs')
    exact .single (.quiet (quiet_of_eq rfl rfl rfl rfl rfl rfl fun _ => .inl))
  | setEmergency msg =>
    refine onInstitutions_effects (fun s hs' => ?_) h
    obtain ⟨p, hp⟩ := setEmergencyRedemption_ok hs'
    obtain ⟨hv, rfl, -⟩ := setParams_ok hp
    exact .single (.quiet (quiet_of_eq rfl rfl rfl rfl rfl rfl fun _ => .inl))
  | requestFx msg =>
    refine onInstitutions_effects (fun s hs' => ?_) h
    obtain ⟨hlen, req, rfl⟩ := requestFxEntry_ok hs'
    refine .single (.quiet (quiet_of_eq rfl rfl rfl rfl rfl rfl ?_))
    intro id hid
    rcases OrdMap.has_put.1 hid with rfl | hold
    · exact .inr hlen
    · exact .inl hold
  | guaranteeFx msg =>
    refine onInstitutions_effects (fun s hs' => ?_) h
    obtain ⟨hreq, hcase⟩ := guaranteeFxEntry_ok hs'
    have hlen := hids.requests _ hreq
    rcases hcase with ⟨req, rfl⟩ | rfl
    · refine .single (.quiet (quiet_of_eq rfl rfl rfl rfl rfl rfl ?_))
      intro id hid
      rcases OrdMap.has_put.1 hid with rfl | hold
      · exact .inr hlen
      · exact .inl hold
    · refine .single (.quiet (quiet_of_eq rfl rfl rfl rfl rfl rfl ?_))
      intro id hid
      exact .inl (OrdMap.has_of_erase hid)
  | finalizeFx msg =>
    refine onInstitutions_effects (fun s hs' => ?_) h
    obtain ⟨hreq, hnew, hidle, applicant, rfl⟩ := finalizeFxEntry_ok hs'
    refine .head (.register (newInstitution msg.fxId applicant .fx ctx.blockTime)
      (hids.requests _ hreq) hnew hidle) (.single (.quiet (quiet_of_eq rfl rfl rfl rfl rfl rfl ?_)))
    intro id hid
    exact .inl (OrdMap.has_of_erase hid)
  | sensitive msg =>
    simp only [apply, bind_eq_ok, pure_eq_ok] at h
    obtain ⟨⟨⟩, -, ⟨r, s⟩, hsens, rfl⟩ := h
    exact sensitiveAction_effects hcalm hsens
  | transfer | deductFee | withdrawRevenue | updateCoinParams | slash | govBurn =>
    rw [inst_of_apply rfl h]
    exact .silent .refl
  | beginBlock =>
    cases h
    exact .silent (beginBlock_effects ctx (hs rfl))
  | restart => exact absurd rfl hrestart

end PhiChain.App
