import PhiChain.App.Upkeep
import PhiChain.Coin.Export
import PhiChain.Sdk.AddressText

/-!
# Exports of x/institutions

The genesis validator checks an exported state once more. Most of its checks are part of
`Kept`. Three kinds are not invariants of the handlers: that timestamps are not negative, that
no redeem cap is below the floor of the day, and that a pending fx request is not for a
registered id. `exportSafe` names the steps that keep them, and then every export is accepted
(`institutions_export_importable`).

The state of x/coin moves along the chain by the operations its own export is about
(`coin_of_run`).
-/

set_option autoImplicit false

namespace PhiChain.App

open Foundations Sdk Institutions

variable {D : Type} [LinearOrder D] {ctx : Ctx} {op : Op} {s s' : Store D}

/-! ## What the validator checks beyond the books -/

/-- No redeem cap of the record is below the floor. -/
def AboveFloor (floor : Int) (inst : Institution) : Prop :=
  (inst.params.redeemCapsBelowFloor floor).isNone = true

structure Exportable (s : Store D) : Prop where
  started : 0 ≤ s.params.emergencyRedemption.startedAt
  clocks : ∀ id inst, s.getInstitution id = some inst → 0 ≤ inst.lastAttestedAt
  floors : ∀ id inst, s.getInstitution id = some inst →
    AboveFloor (capInt s.params.redeemFloorPerTx) inst
  requests : ∀ id, s.fxRequests.has id = true → s.institutions.has id = false

theorem exportable_fresh : Exportable (Store.fresh : Store D) where
  started := le_rfl
  clocks _ _ h := by cases h
  floors _ _ h := by cases h
  requests _ h := by cases h

/-- The step keeps what the genesis validator checks: block time does not precede 1970, no
registration takes the id of a pending fx request, and governance neither writes a negative
start of emergency nor raises the floor above a redeem cap in force. -/
def exportSafe (s : Store D) (ctx : Ctx) (op : Op) : Prop :=
  0 ≤ ctx.blockTime ∧
    match op with
    | .deliver (.register msg) _ => s.fxRequests.has msg.id = false
    | .deliver (.updateParams msg) _ =>
      0 ≤ msg.params.emergencyRedemption.startedAt ∧ ∀ id inst,
        s.getInstitution id = some inst → AboveFloor (capInt msg.params.redeemFloorPerTx) inst
    | _ => True

theorem nextEmergency_startedAt {em : EmergencyRedemption} {now : Int}
    {msg : MsgSetEmergencyRedemption} (hem : 0 ≤ em.startedAt) (hnow : 0 ≤ now) :
    0 ≤ (nextEmergency em now msg).startedAt := by
  unfold nextEmergency
  split
  · dsimp only
    split
    · exact hnow
    · exact hem
  · exact hem

/-- What becomes of the parameters. -/
theorem params_of_change (h : Change ctx op s s') :
    s'.params = s.params ∨
      (∃ msg, (∃ hrunning, op = .deliver (.updateParams msg) hrunning) ∧
        s'.params.toParams = msg.params) ∨
      ∃ msg, s'.params.toParams = { s.params.toParams with
        emergencyRedemption := nextEmergency s.params.emergencyRedemption ctx.blockTime msg } := by
  cases h with
  | record _ _ _ _ _ _ _ _ params => exact .inl params
  | params msg sent valid => exact .inr (.inl ⟨msg, sent, rfl⟩)
  | emergency msg p changed => exact .inr (.inr ⟨msg, changed⟩)
  | swept => exact .inl (beginBlock_keeps ctx s).1
  | approvals | registered | finalized | removed | requested | guaranteed | declined | granted |
    revoked | assigned => exact .inl rfl

/-- A new record has no caps. -/
theorem aboveFloor_new (floor : Int) (id admin : Bytes) (type : InstitutionType) (now : Int) :
    AboveFloor floor (newInstitution id admin type now) := by
  unfold AboveFloor InstitutionParams.redeemCapsBelowFloor
  split
  · rfl
  · -- an unset cap reads as zero
    have hzero : capInt [] = 0 := by decide
    simp [newInstitution, InstitutionParams.unset, Caps.unset, hzero]

variable {id : Bytes} {w w' : World D}

/-- A record is checked against the floor in force when it is written. -/
theorem aboveFloor_of_change (h : Change ctx op s s') (hs : Exportable s) {inst : Institution}
    (hget : s'.getInstitution id = some inst) :
    AboveFloor (capInt s.params.redeemFloorPerTx) inst := by
  cases record_of_change h hget with
  | same found => exact hs.floors _ _ found
  | successor old found successor =>
    rcases successor.params with hsame | ⟨-, hfloor⟩
    · unfold AboveFloor
      rw [hsame]
      exact hs.floors _ _ found
    · exact hfloor
  | registered msg sent basic idle new | finalized fxId req request idle new =>
    exact new ▸ aboveFloor_new _ _ _ _ _

section Step

variable (h : Change ctx op s s') (hs : Exportable s) (hsafe : exportSafe s ctx op)
include h hs hsafe

theorem Exportable.step_started : 0 ≤ s'.params.emergencyRedemption.startedAt := by
  rcases params_of_change h with hsame | ⟨msg, ⟨hrunning, rfl⟩, hparams⟩ | ⟨msg, hparams⟩
  · rw [hsame]
    exact hs.started
  · rw [hparams]
    exact hsafe.2.1
  · rw [hparams]
    exact nextEmergency_startedAt hs.started hsafe.1

theorem Exportable.step_clocks {inst : Institution}
    (hget : s'.getInstitution id = some inst) : 0 ≤ inst.lastAttestedAt := by
  cases record_of_change h hget with
  | same found => exact hs.clocks _ _ found
  | successor old found successor =>
    rcases successor.clock with hsame | hnow
    · rw [hsame]
      exact hs.clocks _ _ found
    · rw [hnow]
      exact hsafe.1
  | registered msg sent basic idle new | finalized fxId req request idle new => exact new ▸ hsafe.1

theorem Exportable.step_floors {inst : Institution} (hget : s'.getInstitution id = some inst) :
    AboveFloor (capInt s'.params.redeemFloorPerTx) inst := by
  have hfloor := aboveFloor_of_change h hs hget
  cases h with
  | params msg sent valid =>
    obtain ⟨hrunning, rfl⟩ := sent
    exact hsafe.2.2 id inst hget
  | emergency msg p changed =>
    have hsame : p.redeemFloorPerTx = s.params.redeemFloorPerTx := by rw [changed]
    rw [hsame]
    exact hfloor
  | record _ _ _ _ _ _ _ _ params =>
    rw [params]
    exact hfloor
  | swept =>
    rw [(beginBlock_keeps ctx s).1]
    exact hfloor
  | approvals | registered | finalized | removed | requested | guaranteed | declined | granted |
    revoked | assigned => exact hfloor

/-- A request and a record of one id do not meet. -/
theorem Exportable.step_requests (hreq : s'.fxRequests.has id = true) :
    s'.institutions.has id = false := by
  have hwritten : ∀ inst : Institution, inst.id ≠ id → s.institutions.has id = false →
      (s.setInstitution inst).institutions.has id = false := by
    intro inst hne hfresh
    refine OrdMap.has_eq_false.2 ?_
    exact (getInstitution_setInstitution s inst id).trans
      ((if_neg hne).trans (OrdMap.has_eq_false.1 hfresh))
  cases h with
  | record inst inst' found successor _ _ institutions _ _ _ _ fx =>
    rw [fx] at hreq
    rw [institutions]
    refine hwritten inst' (fun hid => ?_) (hs.requests id hreq)
    have hnone := OrdMap.has_eq_false.1 (hs.requests id hreq)
    rw [← hid, successor.id] at hnone
    cases hnone.symm.trans found
  | registered msg sent basic fresh idle =>
    obtain ⟨hrunning, rfl⟩ := sent
    refine hwritten _ (fun hid => ?_) (hs.requests id hreq)
    have hid : msg.id = id := hid
    cases (hid ▸ hsafe.2 : s.fxRequests.has id = false).symm.trans hreq
  | finalized fxId req named request fresh idle =>
    obtain ⟨hne, hold⟩ := OrdMap.has_erase.1 hreq
    exact hwritten _ hne (hs.requests id hold)
  | removed inst sent found =>
    refine OrdMap.has_eq_false.2 ?_
    refine (getInstitution_remove s inst.id id).trans ?_
    split
    · rfl
    · exact OrdMap.has_eq_false.1 (hs.requests id hreq)
  | requested msg sent basic fresh =>
    rcases OrdMap.has_put.1 hreq with rfl | hold
    · exact fresh
    · exact hs.requests id hold
  | guaranteed fxId req request =>
    rcases OrdMap.has_put.1 hreq with rfl | hold
    · exact hs.requests fxId (OrdMap.has_iff.2 ⟨req, request⟩)
    · exact hs.requests id hold
  | declined fxId => exact hs.requests id (OrdMap.has_of_erase hreq)
  | swept =>
    rw [(beginBlock_keeps ctx s).2.2.2.1] at hreq
    rw [(beginBlock_keeps ctx s).2.1]
    exact hs.requests id hreq
  | approvals | params | emergency | granted | revoked | assigned => exact hs.requests id hreq

theorem Exportable.step : Exportable s' where
  started := hs.step_started h hsafe
  clocks _ _ := hs.step_clocks h hsafe
  floors _ _ := hs.step_floors h hsafe
  requests _ := hs.step_requests h hsafe

end Step

theorem exportable_run (k : Keeper D) (hw : Exportable w.inst) {ops : List (Ctx × Op)}
    (hops : Along (advance k)
      (fun w op => isOk (perform k op.1 w op.2) = true → exportSafe w.inst op.1 op.2) w ops) :
    Exportable (run (advance k) w ops).inst := by
  refine @run_preserves _ _ (advance k) _ (fun w => Exportable w.inst) ?_ _ hw _ hops
  intro w op hsafe hexport
  rcases advance_cases k w op with hsame | hdone
  · rwa [hsame]
  · exact hexport.step (change_of_perform hdone) (hsafe (isOk_iff.2 ⟨_, hdone⟩))

/-! ## The validator accepts the export -/

/-- Counters are exported as integers. -/
theorem checkCounters {field : String} {first : Byte} {m : OrdMap Bytes Nat}
    (hm : ∀ key, m.has key = true → underPrefix first key = true) :
    checkEach Prod.fst (validateStoreEntry field (underPrefix first) fun v : Int => 0 ≤ v) []
      (m.entries.map fun e => (e.1, (e.2 : Int))) = .ok () := by
  refine checkStoreEntries ?_ fun e he => ?_
  · rw [List.map_map]
    exact m.nodup_keys
  · obtain ⟨⟨key, v⟩, hmem, rfl⟩ := List.mem_map.1 he
    exact ⟨hm key (OrdMap.has_iff.2 ⟨v, OrdMap.mem_entries.1 hmem⟩),
      decide_eq_true (Int.natCast_nonneg v)⟩

theorem nodup_filtered_keys {κ ν : Type} [LinearOrder κ] (m : OrdMap κ ν) (p : κ × ν → Bool) :
    ((m.entries.filter p).map Prod.fst).Nodup :=
  m.nodup_keys.sublist (List.filter_sublist.map Prod.fst)

/-- An id that is not exported as pending is not queued. -/
theorem not_pending_of_exported (hs : WellQueued s)
    (hid : id ∉ pendingRemovalSet s) : s.hasPendingRemoval id = false := by
  rw [Bool.eq_false_iff]
  intro hpending
  obtain ⟨x, hx⟩ := OrdMap.has_iff.1 hpending
  obtain ⟨id', hlen, hkey⟩ := hs _ hpending
  obtain rfl := removalQueueKey_inj hkey
  exact hid (List.mem_filterMap.2 ⟨_, OrdMap.mem_entries.2 hx,
    parseRemovalQueueKey_removalQueueKey hlen⟩)

theorem mem_exported_ids :
    id ∈ (exportGenesis s).institutions.map Institution.id ↔ s.institutions.has id = true := by
  simp only [exportGenesis, List.mem_map]
  constructor
  · rintro ⟨inst, ⟨⟨key, inst'⟩, hmem, rfl⟩, rfl⟩
    have hget : s.institutions.get? key = some inst' := OrdMap.mem_entries.1 hmem
    rw [Registry.id_of_get? hget]
    exact OrdMap.has_iff.2 ⟨inst', hget⟩
  · intro hhas
    obtain ⟨inst, hinst⟩ := OrdMap.has_iff.1 hhas
    have hget : s.institutions.get? id = some inst := hinst
    exact ⟨inst, ⟨(id, inst), OrdMap.mem_entries.2 hinst, rfl⟩, Registry.id_of_get? hget⟩

section Validate

variable (hs : Kept s) (he : Exportable s)
include hs he

theorem export_institutions :
    checkEach Institution.id (validateGenesisInstitution (capInt s.params.redeemFloorPerTx)) []
      (exportGenesis s).institutions = .ok () := by
  refine checkEach_of_nodup (fun inst hinst => ?_) (fun _ _ => List.not_mem_nil) ?_
  · obtain ⟨⟨id, inst⟩, hmem, rfl⟩ := List.mem_map.1 hinst
    have hget : s.getInstitution id = some inst := OrdMap.mem_entries.1 hmem
    have hkept := hs.records id inst hget
    simp only [validateGenesisInstitution, bind_eq_ok, ensure_eq_ok, exists_const]
    exact ⟨hkept.named, hkept.short, trivial, hkept.admin, hkept.type, hkept.vault, hkept.reserve,
      (), hkept.params, he.floors id inst hget⟩
  · -- each record is stored under its own id
    have hids : (exportGenesis s).institutions.map Institution.id =
        s.institutions.records.entries.map Prod.fst := by
      simp only [exportGenesis, List.map_map]
      refine List.map_congr_left fun e hmem => ?_
      exact Registry.id_of_get? (r := s.institutions) (OrdMap.mem_entries.1 hmem)
    rw [hids]
    exact s.institutions.records.nodup_keys

omit he in
theorem export_roleGrants :
    checkEach (fun e => (e.1, e.2.address))
      (validateGenesisRole ((exportGenesis s).institutions.map Institution.id)) []
      (exportGenesis s).roleGrants = .ok () := by
  refine checkEach_of_nodup (fun e hgrant => ?_) (fun _ _ => List.not_mem_nil) ?_
  · obtain ⟨⟨key, role⟩, hmem, rfl⟩ := List.mem_map.1 hgrant
    obtain ⟨hentry, hexported⟩ := List.mem_filter.1 hmem
    obtain ⟨howned, ⟨text, htext⟩, hknown⟩ := hs.roles key role (OrdMap.mem_entries.1 hentry)
    have hidle := not_pending_of_exported hs.queued (of_decide_eq_true hexported)
    have hreg : s.institutions.has key.institution = true :=
      howned.resolve_right fun hpending => Bool.eq_false_iff.1 hidle hpending
    have hself := accAddressFromBech32_accAddressString (accAddressFromBech32_ne_nil htext)
      (accAddressFromBech32_size htext).2
    simp only [validateGenesisRole, bind_eq_ok, ensure_eq_ok, exists_const, mem_exported_ids]
    exact ⟨hreg, by rw [hself]; rfl, hknown, trivial⟩
  · -- accounts have different strings, so the keys stay different
    simp only [exportGenesis, List.map_map]
    have hkeys : ((s.roles.entries.filter fun e => e.1.institution ∉ pendingRemovalSet s).map
        Prod.fst).Nodup := nodup_filtered_keys s.roles _
    refine (List.nodup_map_iff_inj_on (List.Nodup.of_map Prod.fst hkeys)).2 ?_
    rintro ⟨⟨i, a⟩, r⟩ he ⟨⟨i', a'⟩, r'⟩ he' heq
    simp only [Function.comp_apply, Prod.mk.injEq] at heq
    obtain ⟨rfl, htext⟩ := heq
    obtain rfl := accAddressString_inj htext
    exact List.inj_on_of_nodup_map hkeys he he' rfl

theorem export_fxRequests :
    checkEach Prod.fst
      (validateGenesisFxRequest ((exportGenesis s).institutions.map Institution.id)) []
      (exportGenesis s).fxRequests = .ok () := by
  refine checkEach_of_nodup (fun e hreq => ?_) (fun _ _ => List.not_mem_nil) ?_
  · obtain ⟨id, req⟩ := e
    have hget : s.fxRequests.get? id = some req := OrdMap.mem_entries.1 hreq
    have hkept := hs.requests id req hget
    have hfree := he.requests id (OrdMap.has_iff.2 ⟨req, hget⟩)
    simp only [validateGenesisFxRequest, bind_eq_ok, ensure_eq_ok, exists_const, mem_exported_ids,
      hfree]
    exact ⟨hkept.named, hkept.short, trivial, Bool.false_ne_true, hkept.applicant, hkept.guarantor,
      hkept.status⟩
  · exact s.fxRequests.nodup_keys

theorem export_valid : (exportGenesis s).validate = .ok () := by
  simp only [GenesisState.validate, bind_eq_ok, ensure_eq_ok, exists_const]
  refine ⟨(), s.params.valid, ?_, (), export_institutions hs he, (), export_roleGrants hs, (),
    export_fxRequests hs he, (), ?_, (), checkCounters hs.counters, (), ?_, (), ?_, (),
    checkCounters hs.subjects, (), ?_, ?_⟩
  · intro t ht
    rcases List.mem_cons.1 ht with rfl | hclock
    · exact he.started
    · obtain ⟨inst, hinst, rfl⟩ := List.mem_map.1 hclock
      obtain ⟨⟨id, inst⟩, hmem, rfl⟩ := List.mem_map.1 hinst
      exact he.clocks id inst (OrdMap.mem_entries.1 hmem)
  · refine checkStoreEntries s.deposits.nodup_keys fun e hmem => ?_
    obtain ⟨hkey, hvalue⟩ := hs.deposits e.1 e.2 (OrdMap.mem_entries.1 hmem)
    exact ⟨hkey, decide_eq_true hvalue⟩
  · exact checkStoreEntries (nodup_filtered_keys s.approvals _) fun _ _ => ⟨rfl, rfl⟩
  · exact checkStoreEntries s.adminEpochs.nodup_keys fun _ _ => ⟨rfl, rfl⟩
  · exact checkStoreEntries (nodup_filtered_keys s.kycTiers _) fun _ _ => ⟨rfl, rfl⟩
  · refine checkStoreEntries s.lastAttestors.nodup_keys fun e hmem => ?_
    obtain ⟨hnamed, text, htext⟩ := hs.attestors e.1 e.2 (OrdMap.mem_entries.1 hmem)
    exact ⟨decide_eq_true hnamed, decide_eq_true
      ⟨accAddressFromBech32_ne_nil htext, (accAddressFromBech32_size htext).2⟩⟩

end Validate

/-- In every run from the default genesis whose accepted steps are safe, the export is accepted. -/
theorem institutions_export_importable (k : Keeper D) (bank : Bank) (coin : Coin.Store)
    {ops : List (Ctx × Op)} (hops : Along (advance k)
      (fun w op => isOk (perform k op.1 w op.2) = true → exportSafe w.inst op.1 op.2)
      (startWorld bank coin) ops) :
    (exportGenesis (run (advance k) (startWorld bank coin) ops).inst).validate = .ok () :=
  export_valid (run_kept k kept_fresh ops) (exportable_run k exportable_fresh hops)

theorem institutions_export_importable_small :
    (exportGenesis (run (advance govKeeper) emptyStart
      [(smallCtx 1, registerSmall (accAddressString [1]))]).inst).validate = .ok () :=
  institutions_export_importable govKeeper ⟨∅, ∅⟩ ⟨Coin.defaultParams, ∅, ∅⟩
    ⟨fun _ => ⟨by decide, rfl⟩, trivial⟩

/-- Account 2 asks to onboard `x` under the guarantee of `a`. -/
def requestSmall : Op :=
  .deliver (.requestFx ⟨accAddressString [2], ascii "x", ascii "a"⟩) nofun

/-- The root admin of `a` caps a redemption at the default floor. -/
def capSmall : Op :=
  .deliver (.sensitive (.params ⟨accAddressString [1], ascii "a", { InstitutionParams.unset with
    caps := { Caps.unset with redeemPerTx := ascii "100000" } }⟩)) nofun

/-- Governance replaces the parameters. -/
def setParamsSmall (p : Params) : Op := .deliver (.updateParams ⟨accAddressString [9], p⟩) nofun

/-- Three runs of accepted messages whose exports are refused: an institution registered under
the id of a pending fx request, a floor raised above a cap in force, and a negative start of an
emergency that is not active. -/
theorem export_refused :
    let register := (smallCtx 1, registerSmall (accAddressString [1]))
    isOk (exportGenesis (run (advance govKeeper) emptyStart [register, (smallCtx 1, requestSmall),
        (smallCtx 1, .deliver (.register ⟨accAddressString [9], ascii "x", accAddressString [1],
          .financial⟩) nofun)]).inst).validate = false ∧
      isOk (exportGenesis (run (advance govKeeper) emptyStart [register, (smallCtx 1, capSmall),
        (smallCtx 1, setParamsSmall { defaultParams with
          redeemFloorPerTx := ascii "200000" })]).inst).validate = false ∧
      isOk (exportGenesis (run (advance govKeeper) emptyStart
        [(smallCtx 1, setParamsSmall { defaultParams with
          emergencyRedemption := ⟨false, -1, [], [], []⟩ })]).inst).validate = false := by
  refine ⟨?_, ?_, ?_⟩
  · decide +kernel
  · decide +kernel
  · decide +kernel

/-! ## The coin store of a chain step -/

/-- Every action of the chain leaves the state of x/coin alone or is one of its operations, so
the exports of x/coin along the chain are those of `Coin.coinStep`. -/
theorem coinOp_of_apply {k : Keeper D} {a : Action} (h : apply k ctx w a = .ok w') :
    w'.coin = w.coin ∨ ∃ op, Coin.applyCoin ctx w.coin op = .ok w'.coin := by
  cases a with
  | mint msg =>
    simp only [apply, MsgInstitutionMint.validateBasic, bind_eq_ok, ensure_eq_ok, pure_eq_ok,
      exists_const] at h
    obtain ⟨⟨⟩, ⟨-, hrecipient, -⟩, ⟨r, w''⟩, hmint, rfl⟩ := h
    rcases institutionMint_coin hmint with hsame | ⟨amount, hfit, heq⟩
    · exact .inl hsame
    · refine .inr ⟨.mint msg.recipient amount, ?_⟩
      simp only [Coin.applyCoin, bind_eq_ok, ensure_eq_ok, pure_eq_ok, exists_const]
      exact ⟨hrecipient, (), hfit, heq.symm⟩
  | redeem msg =>
    obtain ⟨burned, hredeem⟩ := apply_redeem_ok h
    obtain ⟨plan, split, coin, b, -, hprice, -, -, rfl⟩ := institutionRedeem_ok hredeem
    simp only [redeemPricing, bind_eq_ok, ensure_eq_ok, pure_eq_ok, exists_const] at hprice
    obtain ⟨⟨⟩, hfit, -, ⟨⟩, -, -, heq⟩ := hprice
    obtain ⟨-, rfl⟩ := Prod.mk.inj heq
    refine .inr ⟨.redeem msg.holder plan.uphi, ?_⟩
    simp only [Coin.applyCoin, bind_eq_ok, pure_eq_ok]
    exact ⟨(), hfit, trivial⟩
  | transfer msg =>
    simp only [apply, onCoin, bind_eq_ok, pure_eq_ok] at h
    obtain ⟨⟨⟩, hbasic, ⟨b, s⟩, htransfer, rfl⟩ := h
    refine .inr ⟨.transfer msg w.bank, ?_⟩
    simp only [Coin.applyCoin, bind_eq_ok, pure_eq_ok]
    exact ⟨(), hbasic, (b, s), htransfer, rfl⟩
  | deductFee payer deductFrom msgs =>
    simp only [apply, onCoin, bind_eq_ok, pure_eq_ok] at h
    obtain ⟨⟨b, s⟩, hfee, rfl⟩ := h
    refine .inr ⟨.deductFee payer deductFrom msgs w.bank, ?_⟩
    simp only [Coin.applyCoin, bind_eq_ok, pure_eq_ok]
    exact ⟨(b, s), hfee, rfl⟩
  | updateCoinParams msg =>
    simp only [apply, bind_eq_ok, pure_eq_ok] at h
    obtain ⟨s, hupdate, rfl⟩ := h
    exact .inr ⟨.updateParams k.authority msg, hupdate⟩
  | sensitive msg =>
    simp only [apply, bind_eq_ok, pure_eq_ok] at h
    obtain ⟨⟨⟩, -, r, -, rfl⟩ := h
    exact .inl rfl
  | beginBlock =>
    cases h
    exact .inr ⟨.prune, rfl⟩
  | restart =>
    left
    simp only [apply, initGenesis] at h
    split at h
    · cases h
    · simp only [bind_eq_ok, pure_eq_ok] at h
      obtain ⟨⟨⟩, -, s, -, ⟨⟩, -, rfl⟩ := h
      rfl
  | register | remove | freeze | attest | updateParams | setEmergency | requestFx | guaranteeFx
  | finalizeFx =>
    obtain ⟨s, -, rfl⟩ := onInstitutions_ok h
    exact .inl rfl
  | withdrawRevenue | slash | govBurn =>
    obtain ⟨b, -, rfl⟩ := onBank_ok h
    exact .inl rfl

end PhiChain.App
