import PhiChain.Identity.Window

/-!
# Identity: deposits of recovery requests

A social recovery puts a deposit into the module account when it is opened. It leaves the
account when the request is closed: to the initiator if the request is executed, to the fee
collector otherwise. `Settled` says of one message which requests it closes and how every
balance moves; `Book` counts openings and closings along a run.
-/

set_option autoImplicit false

namespace PhiChain.Identity

open Foundations Sdk

variable {k : Keeper} {env : Env} {w w' : World} {s : Store} {a : Action} {id : Bytes}
  {r : RecoveryRequest} {amount : Int} {sender recipient : Bytes} {b b' : Bank}

/-! ## Payments -/

/-- What a payment adds to the balance of an account. -/
def moved (amount : Int) (sender recipient addr : Bytes) : Int :=
  (if recipient = addr then amount else 0) - (if sender = addr then amount else 0)

/-- A payment in the base denomination leaves the supplies and moves the amount. -/
structure Pays (amount : Int) (sender recipient : Bytes) (b b' : Bank) : Prop where
  supply : ∀ d, b'.getSupply d = b.getSupply d
  balance : ∀ addr, b'.getBalance addr Coin.denom =
    b.getBalance addr Coin.denom + moved amount sender recipient addr

theorem pays_zero (sender recipient : Bytes) (b : Bank) : Pays 0 sender recipient b b := by
  refine ⟨fun d => rfl, fun addr => ?_⟩
  unfold moved
  split
  · split
    · omega
    · omega
  · split
    · omega
    · omega

theorem pays_of_send {acc : Accounts} (hpositive : 0 < amount)
    (h : Bank.sendCoins acc sender recipient (Coin.coinsOf amount) b = .ok b') :
    Pays amount sender recipient b b' := by
  refine ⟨fun d => Bank.sendCoins_supply h d, fun addr => ?_⟩
  unfold Coin.coinsOf at h
  rw [if_neg (ne_of_gt hpositive)] at h
  have hbalance := Bank.sendCoins_balance h addr
  dsimp only at hbalance
  unfold moved
  omega

/-- The amount that a request has in escrow. -/
def RecoveryRequest.deposit (r : RecoveryRequest) : Int := (newIntFromString r.depositUphi).getD 0

theorem positiveDeposit_eq_none (h : r.positiveDeposit = none) : r.deposit ≤ 0 := by
  unfold RecoveryRequest.positiveDeposit at h
  unfold RecoveryRequest.deposit
  cases hread : newIntFromString r.depositUphi with
  | none => exact le_refl 0
  | some amount =>
    rw [hread, Option.filter_eq_none_iff] at h
    exact not_lt.1 fun hpositive => h amount rfl (decide_eq_true hpositive)

theorem positiveDeposit_eq_some (h : r.positiveDeposit = some amount) :
    r.deposit = amount ∧ 0 < amount := by
  unfold RecoveryRequest.positiveDeposit at h
  obtain ⟨hread, hpositive⟩ := Option.filter_eq_some_iff.1 h
  refine ⟨?_, of_decide_eq_true hpositive⟩
  unfold RecoveryRequest.deposit
  rw [hread]
  rfl

/-- The account of the module, which holds the deposits. -/
def Env.vault (env : Env) : Bytes := env.accounts.moduleAddress .identity

def Env.collector (env : Env) : Bytes := env.accounts.moduleAddress .feeCollector

/-- A forfeited deposit goes to the fee collector. -/
theorem pays_of_forfeit (hsign : 0 ≤ r.deposit) (h : forfeitDeposit env r w = .ok w') :
    Pays r.deposit env.vault env.collector w.bank w'.bank := by
  unfold forfeitDeposit at h
  split at h
  · rename_i hnone
    cases h
    have hzero : r.deposit = 0 := le_antisymm (positiveDeposit_eq_none hnone) hsign
    rw [hzero]
    exact pays_zero _ _ _
  · rename_i amount hsome
    obtain ⟨hdeposit, hpositive⟩ := positiveDeposit_eq_some hsome
    simp only [bind_eq_ok, pure_eq_ok] at h
    obtain ⟨bank, hsend, rfl⟩ := h
    rw [hdeposit]
    exact pays_of_send hpositive hsend

/-- The initiator of a request, who is to become the controller. -/
def RecoveryRequest.initiator (r : RecoveryRequest) : Bytes :=
  (accAddressFromBech32 r.proposedNewController).getD []

/-- A refunded deposit goes to the initiator, who is not the module account. -/
theorem pays_of_refund (hsign : 0 ≤ r.deposit) (h : refundDeposit env r w = .ok w') :
    Pays r.deposit env.vault r.initiator w.bank w'.bank ∧
      (r.initiator ≠ env.vault ∨ r.deposit = 0) := by
  unfold refundDeposit at h
  split at h
  · rename_i hnone
    cases h
    have hzero : r.deposit = 0 := le_antisymm (positiveDeposit_eq_none hnone) hsign
    refine ⟨?_, Or.inr hzero⟩
    rw [hzero]
    exact pays_zero _ _ _
  · rename_i amount hsome
    obtain ⟨hdeposit, hpositive⟩ := positiveDeposit_eq_some hsome
    simp only [Bank.sendCoinsFromModuleToAccount, bind_eq_ok, orFail_eq_ok, ensure_eq_ok,
      exists_const, pure_eq_ok] at h
    obtain ⟨recipient, haddress, bank, ⟨hblocked, hsend⟩, rfl⟩ := h
    have hinitiator : r.initiator = recipient := by
      unfold RecoveryRequest.initiator
      rw [haddress]
      rfl
    rw [hdeposit, hinitiator]
    refine ⟨pays_of_send hpositive hsend, Or.inl fun hvault => ?_⟩
    unfold Accounts.blockedAddr at hblocked
    have hlisted := List.any_eq_false.1 hblocked .identity (by decide)
    exact hlisted (decide_eq_true ⟨by decide, hvault.symm⟩)

/-- Payments of a list of deposits to one account. -/
theorem balance_of_forfeited {rs : List RecoveryRequest} (h : Forfeited env rs w w')
    (hsign : ∀ r ∈ rs, 0 ≤ r.deposit) :
    (∀ d, w'.bank.getSupply d = w.bank.getSupply d) ∧
      ∀ addr, w'.bank.getBalance addr Coin.denom = w.bank.getBalance addr Coin.denom +
        (rs.map fun r => moved r.deposit env.vault env.collector addr).sum := by
  induction h with
  | nil w => exact ⟨fun d => rfl, fun addr => (add_zero _).symm⟩
  | @cons r rs w w₁ w₂ hpaid _ ih =>
    obtain ⟨hsupply, hbalance⟩ := ih fun r hr => hsign r (List.mem_cons_of_mem _ hr)
    have hfirst := pays_of_forfeit (hsign r List.mem_cons_self) hpaid
    refine ⟨fun d => (hsupply d).trans (hfirst.supply d), fun addr => ?_⟩
    have hrest := hbalance addr
    have hone := hfirst.balance addr
    dsimp only at hrest
    rw [List.map_cons, List.sum_cons]
    omega

/-! ## Deposits in the store -/

/-- The deposits of all stored requests. -/
def Store.deposits (s : Store) : Int :=
  OrdMap.total (fun _ r => r.deposit) s.recoveries.records

theorem deposits_set_new (h : s.getRecoveryRequest r.recoveryId = none) :
    (s.setRecoveryRequest r).deposits = s.deposits + r.deposit := by
  have hput := OrdMap.total_put_add (fun _ r => r.deposit) s.recoveries.records r.recoveryId r
  have hnone : s.recoveries.records.get? r.recoveryId = none := h
  rw [hnone, Option.elim_none, add_zero] at hput
  exact hput.trans (add_comm _ _)

/-- A request that is stored again with its deposit. -/
theorem deposits_set_same {prev : RecoveryRequest}
    (h : s.getRecoveryRequest r.recoveryId = some prev) (hsame : prev.deposit = r.deposit) :
    (s.setRecoveryRequest r).deposits = s.deposits := by
  have hput := OrdMap.total_put_add (fun _ r => r.deposit) s.recoveries.records r.recoveryId r
  have hsome : s.recoveries.records.get? r.recoveryId = some prev := h
  rw [hsome, Option.elim_some, hsame] at hput
  have hcancel : (s.setRecoveryRequest r).deposits + r.deposit = r.deposit + s.deposits := hput
  omega

theorem deposits_delete {stored : RecoveryRequest}
    (h : s.getRecoveryRequest r.recoveryId = some stored) :
    (s.deleteRecoveryRequest r).deposits = s.deposits - stored.deposit := by
  have herase : s.deposits = stored.deposit + (s.deleteRecoveryRequest r).deposits :=
    OrdMap.total_eq_erase (fun (_ : Bytes) (r : RecoveryRequest) => r.deposit) h
  omega

theorem deposits_dropAll {rs : List RecoveryRequest}
    (hstored : ∀ r ∈ rs, s.getRecoveryRequest r.recoveryId = some r)
    (hnodup : (rs.map RecoveryRequest.recoveryId).Nodup) :
    (s.dropAll rs).deposits = s.deposits - (rs.map RecoveryRequest.deposit).sum := by
  induction rs generalizing s with
  | nil => exact (sub_zero _).symm
  | cons r rest ih =>
    obtain ⟨hfirst, hrest⟩ := List.nodup_cons.1 hnodup
    have hdelete := deposits_delete (hstored r List.mem_cons_self)
    have hall := ih (s := s.deleteRecoveryRequest r) (by
      intro r' hr'
      rw [getRecoveryRequest_delete, if_neg ?_]
      · exact hstored r' (List.mem_cons_of_mem _ hr')
      · intro hid
        exact hfirst (hid ▸ List.mem_map_of_mem hr')) hrest
    have hstep : (s.dropAll (r :: rest)).deposits =
        ((s.deleteRecoveryRequest r).dropAll rest).deposits := rfl
    rw [hstep, hall, List.map_cons, List.sum_cons]
    omega

theorem deposits_putAll {rs : List RecoveryRequest}
    (hstored : ∀ r ∈ rs, ∃ prev, s.getRecoveryRequest r.recoveryId = some prev ∧
      prev.deposit = r.deposit)
    (hnodup : (rs.map RecoveryRequest.recoveryId).Nodup) :
    (s.putAll rs).deposits = s.deposits :=
  putAll_preserves (p := fun s' => s'.deposits = s.deposits)
    (fun _ _ _ hs hprev hsame => (deposits_set_same hprev hsame).trans hs) rfl hstored hnodup

/-! ## What a message settles -/

/-- The request that a message opens. -/
def opensNow (k : Keeper) (env : Env) (w : World) : Action → Option RecoveryRequest
  | .initiateRecovery msg => some (msg.request k env w.store.params)
  | _ => none

/-- A stored request is closed: it is stored no longer, or a new one takes its place. -/
def closesAt (k : Keeper) (env : Env) (w : World) (a : Action) (w' : World) (id : Bytes) : Bool :=
  (w.store.getRecoveryRequest id).isSome ∧
    ((w'.store.getRecoveryRequest id).isNone ∨
      (opensNow k env w a).any fun r => r.recoveryId = id)

/-- Who is paid the deposit of a request that a message closes. -/
def payee (env : Env) (a : Action) (r : RecoveryRequest) : Bytes :=
  match a with
  | .executeRecovery msg => if msg.recoveryId = r.recoveryId then r.initiator else env.collector
  | _ => env.collector

/-- What opening a request adds to the balance of an account: the deposit is put into escrow,
the fee of a re-authentication goes to the fee collector. -/
def charge (env : Env) (w : World) (a : Action) (addr : Bytes) : Int :=
  match a with
  | .initiateRecovery msg =>
    let initiator := (accAddressFromBech32 msg.creator).getD []
    if msg.method = .reauth then
      moved w.store.params.reauthRecoveryFee initiator env.collector addr
    else moved w.store.params.recoveryDeposit initiator env.vault addr
  | _ => 0

/-- A message closes the requests of a list and no others, pays each deposit out of the module
account once, and moves nothing else but the charge of an opening. -/
structure Settled (k : Keeper) (env : Env) (w : World) (a : Action) (w' : World)
    (closed : List RecoveryRequest) : Prop where
  distinct : (closed.map RecoveryRequest.recoveryId).Nodup
  closes : ∀ r, r ∈ closed ↔ w.store.getRecoveryRequest r.recoveryId = some r ∧
    closesAt k env w a w' r.recoveryId = true
  supply : ∀ d, w'.bank.getSupply d = w.bank.getSupply d
  balance : ∀ addr, w'.bank.getBalance addr Coin.denom = w.bank.getBalance addr Coin.denom +
    charge env w a addr + (closed.map fun r => moved r.deposit env.vault (payee env a r) addr).sum
  paidOut : env.collector ≠ env.vault → ∀ r ∈ closed, payee env a r ≠ env.vault ∨ r.deposit = 0
  held : w'.store.deposits = w.store.deposits +
    ((opensNow k env w a).map RecoveryRequest.deposit).getD 0 -
      (closed.map RecoveryRequest.deposit).sum

/-- A list of stored requests is the list of those closed when the others stay. -/
theorem closes_iff {closed : List RecoveryRequest}
    (hstored : ∀ r ∈ closed, w.store.getRecoveryRequest r.recoveryId = some r)
    (hgone : ∀ r ∈ closed, closesAt k env w a w' r.recoveryId = true)
    (hkept : ∀ id, (w.store.getRecoveryRequest id).isSome = true →
      id ∉ closed.map RecoveryRequest.recoveryId → closesAt k env w a w' id = false) (r : RecoveryRequest) :
    r ∈ closed ↔ w.store.getRecoveryRequest r.recoveryId = some r ∧
      closesAt k env w a w' r.recoveryId = true := by
  constructor
  · intro hr
    exact ⟨hstored r hr, hgone r hr⟩
  · rintro ⟨hget, hcloses⟩
    by_contra hout
    have hid : r.recoveryId ∉ closed.map RecoveryRequest.recoveryId := by
      intro hmem
      obtain ⟨r', hr', hid⟩ := List.mem_map.1 hmem
      have hget' := hstored r' hr'
      rw [hid, hget] at hget'
      cases hget'
      exact hout hr'
    rw [hkept r.recoveryId (by rw [hget]; rfl) hid] at hcloses
    cases hcloses

theorem charge_eq_zero (h : ∀ msg, a ≠ .initiateRecovery msg) (addr : Bytes) :
    charge env w a addr = 0 := by
  unfold charge
  split
  · rename_i msg
    exact absurd rfl (h msg)
  · rfl

theorem opensNow_eq_none (h : ∀ msg, a ≠ .initiateRecovery msg) : opensNow k env w a = none := by
  unfold opensNow
  split
  · rename_i msg
    exact absurd rfl (h msg)
  · rfl

theorem payee_eq_collector (h : ∀ msg, a ≠ .executeRecovery msg) (r : RecoveryRequest) :
    payee env a r = env.collector := by
  unfold payee
  split
  · rename_i msg
    exact absurd rfl (h msg)
  · rfl

/-- Without an opening a request is closed when it is removed. -/
theorem closesAt_eq (h : ∀ msg, a ≠ .initiateRecovery msg) (id : Bytes) :
    closesAt k env w a w' id =
      decide ((w.store.getRecoveryRequest id).isSome = true ∧
        (w'.store.getRecoveryRequest id).isNone = true) := by
  unfold closesAt
  rw [opensNow_eq_none h]
  refine decide_eq_decide.2 (and_congr_right fun _ => ?_)
  exact or_iff_left nofun

/-- A message that moves no coins and removes no request. -/
theorem settled_of_quiet (hopen : ∀ msg, a ≠ .initiateRecovery msg) (hbank : w'.bank = w.bank)
    (hkept : ∀ id, (w.store.getRecoveryRequest id).isSome = true →
      (w'.store.getRecoveryRequest id).isSome = true)
    (hheld : w'.store.deposits = w.store.deposits) : Settled k env w a w' [] := by
  have hnone : ∀ r : RecoveryRequest, r ∉ [] := fun r => List.not_mem_nil
  refine ⟨List.nodup_nil, closes_iff (fun r hr => absurd hr (hnone r))
    (fun r hr => absurd hr (hnone r)) ?_, ?_, ?_, fun _ r hr => absurd hr (hnone r), ?_⟩
  · intro id hsome _
    rw [closesAt_eq hopen]
    refine decide_eq_false fun h => ?_
    rw [Option.isNone_iff_eq_none] at h
    have hstays := hkept id hsome
    rw [h.2] at hstays
    cases hstays
  · intro d
    rw [hbank]
  · intro addr
    rw [hbank, charge_eq_zero hopen, List.map_nil, List.sum_nil, add_zero, add_zero]
  · rw [hheld, opensNow_eq_none hopen]
    show w.store.deposits = w.store.deposits + 0 - 0
    omega

/-- The requests of a list are removed with their deposits, and no supply changes. -/
structure Removed (w w' : World) (closed : List RecoveryRequest) : Prop where
  stored : ∀ r ∈ closed, w.store.getRecoveryRequest r.recoveryId = some r
  distinct : (closed.map RecoveryRequest.recoveryId).Nodup
  get : ∀ id, w'.store.getRecoveryRequest id =
    if id ∈ closed.map RecoveryRequest.recoveryId then none else w.store.getRecoveryRequest id
  supply : ∀ d, w'.bank.getSupply d = w.bank.getSupply d
  held : w'.store.deposits = w.store.deposits - (closed.map RecoveryRequest.deposit).sum

/-- A message that opens nothing closes the requests that it removes. -/
theorem settled_of_removed {closed : List RecoveryRequest}
    (hopen : ∀ msg, a ≠ .initiateRecovery msg) (hremoved : Removed w w' closed)
    (hbalance : ∀ addr, w'.bank.getBalance addr Coin.denom = w.bank.getBalance addr Coin.denom +
      (closed.map fun r => moved r.deposit env.vault (payee env a r) addr).sum)
    (hpaidOut : env.collector ≠ env.vault →
      ∀ r ∈ closed, payee env a r ≠ env.vault ∨ r.deposit = 0) :
    Settled k env w a w' closed := by
  refine ⟨hremoved.distinct, closes_iff hremoved.stored ?_ ?_, hremoved.supply, ?_, hpaidOut, ?_⟩
  · intro r hr
    rw [closesAt_eq hopen, hremoved.stored r hr, hremoved.get, if_pos (List.mem_map_of_mem hr)]
    rfl
  · intro id hsome hout
    rw [closesAt_eq hopen, hremoved.get, if_neg hout]
    refine decide_eq_false fun h => ?_
    rw [Option.isNone_iff_eq_none] at h
    rw [h.2] at hsome
    cases hsome
  · intro addr
    rw [hbalance, charge_eq_zero hopen, add_zero]
  · rw [hremoved.held, opensNow_eq_none hopen]
    show _ = w.store.deposits + 0 - _
    omega

/-- A message that closes requests and pays their deposits to the fee collector. -/
theorem settled_of_forfeits {closed : List RecoveryRequest}
    (hopen : ∀ msg, a ≠ .initiateRecovery msg) (hother : ∀ msg, a ≠ .executeRecovery msg)
    (hremoved : Removed w w' closed)
    (hbalance : ∀ addr, w'.bank.getBalance addr Coin.denom = w.bank.getBalance addr Coin.denom +
      (closed.map fun r => moved r.deposit env.vault env.collector addr).sum) :
    Settled k env w a w' closed := by
  refine settled_of_removed hopen hremoved ?_ ?_
  · intro addr
    rw [hbalance]
    simp only [payee_eq_collector hother]
  · intro hdifferent r _
    rw [payee_eq_collector hother]
    exact Or.inl hdifferent

/-- No stored request has a negative deposit. -/
def NoDebt (s : Store) : Prop := ∀ id r, s.getRecoveryRequest id = some r → 0 ≤ r.deposit

theorem settled_of_revoked {msg : MsgRevokeIdentity} {doc : DIDDocument} {w₁ : World}
    (hdebt : NoDebt w.store)
    (hclosed : Forfeited env
      ((w.store.recoveryRequestsForDID msg.did).filter fun r => r.status = .pending)
      { w with store := w.store.setIdentity env (doc.withStatus .revoked) } w₁) :
    Settled k env w (.revokeIdentity msg) { w₁ with store := w₁.store.releaseRevoked msg.did }
      ((w.store.recoveryRequestsForDID msg.did).filter fun r => r.status = .pending) := by
  obtain ⟨_, _, _, hrelease⟩ := releaseRevoked_eq w₁.store msg.did
  obtain ⟨hsupply, hbalance⟩ := balance_of_forfeited hclosed fun r hr =>
    hdebt _ r (stored_of_mem_filter hr)
  have hstore := hclosed.store
  have hnodup := filter_nodup w.store msg.did fun r => r.status = .pending
  refine settled_of_forfeits nofun nofun
    ⟨fun r hr => stored_of_mem_filter hr, hnodup, ?_, hsupply, ?_⟩ hbalance
  · intro id
    rw [hrelease]
    show w₁.store.getRecoveryRequest id = _
    rw [hstore]
    exact getRecoveryRequest_dropAll _ _ id
  · rw [hrelease]
    show w₁.store.deposits = _
    rw [hstore]
    exact deposits_dropAll (fun r hr => stored_of_mem_filter hr) hnodup

/-- One request is closed and its deposit forfeited. -/
theorem settled_of_forfeit {closing : RecoveryRequest} {w₀ w₁ : World}
    (hopen : ∀ msg, a ≠ .initiateRecovery msg) (hother : ∀ msg, a ≠ .executeRecovery msg)
    (hdebt : NoDebt w.store) (hget : w.store.getRecoveryRequest r.recoveryId = some r)
    (hid : closing.recoveryId = r.recoveryId) (hdeposit : closing.deposit = r.deposit)
    (hbank : w₀.bank = w.bank) (hrecoveries : w₀.store.recoveries = w.store.recoveries)
    (hpaid : forfeitDeposit env closing w₀ = .ok w₁) :
    Settled k env w a { w₁ with store := w₁.store.deleteRecoveryRequest closing } [r] := by
  have hpays := pays_of_forfeit (hdeposit ▸ hdebt _ r hget) hpaid
  have hstore := forfeitDeposit_store hpaid
  have hlookup : ∀ id, w₀.store.getRecoveryRequest id = w.store.getRecoveryRequest id := by
    intro id
    unfold Store.getRecoveryRequest
    rw [hrecoveries]
  rw [hdeposit, hbank] at hpays
  refine settled_of_forfeits hopen hother ⟨?_, List.nodup_singleton _, ?_, hpays.supply, ?_⟩ ?_
  · intro r' hr'
    rw [List.mem_singleton.1 hr']
    exact hget
  · intro id
    dsimp only
    rw [hstore, getRecoveryRequest_delete, hlookup, hid, List.map_singleton]
    simp only [List.mem_singleton, eq_comm]
  · have hstored : w₀.store.getRecoveryRequest closing.recoveryId = some r := by
      rw [hid, hlookup]
      exact hget
    have hbefore : w₀.store.deposits = w.store.deposits := by
      unfold Store.deposits
      rw [hrecoveries]
    dsimp only
    rw [hstore, deposits_delete hstored, hbefore, List.map_singleton, List.sum_singleton]
  · intro addr
    rw [List.map_singleton, List.sum_singleton]
    exact hpays.balance addr

/-- An execution refunds its request and forfeits the other open requests of the DID. -/
theorem settled_of_executed {msg : MsgExecuteRecovery} {doc : DIDDocument} {w₁ w₂ : World}
    {siblings : List RecoveryRequest} (hdebt : NoDebt w.store)
    (hget : w.store.getRecoveryRequest r.recoveryId = some r) (hid : msg.recoveryId = r.recoveryId)
    (hpaid : refundDeposit env r { w with store := w.store.setIdentity env (doc.recovered r) } =
      .ok w₁)
    (hleft : ∀ r' ∈ siblings, r'.recoveryId ≠ r.recoveryId ∧
      (w.store.deleteRecoveryRequest r).getRecoveryRequest r'.recoveryId = some r')
    (hdistinct : (siblings.map RecoveryRequest.recoveryId).Nodup)
    (hclosed : Forfeited env siblings { w₁ with store := w₁.store.deleteRecoveryRequest r } w₂) :
    Settled k env w (.executeRecovery msg) w₂ (r :: siblings) := by
  have hstore : w₂.store = ((w.store.setIdentity env (doc.recovered r)).deleteRecoveryRequest r
      ).dropAll siblings := by
    rw [hclosed.store]
    dsimp only
    rw [refundDeposit_store hpaid]
  have hmine : payee env (.executeRecovery msg) r = r.initiator := if_pos hid
  have hothers : ∀ r' ∈ siblings, payee env (.executeRecovery msg) r' = env.collector :=
    fun r' hr' => if_neg fun h => (hleft r' hr').1 (h.symm.trans hid)
  obtain ⟨hsupply, hbalance⟩ := balance_of_forfeited hclosed fun r' hr' =>
    hdebt _ r' (get_of_delete (hleft r' hr').2)
  obtain ⟨hpays, hpayee⟩ := pays_of_refund (hdebt _ r hget) hpaid
  refine settled_of_removed nofun
    ⟨?_, ?_, ?_, fun d => (hsupply d).trans (hpays.supply d), ?_⟩ ?_ ?_
  · intro r' hr'
    rcases List.mem_cons.1 hr' with rfl | hr'
    · exact hget
    · exact get_of_delete (hleft r' hr').2
  · rw [List.map_cons, List.nodup_cons]
    refine ⟨fun hmem => ?_, hdistinct⟩
    obtain ⟨r', hr', hsame⟩ := List.mem_map.1 hmem
    exact (hleft r' hr').1 hsame
  · intro id
    have hdelete := getRecoveryRequest_delete (w.store.setIdentity env (doc.recovered r)) r id
    rw [hstore, getRecoveryRequest_dropAll, hdelete, List.map_cons]
    by_cases hsame : r.recoveryId = id
    · simp [hsame]
    · simp only [if_neg hsame, List.mem_cons, Ne.symm hsame, false_or]
      rfl
  · have hdelete : ((w.store.setIdentity env (doc.recovered r)).deleteRecoveryRequest r).deposits =
        w.store.deposits - r.deposit := deposits_delete hget
    have hdrop := deposits_dropAll (s := (w.store.setIdentity env (doc.recovered r)
      ).deleteRecoveryRequest r) (fun r' hr' => (hleft r' hr').2) hdistinct
    rw [hstore, hdrop, hdelete, List.map_cons, List.sum_cons]
    omega
  · intro addr
    have hrest := hbalance addr
    have hfirst := hpays.balance addr
    have hsame : siblings.map (fun r' => moved r'.deposit env.vault
        (payee env (.executeRecovery msg) r') addr) =
        siblings.map fun r' => moved r'.deposit env.vault env.collector addr :=
      List.map_congr_left fun r' hr' => by rw [hothers r' hr']
    dsimp only at hrest hfirst
    rw [List.map_cons, List.sum_cons, hmine, hsame]
    omega
  · intro hdifferent r' hr'
    rcases List.mem_cons.1 hr' with rfl | hr'
    · rw [hmine]
      exact hpayee
    · rw [hothers r' hr']
      exact Or.inl hdifferent

/-! ## Openings -/

theorem natAbs_of_newIntFromString {text : Bytes} {v : Int} (h : newIntFromString text = some v) :
    v.natAbs < 2 ^ maxBitLen := by
  unfold newIntFromString at h
  split at h
  · split at h
    · cases h
      assumption
    · cases h
  · cases h

/-- Amounts that accepted parameters set. -/
structure FairParams (p : Params) : Prop where
  deposit : 0 ≤ p.recoveryDeposit
  fee : 0 ≤ p.reauthRecoveryFee

theorem validateAmount_ok {field : String} {text : Bytes} (h : validateAmount field text = .ok ()) :
    0 ≤ (newIntFromString text).getD 0 := by
  simp only [validateAmount, bind_eq_ok, orFail_eq_ok, ensure_eq_ok] at h
  obtain ⟨v, hread, hsign⟩ := h
  rw [hread]
  exact hsign

/-- A new request has the deposit in force, and none for a re-authentication. -/
theorem deposit_request {msg : MsgInitiateRecovery} {params : Params} (hfair : FairParams params) :
    (msg.request k env params).deposit =
      if msg.method = .reauth then 0 else params.recoveryDeposit := by
  have hbound : params.recoveryDeposit.natAbs < 2 ^ maxBitLen := by
    unfold Params.recoveryDeposit
    cases hread : newIntFromString params.recoveryDepositUphi with
    | none => decide
    | some v => exact natAbs_of_newIntFromString hread
  show (newIntFromString (intString (if msg.method = .reauth then 0 else params.recoveryDeposit))
    ).getD 0 = _
  split
  · decide
  · rw [newIntFromString_intString hfair.deposit hbound]
    rfl

/-- A charge is sent when it is positive, and is nothing otherwise. -/
theorem pays_of_collected {payer : Bytes} {collector : ModuleName} {amount : Int}
    (hnonneg : 0 ≤ amount)
    (h : (if 0 < amount then do
        let bank ← Bank.sendCoinsFromAccountToModule env.accounts payer collector
          (Coin.coinsOf amount) w.bank
        return { w with bank := bank }
      else .ok w) = Except.ok w') :
    Pays amount payer (env.accounts.moduleAddress collector) w.bank w'.bank := by
  split at h
  · rename_i hpositive
    simp only [bind_eq_ok, pure_eq_ok] at h
    obtain ⟨bank, hsend, rfl⟩ := h
    exact pays_of_send hpositive hsend
  · rename_i hzero
    cases h
    rw [le_antisymm (not_lt.1 hzero) hnonneg]
    exact pays_zero _ _ _

/-- The charge of an opening. -/
theorem pays_of_charge {msg : MsgInitiateRecovery} {initiator : Bytes}
    (hfair : FairParams w.store.params) (h : chargeInitiation env msg initiator w = .ok w') :
    if msg.method = .reauth then
      Pays w.store.params.reauthRecoveryFee initiator env.collector w.bank w'.bank
    else Pays w.store.params.recoveryDeposit initiator env.vault w.bank w'.bank := by
  unfold chargeInitiation at h
  split
  · rename_i hreauth
    rw [if_pos hreauth] at h
    exact pays_of_collected hfair.fee h
  · rename_i hsocial
    rw [if_neg hsocial] at h
    exact pays_of_collected hfair.deposit h

/-- An opening that drops some requests closes those, whether or not it takes the place of one. -/
theorem closes_of_opening {req : RecoveryRequest} {stale : List RecoveryRequest}
    (hopens : opensNow k env w a = some req)
    (hstored : ∀ r ∈ stale, w.store.getRecoveryRequest r.recoveryId = some r)
    (hfree : (w.store.dropAll stale).getRecoveryRequest req.recoveryId = none)
    (hlookup : ∀ id, w'.store.getRecoveryRequest id =
      if req.recoveryId = id then some req else (w.store.dropAll stale).getRecoveryRequest id)
    (r : RecoveryRequest) : r ∈ stale ↔ w.store.getRecoveryRequest r.recoveryId = some r ∧
      closesAt k env w a w' r.recoveryId = true := by
  refine closes_iff hstored ?_ ?_ r
  · intro r hr
    refine decide_eq_true ⟨by rw [hstored r hr]; rfl, ?_⟩
    rw [hopens]
    by_cases hsame : req.recoveryId = r.recoveryId
    · exact Or.inr (decide_eq_true hsame)
    · left
      rw [hlookup, if_neg hsame, getRecoveryRequest_dropAll, if_pos (List.mem_map_of_mem hr)]
      rfl
  · intro id hsome hout
    -- the identifier of the new request was free once the stale ones were gone
    have hother : req.recoveryId ≠ id := by
      intro hsame
      rw [hsame, getRecoveryRequest_dropAll, if_neg hout] at hfree
      rw [hfree] at hsome
      cases hsome
    refine decide_eq_false ?_
    rw [hopens]
    rintro ⟨-, hnone | hmine⟩
    · rw [hlookup, if_neg hother, getRecoveryRequest_dropAll, if_neg hout,
        Option.isNone_iff_eq_none] at hnone
      rw [hnone] at hsome
      cases hsome
    · exact hother (of_decide_eq_true hmine)

/-- What the initiator pays, as the charge of the message states it. -/
theorem balance_of_charge {msg : MsgInitiateRecovery} {initiator : Bytes}
    (hfair : FairParams w.store.params) (hparams : s.params = w.store.params)
    (hinitiator : accAddressFromBech32 msg.creator = some initiator) {bank : Bank}
    (h : chargeInitiation env msg initiator ⟨bank, s⟩ = .ok w') :
    (∀ d, w'.bank.getSupply d = bank.getSupply d) ∧
      ∀ addr, w'.bank.getBalance addr Coin.denom =
        bank.getBalance addr Coin.denom + charge env w (.initiateRecovery msg) addr := by
  have hcharge := pays_of_charge (w := ⟨bank, s⟩) (hparams ▸ hfair) h
  dsimp only at hcharge
  unfold charge
  dsimp only
  rw [hinitiator, Option.getD_some]
  rw [hparams] at hcharge
  split at hcharge
  · rename_i hreauth
    refine ⟨hcharge.supply, fun addr => ?_⟩
    rw [if_pos hreauth]
    exact hcharge.balance addr
  · rename_i hsocial
    refine ⟨hcharge.supply, fun addr => ?_⟩
    rw [if_neg hsocial]
    exact hcharge.balance addr

/-- An opening forfeits the expired requests of the DID and charges the initiator. -/
theorem settled_of_initiated {msg : MsgInitiateRecovery} {initiator : Bytes} {w₁ w₂ : World}
    (hdebt : NoDebt w.store) (hfair : FairParams w.store.params)
    (hclosed : Forfeited env
      ((w.store.recoveryRequestsForDID msg.did).filter (w.store.expired env)) w w₁)
    (hid : w₁.store.getRecoveryRequest (msg.request k env w.store.params).recoveryId = none)
    (hinitiator : accAddressFromBech32 msg.creator = some initiator)
    (hcharged : chargeInitiation env msg initiator w₁ = .ok w₂) :
    Settled k env w (.initiateRecovery msg)
      { w₂ with store := w₂.store.opened (msg.request k env w.store.params) }
      ((w.store.recoveryRequestsForDID msg.did).filter (w.store.expired env)) := by
  have hstored : ∀ r ∈ (w.store.recoveryRequestsForDID msg.did).filter (w.store.expired env),
      w.store.getRecoveryRequest r.recoveryId = some r := fun r hr => stored_of_mem_filter hr
  have hdistinct := filter_nodup w.store msg.did (w.store.expired env)
  generalize (w.store.recoveryRequestsForDID msg.did).filter (w.store.expired env) = stale
    at hclosed hstored hdistinct
  obtain ⟨_, _, _, hdrop⟩ := dropAll_eq w.store stale
  have hparams : w₁.store.params = w.store.params := by
    rw [hclosed.store, hdrop]
  have hstore : w₂.store = w.store.dropAll stale := by
    rw [chargeInitiation_store hcharged, hclosed.store]
  rw [hclosed.store] at hid
  obtain ⟨hsupply, hbalance⟩ := balance_of_forfeited hclosed fun r hr => hdebt _ r (hstored r hr)
  obtain ⟨hsupply', hbalance'⟩ := balance_of_charge hfair hparams hinitiator hcharged
  refine ⟨hdistinct, closes_of_opening rfl hstored hid fun id => ?_,
    fun d => (hsupply' d).trans (hsupply d), fun addr => ?_,
    fun hdifferent r _ => Or.inl hdifferent, ?_⟩
  · rw [← hstore]
    exact getRecoveryRequest_set _ _ id
  · have hforfeits := hbalance addr
    have hpayee : ∀ r, payee env (.initiateRecovery msg) r = env.collector := fun r => rfl
    simp only [hpayee]
    rw [hbalance' addr]
    omega
  · have hopened : (w₂.store.opened (msg.request k env w.store.params)).deposits =
        w₂.store.deposits + (msg.request k env w.store.params).deposit := by
      refine deposits_set_new ?_
      rw [hstore]
      exact hid
    have hdropped := deposits_dropAll (s := w.store) hstored hdistinct
    rw [← hstore] at hdropped
    rw [hopened, hdropped]
    show _ = w.store.deposits + (msg.request k env w.store.params).deposit - _
    omega

/-! ## Settlement of every message -/

theorem isSome_set (h : (s.getRecoveryRequest id).isSome = true) :
    ((s.setRecoveryRequest r).getRecoveryRequest id).isSome = true := by
  rw [getRecoveryRequest_set]
  split
  · rfl
  · exact h

theorem isSome_putAll {rs : List RecoveryRequest} (h : (s.getRecoveryRequest id).isSome = true) :
    ((s.putAll rs).getRecoveryRequest id).isSome = true := by
  induction rs generalizing s with
  | nil => exact h
  | cons r rest ih => exact ih (isSome_set h)

/-- A tally is stored with the deposit of its request. -/
theorem settled_of_tally {written : RecoveryRequest} (hopen : ∀ msg, a ≠ .initiateRecovery msg)
    (hget : w.store.getRecoveryRequest id = some r)
    (hsame : written.recoveryId = r.recoveryId ∧ written.deposit = r.deposit) :
    Settled k env w a { w with store := (w.store.syncTallyEpoch r).2.setRecoveryRequest written } [] := by
  obtain ⟨_, _, _, hsync⟩ := syncTallyEpoch_eq w.store r
  rw [hsync]
  refine settled_of_quiet hopen rfl (fun _ h => isSome_set h) ?_
  refine deposits_set_same ?_ hsame.2.symm
  rw [hsame.1, recoveryId_of_get hget]
  exact hget

theorem settled_of_event (hevent : Event k env w a w') (hdebt : NoDebt w.store)
    (hfair : FairParams w.store.params) : ∃ closed, Settled k env w a w' closed := by
  cases hevent with
  | registered | rekeyed | restated | issuerSet | issuerRevoked | reparametrised =>
    exact ⟨[], settled_of_quiet nofun rfl (fun _ h => h) rfl⟩
  | revoked msg doc w₁ hdoc hsigner hstanding hclosed => exact ⟨_, settled_of_revoked hdebt hclosed⟩
  | suspended | reinstated =>
    refine ⟨[], settled_of_quiet nofun rfl (fun _ h => isSome_putAll h) ?_⟩
    refine deposits_putAll (fun r' hr' => ?_) (rewritten_nodup _ _ _ fun _ => rfl)
    obtain ⟨r, hmem, -, rfl⟩ := mem_rewritten.1 hr'
    exact ⟨r, stored_of_mem hmem, rfl⟩
  | guarded msg doc =>
    obtain ⟨_, hguarded⟩ := guarded_eq w.store _
    rw [hguarded]
    exact ⟨[], settled_of_quiet nofun rfl (fun _ h => h) rfl⟩
  | initiated msg doc initiator w₁ w₂ hdoc hactive hfree hnonce hclosed hid hinitiator hcharged =>
    exact ⟨_, settled_of_initiated hdebt hfair hclosed hid hinitiator hcharged⟩
  | approved msg r hget | rejected msg r gs hget =>
    obtain ⟨_, _, _, hsync⟩ := syncTallyEpoch_eq w.store r
    exact ⟨[], settled_of_tally nofun hget (by rw [hsync]; exact ⟨rfl, rfl⟩)⟩
  | vetoed msg r gs w₁ hget _ _ _ _ _ hpaid =>
    obtain ⟨_, _, _, hsync⟩ := syncTallyEpoch_eq w.store r
    rw [← recoveryId_of_get hget] at hget
    refine ⟨[r], settled_of_forfeit nofun nofun hdebt hget ?_ ?_ ?_ ?_ hpaid⟩
    · rw [hsync]
      rfl
    · rw [hsync]
      rfl
    · rfl
    · rw [hsync]
  | executed msg r doc w₁ _ hget _ _ _ _ hdoc _ _ hpaid hclosed =>
    have hid := recoveryId_of_get hget
    rw [← hid] at hget
    refine ⟨_, settled_of_executed hdebt hget hid.symm hpaid ?_ (filter_nodup _ _ _) hclosed⟩
    intro r' hr'
    exact ⟨(of_decide_eq_true (List.mem_filter.1 hr').2).1, stored_of_mem_filter hr'⟩
  | cancelled msg r doc w₁ hget _ _ _ _ hpaid =>
    rw [← recoveryId_of_get hget] at hget
    exact ⟨[r], settled_of_forfeit nofun nofun hdebt hget rfl rfl rfl rfl hpaid⟩

/-! ## The module account along a run -/

theorem fairParams_of_validate {p : Params} (h : p.validate = .ok ()) : FairParams p := by
  simp only [Params.validate, bind_eq_ok, ensure_eq_ok, exists_const] at h
  obtain ⟨-, -, -, -, -, -, -, -, -, -, -, -, -, -, -, -, -, ⟨⟩, hdeposit, hfee⟩ := h
  exact ⟨validateAmount_ok hdeposit, validateAmount_ok hfee⟩

theorem fairParams_of_event (hevent : Event k env w a w') (h : FairParams w.store.params) :
    FairParams w'.store.params := by
  rcases (summary_of_event hevent).params with hsame | ⟨msg, -, -, hlatched⟩ | ⟨msg, rfl, -, hset⟩
  · rw [hsame]
    exact h
  · rw [hlatched]
    exact ⟨h.deposit, h.fee⟩
  · rw [hset]
    cases hevent with
    | reparametrised _ _ hvalid => exact fairParams_of_validate hvalid

theorem noDebt_of_event (hbasic : a.validateBasic = .ok ()) (hevent : Event k env w a w')
    (hfiled : Filed w.store) (hfair : FairParams w.store.params) (h : NoDebt w.store) :
    NoDebt w'.store := by
  intro id r hget
  cases origin_of_event hbasic hevent hfiled hget with
  | kept _ _ hstored => exact h _ r hstored
  | opened msg doc =>
    rw [deposit_request hfair]
    split
    · exact le_refl 0
    · exact hfair.deposit
  | frozen msg r' _ hstored | thawed msg r' _ hstored | tallied _ r' _ _ hstored =>
    exact h _ r' hstored

/-- A deposit that is not paid to the module account leaves it. -/
theorem moved_vault {vault other : Bytes} (h : other ≠ vault ∨ amount = 0) :
    moved amount vault other vault = -amount := by
  unfold moved
  rw [if_pos rfl]
  rcases h with hother | hzero
  · rw [if_neg hother]
    omega
  · rw [hzero]
    simp

/-- What an opening adds to the module account is the deposit of the new request. -/
theorem charge_vault (hevent : Event k env w a w') (hfair : FairParams w.store.params)
    (hmodules : env.collector ≠ env.vault)
    (hsigner : ∀ msg, a = .initiateRecovery msg → accAddressFromBech32 msg.creator ≠ some env.vault) :
    charge env w a env.vault = ((opensNow k env w a).map RecoveryRequest.deposit).getD 0 := by
  by_cases hopen : ∃ msg, a = .initiateRecovery msg
  · obtain ⟨msg, rfl⟩ := hopen
    cases hevent with
    | initiated _ doc initiator w₁ w₂ _ _ _ _ _ _ hinitiator =>
      have hother : initiator ≠ env.vault := fun h => hsigner msg rfl (h ▸ hinitiator)
      show (if msg.method = .reauth then _ else _) = (msg.request k env w.store.params).deposit
      rw [deposit_request hfair, hinitiator, Option.getD_some]
      unfold moved
      rw [if_neg hother, if_neg hother, if_neg hmodules, if_pos rfl, sub_zero, sub_zero]
  · rw [charge_eq_zero fun msg h => hopen ⟨msg, h⟩, opensNow_eq_none fun msg h => hopen ⟨msg, h⟩]
    rfl

/-- The deposits are in the module account, above what it held at the start. -/
structure Escrowed (vault : Bytes) (base : Int) (w : World) : Prop where
  filed : Filed w.store
  debt : NoDebt w.store
  fair : FairParams w.store.params
  holding : w.bank.getBalance vault Coin.denom = base + w.store.deposits

theorem escrowed_of_event {vault : Bytes} {base : Int} (hbasic : a.validateBasic = .ok ())
    (hevent : Event k env w a w') (hvault : env.vault = vault) (hmodules : env.collector ≠ vault)
    (hsigner : ∀ msg, a = .initiateRecovery msg → accAddressFromBech32 msg.creator ≠ some vault)
    (h : Escrowed vault base w) : Escrowed vault base w' := by
  refine ⟨filed_of_event hbasic hevent h.filed,
    noDebt_of_event hbasic hevent h.filed h.fair h.debt, fairParams_of_event hevent h.fair, ?_⟩
  subst hvault
  obtain ⟨closed, hsettled⟩ := settled_of_event hevent h.debt h.fair
  have hpaid : (closed.map fun r => moved r.deposit env.vault (payee env a r) env.vault).sum =
      -(closed.map RecoveryRequest.deposit).sum := by
    rw [List.sum_neg, List.map_map]
    exact congrArg List.sum (List.map_congr_left fun r hr =>
      moved_vault (hsettled.paidOut hmodules r hr))
  have hcharge := charge_vault hevent h.fair hmodules hsigner
  have hbalance := hsettled.balance env.vault
  have hheld := hsettled.held
  have hbefore := h.holding
  rw [hpaid, hcharge] at hbalance
  omega

/-- A world, and how often each identifier has been opened and closed. -/
structure Book where
  world : World
  opened : Bytes → Nat
  closed : Bytes → Nat

def bookStep (k : Keeper) (b : Book) (tx : Tx) : Book :=
  match apply k tx.env b.world tx.action with
  | .ok w' =>
    { world := w'
      opened := fun id =>
        b.opened id +
          if ((opensNow k tx.env b.world tx.action).any fun r => r.recoveryId = id) then 1 else 0
      closed := fun id =>
        b.closed id + if closesAt k tx.env b.world tx.action w' id then 1 else 0 }
  | .error _ => b

/-- Every opened request is stored, or has been closed once. -/
def Balanced (b : Book) : Prop :=
  ∀ id, b.opened id =
    b.closed id + if (b.world.store.getRecoveryRequest id).isSome then 1 else 0

/-- A request is stored after a message when it is opened, or was stored and is not closed. -/
theorem isSome_of_event (hbasic : a.validateBasic = .ok ()) (hevent : Event k env w a w')
    (hfiled : Filed w.store) (id : Bytes) :
    (((w.store.getRecoveryRequest id).isSome = true ∧ closesAt k env w a w' id = false) ∨
      ((opensNow k env w a).any fun r => r.recoveryId = id) = true) ↔
      (w'.store.getRecoveryRequest id).isSome = true := by
  constructor
  · rintro (⟨hsome, hstays⟩ | hopens)
    · by_contra hgone
      rw [Bool.not_eq_true, Option.isSome_eq_false_iff] at hgone
      unfold closesAt at hstays
      exact of_decide_eq_false hstays ⟨hsome, Or.inl hgone⟩
    · obtain ⟨o, ho, hid⟩ := (Option.any_eq_true _ _).1 hopens
      unfold opensNow at ho
      split at ho
      · cases ho
        have hget := get_of_initiated hevent
        rw [of_decide_eq_true hid] at hget
        rw [hget]
        rfl
      · cases ho
  · intro hsome
    obtain ⟨r', hget⟩ := Option.isSome_iff_exists.1 hsome
    by_cases hopens : ((opensNow k env w a).any fun r => r.recoveryId = id) = true
    · exact Or.inr hopens
    · refine Or.inl ⟨?_, ?_⟩
      · have hid := recoveryId_of_get hget
        subst hid
        cases origin_of_event hbasic hevent hfiled hget with
        | kept _ _ hstored =>
          rw [hstored]
          rfl
        | opened msg doc => exact absurd (decide_eq_true rfl) hopens
        | frozen msg r _ hstored | thawed msg r _ hstored | tallied _ r _ _ hstored =>
          exact Option.isSome_iff_exists.2 ⟨r, hstored⟩
      · unfold closesAt
        refine decide_eq_false ?_
        rintro ⟨-, hgone | hnew⟩
        · rw [hget] at hgone
          cases hgone
        · exact hopens hnew

/-- An entry that is there afterwards was opened, or was there and not closed. -/
theorem entry_count {before opened closed after : Bool}
    (hafter : (before = true ∧ closed = false ∨ opened = true) ↔ after = true)
    (hclosed : closed = true → before = true)
    (hreplaced : opened = true → before = true → closed = true) :
    (if before then 1 else 0) + (if opened then 1 else 0) =
      (if closed then 1 else 0) + if after then 1 else 0 := by
  revert before opened closed after
  decide

theorem balanced_of_event {b : Book} {tx : Tx} (happly : apply k tx.env b.world tx.action = .ok w')
    (hfiled : Filed b.world.store) (h : Balanced b) : Balanced (bookStep k b tx) := by
  obtain ⟨hbasic, hevent⟩ := event_of_apply happly
  intro id
  have hbefore := h id
  -- a request that is stored under the identifier of a new one is closed to make room
  have hcount := entry_count (isSome_of_event hbasic hevent hfiled id)
    (fun hcloses => (of_decide_eq_true hcloses).1)
    fun hopens hstored => decide_eq_true ⟨hstored, Or.inr hopens⟩
  unfold bookStep
  rw [happly]
  dsimp only
  omega

/-- Requests are filed and amounts fair in every state reached from an accepted genesis. -/
theorem filed_fair_of_run {gs : GenesisState} {bank : Bank} (h : initGenesis k env gs bank = .ok w)
    (txs : List Tx) :
    Filed (run (step k) w txs).store ∧ FairParams (run (step k) w txs).store.params := by
  refine @run_invariant _ _ (step k) (fun w => Filed w.store ∧ FairParams w.store.params) ?_ _ ?_ txs
  · intro w tx hw
    refine step_preserves (p := fun w => Filed w.store ∧ FairParams w.store.params) hw ?_
    intro w' hbasic hevent
    exact ⟨filed_of_event hbasic hevent hw.1, fairParams_of_event hevent hw.2⟩
  · exact ⟨(started_of_initGenesis h).1.filed,
      fairParams_of_validate (params_of_initGenesis h).1⟩

theorem deposits_eq_zero (h : ∀ id, s.getRecoveryRequest id = none) : s.deposits = 0 := by
  refine OrdMap.total_eq_zero fun id r hget => ?_
  have hnone : s.recoveries.records.get? id = none := h id
  rw [hnone] at hget
  cases hget

/-- The book of a run that starts without requests. -/
def Book.start (w : World) : Book := ⟨w, fun _ => 0, fun _ => 0⟩

/-- From any reached state without requests, along every run: the module account holds the
deposits of the stored requests above what it held at the start, every opened request is stored
or has been closed once, and every message pays the deposits of the requests it closes, to the
initiator of an executed request and otherwise to the fee collector, with all supplies unchanged. -/
theorem recovery_escrow_exact {gs : GenesisState} {bank : Bank} {before txs : List Tx}
    {vault collector : Bytes} (hgenesis : initGenesis k env gs bank = .ok w)
    (hnone : ∀ id, (run (step k) w before).store.getRecoveryRequest id = none)
    (hmodules : collector ≠ vault)
    (haccounts : ∀ tx ∈ txs, tx.env.vault = vault ∧ tx.env.collector = collector)
    (hsigners : ∀ tx ∈ txs, ∀ msg, tx.action = .initiateRecovery msg →
      accAddressFromBech32 msg.creator ≠ some vault) :
    (run (bookStep k) (Book.start (run (step k) w before)) txs).world.bank.getBalance vault
        Coin.denom =
      (run (step k) w before).bank.getBalance vault Coin.denom +
        (run (bookStep k) (Book.start (run (step k) w before)) txs).world.store.deposits ∧
    Balanced (run (bookStep k) (Book.start (run (step k) w before)) txs) ∧
    Along (bookStep k) (fun b tx => ∀ w', apply k tx.env b.world tx.action = .ok w' →
        ∃ closed, Settled k tx.env b.world tx.action w' closed)
      (Book.start (run (step k) w before)) txs := by
  obtain ⟨hfiled, hfair⟩ := filed_fair_of_run hgenesis before
  generalize run (step k) w before = w₀ at *
  have hstart : Escrowed vault (w₀.bank.getBalance vault Coin.denom) w₀ ∧
      Balanced (Book.start w₀) := by
    refine ⟨⟨hfiled, ?_, hfair, ?_⟩, ?_⟩
    · intro id r hget
      rw [hnone] at hget
      cases hget
    · rw [deposits_eq_zero hnone, add_zero]
    · intro id
      show 0 = 0 + if (w₀.store.getRecoveryRequest id).isSome then 1 else 0
      rw [hnone]
      rfl
  have hstep : ∀ (b : Book) (tx : Tx), (tx.env.vault = vault ∧ tx.env.collector = collector) ∧
      (∀ msg, tx.action = .initiateRecovery msg →
        accAddressFromBech32 msg.creator ≠ some vault) →
      Escrowed vault (w₀.bank.getBalance vault Coin.denom) b.world ∧ Balanced b →
      Escrowed vault (w₀.bank.getBalance vault Coin.denom) (bookStep k b tx).world ∧
        Balanced (bookStep k b tx) := by
    intro b tx hok hb
    cases happly : apply k tx.env b.world tx.action with
    | error e =>
      unfold bookStep
      rw [happly]
      exact hb
    | ok w' =>
      refine ⟨?_, balanced_of_event happly hb.1.filed hb.2⟩
      obtain ⟨hbasic, hevent⟩ := event_of_apply happly
      unfold bookStep
      rw [happly]
      exact escrowed_of_event hbasic hevent hok.1.1 (hok.1.2 ▸ hmodules) hok.2 hb.1
  have hrun : Along (bookStep k) (fun _ tx =>
      (tx.env.vault = vault ∧ tx.env.collector = collector) ∧
      (∀ msg, tx.action = .initiateRecovery msg → accAddressFromBech32 msg.creator ≠ some vault))
      (Book.start w₀) txs :=
    along_of_forall fun tx htx => ⟨haccounts tx htx, hsigners tx htx⟩
  obtain ⟨hescrowed, hbalanced⟩ := run_preserves hstep hstart hrun
  refine ⟨hescrowed.holding, hbalanced, ?_⟩
  refine along_of_invariant hstep ?_ hstart hrun
  intro b tx _ hb w' happly
  exact settled_of_event (event_of_apply happly).2 hb.1.debt hb.1.fair

/-- A genesis without requests starts without requests. -/
theorem none_of_initGenesis {gs : GenesisState} {bank : Bank}
    (h : initGenesis k env gs bank = .ok w) (hnone : gs.recoveryRequests = []) (id : Bytes) :
    w.store.getRecoveryRequest id = none := by
  cases hget : w.store.getRecoveryRequest id with
  | none => rfl
  | some r =>
    have hlisted := (started_of_initGenesis h).2 id r hget
    rw [hnone] at hlisted
    cases hlisted

/-- The small genesis with a deposit of five. -/
def depositGenesis : GenesisState :=
  guardedGenesis { smallParams with recoveryDepositUphi := ascii "5" }

/-- Account `[24]` has ten coins. -/
def depositBank : Bank := ((⟨∅, ∅⟩ : Bank).setBalance [24] Coin.denom 10).setSupply Coin.denom 10

def depositWorld : World := ⟨depositBank, importStore (smallEnv 10) depositGenesis⟩

/-- Two requests are opened, and the first is approved and executed: the second is forfeited. -/
def depositRun : List Tx :=
  [⟨smallEnv 100, recoverFirst 24 9⟩, ⟨smallEnv 101, recoverFirst 24 8⟩,
    ⟨smallEnv 102, approveFirst 22 2 9⟩, ⟨smallEnv 110, executeFirst 24 9⟩]

theorem recovery_escrow_exact_two_requests :
    ((run (bookStep recoveryKeeper) (Book.start depositWorld) depositRun).world.bank.getBalance
        [24] Coin.denom = 5 ∧
      (run (bookStep recoveryKeeper) (Book.start depositWorld) depositRun).world.bank.getBalance
        [1] Coin.denom = 5) ∧
    (run (bookStep recoveryKeeper) (Book.start depositWorld) depositRun).world.bank.getBalance [7]
        Coin.denom =
      depositWorld.bank.getBalance [7] Coin.denom +
        (run (bookStep recoveryKeeper) (Book.start depositWorld) depositRun).world.store.deposits ∧
    Balanced (run (bookStep recoveryKeeper) (Book.start depositWorld) depositRun) ∧
    Along (bookStep recoveryKeeper) (fun b tx => ∀ w',
        apply recoveryKeeper tx.env b.world tx.action = .ok w' →
          ∃ closed, Settled recoveryKeeper tx.env b.world tx.action w' closed)
      (Book.start depositWorld) depositRun := by
  have hgenesis : initGenesis recoveryKeeper (smallEnv 10) depositGenesis depositBank =
      .ok depositWorld := initGenesis_of_validate (by decide +kernel)
  have hnone : ∀ id, (run (step recoveryKeeper) depositWorld []).store.getRecoveryRequest id = none := by
    rw [run]
    exact none_of_initGenesis hgenesis rfl
  have hexact := @recovery_escrow_exact recoveryKeeper (smallEnv 10) depositWorld depositGenesis
    depositBank [] depositRun [7] [1] hgenesis hnone (by decide)
  rw [run] at hexact
  refine ⟨by decide +kernel, ?_⟩
  refine hexact ?_ ?_
  · intro tx htx
    simp only [depositRun, List.mem_cons, List.not_mem_nil, or_false] at htx
    rcases htx with rfl | rfl | rfl | rfl
    all_goals exact ⟨rfl, rfl⟩
  · intro tx htx msg haction
    simp only [depositRun, List.mem_cons, List.not_mem_nil, or_false] at htx
    rcases htx with rfl | rfl | rfl | rfl
    · cases haction
      decide +kernel
    · cases haction
      decide +kernel
    · cases haction
    · cases haction

end PhiChain.Identity
