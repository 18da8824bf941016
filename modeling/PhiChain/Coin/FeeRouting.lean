import Mathlib.Data.List.Induction
import PhiChain.Coin.Keeper
import PhiChain.Foundations.Shares

/-!
# The fixed-fee decorator

`anteHandle` is `FixedFeeDecorator.AnteHandle` with the mode flags of the ante chain, fee
grants and the events it emits. In a delivered transaction it does what `deductFee` does
(`deductFee_of_anteHandle`).

A message's fee is split by rounding the company's share down and leaving the rest to the
validators, so no unit is lost however many messages there are (`computeFeeSplit_ok`).
The decorator moves exactly these shares (`fee_routing_conserves`).
-/

set_option autoImplicit false

namespace PhiChain.Coin

open Foundations Sdk

/-! ## The decorator -/

/-- What the decorator reads of a transaction. -/
structure FeeTx where
  feePayer : Bytes
  feeGranter : Option Bytes
  msgs : List FeeMsg

/-- The keepers of x/auth and x/feegrant as the decorator calls them. An application may have
no x/feegrant keeper. -/
structure FeeKeepers where
  feeCollectorSet : Bool
  hasAccount : Bytes → Bool
  useGrantedFees : Option (Bytes → Bytes → Coins → List FeeMsg → Result Unit)

/-- What an accepted transaction leaves: the stores, and the events with the fee, the account
charged and the legs of the revenue. -/
structure FeeReceipt where
  bank : Bank
  store : Store
  fee : Int
  deductFrom : Bytes
  revenueCollected : List RevenueLeg

/-- The account charged. A grant is used only for a positive fee, and needs no allowance where
the granter is the payer. -/
def chargedAccount (k : FeeKeepers) (tx : FeeTx) (required : Int) : Result Bytes :=
  match tx.feeGranter with
  | some feeGranter =>
    if 0 < required then do
      let useGrantedFees ← orFail k.useGrantedFees ⟨.invalidRequest, "fee grants are not enabled"⟩
      if feeGranter = tx.feePayer then
        return feeGranter
      else
        useGrantedFees feeGranter tx.feePayer (coinsOf required) tx.msgs
        return feeGranter
    else return tx.feePayer
  | none => return tx.feePayer

/-- Both legs of a positive fee. -/
def routeFee (ctx : Ctx) (deductFrom : Bytes) (split : FeeSplit) (b : Bank) : Result Bank := do
  if 0 < split.total then
    let b ← payLeg ctx deductFrom .feeCollector split.validator b
    payLeg ctx deductFrom .phiRevenue split.company b
  else
    return b

/-- The fee a transaction owes: none where it is exempt. -/
def requiredSplit (exempt : Bool) (p : Params) (msgs : List FeeMsg) : Result FeeSplit :=
  if exempt then .ok newFeeSplit else p.computeFeeSplit msgs

/-- Fixed-fee decorator. The quota of an exempt transaction is used up only where the
transaction is delivered. -/
def anteHandle (k : FeeKeepers) (ctx : Ctx) (simulate isCheckTx : Bool) (tx : FeeTx) (b : Bank)
    (s : Store) : Result FeeReceipt := do
  ensure (k.feeCollectorSet = true)
    ⟨.unregistered, "fee collector module account has not been set"⟩
  let payer := accAddressString tx.feePayer
  let exempt := isMicroExempt ctx s payer tx.msgs
  let split ← requiredSplit exempt s.params tx.msgs
  let deductFrom ← chargedAccount k tx split.total
  ensure (k.hasAccount deductFrom = true)
    ⟨.unknownAddress, "fee payer address does not exist"⟩
  let b ← routeFee ctx deductFrom split b
  let s := if exempt && !simulate && !isCheckTx then consumeMicroExemption ctx s payer else s
  return ⟨b, s, split.total, deductFrom, split.legs⟩

section Decorator

variable {k : FeeKeepers} {ctx : Ctx} {simulate isCheckTx : Bool} {tx : FeeTx} {b : Bank}
  {s : Store} {r : FeeReceipt}

/-- Everything an accepted transaction says about the decorator's run. -/
theorem anteHandle_ok (h : anteHandle k ctx simulate isCheckTx tx b s = .ok r) :
    ∃ split,
      requiredSplit (isMicroExempt ctx s (accAddressString tx.feePayer) tx.msgs) s.params tx.msgs =
        .ok split ∧
      chargedAccount k tx split.total = .ok r.deductFrom ∧
      routeFee ctx r.deductFrom split b = .ok r.bank ∧
      r.fee = split.total ∧ r.revenueCollected = split.legs ∧
      r.store =
        if isMicroExempt ctx s (accAddressString tx.feePayer) tx.msgs && !simulate && !isCheckTx
        then consumeMicroExemption ctx s (accAddressString tx.feePayer) else s := by
  simp only [anteHandle, bind_eq_ok, ensure_eq_ok, pure_eq_ok, exists_const] at h
  obtain ⟨-, split, hsplit, deductFrom, hcharged, -, b', hroute, rfl⟩ := h
  exact ⟨split, hsplit, hcharged, hroute, rfl, rfl, rfl⟩

/-- The payer is charged, or the granter of a grant that is used. -/
theorem chargedAccount_eq {required : Int} {deductFrom : Bytes}
    (h : chargedAccount k tx required = .ok deductFrom) :
    deductFrom = if 0 < required then tx.feeGranter.getD tx.feePayer else tx.feePayer := by
  unfold chargedAccount at h
  cases hgranter : tx.feeGranter with
  | none =>
    rw [hgranter] at h
    cases h
    simp
  | some feeGranter =>
    rw [hgranter] at h
    dsimp only at h
    split at h
    · rename_i hpositive
      rw [if_pos hpositive]
      obtain ⟨useGrantedFees, -, h⟩ := bind_eq_ok.1 h
      split at h
      · cases h
        rfl
      · obtain ⟨⟨⟩, -, h⟩ := bind_eq_ok.1 h
        cases h
        rfl
    · rename_i hnone
      cases h
      rw [if_neg hnone]

/-- On a delivered transaction the decorator is `deductFee` on the account charged. -/
theorem deductFee_of_anteHandle (h : anteHandle k ctx false false tx b s = .ok r) :
    deductFee ctx tx.feePayer r.deductFrom tx.msgs b s = .ok (r.bank, r.store) := by
  obtain ⟨split, hsplit, -, hroute, -, -, hstore⟩ := anteHandle_ok h
  unfold deductFee
  cases hexempt : isMicroExempt ctx s (accAddressString tx.feePayer) tx.msgs with
  | true =>
    rw [hexempt] at hsplit
    cases hsplit
    cases hroute
    rw [if_pos rfl, hstore, hexempt]
    rfl
  | false =>
    rw [hexempt] at hsplit hstore
    rw [if_neg Bool.false_ne_true, hstore]
    refine bind_eq_ok.2 ⟨split, hsplit, ?_⟩
    unfold routeFee at hroute
    split at hroute
    · rename_i hpositive
      obtain ⟨b₁, hvalidator, hcompany⟩ := bind_eq_ok.1 hroute
      rw [if_pos hpositive]
      exact bind_eq_ok.2 ⟨b₁, hvalidator, bind_eq_ok.2 ⟨r.bank, hcompany, rfl⟩⟩
    · rename_i hnone
      cases hroute
      rw [if_neg hnone]
      rfl

end Decorator

/-! ## Fees of accepted parameters -/

section Fees

variable {p : Params}

theorem splits_of_validate {splits : List SplitEntry} {seen : List Bytes}
    (h : validateSplits splits seen = .ok ()) :
    ∀ entry ∈ splits, (entry.validatorBps : Int) + entry.companyBps ≤ bpsDenominator := by
  induction splits generalizing seen with
  | nil => exact fun _ hmem => absurd hmem List.not_mem_nil
  | cons head rest ih =>
    simp only [validateSplits, bind_eq_ok, ensure_eq_ok, exists_const] at h
    obtain ⟨-, -, hshares, hrest⟩ := h
    intro entry hmem
    rcases List.mem_cons.1 hmem with rfl | hmem
    · exact hshares
    · exact ih hrest entry hmem

/-- What acceptance says about the fee and split tables. -/
theorem tables_of_validate (h : p.validate = .ok ()) :
    (∃ v, newIntFromString p.defaultFee = some v ∧ 0 < v) ∧
      (∀ entry ∈ p.fees, ∃ v, newIntFromString entry.fee = some v ∧ 0 ≤ v) ∧
      ∀ entry ∈ p.splits, (entry.validatorBps : Int) + entry.companyBps ≤ bpsDenominator := by
  simp only [Params.validate, bind_eq_ok, ensure_eq_ok, forM_eq_ok, exists_const] at h
  obtain ⟨hdefault, -, -, hfees, -, -, -, -, ⟨⟩, hsplits, -⟩ := h
  refine ⟨?_, fun entry hmem => ?_, splits_of_validate hsplits⟩
  · obtain ⟨v, hread, hpositive⟩ := (Option.any_eq_true _ _).1 hdefault
    exact ⟨v, hread, of_decide_eq_true hpositive⟩
  · have hfee := hfees entry hmem
    simp only [validateFee, bind_eq_ok, ensure_eq_ok, exists_const] at hfee
    obtain ⟨v, hread, hnonneg⟩ := (Option.any_eq_true _ _).1 hfee.2
    exact ⟨v, hread, of_decide_eq_true hnonneg⟩

theorem feeFor_nonneg (h : p.validate = .ok ()) (msgTypeURL : Bytes) : 0 ≤ p.feeFor msgTypeURL := by
  obtain ⟨⟨default, hdefault, hpositive⟩, hfees, -⟩ := tables_of_validate h
  unfold Params.feeFor
  split
  · rename_i v hfound
    obtain ⟨entry, hmem, hread⟩ := List.exists_of_findSome?_eq_some hfound
    obtain ⟨w, hfee, hnonneg⟩ := hfees entry (List.mem_of_mem_filter hmem)
    rw [hfee] at hread
    rwa [← Option.some.inj hread]
  · rw [hdefault]
    exact hpositive.le

/-- The extra fee for every signer of an agreement above the free ones, as a number. -/
def Params.surcharge (p : Params) (m : FeeMsg) : Int :=
  if m.typeURL = msgCreateAgreementTypeURL then
    max 0 ((newIntFromString p.agreementExtraSignerFee).getD 0) *
      ((m.requiredSigners.getD 0 - p.agreementFreeSigners : Nat) : Int)
  else 0

/-- What a message owes: its table fee and its surcharge. -/
def Params.owed (p : Params) (m : FeeMsg) : Int := p.feeFor m.typeURL + p.surcharge m

theorem agreementSurcharge_eq (p : Params) (m : FeeMsg) :
    p.agreementSurcharge m = checkedInt (p.surcharge m) := by
  have hzero : checkedInt 0 = .ok 0 := rfl
  unfold Params.agreementSurcharge Params.surcharge
  cases m.requiredSigners with
  | none => simp [hzero]
  | some signers =>
    by_cases hurl : m.typeURL = msgCreateAgreementTypeURL
    · by_cases hover : p.agreementFreeSigners < signers
      · cases newIntFromString p.agreementExtraSignerFee with
        | none => simp [hzero]
        | some extra =>
          rcases lt_or_ge 0 extra with hpos | hneg
          · have hcount : ((signers - p.agreementFreeSigners : Nat) : Int) =
                signers - p.agreementFreeSigners := by omega
            simp [hurl, hover, hpos, hpos.le, hcount, intMul]
          · simp [hurl, hover, not_lt.2 hneg, hneg, hzero]
      · have hnone : signers - p.agreementFreeSigners = 0 := by omega
        simp [hurl, hover, hnone, hzero]
    · simp [hurl, hzero]

theorem surcharge_nonneg (p : Params) (m : FeeMsg) : 0 ≤ p.surcharge m := by
  unfold Params.surcharge
  split
  · exact mul_nonneg (le_max_left 0 _) (Int.natCast_nonneg _)
  · exact le_refl 0

theorem owed_nonneg (h : p.validate = .ok ()) (m : FeeMsg) : 0 ≤ p.owed m :=
  add_nonneg (feeFor_nonneg h m.typeURL) (surcharge_nonneg p m)

/-- The fee of a message is what it owes, where that fits. -/
theorem feeForMsg_eq (h : p.validate = .ok ()) (m : FeeMsg) :
    p.feeForMsg m = checkedInt (p.owed m) := by
  unfold Params.feeForMsg
  rw [agreementSurcharge_eq]
  by_cases hfit : Fits (p.surcharge m)
  · rw [checkedInt_eq_ok.2 ⟨hfit, rfl⟩]
    rfl
  · -- the table fee only adds to the surcharge
    have howed : ¬ Fits (p.owed m) := by
      have htable := feeFor_nonneg h m.typeURL
      exact fun howed => hfit (fits_of_le (surcharge_nonneg p m) (by unfold Params.owed; omega) howed)
    unfold checkedInt
    rw [if_neg hfit, if_neg howed]
    rfl

theorem companyBps_le (h : p.validate = .ok ()) (msgTypeURL : Bytes) :
    ((p.splitFor msgTypeURL).companyBps : Int) ≤ bpsDenominator := by
  obtain ⟨-, -, hsplits⟩ := tables_of_validate h
  unfold Params.splitFor
  cases hfound : p.splits.find? fun s => s.msgTypeUrl = msgTypeURL with
  | none => exact bpsDenominator_pos.le
  | some entry =>
    have := hsplits entry (List.mem_of_find?_eq_some hfound)
    rw [Option.getD_some]
    omega

theorem share_bounds (h : p.validate = .ok ()) (msgTypeURL : Bytes) {fee : Int} (hfee : 0 ≤ fee) :
    0 ≤ share bpsDenominator fee (p.splitFor msgTypeURL).companyBps ∧
      share bpsDenominator fee (p.splitFor msgTypeURL).companyBps ≤ fee :=
  ⟨share_nonneg bpsDenominator_pos.le hfee (by omega),
    share_le_self bpsDenominator_pos hfee (companyBps_le h msgTypeURL)⟩

/-- A fee is shared out where its product with the company's share fits. -/
theorem companyShare_ok (h : p.validate = .ok ()) (msgTypeURL : Bytes) {fee : Int}
    (hfee : 0 < fee) (hfit : Fits fee) {parts : Int × Int} :
    (p.splitFor msgTypeURL).companyShare fee = .ok parts ↔
      Fits (fee * (p.splitFor msgTypeURL).companyBps) ∧
        (share bpsDenominator fee (p.splitFor msgTypeURL).companyBps,
          fee - share bpsDenominator fee (p.splitFor msgTypeURL).companyBps) = parts := by
  obtain ⟨hlow, hhigh⟩ := share_bounds h msgTypeURL hfee.le
  have hrest := fits_of_le (sub_nonneg.2 hhigh) (sub_le_self fee hlow) hfit
  have hcompany : quo (fee * (p.splitFor msgTypeURL).companyBps) bpsDenominator =
      share bpsDenominator fee (p.splitFor msgTypeURL).companyBps :=
    quo_of_nonneg (mul_nonneg hfee.le (by omega))
  simp only [SplitEntry.companyShare, bind_eq_ok, intMul_eq_ok, intSub_eq_ok, pure_eq_ok]
  constructor
  · rintro ⟨num, ⟨hnum, rfl⟩, validator, ⟨-, rfl⟩, rfl⟩
    rw [hcompany]
    exact ⟨hnum, rfl⟩
  · rintro ⟨hnum, rfl⟩
    refine ⟨_, ⟨hnum, rfl⟩, _, ⟨?_, rfl⟩, ?_⟩
    · rwa [hcompany]
    · rw [hcompany]

end Fees

/-! ## The split of a list of messages -/

/-- The share of a stream. -/
def FeeSplit.share (out : FeeSplit) : RevenueStream → Int
  | .validator => out.validator
  | .company => out.company

/-- Sum of the legs of a stream. -/
def sumLegs (legs : List RevenueLeg) (stream : RevenueStream) : Int :=
  ((legs.filter fun leg => leg.stream = stream).map RevenueLeg.amount).sum

/-- No unit of the messages' fees is lost: the streams share out the total, which is the sum of
the table fees and surcharges, and the legs account for each stream. -/
structure FeeSplit.Conserves (out : FeeSplit) (p : Params) (msgs : List FeeMsg) : Prop where
  validator_nonneg : 0 ≤ out.validator
  company_nonneg : 0 ≤ out.company
  streams : out.validator + out.company = out.total
  total : out.total = (msgs.map p.owed).sum
  legs : ∀ stream, sumLegs out.legs stream = out.share stream

theorem sumLegs_append (legs legs' : List RevenueLeg) (stream : RevenueStream) :
    sumLegs (legs ++ legs') stream = sumLegs legs stream + sumLegs legs' stream := by
  simp [sumLegs]

/-- A leg counts for its own stream only. A share of zero has no leg. -/
theorem sumLegs_revenueLeg (msgTypeURL : Bytes) (own stream : RevenueStream) {amount : Int}
    (h : 0 ≤ amount) :
    sumLegs (revenueLeg msgTypeURL own amount) stream = if own = stream then amount else 0 := by
  unfold revenueLeg
  split
  · by_cases hown : own = stream
    · simp [sumLegs, hown]
    · simp [sumLegs, hown]
  · have hzero : amount = 0 := by omega
    simp [sumLegs, hzero]

/-- The amounts that the split of a list of messages computes fit: the whole of the fees, and
each fee times the company's share of it. -/
def Params.FeesFit (p : Params) (msgs : List FeeMsg) : Prop :=
  Fits (msgs.map p.owed).sum ∧
    ∀ m ∈ msgs, Fits (p.owed m * (p.splitFor m.typeURL).companyBps)

section Split

variable {p : Params} {msgs : List FeeMsg} {m : FeeMsg} {out out' : FeeSplit}

theorem sum_owed_concat (p : Params) (msgs : List FeeMsg) (m : FeeMsg) :
    ((msgs ++ [m]).map p.owed).sum = (msgs.map p.owed).sum + p.owed m := by
  rw [List.map_append, List.sum_append, List.map_singleton, List.sum_singleton]

theorem feesFit_concat (h : p.validate = .ok ()) (hfit : p.FeesFit (msgs ++ [m])) :
    p.FeesFit msgs := by
  obtain ⟨htotal, hproducts⟩ := hfit
  have hsum : 0 ≤ (msgs.map p.owed).sum := by
    apply List.sum_nonneg
    intro v hv
    obtain ⟨m', -, rfl⟩ := List.mem_map.1 hv
    exact owed_nonneg h m'
  have hlast := owed_nonneg h m
  rw [sum_owed_concat] at htotal
  exact ⟨fits_of_le hsum (by omega) htotal,
    fun m' hmem => hproducts m' (List.mem_append_left _ hmem)⟩

/-- One more message: its fee is added, where that is positive, and everything computed fits. -/
theorem addMsgFee_conserves (h : p.validate = .ok ()) (hout : out.Conserves p msgs)
    (hfit : p.FeesFit msgs) (hadd : p.addMsgFee out m = .ok out') :
    out'.Conserves p (msgs ++ [m]) ∧ p.FeesFit (msgs ++ [m]) := by
  have hsum := sum_owed_concat p msgs m
  obtain ⟨fee, hfee, hadd⟩ := bind_eq_ok.1 hadd
  rw [feeForMsg_eq h] at hfee
  obtain ⟨howed, rfl⟩ := checkedInt_eq_ok.1 hfee
  have hproducts (hm : Fits (p.owed m * (p.splitFor m.typeURL).companyBps)) :
      ∀ m' ∈ msgs ++ [m], Fits (p.owed m' * (p.splitFor m'.typeURL).companyBps) := by
    intro m' hmem
    rcases List.mem_append.1 hmem with hmem | hmem
    · exact hfit.2 m' hmem
    · rwa [List.mem_singleton.1 hmem]
  split at hadd
  · rename_i hpositive
    simp only [bind_eq_ok, intAdd_eq_ok, pure_eq_ok] at hadd
    obtain ⟨parts, hparts, total, ⟨htotal, rfl⟩, company, ⟨-, rfl⟩, validator, ⟨-, rfl⟩, rfl⟩ := hadd
    obtain ⟨hproduct, rfl⟩ := (companyShare_ok h m.typeURL hpositive howed).1 hparts
    obtain ⟨hlow, hhigh⟩ := share_bounds h m.typeURL hpositive.le
    refine ⟨⟨add_nonneg hout.validator_nonneg (sub_nonneg.2 hhigh),
      add_nonneg hout.company_nonneg hlow, ?_, ?_, fun stream => ?_⟩, ?_, hproducts hproduct⟩
    · have := hout.streams
      dsimp only
      omega
    · rw [hsum, ← hout.total]
    · have hbefore := hout.legs stream
      dsimp only
      rw [sumLegs_append, sumLegs_append, sumLegs_revenueLeg _ _ _ (sub_nonneg.2 hhigh),
        sumLegs_revenueLeg _ _ _ hlow, hbefore]
      cases stream with
      | validator | company => simp [FeeSplit.share]
    · rwa [hsum, ← hout.total]
  · rename_i hnone
    have hzero : p.owed m = 0 := le_antisymm (not_lt.1 hnone) (owed_nonneg h m)
    cases hadd
    rw [hzero, add_zero] at hsum
    refine ⟨⟨hout.validator_nonneg, hout.company_nonneg, hout.streams, ?_, hout.legs⟩, ?_,
      hproducts ?_⟩
    · rw [hsum, hout.total]
    · rw [hsum]
      exact hfit.1
    · rw [hzero, zero_mul]
      decide

/-- The fee of one more message is added where the amounts fit. -/
theorem addMsgFee_succeeds (h : p.validate = .ok ()) (hout : out.Conserves p msgs)
    (hfit : p.FeesFit (msgs ++ [m])) : ∃ out', p.addMsgFee out m = .ok out' := by
  obtain ⟨htotal, hproducts⟩ := hfit
  rw [sum_owed_concat, ← hout.total] at htotal
  have howed := owed_nonneg h m
  have hvalidator := hout.validator_nonneg
  have hcompany := hout.company_nonneg
  have hstreams := hout.streams
  have hfee : Fits (p.owed m) := fits_of_le howed (by omega) htotal
  unfold Params.addMsgFee
  rw [feeForMsg_eq h, checkedInt_eq_ok.2 ⟨hfee, rfl⟩]
  by_cases hpositive : 0 < p.owed m
  · have hshares := share_bounds h m.typeURL howed
    have hparts := (companyShare_ok h m.typeURL hpositive hfee).2
      ⟨hproducts m (List.mem_append_right _ (List.mem_singleton.2 rfl)), rfl⟩
    -- each stream stays below the total
    have hcompanySum := fits_of_le (add_nonneg hcompany hshares.1) (by omega) htotal
    have hvalidatorSum := fits_of_le (add_nonneg hvalidator (sub_nonneg.2 hshares.2)) (by omega) htotal
    show ∃ out', (if 0 < p.owed m then _ else _) = _
    simp only [if_pos hpositive, bind_eq_ok, intAdd_eq_ok, pure_eq_ok]
    exact ⟨_, _, hparts, _, ⟨htotal, rfl⟩, _, ⟨hcompanySum, rfl⟩, _, ⟨hvalidatorSum, rfl⟩, rfl⟩
  · refine ⟨out, ?_⟩
    show (if 0 < p.owed m then _ else _) = _
    rw [if_neg hpositive]
    rfl

/-- The split of accepted parameters exists exactly where the amounts fit, and conserves the fees
of every list of messages. -/
theorem computeFeeSplit_ok (h : p.validate = .ok ()) (msgs : List FeeMsg) :
    (∀ out, p.computeFeeSplit msgs = .ok out → out.Conserves p msgs ∧ p.FeesFit msgs) ∧
      (p.FeesFit msgs → ∃ out, p.computeFeeSplit msgs = .ok out) := by
  unfold Params.computeFeeSplit
  -- the split is accumulated from the left, so the induction takes the last message off
  induction msgs using List.reverseRecOn with
  | nil =>
    refine ⟨?_, fun _ => ⟨newFeeSplit, rfl⟩⟩
    rintro out ⟨⟩
    refine ⟨⟨le_refl 0, le_refl 0, rfl, rfl, fun stream => by cases stream <;> rfl⟩, ?_⟩
    exact ⟨by show Fits 0; decide, fun m hm => absurd hm List.not_mem_nil⟩
  | append_singleton msgs m ih =>
    rw [List.foldlM_append]
    refine ⟨fun out hout => ?_, fun hfit => ?_⟩
    · simp only [List.foldlM_cons, List.foldlM_nil, bind_eq_ok, pure_eq_ok] at hout
      obtain ⟨before, hbefore, after, hadd, rfl⟩ := hout
      obtain ⟨hconserves, hfit⟩ := ih.1 before hbefore
      exact addMsgFee_conserves h hconserves hfit hadd
    · obtain ⟨before, hbefore⟩ := ih.2 (feesFit_concat h hfit)
      obtain ⟨after, hadd⟩ := addMsgFee_succeeds h (ih.1 before hbefore).1 hfit
      simp only [List.foldlM_cons, List.foldlM_nil, bind_eq_ok, pure_eq_ok]
      exact ⟨after, before, hbefore, after, hadd, rfl⟩

end Split

/-! ## The accounts -/

/-- What routing a fee does to the bank: every account changes by its parts in the fee, as the
account charged, as the fee collector and as the revenue account, and no supply changes. -/
structure Routed (acc : Accounts) (deductFrom : Bytes) (split : FeeSplit) (b b' : Bank) :
    Prop where
  balance : ∀ addr, b'.getBalance addr denom = b.getBalance addr denom -
    (if deductFrom = addr then split.total else 0) +
    (if acc.moduleAddress .feeCollector = addr then split.validator else 0) +
    (if acc.moduleAddress .phiRevenue = addr then split.company else 0)
  supply : ∀ d, b'.getSupply d = b.getSupply d

section Accounts

variable {ctx : Ctx} {deductFrom : Bytes} {m : ModuleName} {amount : Int} {b b' : Bank}

theorem payLeg_supply (h : payLeg ctx deductFrom m amount b = .ok b') (d : Bytes) :
    b'.getSupply d = b.getSupply d := by
  unfold payLeg at h
  split at h
  · exact Bank.sendCoins_supply h d
  · cases h
    rfl

theorem payLeg_balance (hamount : 0 ≤ amount) (h : payLeg ctx deductFrom m amount b = .ok b')
    (addr : Bytes) :
    b'.getBalance addr denom = b.getBalance addr denom - (if deductFrom = addr then amount else 0) +
      (if ctx.accounts.moduleAddress m = addr then amount else 0) := by
  unfold payLeg at h
  split at h
  · rename_i hpositive
    simp only [Bank.sendCoinsFromAccountToModule, coinsOf, if_neg hpositive.ne'] at h
    exact Bank.sendCoins_balance h addr
  · have hzero : amount = 0 := by omega
    cases h
    simp [hzero]

/-- Routing a conserving split moves the total out of one account and into the two streams. -/
theorem routed_of_routeFee {p : Params} {msgs : List FeeMsg} {split : FeeSplit}
    (hsplit : split.Conserves p msgs) (h : routeFee ctx deductFrom split b = .ok b') :
    Routed ctx.accounts deductFrom split b b' := by
  have hvalidator := hsplit.validator_nonneg
  have hcompany := hsplit.company_nonneg
  have htotal := hsplit.streams
  unfold routeFee at h
  split at h
  · obtain ⟨b₁, hfirst, hsecond⟩ := bind_eq_ok.1 h
    refine ⟨fun addr => ?_, fun d => ?_⟩
    · rw [payLeg_balance hcompany hsecond addr, payLeg_balance hvalidator hfirst addr, ← htotal]
      by_cases hcharged : deductFrom = addr
      · simp only [if_pos hcharged]
        omega
      · simp only [if_neg hcharged]
        omega
    · rw [payLeg_supply hsecond, payLeg_supply hfirst]
  · -- without a total both shares are zero
    rename_i hnone
    have hzeroTotal : split.total = 0 := by omega
    have hzeroValidator : split.validator = 0 := by omega
    have hzeroCompany : split.company = 0 := by omega
    cases h
    refine ⟨fun addr => ?_, fun d => rfl⟩
    simp [hzeroTotal, hzeroValidator, hzeroCompany]

end Accounts

/-- Under accepted parameters a list of messages has a split exactly where the sum of the fees and
each fee times the company's share fit 256 bits, the split conserves the fees, and a transaction
that is accepted and not exempt moves exactly its split: out of the payer, or of the granter where
a grant is used, and into the fee collector and the revenue account. -/
theorem fee_routing_conserves {s : Store} (hparams : s.params.validate = .ok ()) :
    (∀ msgs, (∃ split, s.params.computeFeeSplit msgs = .ok split) ↔ s.params.FeesFit msgs) ∧
      (∀ msgs split, s.params.computeFeeSplit msgs = .ok split → split.Conserves s.params msgs) ∧
      ∀ (k : FeeKeepers) (ctx : Ctx) (simulate isCheckTx : Bool) (tx : FeeTx) (b : Bank)
        (r : FeeReceipt),
        isMicroExempt ctx s (accAddressString tx.feePayer) tx.msgs = false →
        anteHandle k ctx simulate isCheckTx tx b s = .ok r →
        ∃ split, s.params.computeFeeSplit tx.msgs = .ok split ∧
          let charged := if 0 < split.total then tx.feeGranter.getD tx.feePayer else tx.feePayer
          Routed ctx.accounts charged split b r.bank ∧
            r.deductFrom = charged ∧ r.fee = split.total ∧ r.revenueCollected = split.legs := by
  have hsplits := computeFeeSplit_ok hparams
  refine ⟨fun msgs => ⟨fun ⟨split, h⟩ => ((hsplits msgs).1 split h).2, (hsplits msgs).2⟩,
    fun msgs split h => ((hsplits msgs).1 split h).1, ?_⟩
  intro k ctx simulate isCheckTx tx b r hexempt h
  obtain ⟨split, hsplit, hcharged, hroute, hfee, hlegs, -⟩ := anteHandle_ok h
  rw [hexempt] at hsplit
  have hdeduct := chargedAccount_eq hcharged
  have hrouted := routed_of_routeFee ((hsplits tx.msgs).1 split hsplit).1 hroute
  rw [hdeduct] at hrouted
  exact ⟨split, hsplit, hrouted, hdeduct, hfee, hlegs⟩

/-- Every module account has an address of its own. -/
def separateCtx (now : Int) : Ctx where
  blockTime := now
  accounts := Accounts.unlocked fun m => [200 + Fin.ofNat 256 (ModuleName.all.idxOf m)]
  bootstrapPhase := false
  subjectDID _ := none
  proposal _ := none

/-- Account 2 pays for account 1: a transfer and an agreement with seven signers. -/
def grantedTx : FeeTx where
  feePayer := [1]
  feeGranter := some [2]
  msgs := [⟨msgTransferTypeURL, none, some (accAddressString [3], ascii "70000")⟩,
    ⟨msgCreateAgreementTypeURL, some 7, none⟩]

def openKeepers : FeeKeepers where
  feeCollectorSet := true
  hasAccount _ := true
  useGrantedFees := some fun _ _ _ _ => .ok ()

/-- Account 2 holds a hundred thousand units. -/
def granterBank : Bank := ((⟨∅, ∅⟩ : Bank).setBalance [2] denom 100000).setSupply denom 100000

/-- The transfer costs 5000, a tenth of it to the company, and the agreement 50000 with twice 5000
for the two signers above five. -/
theorem fee_routing_granted :
    ∃ r, anteHandle openKeepers (separateCtx 0) false false grantedTx granterBank
        ⟨defaultParams, ∅, ∅⟩ = .ok r ∧
      r.bank.getBalance [2] denom = 100000 - 65000 ∧ r.bank.getBalance [200] denom = 64500 ∧
      r.bank.getBalance [207] denom = 500 ∧ r.bank.getSupply denom = 100000 := by
  have hok : isOk (anteHandle openKeepers (separateCtx 0) false false grantedTx granterBank
      ⟨defaultParams, ∅, ∅⟩) = true := by decide +kernel
  obtain ⟨r, h⟩ := isOk_iff.1 hok
  obtain ⟨split, hsplit, hrouted, -⟩ :=
    (@fee_routing_conserves ⟨defaultParams, ∅, ∅⟩ (by decide +kernel)).2.2
      openKeepers (separateCtx 0) false false grantedTx granterBank r (by decide +kernel) h
  cases hsplit
  refine ⟨r, h, (hrouted.balance [2]).trans ?_, (hrouted.balance [200]).trans ?_,
    (hrouted.balance [207]).trans ?_, (hrouted.supply denom).trans ?_⟩
  · decide +kernel
  · decide +kernel
  · decide +kernel
  · decide +kernel

/-- The largest default fee that is accepted. -/
def largestFeeParams : Params :=
  { defaultParams with defaultFee := intString (2 ^ 256 - 1) }

/-- Two messages of the largest accepted default fee have no split: their sum panics. -/
theorem largest_fee_overflows :
    largestFeeParams.validate = .ok () ∧
      largestFeeParams.computeFeeSplit [⟨ascii "/phi.voting.MsgCastVote", none, none⟩,
        ⟨ascii "/phi.voting.MsgCastVote", none, none⟩] = .error intOverflow := by
  decide +kernel

end PhiChain.Coin
