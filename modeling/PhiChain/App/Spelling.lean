import PhiChain.App.Chain
import PhiChain.Sdk.Spelling

/-!
# Coin age and the spelling of an account

The bank moves coins between decoded accounts, but a lot queue is stored under the
string a message carries. `SpellingBlind` says of two strings that it does not matter
which of them a message carries for an account. `spellingBlind_iff` shows that this is
so exactly for strings of one letter case; in the other case an account has two
queues, and a redemption under the spelling without lots is priced at the old tier
(`redeem_by_spelling`).
-/

set_option autoImplicit false

namespace PhiChain.App

open Foundations Sdk Institutions

variable {D : Type} [LinearOrder D]

/-- Coin age and penalty do not depend on which of two strings names an account. -/
structure SpellingBlind (k : Keeper D) (s₁ s₂ : Bytes) : Prop where
  sender : ∀ ctx receiver amount b c r₁ r₂, Coin.transfer ctx ⟨s₁, receiver, amount⟩ b c = .ok r₁ →
    Coin.transfer ctx ⟨s₂, receiver, amount⟩ b c = .ok r₂ → r₁.2 = r₂.2
  recipient : ∀ ctx sender amount b c r₁ r₂, Coin.transfer ctx ⟨sender, s₁, amount⟩ b c = .ok r₁ →
    Coin.transfer ctx ⟨sender, s₂, amount⟩ b c = .ok r₂ → r₁.2 = r₂.2
  mint : ∀ ctx (msg : MsgInstitutionMint) w u₁ u₂ w₁ w₂,
    institutionMint k ctx { msg with recipient := s₁ } w = .ok (.minted u₁, w₁) →
    institutionMint k ctx { msg with recipient := s₂ } w = .ok (.minted u₂, w₂) → w₁.coin = w₂.coin
  redeem : ∀ ctx (msg : MsgInstitutionRedeem) (w : World D) burned₁ burned₂ w₁ w₂,
    institutionRedeem ctx { msg with admin := s₁, holder := s₁ } w = .ok (burned₁, w₁) →
    institutionRedeem ctx { msg with admin := s₂, holder := s₂ } w = .ok (burned₂, w₂) →
      burned₁ = burned₂ ∧ w₁.coin = w₂.coin
  penalty : ∀ (c : Coin.Store) now uphi,
    (c.earlyRedeemPenalty now s₁ uphi).1 = (c.earlyRedeemPenalty now s₂ uphi).1

theorem SpellingBlind.refl (k : Keeper D) (s : Bytes) : SpellingBlind k s s where
  sender _ _ _ _ _ _ _ h₁ h₂ := congrArg Prod.snd (Except.ok.inj (h₁.symm.trans h₂))
  recipient _ _ _ _ _ _ _ h₁ h₂ := congrArg Prod.snd (Except.ok.inj (h₁.symm.trans h₂))
  mint _ _ _ _ _ _ _ h₁ h₂ := congrArg (fun r => r.2.coin) (Except.ok.inj (h₁.symm.trans h₂))
  redeem _ _ _ _ _ _ _ h₁ h₂ := by
    cases h₁.symm.trans h₂
    exact ⟨rfl, rfl⟩
  penalty _ _ _ := rfl

/-- The penalty depends on the queue stored under the string. -/
theorem earlyRedeemPenalty_eq {c : Coin.Store} {address : Bytes} {lots : List Coin.CoinLot}
    (h : c.getCoinAge address = lots) {now uphi : Int} (hpos : 0 < uphi) :
    (c.earlyRedeemPenalty now address uphi).1 =
      Coin.penaltyForLots (Coin.spendLots now c.params.coinAgeThresholdSeconds lots uphi).1 now
        c.params := by
  simp only [Coin.Store.earlyRedeemPenalty, if_pos hpos, Coin.Store.spendOldestFirst, h]

/-- Coin state with one fresh lot of ten thousand uphi under a string. -/
def oneLot (address : Bytes) : Coin.Store :=
  ⟨Coin.defaultParams, OrdMap.put ∅ (Coin.Store.coinAgeKey address) [⟨10000, 0⟩], ∅⟩

theorem getCoinAge_oneLot_self (s : Bytes) : (oneLot s).getCoinAge s = [⟨10000, 0⟩] := by
  unfold Coin.Store.getCoinAge oneLot OrdMap.getD
  rw [OrdMap.get?_put_self]
  rfl

theorem getCoinAge_oneLot_ne {s t : Bytes} (h : s ≠ t) : (oneLot s).getCoinAge t = [] := by
  unfold Coin.Store.getCoinAge oneLot OrdMap.getD
  rw [OrdMap.get?_put_ne]
  · rfl
  · intro hkey
    exact h (List.cons.inj hkey).2

theorem SpellingBlind.eq {k : Keeper D} {s₁ s₂ : Bytes} (h : SpellingBlind k s₁ s₂) : s₁ = s₂ := by
  by_contra hne
  -- a lot stored under the first string is young, what the second lacks counts as old
  have hsame := h.penalty (oneLot s₁) 0 10000
  rw [earlyRedeemPenalty_eq (getCoinAge_oneLot_self s₁) (by decide),
    earlyRedeemPenalty_eq (getCoinAge_oneLot_ne hne) (by decide)] at hsame
  have hparams : (oneLot s₁).params = Coin.defaultParams := rfl
  rw [hparams] at hsame
  exact absurd hsame (by decide)

/-- Two strings that denote one account share its lot queue, its credits and its penalties exactly
when they are of the same letter case. -/
theorem spellingBlind_iff (k : Keeper D) {s₁ s₂ account : Bytes}
    (h₁ : accAddressFromBech32 s₁ = some account) (h₂ : accAddressFromBech32 s₂ = some account) :
    SpellingBlind k s₁ s₂ ↔ s₁.any isUpper = s₂.any isUpper := by
  constructor
  · intro h
    rw [h.eq]
  · intro hcase
    rw [accAddressFromBech32_inj h₁ h₂ hcase]
    exact SpellingBlind.refl k s₂

/-- The canonical spelling of account 9, twice. -/
theorem spellingBlind_canonical :
    SpellingBlind textKeeper (accAddressString [9]) (accAddressString [9]) :=
  have hdecode : accAddressFromBech32 (accAddressString [9]) = some [9] := by decide +kernel
  (spellingBlind_iff textKeeper hdecode hdecode).2 rfl

/-- The all-upper-case form of a string. -/
def upperCase (s : Bytes) : Bytes := s.map fun c => if isLower c then Fin.ofNat 256 (c.val - 32) else c

/-- Account 9 holds ten thousand uphi, backed by a thousand toman and received just now. -/
def holderWorld : World Bytes where
  bank := (⟨∅, ∅⟩ : Bank).setBalance [9] Coin.denom 10000 |>.setSupply Coin.denom 10000
  coin := oneLot (accAddressString [9])
  inst := Store.fresh.setInstitution { smallInstitution with vaultBalance := 1000 }

/-- Redemption of a thousand toman under a spelling of the holder. -/
def redeemAll (holder : Bytes) : MsgInstitutionRedeem where
  admin := holder
  institution := ascii "a"
  holder := holder
  amountToman := ascii "1000"
  redeemRef := ascii "r"
  fxCurrency := []
  fxAmount := []
  fxTxRef := []

/-- Amount burned by a redemption that succeeded. -/
def burnedAmount (x : Result (Int × World D)) : Option Int :=
  match x with
  | .ok (burned, _) => some burned
  | .error _ => none

theorem burnedAmount_eq {x : Result (Int × World D)} {burned : Int}
    (h : burnedAmount x = some burned) : ∃ w, x = .ok (burned, w) := by
  cases x with
  | error e => cases h
  | ok r =>
    cases h
    exact ⟨r.2, rfl⟩

/-- Redeeming in upper case finds no lots and pays the old-tier penalty on fresh coin. -/
theorem redeem_by_spelling :
    let lower := accAddressString [9]
    let upper := upperCase lower
    accAddressFromBech32 lower = some [9] ∧ accAddressFromBech32 upper = some [9] ∧
      burnedAmount (institutionRedeem (smallCtx 0) (redeemAll lower) holderWorld) = some 9880 ∧
      burnedAmount (institutionRedeem (smallCtx 0) (redeemAll upper) holderWorld) = some 9960 ∧
      ¬ SpellingBlind textKeeper lower upper := by
  intro lower upper
  have hlower : burnedAmount (institutionRedeem (smallCtx 0) (redeemAll lower) holderWorld) =
      some 9880 := by decide +kernel
  have hupper : burnedAmount (institutionRedeem (smallCtx 0) (redeemAll upper) holderWorld) =
      some 9960 := by decide +kernel
  refine ⟨by decide +kernel, by decide +kernel, hlower, hupper, ?_⟩
  intro hblind
  obtain ⟨w₁, h₁⟩ := burnedAmount_eq hlower
  obtain ⟨w₂, h₂⟩ := burnedAmount_eq hupper
  have hsame := (hblind.redeem (smallCtx 0) (redeemAll lower) holderWorld 9880 9960 w₁ w₂ h₁ h₂).1
  exact absurd hsame (by decide)

end PhiChain.App
