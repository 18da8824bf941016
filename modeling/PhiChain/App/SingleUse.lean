import PhiChain.App.Chain
import PhiChain.Institutions.Solvency

/-!
# Deposit and redemption references are single use

An executed mint or redemption leaves a marker under its institution, direction and
reference. No action ever removes a marker: removal and its sweep keep them, the
counter sweep works on other keyspaces, and a genesis round trip carries them
verbatim. A message whose marker exists is refused, so a reference moves value at
most once.
-/

set_option autoImplicit false

namespace PhiChain.App

open Foundations Sdk Institutions

variable {D : Type} [LinearOrder D]

/-! ## Uses of a reference -/

inductive Direction where
  | mint
  | redeem
  deriving DecidableEq

def Direction.bytes : Direction → Bytes
  | .mint => directionMint
  | .redeem => directionRedeem

/-- The action is a message of the direction that names the institution and reference. -/
def Action.uses (dir : Direction) (id ref : Bytes) : Action → Prop
  | .mint msg => dir = .mint ∧ msg.institution = id ∧ msg.depositRef = ref
  | .redeem msg => dir = .redeem ∧ msg.institution = id ∧ msg.redeemRef = ref
  | _ => False

instance (dir : Direction) (id ref : Bytes) (a : Action) : Decidable (a.uses dir id ref) :=
  match a with
  | .mint msg => inferInstanceAs (Decidable (_ ∧ _ ∧ msg.depositRef = ref))
  | .redeem msg => inferInstanceAs (Decidable (_ ∧ _ ∧ msg.redeemRef = ref))
  | .register _ | .remove _ | .freeze _ | .attest _ | .updateParams _ | .setEmergency _
  | .requestFx _ | .guaranteeFx _ | .finalizeFx _ | .sensitive _ | .transfer _
  | .deductFee _ _ _ | .withdrawRevenue _ | .updateCoinParams _ | .slash _ | .govBurn _
  | .beginBlock | .restart => inferInstanceAs (Decidable False)

/-- Vault balances by institution. -/
def vaultsOf (s : Store D) : List (Bytes × Int) :=
  s.institutions.records.entries.map fun e => (e.1, e.2.vaultBalance)

/-- Supply or a vault balance differs. -/
def movesValue (w w' : World D) : Prop :=
  w'.totalSupplyUphi ≠ w.totalSupplyUphi ∨ vaultsOf w'.inst ≠ vaultsOf w.inst

instance (w w' : World D) : Decidable (movesValue w w') := inferInstanceAs (Decidable (_ ∨ _))

/-- Number of steps of a run that use a reference and move value. -/
def valueUses (k : Keeper D) (dir : Direction) (id ref : Bytes) :
    World D → List (Ctx × Action) → Nat
  | _, [] => 0
  | w, a :: rest =>
    (if a.2.uses dir id ref ∧ movesValue w (step k w a) then 1 else 0) +
      valueUses k dir id ref (step k w a) rest

/-! ## The keyspaces of references and caps

Markers, cap counters and redeem subjects are written by mints and redemptions; the sweeps of
a block and a restart rewrite them. -/

/-- Markers, cap counters and redeem subjects are the same. -/
structure SameLedgers (s s' : Store D) : Prop where
  deposits : s'.deposits = s.deposits
  counters : s'.counters = s.counters
  subjects : s'.redeemSubjects = s.redeemSubjects

/-- The action writes to none of the three keyspaces. -/
def Action.keepsLedgers : Action → Bool
  | .mint _ => false
  | .redeem _ => false
  | .beginBlock => false
  | .restart => false
  | _ => true

variable {k : Keeper D} {s s' : Store D} {w w' : World D}

theorem executeSensitive_ledgers {msg : SensitiveMsg} {inst : Institution}
    (h : executeSensitive k msg inst s = .ok s') : SameLedgers s s' := by
  rcases executeSensitive_frame h with ⟨_, _, _, rfl⟩ | ⟨record, -, -, rfl⟩
  · exact ⟨rfl, rfl, rfl⟩
  · exact ⟨rfl, rfl, rfl⟩

theorem sameLedgers_of_apply {ctx : Ctx} {a : Action} (ha : a.keepsLedgers = true)
    (h : apply k ctx w a = .ok w') : SameLedgers w.inst w'.inst := by
  cases a with
  | mint | redeem | beginBlock | restart => cases ha
  | register msg =>
    obtain ⟨s, hs, rfl⟩ := onInstitutions_ok h
    obtain ⟨-, -, -, rfl⟩ := registerInstitution_ok hs
    exact ⟨rfl, rfl, rfl⟩
  | remove msg =>
    obtain ⟨s, hs, rfl⟩ := onInstitutions_ok h
    obtain ⟨inst, -, -, rfl⟩ := removeInstitution_ok hs
    exact ⟨rfl, rfl, rfl⟩
  | freeze msg =>
    obtain ⟨s, hs, rfl⟩ := onInstitutions_ok h
    obtain ⟨inst, status, -, rfl⟩ := freezeInstitution_ok hs
    exact ⟨rfl, rfl, rfl⟩
  | attest msg =>
    obtain ⟨s, hs, rfl⟩ := onInstitutions_ok h
    obtain ⟨inst, attestor, reserve, status, -, -, rfl⟩ := publishInstitutionAttestation_ok hs
    exact ⟨rfl, rfl, rfl⟩
  | updateParams msg =>
    obtain ⟨s, hs, rfl⟩ := onInstitutions_ok h
    obtain ⟨hv, rfl, -⟩ := setParams_ok (updateParams_ok hs)
    exact ⟨rfl, rfl, rfl⟩
  | setEmergency msg =>
    obtain ⟨s, hs, rfl⟩ := onInstitutions_ok h
    obtain ⟨p, hp⟩ := setEmergencyRedemption_ok hs
    obtain ⟨hv, rfl, -⟩ := setParams_ok hp
    exact ⟨rfl, rfl, rfl⟩
  | requestFx msg =>
    obtain ⟨s, hs, rfl⟩ := onInstitutions_ok h
    obtain ⟨-, req, rfl⟩ := requestFxEntry_ok hs
    exact ⟨rfl, rfl, rfl⟩
  | guaranteeFx msg =>
    obtain ⟨s, hs, rfl⟩ := onInstitutions_ok h
    obtain ⟨-, ⟨req, rfl⟩ | rfl⟩ := guaranteeFxEntry_ok hs
    · exact ⟨rfl, rfl, rfl⟩
    · exact ⟨rfl, rfl, rfl⟩
  | finalizeFx msg =>
    obtain ⟨s, hs, rfl⟩ := onInstitutions_ok h
    obtain ⟨-, -, -, applicant, rfl⟩ := finalizeFxEntry_ok hs
    exact ⟨rfl, rfl, rfl⟩
  | sensitive msg =>
    simp only [apply, bind_eq_ok, pure_eq_ok] at h
    obtain ⟨⟨⟩, -, ⟨r, s⟩, hsens, rfl⟩ := h
    obtain ⟨inst, signer, -, -, -, ⟨-, rfl⟩ | ⟨-, hexec⟩⟩ := sensitiveAction_ok hsens
    · exact ⟨rfl, rfl, rfl⟩
    · -- the approval that is recorded first is in another keyspace
      obtain ⟨hdeposits, hcounters, hsubjects⟩ := executeSensitive_ledgers hexec
      exact ⟨hdeposits, hcounters, hsubjects⟩
  | transfer | deductFee | withdrawRevenue | updateCoinParams | slash | govBurn =>
    rw [inst_of_apply rfl h]
    exact ⟨rfl, rfl, rfl⟩

/-! ## Markers are never removed -/

/-- Every marker of the first store is in the second. -/
def MarkersKept (s s' : Store D) : Prop := ∀ key, s.deposits.has key = true → s'.deposits.has key = true

theorem MarkersKept.of_eq (h : s'.deposits = s.deposits) : MarkersKept s s' := by
  intro key hkey
  rw [h]
  exact hkey

theorem MarkersKept.trans {s₁ s₂ s₃ : Store D} (h : MarkersKept s₁ s₂) (h' : MarkersKept s₂ s₃) :
    MarkersKept s₁ s₃ := fun key hkey => h' key (h key hkey)

theorem markDeposit_kept (s : Store D) (id direction ref : Bytes) :
    MarkersKept s (s.markDeposit id direction ref) :=
  fun _ hkey => OrdMap.has_put.2 (.inr hkey)

/-- A genesis round trip carries every marker. -/
theorem restart_kept {ctx : Ctx} {b : Bank} {c : Coin.Store}
    (h : initGenesis ctx (exportGenesis s) b c = .ok w) : MarkersKept s w.inst := by
  unfold initGenesis at h
  split at h
  · cases h
  · simp only [importStore, bind_eq_ok, pure_eq_ok] at h
    obtain ⟨⟨⟩, -, s', ⟨s₁, -, rfl⟩, ⟨⟩, -, rfl⟩ := h
    intro key hkey
    obtain ⟨x, hx⟩ := OrdMap.has_iff.1 hkey
    exact has_importEntries.2 (.inl ⟨(key, x), OrdMap.mem_entries.2 hx, rfl⟩)

theorem redeemStore_kept (ctx : Ctx) (msg : MsgInstitutionRedeem) (plan : RedeemPlan)
    (split : RedeemSplit) (s : Store D) : MarkersKept s (redeemStore ctx msg plan split s) := by
  apply MarkersKept.trans _ (markDeposit_kept _ _ _ _)
  exact MarkersKept.of_eq (addRedeemCounters_frame ctx _ plan.inst plan.holder plan.toman plan.uphi).2.2

theorem apply_kept {ctx : Ctx} {a : Action}
    (h : apply k ctx w a = .ok w') : MarkersKept w.inst w'.inst := by
  cases a with
  | mint msg =>
    obtain ⟨-, r, hmint⟩ := apply_mint_ok h
    obtain ⟨plan, gate, s, -, hgate, h⟩ := institutionMint_ok hmint
    obtain ⟨approvals, rfl⟩ := mintGate_frame hgate
    rcases h with ⟨p, -, -, rfl⟩ | ⟨-, -, b, -, rfl⟩
    · exact MarkersKept.of_eq rfl
    · exact markDeposit_kept w.inst _ _ _
  | redeem msg =>
    obtain ⟨r, hredeem⟩ := apply_redeem_ok h
    obtain ⟨plan, split, coin, b, -, -, -, -, rfl⟩ := institutionRedeem_ok hredeem
    exact redeemStore_kept ctx msg plan split w.inst
  | beginBlock =>
    cases h
    exact MarkersKept.of_eq ((beginBlock_keeps ctx w.inst).2.2.1)
  | restart => exact restart_kept h
  | _ => exact MarkersKept.of_eq (sameLedgers_of_apply rfl h).deposits

theorem step_kept (k : Keeper D) (w : World D) (a : Ctx × Action) :
    MarkersKept w.inst (step k w a).inst := by
  have hself : MarkersKept w.inst w.inst := MarkersKept.of_eq rfl
  exact commit_preserves (p := fun w' : World D => MarkersKept w.inst w'.inst) hself
    fun _ => apply_kept

/-! ## Single use -/

/-- A use that moves value found no marker and left one. -/
theorem marker_of_movesValue {a : Ctx × Action} {dir : Direction} {id ref : Bytes}
    (huse : a.2.uses dir id ref) (hmove : movesValue w (step k w a)) :
    w.inst.depositSeen id dir.bytes ref = false ∧
      (step k w a).inst.depositSeen id dir.bytes ref = true := by
  obtain ⟨ctx, a⟩ := a
  -- a failed step leaves the state, which moves nothing
  have hok : ∃ w', apply k ctx w a = .ok w' := by
    cases happly : apply k ctx w a with
    | ok w' => exact ⟨w', rfl⟩
    | error e =>
      simp only [step, happly, commit, movesValue, ne_eq, not_true_eq_false, or_self] at hmove
  obtain ⟨w', happly⟩ := hok
  have hstep : step k w (ctx, a) = w' := by simp only [step, happly, commit]
  rw [hstep] at hmove ⊢
  cases a with
  | mint msg =>
    obtain ⟨rfl, rfl, rfl⟩ := huse
    obtain ⟨-, r, hmint⟩ := apply_mint_ok happly
    obtain ⟨plan, gate, s, hacc, hgate, h⟩ := institutionMint_ok hmint
    obtain ⟨approvals, rfl⟩ := mintGate_frame hgate
    have hid : plan.inst.id = msg.institution := Registry.id_of_get? hacc.found
    rcases h with ⟨p, -, -, rfl⟩ | ⟨-, -, b, -, rfl⟩
    · -- a pending mint only records an approval
      exact absurd hmove (by simp [movesValue, World.totalSupplyUphi, vaultsOf])
    · rw [← hid]
      exact ⟨hacc.fresh, OrdMap.has_put.2 (.inl rfl)⟩
  | redeem msg =>
    obtain ⟨rfl, rfl, rfl⟩ := huse
    obtain ⟨r, hredeem⟩ := apply_redeem_ok happly
    obtain ⟨plan, split, coin, b, hacc, -, -, -, rfl⟩ := institutionRedeem_ok hredeem
    have hid : plan.inst.id = msg.institution := Registry.id_of_get? hacc.found
    rw [← hid]
    exact ⟨hacc.fresh, OrdMap.has_put.2 (.inl rfl)⟩
  | _ => exact huse.elim

/-- Once the marker exists, no later step of a run moves value by that reference. -/
theorem valueUses_of_marker (k : Keeper D) (dir : Direction) (id ref : Bytes) (w : World D)
    (as : List (Ctx × Action)) (h : w.inst.depositSeen id dir.bytes ref = true) :
    valueUses k dir id ref w as = 0 := by
  induction as generalizing w with
  | nil => rfl
  | cons a rest ih =>
    have hnone : ¬ (a.2.uses dir id ref ∧ movesValue w (step k w a)) := by
      rintro ⟨huse, hmove⟩
      have hfresh := (marker_of_movesValue huse hmove).1
      rw [h] at hfresh
      cases hfresh
    rw [valueUses, if_neg hnone, ih (step k w a) (step_kept k w a _ h)]

/-- Over every run, at most one step that names an institution, direction and reference moves supply
or a vault. -/
theorem valueUses_le_one (k : Keeper D) (dir : Direction) (id ref : Bytes) (w : World D)
    (as : List (Ctx × Action)) : valueUses k dir id ref w as ≤ 1 := by
  induction as generalizing w with
  | nil => exact Nat.zero_le 1
  | cons a rest ih =>
    rw [valueUses]
    split
    · rename_i hvalue
      have hmarker := (marker_of_movesValue hvalue.1 hvalue.2).2
      rw [valueUses_of_marker k dir id ref _ rest hmarker]
    · rw [Nat.zero_add]
      exact ih (step k w a)

end PhiChain.App
