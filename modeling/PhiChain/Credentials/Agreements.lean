import Mathlib.Data.List.Perm.Subperm
import PhiChain.Credentials.Effects

/-!
# Credentials: agreements over whole runs

An agreement is completed when it has as many signatures as required signers. The signers are all
required and none signs twice, and none is required twice, so that equal numbers mean that everyone
signed (`Sound.completed_iff_all`). A signature of a stored agreement was taken by one
transaction of the run, with the agreement pending and in time (`signed_during`), and an agreement
that is not pending stays as it is (`closed_stays`).

The identities that a transaction meets are arbitrary, so the results hold whatever happens to
identities between the transactions.
-/

set_option autoImplicit false

namespace PhiChain.Credentials

open Foundations Sdk
open Identity (Keeper Env)

/-! ## One agreement, one transaction -/

/-- What a transaction does to the agreement with a given hash. -/
inductive AgreementChange (k : Keeper) (tx : Tx) (hash : Bytes) :
    Option Agreement → Option Agreement → Prop
  | unchanged (stored : Option Agreement) : AgreementChange k tx hash stored stored
  | created (msg : MsgCreateAgreement) (hbasic : msg.validateBasic = .ok ()) :
      AgreementChange k tx hash none (some (msg.agreement tx.env))
  | signed (msg : MsgSignAgreement) (ag : Agreement) (haction : tx.action = .signAgreement msg)
      (hhash : msg.hash = hash) (hsignable : Signable k tx.env tx.ids msg ag) :
      AgreementChange k tx hash (some ag) (some (ag.signedBy msg.signerDid tx.env.blockTime))
  | cancelled (ag : Agreement) (hpending : ag.status = .pending) :
      AgreementChange k tx hash (some ag) (some { ag with status := .cancelled })

variable {ag : Agreement} {hash : Bytes} {k : Keeper} {s : Store} {tx : Tx}

/-- A stored agreement is rewritten under its hash; the other ones stay. -/
theorem change_of_rewrite {named : Bytes} {ag' : Agreement}
    (hag : s.agreements.get? named = some ag) (hsame : ag'.hash = ag.hash)
    (hchange : named = hash → AgreementChange k tx hash (some ag) (some ag')) :
    AgreementChange k tx hash (s.agreements.get? hash) ((s.agreements.set ag').get? hash) := by
  have hkey : ag'.hash = named := hsame.trans (KeyedMap.key_of_get? hag)
  by_cases hhash : named = hash
  · subst hhash
    rw [hag, KeyedMap.get?_set, if_pos hkey]
    exact hchange rfl
  · rw [KeyedMap.get?_set_ne _ (hkey ▸ hhash)]
    exact .unchanged _

theorem agreementChange_step (k : Keeper) (s : Store) (tx : Tx) (hash : Bytes) :
    AgreementChange k tx hash (s.agreements.get? hash)
      ((step k s tx).agreements.get? hash) := by
  unfold step
  apply commit_preserves (p := fun s' : Store =>
    AgreementChange k tx hash (s.agreements.get? hash) (s'.agreements.get? hash)) (.unchanged _)
  intro s' happly
  obtain ⟨env, ids, action⟩ := tx
  cases effect_of_apply happly with
  | registered | updated | deprecated | anchored | revoked | anchoredPersonal | reparametrised =>
    exact .unchanged _
  | created msg hbasic hnew hsize =>
    by_cases hhash : (msg.agreement env).hash = hash
    · have hnone : s.agreements.get? hash = none := KeyedMap.has_eq_false.1 (hhash ▸ hnew)
      rw [KeyedMap.get?_set, if_pos hhash, hnone]
      exact .created msg hbasic
    · rw [KeyedMap.get?_set_ne _ hhash]
      exact .unchanged _
  | signed msg ag hag hsignable =>
    exact change_of_rewrite hag rfl fun hhash => .signed msg ag rfl hhash hsignable
  | cancelled msg ag hag hpending hcreator =>
    exact change_of_rewrite hag rfl fun _ => .cancelled ag hpending

/-! ## Counting means that everyone signed -/

def Agreement.signers (ag : Agreement) : List Bytes :=
  ag.signatures.map AgreementSignature.signerDid

/-- What holds of every stored agreement. -/
structure Sound (ag : Agreement) : Prop where
  required_nodup : ag.requiredSigners.Nodup
  signers_nodup : ag.signers.Nodup
  signers_required : ag.signers ⊆ ag.requiredSigners
  completed_iff : ag.status = .completed ↔ ag.signatures.length = ag.requiredSigners.length

theorem nodup_of_validateSigners {seen dids : List Bytes}
    (h : validateSigners seen dids = .ok ()) : dids.Nodup ∧ ∀ did ∈ dids, did ∉ seen := by
  induction dids generalizing seen with
  | nil => exact ⟨List.nodup_nil, fun did hdid => absurd hdid List.not_mem_nil⟩
  | cons first rest ih =>
    simp only [validateSigners, bind_eq_ok, ensure_eq_ok, exists_const] at h
    obtain ⟨-, hnew, hrest⟩ := h
    obtain ⟨hnodup, hother⟩ := ih hrest
    refine ⟨List.nodup_cons.2 ⟨fun hmem => hother first hmem List.mem_cons_self, hnodup⟩, ?_⟩
    rintro did (_ | ⟨_, hdid⟩)
    · exact hnew
    · exact fun hseen => hother did hdid (List.mem_cons_of_mem _ hseen)

theorem sound_created {env : Env} {msg : MsgCreateAgreement} (h : msg.validateBasic = .ok ()) :
    Sound (msg.agreement env) := by
  simp only [MsgCreateAgreement.validateBasic, bind_eq_ok, ensure_eq_ok, exists_const] at h
  obtain ⟨⟨⟩, -, ⟨⟩, -, hne, ⟨⟩, hsigners, -⟩ := h
  refine ⟨(nodup_of_validateSigners hsigners).1, List.nodup_nil, List.nil_subset _, ?_⟩
  constructor
  · intro hcompleted
    cases hcompleted
  · exact fun hlen => absurd (List.length_eq_zero_iff.1 hlen.symm) hne

/-- The last signature completes the agreement. -/
theorem Sound.signedBy {env : Env} {ids : Identity.Store} {msg : MsgSignAgreement} (h : Sound ag)
    (hsignable : Signable k env ids msg ag) :
    Sound (ag.signedBy msg.signerDid env.blockTime) := by
  refine ⟨h.required_nodup, hsignable.once h.signers_nodup, ?_, ?_⟩
  · have hsigned := hsignable.signed fun sig hsig => h.signers_required (List.mem_map_of_mem hsig)
    intro did hdid
    obtain ⟨sig, hsig, rfl⟩ := List.mem_map.1 hdid
    exact hsigned sig hsig
  · simp only [Agreement.signedBy, hsignable.pending]
    split
    · next hfull => exact ⟨fun _ => hfull, fun _ => rfl⟩
    · next hpart =>
        constructor
        · intro hcompleted
          cases hcompleted
        · exact fun hfull => absurd hfull hpart

theorem Sound.cancelled (h : Sound ag) (hpending : ag.status = .pending) :
    Sound { ag with status := .cancelled } := by
  refine ⟨h.required_nodup, h.signers_nodup, h.signers_required, ?_⟩
  constructor
  · intro hcompleted
    cases hcompleted
  · intro hfull
    exact absurd (hpending.symm.trans (h.completed_iff.2 hfull)) (by decide)

theorem Sound.change {old new : Option Agreement} (hchange : AgreementChange k tx hash old new)
    (h : ∀ ag, old = some ag → Sound ag) :
    ∀ ag, new = some ag → Sound ag := by
  cases hchange with
  | unchanged => exact h
  | created msg hbasic =>
    rintro _ ⟨⟩
    exact sound_created hbasic
  | signed msg ag haction hhash hsignable =>
    rintro _ ⟨⟩
    exact (h ag rfl).signedBy hsignable
  | cancelled ag hpending =>
    rintro _ ⟨⟩
    exact (h ag rfl).cancelled hpending

def AllSound (s : Store) : Prop := ∀ hash ag, s.agreements.get? hash = some ag → Sound ag

theorem allSound_run (k : Keeper) (txs : List Tx) : AllSound (run (step k) Store.fresh txs) := by
  refine run_invariant (fun s tx h hash => ?_) (fun _ _ hget => nomatch hget) txs
  exact Sound.change (agreementChange_step k s tx hash) (h hash)

/-- Equal numbers mean that every required signer signed once. -/
theorem Sound.completed_iff_all (h : Sound ag) :
    ag.status = .completed ↔ ∀ did ∈ ag.requiredSigners, ag.signers.count did = 1 := by
  have hlength : ag.signers.length = ag.signatures.length := List.length_map _
  have hsubperm : ag.signers.Subperm ag.requiredSigners :=
    List.subperm_of_subset h.signers_nodup h.signers_required
  rw [h.completed_iff, ← hlength]
  constructor
  · intro hfull did hdid
    have hperm : ag.signers.Perm ag.requiredSigners :=
      hsubperm.perm_of_length_le hfull.symm.le
    exact List.count_eq_one_of_mem h.signers_nodup (hperm.mem_iff.2 hdid)
  · intro hall
    have hcovered : ag.requiredSigners ⊆ ag.signers := by
      intro did hdid
      apply List.count_pos_iff.1
      rw [hall did hdid]
      exact Nat.one_pos
    have hback : ag.requiredSigners.Subperm ag.signers :=
      List.subperm_of_subset h.required_nodup hcovered
    exact Nat.le_antisymm hsubperm.length_le hback.length_le

/-! ## Over a run -/

/-- The same hash's agreement at two times: who has to sign, until when, and who may cancel. -/
structure SameTerms (ag ag' : Agreement) : Prop where
  requiredSigners : ag'.requiredSigners = ag.requiredSigners
  deadline : ag'.deadline = ag.deadline
  creator : ag'.creator = ag.creator

/-- An agreement with the terms of `ag` is stored under the hash. -/
def KeepsTerms (hash : Bytes) (ag : Agreement) (s : Store) : Prop :=
  ∃ ag', s.agreements.get? hash = some ag' ∧ SameTerms ag ag'

theorem KeepsTerms.step (h : KeepsTerms hash ag s) : KeepsTerms hash ag (step k s tx) := by
  obtain ⟨stored, hstored, hterms⟩ := h
  have hchange := agreementChange_step k s tx hash
  unfold KeepsTerms
  rw [hstored] at hchange
  generalize (Credentials.step k s tx).agreements.get? hash = new at hchange ⊢
  cases hchange with
  | unchanged => exact ⟨stored, rfl, hterms⟩
  | signed | cancelled => exact ⟨_, rfl, hterms.requiredSigners, hterms.deadline, hterms.creator⟩

/-- An agreement that is not pending stays as it is. -/
theorem closed_stays (k : Keeper) (hclosed : ag.status ≠ .pending)
    (h : s.agreements.get? hash = some ag) (more : List Tx) :
    (run (step k) s more).agreements.get? hash = some ag := by
  induction more generalizing s with
  | nil => exact h
  | cons tx rest ih =>
    apply ih
    have hchange := agreementChange_step k s tx hash
    rw [h] at hchange
    generalize (step k s tx).agreements.get? hash = new at hchange ⊢
    cases hchange with
    | unchanged => rfl
    | signed msg _ haction hhash hsignable => exact absurd hsignable.pending hclosed
    | cancelled _ hpending => exact absurd hpending hclosed

/-- A transaction of the run took the signature: the agreement stood as `before` says, with the
terms it still has, and the signer met what `Signable` asks for. -/
def SignedDuring (k : Keeper) (txs : List Tx) (hash : Bytes) (ag : Agreement)
    (sig : AgreementSignature) : Prop :=
  ∃ earlier tx later msg before, txs = earlier ++ tx :: later ∧
    tx.action = .signAgreement msg ∧ msg.hash = hash ∧ sig = ⟨msg.signerDid, tx.env.blockTime⟩ ∧
    (run (step k) Store.fresh earlier).agreements.get? hash = some before ∧ SameTerms before ag ∧
    Signable k tx.env tx.ids msg before ∧
    (step k (run (step k) Store.fresh earlier) tx).agreements.get? hash =
      some (before.signedBy msg.signerDid tx.env.blockTime)

/-- The agreement under the hash carries the signature. -/
def Carries (hash : Bytes) (sig : AgreementSignature) (s : Store) : Prop :=
  ∃ ag, s.agreements.get? hash = some ag ∧ sig ∈ ag.signatures

/-- The step that puts a signature on an agreement is one that takes this signature. -/
theorem signable_of_turn {sig : AgreementSignature} (hnot : ¬ Carries hash sig s)
    (hcarries : Carries hash sig (step k s tx)) :
    ∃ msg before, tx.action = .signAgreement msg ∧ msg.hash = hash ∧
      sig = ⟨msg.signerDid, tx.env.blockTime⟩ ∧ s.agreements.get? hash = some before ∧
      Signable k tx.env tx.ids msg before ∧
      (step k s tx).agreements.get? hash =
        some (before.signedBy msg.signerDid tx.env.blockTime) := by
  obtain ⟨ag, hag, hsig⟩ := hcarries
  have hchange := agreementChange_step k s tx hash
  rw [hag] at hchange ⊢
  generalize hold : s.agreements.get? hash = old at hchange ⊢
  cases hchange with
  | unchanged => exact absurd ⟨ag, hold, hsig⟩ hnot
  | created msg hbasic => exact absurd hsig List.not_mem_nil
  | cancelled before hpending => exact absurd ⟨before, hold, hsig⟩ hnot
  | signed msg before haction hhash hsignable =>
    refine ⟨msg, before, haction, hhash, ?_, rfl, hsignable, rfl⟩
    rcases List.mem_append.1 hsig with hearlier | hnew
    · exact absurd ⟨before, hold, hearlier⟩ hnot
    · exact List.mem_singleton.1 hnew

theorem signed_during (k : Keeper) {txs : List Tx}
    (h : (run (step k) Store.fresh txs).agreements.get? hash = some ag) {sig : AgreementSignature}
    (hsig : sig ∈ ag.signatures) : SignedDuring k txs hash ag sig := by
  have hstart : ¬ Carries hash sig Store.fresh := by
    rintro ⟨_, hnone, -⟩
    cases hnone
  obtain ⟨earlier, tx, later, rfl, hnot, hturn⟩ := exists_turning_step hstart ⟨ag, h, hsig⟩
  obtain ⟨msg, before, haction, hhash, hsame, hbefore, hsignable, hafter⟩ :=
    signable_of_turn hnot hturn
  -- the terms it had then are those it still has
  have hkept : KeepsTerms hash before (run (step k) Store.fresh (earlier ++ tx :: later)) := by
    rw [run_append]
    exact run_invariant (fun _ _ hkeeps => hkeeps.step)
      ⟨before, hbefore, rfl, rfl, rfl⟩ (tx :: later)
  obtain ⟨final, hfinal, hterms⟩ := hkept
  cases h.symm.trans hfinal
  exact ⟨earlier, tx, later, msg, before, rfl, haction, hhash, hsame, hbefore, hterms, hsignable,
    hafter⟩

/-- What a run from the default genesis leaves of an agreement. -/
theorem agreement_completes_exactly (k : Keeper) {txs : List Tx} {hash : Bytes} {ag : Agreement}
    (h : (run (step k) Store.fresh txs).agreements.get? hash = some ag) :
    (ag.status = .completed ↔ ∀ did ∈ ag.requiredSigners, ag.signers.count did = 1) ∧
      (∀ sig ∈ ag.signatures, SignedDuring k txs hash ag sig) ∧
      ag.signers ⊆ ag.requiredSigners ∧ ag.signers.Nodup ∧
      (ag.status = .completed ∨ ag.status = .cancelled → ∀ more,
        (run (step k) Store.fresh (txs ++ more)).agreements.get? hash = some ag) := by
  have hsound : Sound ag := allSound_run k txs hash ag h
  refine ⟨hsound.completed_iff_all, fun sig hsig => signed_during k h hsig,
    hsound.signers_required, hsound.signers_nodup, ?_⟩
  intro hstatus more
  have hclosed : ag.status ≠ .pending := by
    rcases hstatus with hstatus | hstatus <;> rw [hstatus] <;> decide
  rw [run_append]
  exact closed_stays k hclosed h more

/-! ## Two signers

Accounts 21 and 22 agree; the second signs in the last second of the deadline, under a limit that
the authority has lowered in between. -/

def signerIdentities : Identity.Store :=
  (run (Identity.step Identity.smallKeeper) (Identity.World.mk ⟨∅, ∅⟩ Identity.Store.fresh)
    [⟨Identity.smallEnv 1, Identity.trustIssuer⟩,
      ⟨Identity.smallEnv 2, Identity.smallRegister (accAddressString [21]) 1⟩,
      ⟨Identity.smallEnv 2, Identity.smallRegister (accAddressString [22]) 2⟩]).store

def jointRun : List Tx :=
  [⟨Identity.smallEnv 3, signerIdentities,
      .createAgreement ⟨accAddressString [21], [6], [Identity.smallDID 1, Identity.smallDID 2], 9⟩⟩,
    ⟨Identity.smallEnv 4, signerIdentities,
      .signAgreement ⟨accAddressString [21], [6], Identity.smallDID 1, [4, 1]⟩⟩,
    ⟨Identity.smallEnv 5, signerIdentities, .updateParams ⟨accAddressString [5], ⟨1⟩⟩⟩,
    ⟨Identity.smallEnv 9, signerIdentities,
      .signAgreement ⟨accAddressString [22], [6], Identity.smallDID 2, [4, 2]⟩⟩]

def jointAgreement : Agreement where
  hash := [6]
  creator := accAddressString [21]
  requiredSigners := [Identity.smallDID 1, Identity.smallDID 2]
  signatures := [⟨Identity.smallDID 1, 4⟩, ⟨Identity.smallDID 2, 9⟩]
  deadline := 9
  status := .completed
  createdAt := 3

theorem get?_jointAgreement :
    (run (step Identity.smallKeeper) Store.fresh jointRun).agreements.get? [6] =
      some jointAgreement := by decide +kernel

theorem agreement_completes_exactly_joint :
    jointAgreement.status = .completed ∧
      SignedDuring Identity.smallKeeper jointRun [6] jointAgreement ⟨Identity.smallDID 2, 9⟩ := by
  obtain ⟨-, hsigned, -⟩ := agreement_completes_exactly Identity.smallKeeper get?_jointAgreement
  exact ⟨rfl, hsigned _ (List.mem_cons_of_mem _ List.mem_cons_self)⟩

end PhiChain.Credentials
