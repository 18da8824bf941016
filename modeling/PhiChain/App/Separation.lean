import PhiChain.App.Authority
import PhiChain.Institutions.Approvals

/-!
# Separation of duties

The separation check of a mint is made when an approval is recorded, against the
attestor of that moment. It still holds when the mint executes: a live approval of a
mint by a current admin is never the recorded attestor's (`Separated`), because an
attestor is COMPLIANCE when attesting and becomes ADMIN only by a grant that retires
every approval.
-/

set_option autoImplicit false

namespace PhiChain.App

open Foundations Sdk Institutions

variable {D : Type} [LinearOrder D] {k : Keeper D}

/-- A genesis store: no pending approvals or removals, and ids within the bound. -/
structure Initial (s : Store D) : Prop where
  approvals : s.approvals = ∅
  queue : s.removalQueue = ∅
  idLen : ∀ id inst, s.getInstitution id = some inst → id.length ≤ maxInstitutionIDLen
  fx : ∀ id, s.fxRequests.has id = true → id.length ≤ maxInstitutionIDLen

theorem Initial.approval {s : Store D} (h : Initial s) (key : ApprovalKey D) :
    s.approvals.get? key = none := by
  rw [h.approvals]
  rfl

theorem Initial.sound {s : Store D} (h : Initial s) : Sound s where
  idLen := h.idLen
  fx := h.fx
  queued key hkey := by
    rw [h.queue] at hkey
    cases hkey
  exclusive id inst _ := by
    unfold Store.hasPendingRemoval
    rw [h.queue]
    rfl
  owned key stamp hkey := by
    rw [h.approval] at hkey
    cases hkey
  stamped key stamp hkey := by
    rw [h.approval] at hkey
    cases hkey

/-- A live approval of a mint by a current admin is not the recorded attestor's. -/
def Separated (k : Keeper D) (s : Store D) : Prop :=
  ∀ inst key, IsLive s inst key →
    (∃ parts, key.contentHash = k.contentHashOf (directionMint :: parts)) →
    key.signer ∈ s.adminSet inst → ∃ a, s.lastAttestor key.institution = some a ∧ a ≠ key.signer

theorem Initial.separated {s : Store D} (h : Initial s) : Separated k s := by
  intro inst key hlive
  have hstored := hlive.stamped
  rw [h.approval] at hstored
  cases hstored

omit [LinearOrder D] in
/-- A digest tells the tag of the content it was taken of. -/
theorem contentHashOf_tag (hsha : Function.Injective k.sha256) {tag tag' : Bytes}
    {parts parts' : List Bytes} (hlen : tag.length < 256 ^ lengthWidth)
    (hlen' : tag'.length < 256 ^ lengthWidth)
    (h : k.contentHashOf (tag :: parts) = k.contentHashOf (tag' :: parts')) : tag = tag' :=
  (lengthPrefixed_cons_inj_of_lt (hsha h) hlen hlen').1

theorem effect_separated (hsha : Function.Injective k.sha256) {l : Option (ApprovalKey D)}
    {s s' : Store D} {calm : Prop} (h : Effect k calm l s s') (hs : Sound s)
    (hsep : Separated k s) : Separated k s' := by
  intro inst' key hlive hmint hadmin
  obtain ⟨parts', hparts'⟩ := hmint
  rcases h.live hs hlive with ⟨inst, hbefore⟩ | happroved
  · have hadmin' := hbefore.admins hadmin
    rcases hbefore.attestor with hsame | ⟨a, ha, hnot⟩
    · rw [hsame]
      exact hsep inst key hbefore.live ⟨parts', hparts'⟩ hadmin'
    · -- the new attestor is no admin, and the signer is one
      exact ⟨a, ha, fun heq => hnot (heq ▸ hadmin')⟩
  · obtain ⟨tag, parts, hlen, hhash, hseparate⟩ := happroved.content
    have htag : tag = directionMint :=
      contentHashOf_tag hsha hlen (by decide) (hhash.symm.trans hparts')
    obtain ⟨a, ha, hne⟩ := hseparate htag
    refine ⟨a, ?_, hne⟩
    rw [happroved.recorded]
    exact ha

theorem step_separated (hsha : Function.Injective k.sha256) (w : World D) (a : Ctx × Action)
    (ha : a.2 ≠ .restart) (hw : Sound w.inst ∧ Separated k w.inst) :
    Sound (step k w a).inst ∧ Separated k (step k w a).inst := by
  refine commit_preserves (p := fun w' : World D => Sound w'.inst ∧ Separated k w'.inst) hw ?_
  intro w' h
  have heffects : Effects k False _ w.inst w'.inst := apply_effects hw.1.short (fun _ => hw.1) ha False.elim h
  refine heffects.preserve (p := fun s => Sound s ∧ Separated k s) ?_ hw
  intro l s s' heffect hs
  exact ⟨heffect.sound hs.1, effect_separated hsha heffect hs.1 hs.2⟩

theorem mem_countedSigners {s : Store D} {inst : Institution} {ch : D} {a : Bytes}
    (h : a ∈ s.countedSigners inst ch) :
    s.approvals.get? ⟨inst.id, ch, a⟩ = some (s.adminEpoch inst.id) ∧ a ∈ s.adminSet inst := by
  obtain ⟨⟨⟨i, c, a'⟩, stamp⟩, hentry, rfl⟩ := List.mem_map.1 h
  obtain ⟨hmem, hcond⟩ := List.mem_filter.1 hentry
  obtain ⟨rfl, rfl, rfl, hadmin⟩ := of_decide_eq_true hcond
  exact ⟨OrdMap.mem_entries.1 hmem, hadmin⟩

/-- In every state a run reaches from genesis, a mint that executes finds a recorded attestor, and
neither its signer nor, for a large mint, any admin whose approval counts is that attestor. -/
theorem mint_separated (hsha : Function.Injective k.sha256) {w : World D} (hw : Initial w.inst)
    (as : List (Ctx × Action)) (has : ∀ a ∈ as, a.2 ≠ .restart) {ctx : Ctx}
    {msg : MsgInstitutionMint} {uphi : Int} {w' : World D}
    (hmint : institutionMint k ctx msg (run (step k) w as) = .ok (.minted uphi, w')) :
    let s := (run (step k) w as).inst
    ∃ inst signer attestor toman, s.getInstitution msg.institution = some inst ∧
      accAddressFromBech32 msg.admin = some signer ∧
      newIntFromString msg.amountToman = some toman ∧
      s.lastAttestor inst.id = some attestor ∧ signer ≠ attestor ∧
      (isLargeMint s toman →
        ∀ a ∈ (s.recordApproval inst (mintContentHash k inst.id msg) signer).countedSigners inst
          (mintContentHash k inst.id msg), a ≠ attestor) := by
  intro s
  have hinv : Sound s ∧ Separated k s := by
    have hrun : Along (step k) (fun _ a => a.2 ≠ .restart) w as := along_of_forall has
    exact @run_preserves _ _ _ _ (fun w : World D => Sound w.inst ∧ Separated k w.inst)
      (step_separated hsha) _ ⟨hw.sound, hw.separated⟩ _ hrun
  obtain ⟨plan, gate, s₁, hacc, -, -⟩ := institutionMint_ok hmint
  obtain ⟨signer, attestor, hsigner, hattestor, hne⟩ := requireMintSeparation_ok hacc.separation
  refine ⟨plan.inst, signer, attestor, plan.toman, hacc.found, hsigner, hacc.toman, hattestor,
    hne.symm, ?_⟩
  intro _ a ha
  obtain ⟨hstored, hadmin⟩ := mem_countedSigners ha
  rw [recordApproval_get?] at hstored
  split at hstored
  · rename_i hkey
    -- the approval this mint has just recorded
    rw [← (ApprovalKey.mk.inj hkey).2.2]
    exact hne.symm
  · have hlive : IsLive s plan.inst ⟨plan.inst.id, mintContentHash k plan.inst.id msg, a⟩ :=
      ⟨Store.getInstitution_self hacc.found, hstored⟩
    obtain ⟨b, hb, hbne⟩ := hinv.2 plan.inst _ hlive ⟨_, rfl⟩ hadmin
    obtain rfl : b = attestor := Option.some.inj (hb.symm.trans hattestor)
    exact hbne.symm

theorem multisigStore_initial : Initial multisigStore where
  approvals := rfl
  queue := rfl
  idLen id inst h := by
    have hget : (multisigStore.institutions.get? id) = some inst := h
    have hset : multisigStore.institutions = Registry.empty.set multisigInstitution := rfl
    rw [hset, Registry.get?_set] at hget
    split at hget
    · rename_i hid
      rw [← hid]
      decide
    · cases hget
  fx id h := by cases h

/-- A large mint that executes on the second admin's approval. -/
theorem mint_separated_twoAdmins :
    let w := run (step textKeeper) multisigWorld [(smallCtx 1000, .mint (largeMint [1]))]
    (∃ w', institutionMint textKeeper (smallCtx 1000) (largeMint [2]) w = .ok (.minted 100, w')) ∧
      ∃ inst attestor, w.inst.lastAttestor inst.id = some attestor ∧
        ∀ a ∈ (w.inst.recordApproval inst (mintContentHash textKeeper inst.id (largeMint [2]))
          [2]).countedSigners inst (mintContentHash textKeeper inst.id (largeMint [2])),
          a ≠ attestor := by
  intro w
  have hamount : mintedAmount (institutionMint textKeeper (smallCtx 1000) (largeMint [2]) w) =
      some 100 := by decide +kernel
  have hmint := mintedAmount_eq hamount
  refine ⟨hmint, ?_⟩
  obtain ⟨w', hw'⟩ := hmint
  have hrun : ∀ a ∈ [((smallCtx 1000, .mint (largeMint [1])) : Ctx × Action)], a.2 ≠ .restart := by
    simp
  obtain ⟨inst, signer, attestor, toman, -, hsigner, htoman, hattestor, -, hcounted⟩ :=
    mint_separated Function.injective_id multisigStore_initial _ hrun hw'
  have h2 : signer = [2] := Option.some.inj (hsigner.symm.trans (by decide +kernel))
  have h10 : toman = 10 := Option.some.inj (htoman.symm.trans (by decide +kernel))
  subst h2 h10
  exact ⟨inst, attestor, hattestor, hcounted (by decide +kernel)⟩

end PhiChain.App
