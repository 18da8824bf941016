import PhiChain.Institutions.Effects
import Mathlib.Data.Set.Basic

/-!
# Institutions: live approvals

An approval is live while its institution is registered and its stamp is the current
admin epoch. `Effect.live` says what one effect can do to a live approval: it was
live before and its institution's admin set has not grown, or this effect recorded
it. The admin set even stays the same when no grant takes ADMIN away from its grantee
by granting another role.
-/

set_option autoImplicit false

namespace PhiChain.Institutions

open Foundations Sdk

variable {D : Type} [LinearOrder D]

/-- Accounts that act as ADMIN for an institution. -/
def Store.adminSet (s : Store D) (inst : Institution) : Set Bytes :=
  { a | s.effectiveRole inst a = .admin }

/-- A stored approval of a registered institution, stamped with the current epoch. -/
structure IsLive (s : Store D) (inst : Institution) (key : ApprovalKey D) : Prop where
  found : s.getInstitution key.institution = some inst
  stamped : s.approvals.get? key = some (s.adminEpoch key.institution)

/-- How a live approval relates to the state before the effect. -/
structure LiveBefore (calm : Prop) (s s' : Store D) (inst inst' : Institution)
    (key : ApprovalKey D) : Prop where
  live : IsLive s inst key
  admins : s'.adminSet inst' ⊆ s.adminSet inst
  same : calm → s'.adminSet inst' = s.adminSet inst
  attestor : s'.lastAttestor key.institution = s.lastAttestor key.institution ∨
    ∃ a, s'.lastAttestor key.institution = some a ∧ a ∉ s.adminSet inst

variable {inst inst' : Institution} {s s' : Store D} {key : ApprovalKey D}

theorem effectiveRole_congr (hid : inst'.id = inst.id) (hadmin : inst'.admin = inst.admin)
    {a : Bytes} (hrole : s'.roles.get? ⟨inst.id, a⟩ = s.roles.get? ⟨inst.id, a⟩) :
    s'.effectiveRole inst' a = s.effectiveRole inst a := by
  unfold Store.effectiveRole Store.getRole OrdMap.getD
  rw [hid, hadmin, hrole]

theorem adminSet_congr (hid : inst'.id = inst.id) (hadmin : inst'.admin = inst.admin)
    (hrole : ∀ a, s'.roles.get? ⟨inst.id, a⟩ = s.roles.get? ⟨inst.id, a⟩) :
    s'.adminSet inst' = s.adminSet inst := by
  ext a
  show s'.effectiveRole inst' a = .admin ↔ s.effectiveRole inst a = .admin
  rw [effectiveRole_congr hid hadmin (hrole a)]

/-- An effect that leaves an institution's authority alone. -/
theorem LiveBefore.of_same {calm : Prop} (live : IsLive s inst key)
    (same : s'.adminSet inst' = s.adminSet inst)
    (attestor : s'.lastAttestor key.institution = s.lastAttestor key.institution) :
    LiveBefore calm s s' inst inst' key :=
  ⟨live, same.subset, fun _ => same, .inl attestor⟩

theorem IsLive.id_eq (h : IsLive s inst key) : inst.id = key.institution :=
  Registry.id_of_get? h.found

/-- An approval that is live after a change of roles was live before it, and the change retired no
approval of its institution. -/
theorem IsLive.of_roleChange {id : Bytes} {ch : D} {retires : Prop} [Decidable retires]
    (hlive : IsLive s' inst key) (hs : Sound s) (hinst : s'.institutions = s.institutions)
    (happrovals : s'.approvals = (s.clearApprovals id ch).approvals)
    (hepoch : ∀ other, s'.adminEpoch other =
      if retires ∧ id = other then s.adminEpoch other + 1 else s.adminEpoch other) :
    IsLive s inst key ∧ (inst.id = id → ¬ retires) := by
  have hfound : s.getInstitution key.institution = some inst := by
    have hget := hlive.found
    unfold Store.getInstitution at hget ⊢
    rwa [hinst] at hget
  have hstored := hlive.stamped
  rw [happrovals] at hstored
  have hstored' := clearApprovals_get? hstored
  -- a raised epoch is above every stamp stored before
  have hstays : ¬ (retires ∧ id = key.institution) := by
    intro hraised
    have hle := hs.stamped key _ hstored' (Option.isSome_iff_exists.2 ⟨inst, hfound⟩)
    rw [hepoch, if_pos hraised] at hle
    exact absurd hle (Nat.not_succ_le_self _)
  rw [hepoch, if_neg hstays] at hstored'
  exact ⟨⟨hfound, hstored'⟩, fun hid hretires => hstays ⟨hretires, hid.symm.trans hlive.id_eq⟩⟩

/-- Role changes of a grant: only the grantee's entry differs. -/
theorem adminSet_setRole {i : Institution} {grantee : Bytes} {role : InstitutionRole}
    (hroles : s'.roles = s.roles.put ⟨inst.id, grantee⟩ role) (hsame : i.id = inst.id → i = inst)
    (hrole : i.id = inst.id → role ≠ .admin) :
    s'.adminSet i ⊆ s.adminSet i ∧
      (s'.adminSet i = s.adminSet i ∨ (i = inst ∧ demotes s inst grantee role)) := by
  rcases eq_or_ne i.id inst.id with hid | hid
  · obtain rfl := hsame hid
    have hother := hrole rfl
    -- for everybody but the grantee nothing changes
    have hrest : ∀ a, a ≠ grantee → s'.effectiveRole i a = s.effectiveRole i a := by
      intro a ha
      apply effectiveRole_congr rfl rfl
      rw [hroles, OrdMap.get?_put_ne]
      intro hkey
      exact ha (PartyKey.mk.inj hkey).2.symm
    have hgranted : s'.getRole i.id grantee = role := by
      unfold Store.getRole OrdMap.getD
      rw [hroles, OrdMap.get?_put_self]
      rfl
    have hgrantee : s'.effectiveRole i grantee = .admin → accAddressString grantee = i.admin := by
      intro h
      unfold Store.effectiveRole at h
      split at h
      · assumption
      · exact absurd (hgranted ▸ h) hother
    have hroot : accAddressString grantee = i.admin → s.effectiveRole i grantee = .admin := by
      intro h
      unfold Store.effectiveRole
      rw [if_pos h]
    have hsub : s'.adminSet i ⊆ s.adminSet i := by
      intro a ha
      have hadmin : s'.effectiveRole i a = .admin := ha
      rcases eq_or_ne a grantee with rfl | hne
      · exact hroot (hgrantee hadmin)
      · exact (hrest a hne).symm.trans hadmin
    refine ⟨hsub, ?_⟩
    rcases Classical.em (demotes s i grantee role) with hdemotes | hkeeps
    · exact .inr ⟨rfl, hdemotes⟩
    · left
      apply Set.Subset.antisymm hsub
      intro a ha
      have hadmin : s.effectiveRole i a = .admin := ha
      show s'.effectiveRole i a = .admin
      rcases eq_or_ne a grantee with rfl | hne
      · rcases Classical.em (accAddressString a = i.admin) with hr | hr
        · unfold Store.effectiveRole
          rw [if_pos hr]
        · unfold Store.effectiveRole at hadmin
          rw [if_neg hr] at hadmin
          exact absurd ⟨hother, hadmin, hr⟩ hkeeps
      · rw [hrest a hne]
        exact hadmin
  · have hsame' : s'.adminSet i = s.adminSet i := by
      apply adminSet_congr rfl rfl
      intro a
      rw [hroles, OrdMap.get?_put_ne]
      intro hkey
      exact hid (PartyKey.mk.inj hkey).1.symm
    exact ⟨hsame'.subset, .inl hsame'⟩

/-- Revoking from an account that is no ADMIN by grant leaves the admin sets alone. -/
theorem adminSet_deleteRole {i : Institution} {grantee : Bytes}
    (hroles : s'.roles = s.roles.erase ⟨inst.id, grantee⟩)
    (hrole : i.id = inst.id → s.getRole inst.id grantee ≠ .admin) :
    s'.adminSet i = s.adminSet i := by
  ext a
  show s'.effectiveRole i a = .admin ↔ s.effectiveRole i a = .admin
  rcases Classical.em ((⟨inst.id, grantee⟩ : PartyKey) = ⟨i.id, a⟩) with hkey | hkey
  · obtain ⟨hid, rfl⟩ := PartyKey.mk.inj hkey
    have hbefore : s.getRole i.id grantee ≠ .admin := hid ▸ hrole hid.symm
    have hafter : s'.getRole i.id grantee ≠ .admin := by
      unfold Store.getRole OrdMap.getD
      rw [hroles, ← hkey, OrdMap.get?_erase_self]
      decide
    unfold Store.effectiveRole
    split
    · rfl
    · exact ⟨fun h => absurd h hafter, fun h => absurd h hbefore⟩
  · rw [effectiveRole_congr rfl rfl]
    rw [hroles, OrdMap.get?_erase_ne _ hkey]

/-- The effect recorded the approval: for an admin, and for a mint only with a recorded
attestor other than the signer. -/
structure JustApproved (k : Keeper D) (l : Option (ApprovalKey D)) (s s' : Store D)
    (inst : Institution) (key : ApprovalKey D) : Prop where
  label : l = some key
  recorded : s' = s.recordApproval inst key.contentHash key.signer
  admin : key.signer ∈ s.adminSet inst
  content : ∃ tag parts, tag.length < 256 ^ lengthWidth ∧
    key.contentHash = k.contentHashOf (tag :: parts) ∧
    (tag = directionMint →
      ∃ a, s.lastAttestor key.institution = some a ∧ a ≠ key.signer)

section Live

variable {k : Keeper D} {calm : Prop}

theorem IsLive.of_quiet (hlive : IsLive s' inst' key) (hq : Quiet s s') :
    ∃ inst, LiveBefore calm s s' inst inst' key := by
  have hadmins := hq.admins key.institution
  rw [hlive.found] at hadmins
  obtain ⟨inst, hinst, hadmin⟩ := Option.map_eq_some_iff.1 hadmins.symm
  have hepoch : s'.adminEpoch key.institution = s.adminEpoch key.institution := by
    unfold Store.adminEpoch
    rw [hq.epochs]
  have hbefore : IsLive s inst key := by
    refine ⟨hinst, ?_⟩
    rw [← hepoch, ← hq.approvals]
    exact hlive.stamped
  refine ⟨inst, LiveBefore.of_same hbefore ?_ ?_⟩
  · apply adminSet_congr (hlive.id_eq.trans hbefore.id_eq.symm) hadmin.symm
    intro a
    rw [hq.roles]
  · unfold Store.lastAttestor
    rw [hq.attestors]

/-- A removal deletes nothing of the institutions that stay. -/
theorem IsLive.of_remove {id : Bytes}
    (hlive : IsLive (enqueueRemoval (removeInstitutionSingleRecords s id) id) inst' key) :
    LiveBefore calm s (enqueueRemoval (removeInstitutionSingleRecords s id) id) inst' inst' key := by
  have hfound := hlive.found
  rw [getInstitution_remove] at hfound
  split at hfound
  · cases hfound
  · rename_i hne
    have hepoch : (enqueueRemoval (removeInstitutionSingleRecords s id) id).adminEpoch
        key.institution = s.adminEpoch key.institution := by
      show (s.adminEpochs.erase id).getD key.institution 0 = _
      unfold OrdMap.getD
      rw [OrdMap.get?_erase_ne _ hne]
      rfl
    have hstored : s.approvals.get? key = some (s.adminEpoch key.institution) :=
      hepoch ▸ hlive.stamped
    refine LiveBefore.of_same ⟨hfound, hstored⟩ rfl ?_
    show ((s.lastAttestors.erase id).get? key.institution).filter _ = _
    rw [OrdMap.get?_erase_ne _ hne]
    rfl

/-- A new attestor is COMPLIANCE, so it is no admin. -/
theorem IsLive.of_attest {attestor : Bytes} (hbefore : IsLive s inst' key)
    (found : s.getInstitution inst.id = some inst) (nonempty : attestor ≠ [])
    (role : s.effectiveRole inst attestor = .compliance) :
    LiveBefore calm s (s.setLastAttestor inst.id attestor) inst' inst' key := by
  refine ⟨hbefore, subset_rfl, fun _ => rfl, ?_⟩
  rcases eq_or_ne inst.id key.institution with hid | hne
  · right
    refine ⟨attestor, ?_, ?_⟩
    · show ((s.lastAttestors.put inst.id attestor).get? key.institution).filter _ = _
      rw [hid, OrdMap.get?_put_self]
      simp [nonempty]
    · have hinst : inst = inst' := by
        rw [hid, hbefore.found] at found
        exact (Option.some.inj found).symm
      intro hadmin
      have hadmin' : s.effectiveRole inst' attestor = .admin := hadmin
      rw [← hinst, role] at hadmin'
      cases hadmin'
  · left
    show ((s.lastAttestors.put inst.id attestor).get? key.institution).filter _ = _
    rw [OrdMap.get?_put, if_neg hne]
    rfl

theorem IsLive.of_grant {grantee : Bytes} {role : InstitutionRole} {ch : D} (hs : Sound s)
    (hlive : IsLive (executeGrant s inst grantee role ch) inst' key)
    (found : s.getInstitution inst.id = some inst) (keeps : calm → ¬ demotes s inst grantee role) :
    LiveBefore calm s (executeGrant s inst grantee role ch) inst' inst' key := by
  obtain ⟨hinst, -, hattestors, -, hroles, happrovals, hepoch⟩ :=
    executeGrant_facts s inst grantee role ch
  obtain ⟨hbefore, hother⟩ := hlive.of_roleChange hs hinst happrovals hepoch
  have hsame : inst'.id = inst.id → inst' = inst := by
    intro heq
    have hfound := hbefore.found
    rw [← hbefore.id_eq, heq, found] at hfound
    exact (Option.some.inj hfound).symm
  obtain ⟨hsub, heq⟩ := adminSet_setRole hroles hsame hother
  refine ⟨hbefore, hsub, ?_, .inl ?_⟩
  · intro hcalm
    exact heq.resolve_right fun h => keeps hcalm h.2
  · unfold Store.lastAttestor
    rw [hattestors]

/-- A registered institution is not draining, so its roles stay. -/
theorem IsLive.of_drain {id : Bytes} {budget : Nat} (hs : Sound s)
    (hlive : IsLive (drainInstitutionRanged s id budget).2 inst' key)
    (pending : s.hasPendingRemoval id = true) :
    LiveBefore calm s (drainInstitutionRanged s id budget).2 inst' inst' key := by
  have hstored : s.approvals.get? key = some (s.adminEpoch key.institution) :=
    OrdMap.get?_of_eraseAll hlive.stamped
  have hbefore : IsLive s inst' key := ⟨hlive.found, hstored⟩
  refine LiveBefore.of_same hbefore ?_ rfl
  apply adminSet_congr rfl rfl
  intro a
  apply OrdMap.get?_eraseAll_of_not_mem
  intro hmem
  obtain ⟨hdrained, -⟩ := OrdMap.mem_keysWhere.1 (List.mem_of_mem_take hmem)
  have hid : inst'.id = id := of_decide_eq_true hdrained
  have hidle := hs.exclusive _ _ hbefore.found
  rw [← hbefore.id_eq, hid, pending] at hidle
  cases hidle

/-- What one effect can do to an approval that is live after it. -/
theorem Effect.live {l : Option (ApprovalKey D)} (h : Effect k calm l s s') (hs : Sound s)
    (hlive : IsLive s' inst' key) :
    (∃ inst, LiveBefore calm s s' inst inst' key) ∨ JustApproved k l s s' inst' key := by
  cases h with
  | quiet hq => exact .inl (hlive.of_quiet hq)
  | register inst len fresh idle =>
    -- a new institution owns no approvals
    have hstored : s.approvals.get? key = some (s.adminEpoch key.institution) := hlive.stamped
    have hne : inst.id ≠ key.institution := hs.unowned fresh idle hstored
    have hfound := hlive.found
    rw [getInstitution_setInstitution, if_neg hne] at hfound
    exact .inl ⟨inst', LiveBefore.of_same ⟨hfound, hstored⟩ rfl rfl⟩
  | remove inst found => exact .inl ⟨inst', hlive.of_remove⟩
  | attest inst attestor found nonempty role =>
    have hbefore : IsLive s inst' key := ⟨hlive.found, hlive.stamped⟩
    exact .inl ⟨inst', hbefore.of_attest found nonempty role⟩
  | approve inst tag parts signer tagLen found role separate =>
    have hstored := hlive.stamped
    rw [recordApproval_get?] at hstored
    split at hstored
    · rename_i hkey
      subst hkey
      obtain rfl : inst = inst' := Option.some.inj (found.symm.trans hlive.found)
      exact .inr ⟨rfl, rfl, role, tag, parts, tagLen, rfl, separate⟩
    · exact .inl ⟨inst', LiveBefore.of_same ⟨hlive.found, hstored⟩ rfl rfl⟩
  | clear id ch =>
    have hstored : s.approvals.get? key = some (s.adminEpoch key.institution) :=
      clearApprovals_get? hlive.stamped
    exact .inl ⟨inst', LiveBefore.of_same ⟨hlive.found, hstored⟩ rfl rfl⟩
  | grant inst grantee role ch found keeps => exact .inl ⟨inst', hlive.of_grant hs found keeps⟩
  | revoke inst grantee ch found =>
    obtain ⟨hinst, -, hattestors, -, hroles, happrovals, hepoch⟩ :=
      executeRevoke_facts s inst grantee ch
    obtain ⟨hbefore, hother⟩ := hlive.of_roleChange hs hinst happrovals hepoch
    refine .inl ⟨inst', LiveBefore.of_same hbefore (adminSet_deleteRole hroles hother) ?_⟩
    unfold Store.lastAttestor
    rw [hattestors]
  | drain id budget pending => exact .inl ⟨inst', hlive.of_drain hs pending⟩
  | dequeue id empty =>
    exact .inl ⟨inst', LiveBefore.of_same ⟨hlive.found, hlive.stamped⟩ rfl rfl⟩

end Live

end PhiChain.Institutions
