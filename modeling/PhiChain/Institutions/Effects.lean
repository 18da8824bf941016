import PhiChain.Institutions.Removal
import Mathlib.Logic.Relation

/-!
# Institutions: primitive effects on authority

What a handler or a sweep does to the authority state of institutions (records,
roles, approvals, epochs, attestors and the removal queue) is a sequence of a few
primitive effects. `Sound` is the bookkeeping invariant of that state: an approval
belongs to an id that is registered or still draining, and no stamp is ahead of its
institution's epoch. Results about approvals are proved per effect.
-/

set_option autoImplicit false

namespace PhiChain.Institutions

open Foundations Sdk

variable {D : Type} [LinearOrder D]

/-- Nothing of the authority state differs: records keep their root admin, and roles,
approvals, epochs, attestors and the queue are the same. New fx requests are for ids
within the length bound. -/
structure Quiet (s s' : Store D) : Prop where
  admins : ∀ id, (s'.getInstitution id).map Institution.admin =
    (s.getInstitution id).map Institution.admin
  roles : s'.roles = s.roles
  approvals : s'.approvals = s.approvals
  epochs : s'.adminEpochs = s.adminEpochs
  attestors : s'.lastAttestors = s.lastAttestors
  queue : s'.removalQueue = s.removalQueue
  fx : ∀ id, s'.fxRequests.has id = true →
    s.fxRequests.has id = true ∨ id.length ≤ maxInstitutionIDLen

/-- The granted role is not ADMIN, and the grantee holds ADMIN by a grant. -/
def demotes (s : Store D) (inst : Institution) (grantee : Bytes) (role : InstitutionRole) : Prop :=
  role ≠ .admin ∧ s.getRole inst.id grantee = .admin ∧ accAddressString grantee ≠ inst.admin

instance (s : Store D) (inst : Institution) (grantee : Bytes) (role : InstitutionRole) :
    Decidable (demotes s inst grantee role) :=
  inferInstanceAs (Decidable (_ ∧ _ ∧ _))

/-- If the message grants a role other than ADMIN, its grantee is not an ADMIN by grant. -/
def SensitiveMsg.keepsAdmins (inst : Institution) (s : Store D) : SensitiveMsg → Prop
  | .grant m => ∀ grantee, accAddressFromBech32 m.grantee = some grantee →
      ¬ demotes s inst grantee m.role
  | _ => True

/-- Primitive effects on the authority state, labelled with the approval they record. An
approval is given for the content of some action: `tag` names the action and `parts`
are its fields. When `calm`, no grant takes ADMIN away from its grantee. -/
inductive Effect (k : Keeper D) (calm : Prop) :
    Option (ApprovalKey D) → Store D → Store D → Prop where
  | quiet {s s' : Store D} (h : Quiet s s') : Effect k calm none s s'
  | register {s : Store D} (inst : Institution) (len : inst.id.length ≤ maxInstitutionIDLen)
      (fresh : s.institutions.has inst.id = false) (idle : s.hasPendingRemoval inst.id = false) :
      Effect k calm none s (s.setInstitution inst)
  | remove {s : Store D} (inst : Institution) (found : s.getInstitution inst.id = some inst) :
      Effect k calm none s (enqueueRemoval (removeInstitutionSingleRecords s inst.id) inst.id)
  | attest {s : Store D} (inst : Institution) (attestor : Bytes)
      (found : s.getInstitution inst.id = some inst) (nonempty : attestor ≠ [])
      (role : s.effectiveRole inst attestor = .compliance) :
      Effect k calm none s (s.setLastAttestor inst.id attestor)
  | approve {s : Store D} (inst : Institution) (tag : Bytes) (parts : List Bytes) (signer : Bytes)
      (tagLen : tag.length < 256 ^ lengthWidth) (found : s.getInstitution inst.id = some inst)
      (role : s.effectiveRole inst signer = .admin)
      (separate : tag = directionMint →
        ∃ attestor, s.lastAttestor inst.id = some attestor ∧ attestor ≠ signer) :
      Effect k calm (some ⟨inst.id, k.contentHashOf (tag :: parts), signer⟩) s
        (s.recordApproval inst (k.contentHashOf (tag :: parts)) signer)
  | clear {s : Store D} (id : Bytes) (ch : D) : Effect k calm none s (s.clearApprovals id ch)
  | grant {s : Store D} (inst : Institution) (grantee : Bytes) (role : InstitutionRole) (ch : D)
      (found : s.getInstitution inst.id = some inst)
      (keeps : calm → ¬ demotes s inst grantee role) :
      Effect k calm none s (executeGrant s inst grantee role ch)
  | revoke {s : Store D} (inst : Institution) (grantee : Bytes) (ch : D)
      (found : s.getInstitution inst.id = some inst) :
      Effect k calm none s (executeRevoke s inst grantee ch)
  | drain {s : Store D} (id : Bytes) (budget : Nat) (pending : s.hasPendingRemoval id = true) :
      Effect k calm none s (drainInstitutionRanged s id budget).2
  | dequeue {s : Store D} (id : Bytes) (empty : institutionRangedEmpty s id = true) :
      Effect k calm none s (dequeueRemoval s id)

/-! ## Reading the authority state after a write -/

theorem getInstitution_setInstitution (s : Store D) (inst : Institution) (id : Bytes) :
    (s.setInstitution inst).getInstitution id =
      if inst.id = id then some inst else s.getInstitution id :=
  Registry.get?_set _ _ _

theorem getInstitution_remove (s : Store D) (id j : Bytes) :
    (enqueueRemoval (removeInstitutionSingleRecords s id) id).getInstitution j =
      if id = j then none else s.getInstitution j :=
  Registry.get?_erase _ _ _

theorem removalQueueKey_eq_iff {id j : Bytes} : removalQueueKey id = removalQueueKey j ↔ id = j :=
  ⟨removalQueueKey_inj, congrArg removalQueueKey⟩

theorem hasPendingRemoval_enqueue (s : Store D) (id j : Bytes) :
    (enqueueRemoval s id).hasPendingRemoval j = true ↔ id = j ∨ s.hasPendingRemoval j = true :=
  OrdMap.has_put.trans (or_congr_left removalQueueKey_eq_iff)

theorem hasPendingRemoval_dequeue (s : Store D) (id j : Bytes) :
    (dequeueRemoval s id).hasPendingRemoval j = true ↔ id ≠ j ∧ s.hasPendingRemoval j = true :=
  OrdMap.has_erase.trans (and_congr_left fun _ => not_congr removalQueueKey_eq_iff)

theorem adminEpoch_bump (s : Store D) (id j : Bytes) :
    (s.bumpAdminEpoch id).adminEpoch j =
      if id = j then s.adminEpoch id + 1 else s.adminEpoch j := by
  unfold Store.adminEpoch Store.bumpAdminEpoch OrdMap.getD
  rw [OrdMap.get?_put]
  split
  · rfl
  · rfl

variable {id : Bytes} {s s' : Store D}

/-- Clearing keeps no approval that was not there, and none of the cleared content. -/
theorem clearApprovals_get? {ch : D} {key : ApprovalKey D} {stamp : Nat}
    (h : (s.clearApprovals id ch).approvals.get? key = some stamp) :
    s.approvals.get? key = some stamp :=
  OrdMap.get?_of_eraseAll h

theorem recordApproval_get? (s : Store D) (inst : Institution) (ch : D) (signer : Bytes)
    (key : ApprovalKey D) :
    (s.recordApproval inst ch signer).approvals.get? key =
      if (⟨inst.id, ch, signer⟩ : ApprovalKey D) = key then some (s.adminEpoch inst.id)
      else s.approvals.get? key :=
  OrdMap.get?_put _ _ _ _

/-! ## The bookkeeping invariant -/

/-- Bookkeeping invariant of the authority state. -/
structure Sound (s : Store D) : Prop where
  idLen : ∀ id inst, s.getInstitution id = some inst → id.length ≤ maxInstitutionIDLen
  queued : ∀ key, s.removalQueue.has key = true →
    ∃ id, id.length ≤ maxInstitutionIDLen ∧ key = removalQueueKey id
  fx : ∀ id, s.fxRequests.has id = true → id.length ≤ maxInstitutionIDLen
  exclusive : ∀ id inst, s.getInstitution id = some inst → s.hasPendingRemoval id = false
  owned : ∀ key stamp, s.approvals.get? key = some stamp →
    (s.getInstitution key.institution).isSome ∨ s.hasPendingRemoval key.institution = true
  stamped : ∀ key stamp, s.approvals.get? key = some stamp →
    (s.getInstitution key.institution).isSome → stamp ≤ s.adminEpoch key.institution

/-- Effects that neither register nor dequeue keep the invariant when they keep records
and queue, add no approval, and lower no epoch. -/
theorem Sound.of_fewer (hs : Sound s)
    (records : ∀ id, (s'.getInstitution id).isSome = (s.getInstitution id).isSome)
    (queue : s'.removalQueue = s.removalQueue)
    (approvals : ∀ key stamp, s'.approvals.get? key = some stamp →
      s.approvals.get? key = some stamp) (epochs : ∀ id, s.adminEpoch id ≤ s'.adminEpoch id)
    (fx : ∀ id, s'.fxRequests.has id = true →
      s.fxRequests.has id = true ∨ id.length ≤ maxInstitutionIDLen) : Sound s' := by
  have hregistered : ∀ {id inst}, s'.getInstitution id = some inst →
      ∃ old, s.getInstitution id = some old := by
    intro id inst h
    exact Option.isSome_iff_exists.1 (by rw [← records, h]; rfl)
  have hpending : ∀ id, s'.hasPendingRemoval id = s.hasPendingRemoval id := by
    intro id
    unfold Store.hasPendingRemoval
    rw [queue]
  refine ⟨?_, ?_, fun j h => (fx j h).elim (hs.fx j) fun hlen => hlen, ?_, ?_, ?_⟩
  · intro id inst h
    obtain ⟨old, hold⟩ := hregistered h
    exact hs.idLen id old hold
  · intro key h
    rw [queue] at h
    exact hs.queued key h
  · intro id inst h
    obtain ⟨old, hold⟩ := hregistered h
    rw [hpending]
    exact hs.exclusive id old hold
  · intro key stamp h
    rw [records, hpending]
    exact hs.owned key stamp (approvals key stamp h)
  · intro key stamp h hreg
    rw [records] at hreg
    exact (hs.stamped key stamp (approvals key stamp h) hreg).trans (epochs _)

theorem Quiet.isSome (h : Quiet s s') (id : Bytes) :
    (s'.getInstitution id).isSome = (s.getInstitution id).isSome := by
  have hmap := congrArg Option.isSome (h.admins id)
  simpa using hmap

/-- A change of a role: the approvals of one content are cleared, and the epoch of the institution
advances where the change retires its approvals. -/
structure RoleChange (s s' : Store D) (id : Bytes) (ch : D) (roles : OrdMap PartyKey InstitutionRole)
    (retires : Prop) [Decidable retires] : Prop where
  institutions : s'.institutions = s.institutions
  queue : s'.removalQueue = s.removalQueue
  attestors : s'.lastAttestors = s.lastAttestors
  fx : s'.fxRequests = s.fxRequests
  roles : s'.roles = roles
  approvals : s'.approvals = (s.clearApprovals id ch).approvals
  epoch : ∀ j, s'.adminEpoch j =
    if retires ∧ id = j then s.adminEpoch j + 1 else s.adminEpoch j

theorem roleChange_of_bump (s : Store D) (id : Bytes) (ch : D)
    (roles : OrdMap PartyKey InstitutionRole) (retires : Prop) [Decidable retires] :
    RoleChange s (if retires then
        Store.bumpAdminEpoch { s.clearApprovals id ch with roles := roles } id
      else { s.clearApprovals id ch with roles := roles }) id ch roles retires := by
  split
  · rename_i hretires
    refine ⟨rfl, rfl, rfl, rfl, rfl, rfl, fun j => ?_⟩
    rw [adminEpoch_bump]
    rcases eq_or_ne id j with rfl | hid
    · rw [if_pos rfl, if_pos ⟨hretires, rfl⟩]
      rfl
    · rw [if_neg hid, if_neg fun h => hid h.2]
      rfl
  · rename_i hkeeps
    refine ⟨rfl, rfl, rfl, rfl, rfl, rfl, fun j => ?_⟩
    rw [if_neg fun h => hkeeps h.1]
    rfl

theorem executeGrant_facts (s : Store D) (inst : Institution) (grantee : Bytes)
    (role : InstitutionRole) (ch : D) :
    RoleChange s (executeGrant s inst grantee role ch) inst.id ch
      (s.roles.put ⟨inst.id, grantee⟩ role) (role = .admin) :=
  roleChange_of_bump s inst.id ch _ _

theorem executeRevoke_facts (s : Store D) (inst : Institution) (grantee : Bytes) (ch : D) :
    RoleChange s (executeRevoke s inst grantee ch) inst.id ch
      (s.roles.erase ⟨inst.id, grantee⟩) (s.getRole inst.id grantee = .admin) :=
  roleChange_of_bump s inst.id ch _ _

theorem Sound.of_roleChange (hs : Sound s) {ch : D} (hinst : s'.institutions = s.institutions)
    (hqueue : s'.removalQueue = s.removalQueue) (hfx : s'.fxRequests = s.fxRequests)
    (happrovals : s'.approvals = (s.clearApprovals id ch).approvals)
    (hepoch : ∀ j, s.adminEpoch j ≤ s'.adminEpoch j) : Sound s' := by
  refine hs.of_fewer ?_ hqueue ?_ hepoch ?_
  · intro j
    unfold Store.getInstitution
    rw [hinst]
  · intro key stamp h
    rw [happrovals] at h
    exact clearApprovals_get? h
  · intro j h
    rw [hfx] at h
    exact .inl h

/-- An id that is neither registered nor draining owns no approvals. -/
theorem Sound.unowned (hs : Sound s) (fresh : s.institutions.has id = false)
    (idle : s.hasPendingRemoval id = false) {key : ApprovalKey D} {stamp : Nat}
    (h : s.approvals.get? key = some stamp) :
    id ≠ key.institution := by
  have hnone : s.getInstitution id = none := OrdMap.has_eq_false.1 fresh
  rintro rfl
  rcases hs.owned key stamp h with hreg | hpending
  · rw [hnone] at hreg
    cases hreg
  · rw [idle] at hpending
    cases hpending

theorem Sound.register (hs : Sound s) {inst : Institution}
    (len : inst.id.length ≤ maxInstitutionIDLen) (fresh : s.institutions.has inst.id = false)
    (idle : s.hasPendingRemoval inst.id = false) : Sound (s.setInstitution inst) := by
  have hunowned : ∀ key stamp, s.approvals.get? key = some stamp → inst.id ≠ key.institution :=
    fun _ _ h => hs.unowned fresh idle h
  refine ⟨?_, hs.queued, hs.fx, ?_, ?_, ?_⟩
  · intro id i h
    rw [getInstitution_setInstitution] at h
    split at h
    · rename_i hid
      exact hid ▸ len
    · exact hs.idLen id i h
  · intro id i h
    rw [getInstitution_setInstitution] at h
    split at h
    · rename_i hid
      exact hid ▸ idle
    · exact hs.exclusive id i h
  · intro key stamp h
    rw [getInstitution_setInstitution, if_neg (hunowned key stamp h)]
    exact hs.owned key stamp h
  · intro key stamp h hreg
    rw [getInstitution_setInstitution, if_neg (hunowned key stamp h)] at hreg
    exact hs.stamped key stamp h hreg

theorem Sound.remove (hs : Sound s) {inst : Institution}
    (found : s.getInstitution inst.id = some inst) :
    Sound (enqueueRemoval (removeInstitutionSingleRecords s inst.id) inst.id) := by
  refine ⟨?_, ?_, hs.fx, ?_, ?_, ?_⟩
  · intro id i h
    rw [getInstitution_remove] at h
    split at h
    · cases h
    · exact hs.idLen id i h
  · intro key h
    rcases OrdMap.has_put.1 h with hkey | hold
    · exact ⟨inst.id, hs.idLen _ _ found, hkey.symm⟩
    · exact hs.queued key hold
  · intro id i h
    rw [getInstitution_remove] at h
    split at h
    · cases h
    · rename_i hid
      rw [Bool.eq_false_iff, ne_eq, hasPendingRemoval_enqueue]
      rintro (rfl | hpending)
      · exact hid rfl
      · exact Bool.eq_false_iff.1 (hs.exclusive id i h) hpending
  · intro key stamp h
    rw [getInstitution_remove, hasPendingRemoval_enqueue]
    rcases eq_or_ne inst.id key.institution with hid | hid
    · exact .inr (.inl hid)
    · rw [if_neg hid]
      exact (hs.owned key stamp h).imp id .inr
  · intro key stamp h hreg
    rw [getInstitution_remove] at hreg
    split at hreg
    · cases hreg
    · rename_i hid
      have hepoch : (enqueueRemoval (removeInstitutionSingleRecords s inst.id) inst.id).adminEpoch
          key.institution = s.adminEpoch key.institution := by
        show (s.adminEpochs.erase inst.id).getD key.institution 0 = _
        unfold OrdMap.getD
        rw [OrdMap.get?_erase, if_neg hid]
        rfl
      rw [hepoch]
      exact hs.stamped key stamp h hreg

/-- The ids of institutions and of fx requests are within the bound. -/
structure ShortIds (s : Store D) : Prop where
  institutions : ∀ id inst, s.getInstitution id = some inst → id.length ≤ maxInstitutionIDLen
  requests : ∀ id, s.fxRequests.has id = true → id.length ≤ maxInstitutionIDLen

theorem Sound.short (hs : Sound s) : ShortIds s := ⟨hs.idLen, hs.fx⟩

theorem ShortIds.of_eq (hs : ShortIds s) (hinst : s'.institutions = s.institutions)
    (hfx : s'.fxRequests = s.fxRequests) : ShortIds s' := by
  refine ⟨fun id inst h => ?_, fun id h => ?_⟩
  · unfold Store.getInstitution at h
    rw [hinst] at h
    exact hs.institutions id inst h
  · rw [hfx] at h
    exact hs.requests id h

/-- No effect names an institution with a longer id. -/
theorem Effect.short {k : Keeper D} {calm : Prop} {l : Option (ApprovalKey D)}
    (h : Effect k calm l s s') (hs : ShortIds s) : ShortIds s' := by
  cases h with
  | quiet hq =>
    refine ⟨fun id inst h => ?_, fun id h => (hq.fx id h).elim (hs.requests id) fun hlen => hlen⟩
    have hsome : (s.getInstitution id).isSome = true := by
      rw [← hq.isSome, h]
      rfl
    obtain ⟨old, hold⟩ := Option.isSome_iff_exists.1 hsome
    exact hs.institutions id old hold
  | register inst len fresh idle =>
    refine ⟨fun id i h => ?_, hs.requests⟩
    rw [getInstitution_setInstitution] at h
    split at h
    · rename_i hid
      exact hid ▸ len
    · exact hs.institutions id i h
  | remove inst found =>
    refine ⟨fun id i h => ?_, hs.requests⟩
    rw [getInstitution_remove] at h
    split at h
    · cases h
    · exact hs.institutions id i h
  | attest | approve | clear | drain | dequeue => exact hs.of_eq rfl rfl
  | grant inst grantee role ch found keeps =>
    obtain ⟨hinst, -, -, hfx, -⟩ := executeGrant_facts s inst grantee role ch
    exact hs.of_eq hinst hfx
  | revoke inst grantee ch found =>
    obtain ⟨hinst, -, -, hfx, -⟩ := executeRevoke_facts s inst grantee ch
    exact hs.of_eq hinst hfx

/-- An epoch is kept in 64 bits; an effect raises it by one at most, so that 2 ^ 64 of them would
have to pass before it starts over. -/
theorem Effect.adminEpoch_le {k : Keeper D} {calm : Prop} {l : Option (ApprovalKey D)}
    (h : Effect k calm l s s') (id : Bytes) : s'.adminEpoch id ≤ s.adminEpoch id + 1 := by
  cases h with
  | quiet hq =>
    unfold Store.adminEpoch
    rw [hq.epochs]
    exact Nat.le_succ _
  | remove inst found =>
    -- the epoch is dropped, and a new institution of the id counts from zero
    show (s.adminEpochs.erase inst.id).getD id 0 ≤ _
    rw [OrdMap.getD, OrdMap.get?_erase]
    split
    · exact Nat.zero_le _
    · exact Nat.le_succ _
  | grant inst grantee role ch =>
    rw [(executeGrant_facts s inst grantee role ch).epoch]
    split <;> omega
  | revoke inst grantee ch =>
    rw [(executeRevoke_facts s inst grantee ch).epoch]
    split <;> omega
  | register | attest | approve | clear | drain | dequeue => exact Nat.le_succ _

/-- Every effect keeps the bookkeeping. -/
theorem Effect.sound {k : Keeper D} {calm : Prop} {l : Option (ApprovalKey D)}
    (h : Effect k calm l s s') (hs : Sound s) : Sound s' := by
  cases h with
  | quiet hq =>
    apply hs.of_fewer hq.isSome hq.queue _ _ hq.fx
    · intro key stamp h
      rwa [hq.approvals] at h
    · intro id
      unfold Store.adminEpoch
      rw [hq.epochs]
  | register inst len fresh idle => exact hs.register len fresh idle
  | remove inst found => exact hs.remove found
  | attest inst attestor found nonempty role =>
    exact hs.of_fewer (fun _ => rfl) rfl (fun _ _ h => h) (fun _ => le_refl _) (fun _ => .inl)
  | approve inst tag parts signer tagLen found role separate =>
    refine ⟨hs.idLen, hs.queued, hs.fx, hs.exclusive, ?_, ?_⟩
    · intro key stamp h
      rw [recordApproval_get?] at h
      split at h
      · rename_i hkey
        subst hkey
        exact .inl (Option.isSome_iff_exists.2 ⟨inst, found⟩)
      · exact hs.owned key stamp h
    · intro key stamp h hreg
      rw [recordApproval_get?] at h
      split at h
      · rename_i hkey
        subst hkey
        cases h
        exact le_refl _
      · exact hs.stamped key stamp h hreg
  | clear id ch =>
    exact hs.of_fewer (fun _ => rfl) rfl (fun _ _ h => clearApprovals_get? h) (fun _ => le_refl _)
      (fun _ => .inl)
  | grant inst grantee role ch found keeps =>
    obtain ⟨hinst, hqueue, -, hfx, -, happrovals, hepoch⟩ := executeGrant_facts s inst grantee role ch
    apply hs.of_roleChange hinst hqueue hfx happrovals
    intro id
    rw [hepoch]
    split
    · exact Nat.le_succ _
    · exact le_refl _
  | revoke inst grantee ch found =>
    obtain ⟨hinst, hqueue, -, hfx, -, happrovals, hepoch⟩ := executeRevoke_facts s inst grantee ch
    apply hs.of_roleChange hinst hqueue hfx happrovals
    intro id
    rw [hepoch]
    split
    · exact Nat.le_succ _
    · exact le_refl _
  | drain id budget pending =>
    exact hs.of_fewer (fun _ => rfl) rfl (fun _ _ h => OrdMap.get?_of_eraseAll h)
      (fun _ => le_refl _) (fun _ => .inl)
  | dequeue id empty =>
    refine ⟨hs.idLen, ?_, hs.fx, ?_, ?_, hs.stamped⟩
    · intro key h
      exact hs.queued key (OrdMap.has_of_erase h)
    · intro j inst h
      rw [Bool.eq_false_iff, ne_eq, hasPendingRemoval_dequeue]
      rintro ⟨-, hpending⟩
      exact Bool.eq_false_iff.1 (hs.exclusive j inst h) hpending
    · intro key stamp h
      rw [hasPendingRemoval_dequeue]
      have hid : id ≠ key.institution := ((institutionRangedEmpty_iff.1 empty).2.1 key _ h).symm
      exact (hs.owned key stamp h).imp (fun hreg => hreg) fun hpending => ⟨hid, hpending⟩

end PhiChain.Institutions
