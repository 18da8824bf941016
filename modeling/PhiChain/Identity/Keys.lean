import PhiChain.Identity.Uniqueness

/-!
# Identity: keys and DIDs

A DID is derived from the key it was registered with, and a rotation or a recovery refuses
a key that derives another registered DID. Registration makes no such check the other way
round: a DID whose key has meanwhile been taken by another identity can still be registered
(`shared_key_after_registration`). Without such registrations no key serves two identities
(`noSharedKey_of_run`).
-/

set_option autoImplicit false

namespace PhiChain.Identity

open Foundations Sdk

variable {k : Keeper} {env : Env} {w w' : World} {a : Action}

/-- No stored key derives the DID of another document. -/
def NoSharedKey (k : Keeper) (s : Store) : Prop :=
  ∀ did₁ did₂ doc₁ doc₂, did₁ ≠ did₂ → s.getIdentity did₁ = some doc₁ →
    s.getIdentity did₂ = some doc₂ → deriveDIDForKeyType k doc₁.keyType doc₁.pubKey ≠ some did₂

/-- A registered DID is not derived by the key of a stored document. -/
def unclaimed (k : Keeper) (w : World) : Action → Bool
  | .registerIdentity msg => w.store.directory.documents.all fun doc =>
    deriveDIDForKeyType k doc.keyType doc.pubKey ≠ some msg.did
  | _ => true

theorem derived_of_verifyRegistration {msg : MsgRegisterIdentity} {s : Store}
    (h : verifyRegistration k env msg s = .ok ()) :
    deriveDIDForKeyType k msg.keyType msg.pubKey = some msg.did := by
  simp only [verifyRegistration, bind_eq_ok, orFail_eq_ok, ensure_eq_ok, exists_const] at h
  obtain ⟨_, _, derived, hderived, hdid, _⟩ := h
  rw [hdid]
  exact hderived

theorem derived_of_assertNoKeyCollision {keyType : KeyType} {pubKey : Bytes} {s : Store}
    (h : assertNoKeyCollision k keyType pubKey s = .ok ()) :
    ∃ derived, deriveDIDForKeyType k keyType pubKey = some derived ∧ s.hasIdentity derived = false := by
  simp only [assertNoKeyCollision, bind_eq_ok, orFail_eq_ok, ensure_eq_ok, exists_const] at h
  obtain ⟨rfl, derived, hderived, hfree⟩ := h
  exact ⟨derived, hderived, hfree⟩

/-- A key that derives an unregistered DID derives no registered one. -/
theorem ne_of_free {s : Store} {derived did : Bytes} {doc : DIDDocument}
    (hfree : s.hasIdentity derived = false) (hdoc : s.getIdentity did = some doc) :
    some derived ≠ some did := by
  rintro h
  cases h
  rw [hasIdentity_of_get hdoc] at hfree
  cases hfree

/-- The key of the document written derives no other document that was there before. -/
theorem derive_ne_of_writes {d doc : DIDDocument} {did : Bytes} (h : NoSharedKey k w.store)
    (hwrites : Writes k env w a d) (hne : d.did ≠ did) (hdoc : w.store.getIdentity did = some doc) :
    deriveDIDForKeyType k d.keyType d.pubKey ≠ some did := by
  cases hwrites with
  | registered msg hnew hunused hverified =>
    intro hderived
    have hown : deriveDIDForKeyType k msg.keyType msg.pubKey = some msg.did :=
      derived_of_verifyRegistration hverified
    exact hne (Option.some.inj (hown.symm.trans hderived))
  | revoked msg prev hprev | restated msg prev hprev =>
    exact h _ did prev doc hne ((did_of_getIdentity hprev).symm ▸ hprev) hdoc
  | rekeyed msg prev derived hprev hderived hfree =>
    intro hsame
    have hsame' : deriveDIDForKeyType k prev.keyType msg.newPubKey = some did := hsame
    rw [hderived] at hsame'
    rcases hfree with hown | hfree
    · exact hne (hown.symm.trans (Option.some.inj hsame'))
    · exact ne_of_free hfree hdoc hsame'
  | recovered msg r prev hget hprev hactive hfree =>
    obtain ⟨derived, hderived, hunregistered⟩ := derived_of_assertNoKeyCollision hfree
    intro hsame
    have hsame' : deriveDIDForKeyType k r.keyType r.proposedNewPubKey = some did := hsame
    rw [hderived] at hsame'
    exact ne_of_free hunregistered hdoc hsame'

theorem noSharedKey_of_event (hevent : Event k env w a w') (hok : unclaimed k w a = true)
    (h : NoSharedKey k w.store) : NoSharedKey k w'.store := by
  intro did₁ did₂ doc₁ doc₂ hne hdoc₁ hdoc₂
  rcases (summary_of_event hevent).directory with hsame | ⟨d, hwrites, hset⟩
  · rw [getIdentity_of_same hsame] at hdoc₁ hdoc₂
    exact h did₁ did₂ doc₁ doc₂ hne hdoc₁ hdoc₂
  · rw [getIdentity_of_set hset] at hdoc₁ hdoc₂
    by_cases hfirst : d.did = did₁
    · have hother : d.did ≠ did₂ := fun hsecond => hne (hfirst.symm.trans hsecond)
      rw [if_pos hfirst] at hdoc₁
      rw [if_neg hother] at hdoc₂
      cases hdoc₁
      exact derive_ne_of_writes h hwrites hother hdoc₂
    · rw [if_neg hfirst] at hdoc₁
      by_cases hsecond : d.did = did₂
      · subst hsecond
        rcases hwrites.previous with ⟨msg, ha, rfl, -⟩ | ⟨prev, hprev, -, -⟩
        · subst ha
          have hmem := Directory.mem_documents.2 ((did_of_getIdentity hdoc₁).symm ▸ hdoc₁)
          exact of_decide_eq_true (List.all_eq_true.1 hok doc₁ hmem)
        · exact h did₁ _ doc₁ prev hne hdoc₁ hprev
      · rw [if_neg hsecond] at hdoc₂
        exact h did₁ did₂ doc₁ doc₂ hne hdoc₁ hdoc₂

/-- In every run from an empty registry whose registrations name DIDs that no stored key
derives, no key serves two identities. -/
theorem noSharedKey_of_run {bank : Bank} {params : Params} {txs : List Tx}
    (h : Along (step k) (fun w tx => unclaimed k w tx.action = true) (emptyRegistry bank params) txs) :
    NoSharedKey k (run (step k) (emptyRegistry bank params) txs).store := by
  refine @run_preserves _ _ (step k) _ (fun w => NoSharedKey k w.store) ?_ _ ?_ _ h
  · intro w tx hok hw
    exact step_preserves (p := fun w => NoSharedKey k w.store) hw
      fun w' _ hevent => noSharedKey_of_event hevent hok hw
  · intro did₁ did₂ doc₁ doc₂ _ hdoc₁
    cases hdoc₁

/-- A key is rotated to a new one, and its DID is not registered. -/
theorem noSharedKey_of_rotation :
    NoSharedKey smallKeeper (run (step smallKeeper) (emptyRegistry ⟨∅, ∅⟩ smallParams)
      [⟨smallEnv 10, trustIssuer⟩, ⟨smallEnv 10, smallRegister (accAddressString [21]) 1⟩,
        ⟨smallEnv 11, .rotateIdentityKey ⟨accAddressString [21], smallDID 1, [4, 2], [4, 2]⟩⟩,
        ⟨smallEnv 11, smallRegister (accAddressString [22]) 3⟩]).store :=
  noSharedKey_of_run (by decide +kernel)

/-- Account 21 rotates its identity to key 2; account 22 then registers the DID of key 2, and
one key serves two identities. -/
theorem shared_key_after_registration :
    ¬ NoSharedKey smallKeeper (run (step smallKeeper) (emptyRegistry ⟨∅, ∅⟩ smallParams)
      [⟨smallEnv 10, trustIssuer⟩, ⟨smallEnv 10, smallRegister (accAddressString [21]) 1⟩,
        ⟨smallEnv 11, .rotateIdentityKey ⟨accAddressString [21], smallDID 1, [4, 2], [4, 2]⟩⟩,
        ⟨smallEnv 11, smallRegister (accAddressString [22]) 2⟩]).store := by
  intro h
  refine h (smallDID 1) (smallDID 2)
    ⟨smallDID 1, accAddressString [21], [4, 2], [1], 10, .active, .secp256r1⟩
    ⟨smallDID 2, accAddressString [22], [4, 2], [2], 11, .active, .secp256r1⟩ ?_ ?_ ?_ ?_
  all_goals decide +kernel

end PhiChain.Identity
