import PhiChain.Identity.Genesis
import PhiChain.Sdk.P256

/-!
# Identifiers of recovery requests

The identifier of a request is the digest of the DID, the proposed key and the nonce, with zero
bytes between them. Keys and nonces are arbitrary bytes and may contain zeros, so the separators
alone do not tell where the key ends. A DID has no zero byte, and the first byte of a key that the
DID derivation accepts fixes the key's length; together they determine the three parts
(`recoveryIDText_inj`).
-/

set_option autoImplicit false

namespace PhiChain.Identity

open Foundations Sdk

/-- The bytes that `deriveRecoveryID` hashes. -/
def recoveryIDText (did proposedNewPubKey nonce : Bytes) : Bytes :=
  ascii "phi-recovery-id-v1" ++ 0 :: did ++ 0 :: proposedNewPubKey ++ 0 :: nonce

theorem recoveryIDText_eq (did key nonce : Bytes) :
    recoveryIDText did key nonce =
      nulKey (ascii "phi-recovery-id-v1") (nulKey did (nulKey key nonce)) := by
  simp [recoveryIDText, nulKey]

/-- A DID, a proposed key and a nonce as an initiation may carry them. -/
structure Recoverable (k : Keeper) (did proposedNewPubKey nonce : Bytes) : Prop where
  did_nulFree : NulFree did
  key_derives : (deriveDID k .secp256r1 proposedNewPubKey).isSome = true
  nonce_ne : nonce ≠ []
  nonce_le : nonce.length ≤ maxRecoveryNonceLen

/-- Accepted initiations carry such a triple. -/
theorem recoverable_of_initiate {k : Keeper} {env : Env} {w w' : World}
    {msg : MsgInitiateRecovery} (h : apply k env w (.initiateRecovery msg) = .ok w') :
    Recoverable k msg.did msg.proposedNewPubKey msg.nonce := by
  simp only [apply, bind_eq_ok] at h
  obtain ⟨⟨⟩, hbasic, hhandle⟩ := h
  have hdid : NulFree msg.did := nulFree_of_initiate hbasic
  simp only [Action.validateBasic, MsgInitiateRecovery.validateBasic, validateLen, bind_eq_ok,
    ensure_eq_ok, exists_const] at hbasic
  obtain ⟨-, -, ⟨⟩, -, -, -, ⟨hne, hle⟩, -⟩ := hbasic
  cases event_of_initiateRecovery hhandle with
  | initiated _ doc initiator w₁ w₂ hdoc hactive hfree hnonce hclosed hid hinitiator hcharged =>
    simp only [assertNoKeyCollision, bind_eq_ok, orFail_eq_ok, ensure_eq_ok, exists_const]
      at hfree
    obtain ⟨-, derived, hderived, -⟩ := hfree
    have hsome : (deriveDID k .secp256r1 msg.proposedNewPubKey).isSome = true := by
      rw [hderived]
      rfl
    exact ⟨hdid, hsome, List.length_eq_zero_iff.not.1 hne, hle⟩

/-- A key that derives a DID is a point, with the length that its first byte announces. -/
theorem length_of_derives {k : Keeper} {key : Bytes} (hcurve : k.unmarshalP256 = P256.canonical)
    (h : (deriveDID k .secp256r1 key).isSome = true) :
    ∃ head rest, key = head :: rest ∧ key.length = P256.announcedLen head := by
  obtain ⟨did, hdid⟩ := Option.isSome_iff_exists.1 h
  obtain ⟨point, hpoint, -⟩ := Option.map_eq_some_iff.1 hdid
  unfold parseP256 at hpoint
  split at hpoint
  · cases hpoint
  · obtain ⟨-, hread⟩ := Option.ite_none_right_eq_some.1 hpoint
    rw [hcurve] at hread
    exact P256.length_of_canonical hread

/-- Keys behind which a text goes on are told apart by their first byte. -/
theorem key_append_inj {k : Keeper} {key key' rest rest' : Bytes}
    (hcurve : k.unmarshalP256 = P256.canonical)
    (hkey : (deriveDID k .secp256r1 key).isSome = true)
    (hkey' : (deriveDID k .secp256r1 key').isSome = true)
    (h : key ++ rest = key' ++ rest') : key = key' ∧ rest = rest' := by
  obtain ⟨head, tail, rfl, hlen⟩ := length_of_derives hcurve hkey
  obtain ⟨head', tail', rfl, hlen'⟩ := length_of_derives hcurve hkey'
  have hhead : head = head' := (List.cons.inj h).1
  apply List.append_inj h
  rw [hlen, hlen', hhead]

theorem recoveryIDText_inj {k : Keeper} {did did' key key' nonce nonce' : Bytes}
    (hcurve : k.unmarshalP256 = P256.canonical) (ha : Recoverable k did key nonce)
    (hb : Recoverable k did' key' nonce')
    (h : recoveryIDText did key nonce = recoveryIDText did' key' nonce') :
    did = did' ∧ key = key' ∧ nonce = nonce' := by
  rw [recoveryIDText_eq, recoveryIDText_eq] at h
  have hbehind : nulKey did (nulKey key nonce) = nulKey did' (nulKey key' nonce') :=
    List.cons_injective (List.append_cancel_left h)
  -- the first zero byte ends the DID, and behind it the key's first byte gives its length
  obtain ⟨hdid, hrest⟩ := (nulKey_inj ha.did_nulFree hb.did_nulFree).1 hbehind
  obtain ⟨hkey, hnonce⟩ := key_append_inj hcurve ha.key_derives hb.key_derives hrest
  exact ⟨hdid, hkey, (List.cons.inj hnonce).2⟩

/-- Whatever accepted initiations carry, in any worlds and blocks, different triples give different
bytes to hash. -/
theorem recovery_ids_collision_free (k : Keeper) (hcurve : k.unmarshalP256 = P256.canonical) :
    (∀ did key nonce, deriveRecoveryID k did key nonce = k.sha256 (recoveryIDText did key nonce)) ∧
    (∀ env w w' msg, apply k env w (.initiateRecovery msg) = .ok w' →
      Recoverable k msg.did msg.proposedNewPubKey msg.nonce) ∧
    ∀ did did' key key' nonce nonce', Recoverable k did key nonce →
      Recoverable k did' key' nonce' →
      recoveryIDText did key nonce = recoveryIDText did' key' nonce' →
      did = did' ∧ key = key' ∧ nonce = nonce' := by
  refine ⟨fun did key nonce => rfl, ?_, ?_⟩
  · intro env w w' msg happly
    exact recoverable_of_initiate happly
  · intro did did' key key' nonce nonce' ha hb htext
    exact recoveryIDText_inj hcurve ha hb htext

/-! ## Two initiations under the base point -/

/-- A keeper that reads keys as points of the curve. -/
def curveKeeper : Keeper := { recoveryKeeper with unmarshalP256 := P256.canonical }

/-- The base point's key is proposed for the first DID. -/
def proposeBasePoint (nonce : Bytes) : MsgInitiateRecovery :=
  ⟨accAddressString [24], recoveryDID 1, P256.marshal P256.basePoint, .secp256r1, .social, nonce,
    P256.marshal P256.basePoint, [], []⟩

def proposalWorld : World :=
  ⟨⟨∅, ∅⟩, importStore (smallEnv 10) (guardedGenesis smallParams)⟩

theorem proposals_accepted : ∀ nonce ∈ ([[0], [0, 0]] : List Bytes),
    isOk (apply curveKeeper (smallEnv 10) proposalWorld
      (.initiateRecovery (proposeBasePoint nonce))) = true := by decide +kernel

/-- Nonces of zero bytes: the texts differ although every separator is a zero byte too. -/
theorem recovery_ids_collision_free_zeros :
    recoveryIDText (recoveryDID 1) (P256.marshal P256.basePoint) [0] ≠
      recoveryIDText (recoveryDID 1) (P256.marshal P256.basePoint) [0, 0] := by
  obtain ⟨-, hcarried, hinj⟩ := recovery_ids_collision_free curveKeeper rfl
  obtain ⟨w, hw⟩ := isOk_iff.1 (proposals_accepted [0] (by decide))
  obtain ⟨w', hw'⟩ := isOk_iff.1 (proposals_accepted [0, 0] (by decide))
  intro htext
  have hsame := hinj _ _ _ _ _ _ (hcarried _ _ _ _ hw) (hcarried _ _ _ _ hw') htext
  exact absurd hsame.2.2 (by decide)

end PhiChain.Identity
