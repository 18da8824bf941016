import PhiChain.Ante.KeyTree
import PhiChain.Ante.WebAuthn

/-!
# Ante: signature verification

`PhiSigVerificationDecorator` is the signature decorator of the SDK with one branch of its own: a
secp256r1 account that signs with a WebAuthn envelope is verified as a passkey, every other
signer goes the way of the SDK. Where the policy asks for user verification, an account whose key
tree has a secp256r1 leaf may not take that other way.

The accounts, the sign bytes and the verification of the SDK are parameters. `verifySigner_ok` is
what the acceptance of one signer means, whatever its key and its signature look like;
`uv_not_sidestepped` carries it over the signers of a transaction. The gas of a signature enforces
the key policy (`sensitive_signer_policy`).
-/

set_option autoImplicit false

namespace PhiChain.Ante

open Foundations Sdk

inductive SignMode where
  | direct
  | textual
  | legacyAminoJSON
  | other (mode : Nat)
  deriving DecidableEq

inductive SignatureData where
  | single (signMode : SignMode) (signature : Bytes)
  | multi (bitArray : List Bool) (signatures : List SignatureData)

structure SignatureV2 where
  data : SignatureData
  sequence : Nat

structure Account where
  address : Bytes
  pubKey : Option PubKey
  accountNumber : Nat
  sequence : Nat

structure SignerData where
  address : Bytes
  chainID : Bytes
  accountNumber : Nat
  sequence : Nat
  pubKey : PubKey

/-- Nanoseconds since 1970. -/
abbrev Time := Int

def zeroTime : Time := -62135596800 * 1000000000

/-- A transaction. Its signatures and signers are what the decoder makes of the two encoded
parts. -/
structure Tx where
  bodyBytes : Bytes
  authInfoBytes : Bytes
  msgs : List TxMsg
  signatures : Result (List SignatureV2)
  signers : Result (List Bytes)
  unordered : Bool
  timeoutTimestamp : Time

/-- What the decorator reads from the context; the parameters are those of x/identity. -/
structure Context where
  chainID : Bytes
  blockHeight : Int
  blockTime : Time
  isReCheckTx : Bool
  isSigverifyTx : Bool
  execModeSimulate : Bool
  identityParams : Identity.Params

variable {σ : Type}

/-- The accounts of x/auth, over a state of its own. -/
structure AccountKeeper (σ : Type) where
  getAccount : σ → Bytes → Option Account
  unorderedTransactionsEnabled : Bool
  tryAddUnorderedNonce : σ → Bytes → Time → Result σ

structure PhiSigVerificationDecorator (σ : Type) where
  ak : AccountKeeper σ
  getSignBytes : SignMode → SignerData → Tx → Result Bytes
  verifySignature : PubKey → SignerData → SignatureData → Tx → Result Unit
  webauthn : WebAuthnDecorator
  maxTxTimeoutDuration : Int

namespace PhiSigVerificationDecorator

/-! ## One signer -/

/-- An r1 signer whose signature carries an envelope is a passkey. -/
def carriesEnvelope : PubKey → SignatureData → Bool
  | .secp256r1 _, .single _ signature => isWebAuthnEnvelope signature
  | _, _ => false

/-- The verification of a signer, with signature verification on. -/
def verifySigner (svd : PhiSigVerificationDecorator σ) (ctx : Context) (tx : Tx) (requireUV : Bool)
    (signerData : SignerData) (data : SignatureData) : Result Unit := do
  ensure (¬ (requireUV = true ∧ carriesEnvelope signerData.pubKey data = false ∧
      pubKeyContainsR1 signerData.pubKey = true))
    ⟨.sdkUnauthorized, "user verification required: an account with a secp256r1 key must sign this UV-sensitive transaction via the WebAuthn/UV path, not a raw signature"⟩
  let standard := (svd.verifySignature signerData.pubKey signerData data tx).mapError fun _ =>
    ⟨.sdkUnauthorized, "signature verification failed"⟩
  match signerData.pubKey, data with
  | .secp256r1 key, .single signMode signature =>
    if isWebAuthnEnvelope signature then do
      ensure (signMode = .direct)
        ⟨.sdkUnauthorized, "webauthn: only SIGN_MODE_DIRECT is accepted"⟩
      let signBytes ← svd.getSignBytes signMode signerData tx
      match svd.webauthn.verifyEnvelope ctx.identityParams key signBytes signature requireUV with
      | some verdict => verdict.mapError fun _ =>
        ⟨.sdkUnauthorized, "webauthn assertion verification failed"⟩
      | none => standard
    else standard
  | _, _ => standard

/-- A signer and its signature, in the order the decorator checks them. -/
def checkSigner (svd : PhiSigVerificationDecorator σ) (ctx : Context) (auth : σ) (tx : Tx)
    (simulate requireUV : Bool) (sig : SignatureV2) (signer : Bytes) : Result Unit := do
  ensure (¬ (0 < sig.sequence ∧ tx.unordered = true))
    ⟨.invalidRequest, "sequence is not allowed for unordered transactions"⟩
  let acc ← orFail (svd.ak.getAccount auth signer) ⟨.unknownAddress, "account does not exist"⟩
  ensure (simulate = true ∨ acc.pubKey.isSome = true)
    ⟨.sdkInvalidPubKey, "pubkey on account is not set"⟩
  ensure (tx.unordered = true ∨ sig.sequence = acc.sequence)
    ⟨.wrongSequence, "account sequence mismatch"⟩
  let accNum := if ctx.blockHeight = 0 then 0 else acc.accountNumber
  if simulate = false ∧ ctx.isReCheckTx = false ∧ ctx.isSigverifyTx = true then do
    let pubKey ← orFail acc.pubKey ⟨.sdkInvalidPubKey, "pubkey on account is not set"⟩
    svd.verifySigner ctx tx requireUV
      ⟨accAddressString acc.address, ctx.chainID, accNum, sig.sequence, pubKey⟩ sig.data
  else return ()

/-! ## The decorator -/

/-- An unordered transaction spends a nonce of each signer that its timeout stands for. -/
def verifyUnorderedNonce (svd : PhiSigVerificationDecorator σ) (ctx : Context) (auth : σ)
    (tx : Tx) : Result σ := do
  ensure (¬ (tx.timeoutTimestamp = zeroTime ∨ tx.timeoutTimestamp / 1000000000 = 0))
    ⟨.invalidRequest, "unordered transaction must have timeout_timestamp set"⟩
  ensure (¬ tx.timeoutTimestamp < ctx.blockTime)
    ⟨.invalidRequest, "unordered transaction has a timeout_timestamp that has already passed"⟩
  ensure (¬ ctx.blockTime + svd.maxTxTimeoutDuration < tx.timeoutTimestamp)
    ⟨.invalidRequest, "unordered tx ttl exceeds the maximum"⟩
  if ctx.execModeSimulate then return auth
  else do
    let signers ← tx.signers
    signers.foldlM (fun auth signer =>
      (svd.ak.tryAddUnorderedNonce auth signer tx.timeoutTimestamp).mapError fun _ =>
        ⟨.invalidRequest, "failed to add unordered nonce"⟩) auth

/-- The state that the signers are looked up in. -/
def signingState (svd : PhiSigVerificationDecorator σ) (ctx : Context) (auth : σ) (tx : Tx) :
    Result σ :=
  if tx.unordered then svd.verifyUnorderedNonce ctx auth tx else .ok auth

def anteHandle {α : Type} (svd : PhiSigVerificationDecorator σ) (ctx : Context) (auth : σ) (tx : Tx)
    (simulate : Bool) (next : σ → Result α) : Result α := do
  ensure (¬ (tx.unordered = true ∧ svd.ak.unorderedTransactionsEnabled = false))
    ⟨.notSupported, "unordered transactions are not enabled"⟩
  let sigs ← tx.signatures
  let requireUV := requiresUserVerification ctx.identityParams tx.msgs
  let signers ← tx.signers
  ensure (sigs.length = signers.length) ⟨.sdkUnauthorized, "invalid number of signer"⟩
  let auth ← svd.signingState ctx auth tx
  (sigs.zip signers).forM fun s => svd.checkSigner ctx auth tx simulate requireUV s.1 s.2
  next auth

/-! ## Acceptance -/

section Acceptance

variable (svd : PhiSigVerificationDecorator σ) (ctx : Context) (tx : Tx)

/-- The signer has a single secp256r1 key, and its signature is an envelope in direct mode that
was accepted for the sign bytes of the transaction. -/
def PasskeyAccepted (requireUV : Bool) (signerData : SignerData) (data : SignatureData) : Prop :=
  ∃ key signature signBytes env origin,
    signerData.pubKey = .secp256r1 key ∧ data = .single .direct signature ∧
    svd.getSignBytes .direct signerData tx = .ok signBytes ∧
    svd.webauthn.Verified ctx.identityParams key signBytes signature requireUV env origin

variable {svd ctx tx} {requireUV : Bool} {signerData : SignerData} {data : SignatureData}

/-- An envelope of an r1 signer passes as a passkey or not at all. -/
theorem passkeyAccepted_of_ok (henvelope : carriesEnvelope signerData.pubKey data = true)
    (h : svd.verifySigner ctx tx requireUV signerData data = .ok ()) :
    svd.PasskeyAccepted ctx tx requireUV signerData data := by
  unfold carriesEnvelope at henvelope
  split at henvelope
  · rename_i key signMode signature hkey
    simp only [verifySigner, hkey, henvelope, if_true, bind_eq_ok, ensure_eq_ok, exists_const] at h
    obtain ⟨-, rfl, signBytes, hbytes, h⟩ := h
    obtain ⟨verdict, hverdict, hverified⟩ := WebAuthnDecorator.verifyEnvelope_eq henvelope
    rw [hverdict] at h
    obtain ⟨env, origin, hpassed⟩ := hverified (mapError_eq_ok.1 h)
    exact ⟨key, signature, signBytes, env, origin, hkey, rfl, hbytes, hpassed⟩
  · cases henvelope

/-- An accepted signer is a passkey, or the SDK verified it and the policy let it. -/
theorem verifySigner_ok (h : svd.verifySigner ctx tx requireUV signerData data = .ok ()) :
    svd.PasskeyAccepted ctx tx requireUV signerData data ∨
      (¬ (requireUV = true ∧ pubKeyContainsR1 signerData.pubKey = true) ∧
        svd.verifySignature signerData.pubKey signerData data tx = .ok ()) := by
  cases henvelope : carriesEnvelope signerData.pubKey data with
  | true => exact Or.inl (passkeyAccepted_of_ok henvelope h)
  | false =>
    right
    simp only [verifySigner, bind_eq_ok, ensure_eq_ok, exists_const] at h
    obtain ⟨hpolicy, h⟩ := h
    refine ⟨fun hraw => hpolicy ⟨hraw.1, henvelope, hraw.2⟩, ?_⟩
    split at h
    · -- an r1 signer without the magic goes the way of the others
      rename_i key signMode signature hkey
      rw [hkey] at henvelope
      rw [if_neg (by simpa [carriesEnvelope] using henvelope)] at h
      exact mapError_eq_ok.1 h
    · exact mapError_eq_ok.1 h

/-- What acceptance with signature verification on says of every signer. -/
theorem signers_of_anteHandle {α : Type} {auth : σ} {next : σ → Result α} {result : α}
    (h : svd.anteHandle ctx auth tx false next = .ok result) (hcheck : ctx.isReCheckTx = false)
    (hverify : ctx.isSigverifyTx = true) :
    ∃ sigs signers auth', tx.signatures = .ok sigs ∧ tx.signers = .ok signers ∧
      sigs.length = signers.length ∧ svd.signingState ctx auth tx = .ok auth' ∧
      ∀ s ∈ sigs.zip signers, ∃ acc key,
        svd.ak.getAccount auth' s.2 = some acc ∧ acc.pubKey = some key ∧
        svd.verifySigner ctx tx (requiresUserVerification ctx.identityParams tx.msgs)
          ⟨accAddressString acc.address, ctx.chainID,
            if ctx.blockHeight = 0 then 0 else acc.accountNumber, s.1.sequence, key⟩
          s.1.data = .ok () := by
  simp only [anteHandle, bind_eq_ok, ensure_eq_ok, exists_const, forM_eq_ok] at h
  obtain ⟨-, sigs, hsigs, signers, hsigners, hlength, auth', hauth, hall, -⟩ := h
  refine ⟨sigs, signers, auth', hsigs, hsigners, hlength, hauth, fun s hs => ?_⟩
  have hsigner := hall s hs
  simp only [checkSigner, bind_eq_ok, ensure_eq_ok, orFail_eq_ok, exists_const, hcheck, hverify,
    and_self, if_true] at hsigner
  obtain ⟨-, acc, hacc, -, -, key, hkey, hverified⟩ := hsigner
  exact ⟨acc, key, hacc, hkey, hverified⟩

/-- When the decorator accepts a sensitive transaction with signature verification on, every signer
whose key tree has a secp256r1 leaf has a secp256r1 key as its single key, and signed with an
envelope that the WebAuthn verifier accepted: with user verification required, from an allowed
origin, for the challenge of the direct-mode sign bytes of this transaction. -/
theorem uv_not_sidestepped {α : Type} (svd : PhiSigVerificationDecorator σ) (ctx : Context)
    (auth : σ) (tx : Tx) (next : σ → Result α) {result : α}
    (h : svd.anteHandle ctx auth tx false next = .ok result)
    (hsensitive : requiresUserVerification ctx.identityParams tx.msgs = true)
    (hcheck : ctx.isReCheckTx = false) (hverify : ctx.isSigverifyTx = true) :
    ∃ sigs signers auth', tx.signatures = .ok sigs ∧ tx.signers = .ok signers ∧
      sigs.length = signers.length ∧ svd.signingState ctx auth tx = .ok auth' ∧
      ∀ s ∈ sigs.zip signers, ∃ acc key,
        svd.ak.getAccount auth' s.2 = some acc ∧ acc.pubKey = some key ∧
        ((∃ raw, PubKey.In (.secp256r1 raw) key) →
          svd.PasskeyAccepted ctx tx true
            ⟨accAddressString acc.address, ctx.chainID,
              if ctx.blockHeight = 0 then 0 else acc.accountNumber, s.1.sequence, key⟩
            s.1.data) := by
  obtain ⟨sigs, signers, auth', hsigs, hsigners, hlength, hauth, hall⟩ :=
    signers_of_anteHandle h hcheck hverify
  refine ⟨sigs, signers, auth', hsigs, hsigners, hlength, hauth, fun s hs => ?_⟩
  obtain ⟨acc, key, hacc, hkey, hverified⟩ := hall s hs
  refine ⟨acc, key, hacc, hkey, fun hleaf => ?_⟩
  rw [hsensitive] at hverified
  rcases verifySigner_ok hverified with hpasskey | ⟨hpolicy, -⟩
  · exact hpasskey
  · -- a raw signature of a tree with such a leaf was refused
    exact absurd ⟨rfl, pubKeyContainsR1_iff.2 hleaf⟩ hpolicy

end Acceptance

/-! ## A passkey beside a multisig -/

/-- Account 1 has a passkey, and account 2 a multisig over a secp256k1 key. -/
def mixedAccounts : AccountKeeper Unit where
  getAccount _ address :=
    if address = [1] then some ⟨[1], some (.secp256r1 [7]), 3, 0⟩
    else if address = [2] then some ⟨[2], some (.multisig 1 [.secp256k1 [8]]), 4, 0⟩
    else none
  unorderedTransactionsEnabled := false
  tryAddUnorderedNonce auth _ _ := .ok auth

/-- The text of the origin in client data. -/
def originText (json : Bytes) : Option Bytes :=
  (json.tails.find? fun rest => (ascii "\"origin\":\"").isPrefixOf rest).map fun rest =>
    (rest.drop 10).takeWhile (· ≠ 0x22)

/-- The sign bytes are the body, and an assertion verifies when user verification is asked for. -/
def mixedDecorator : PhiSigVerificationDecorator Unit where
  ak := mixedAccounts
  getSignBytes _ _ tx := .ok tx.bodyBytes
  verifySignature _ _ _ _ := .ok ()
  webauthn := ⟨id, WebAuthnAssertion.requireUserVerification, originText⟩
  maxTxTimeoutDuration := 0

def mixedContext : Context := ⟨ascii "phi", 1, 0, false, true, false, Identity.defaultParams⟩

/-- Client data as a browser writes it, with its origin. -/
def clientData : Bytes :=
  ascii "\x7b\"type\":\"webauthn.get\",\"challenge\":\"BQ\",\"origin\":\"https://portphi.com\"\x7d"

def passkeySignature : SignatureData :=
  .single .direct (WebAuthnSignature.marshal ⟨[6], clientData, [9]⟩)

/-- A rotation of a key, which is sensitive. -/
def mixedTx : Tx where
  bodyBytes := [5]
  authInfoBytes := []
  msgs := [.other (ascii "/phi.identity.MsgRotateIdentityKey")]
  signatures := .ok [⟨passkeySignature, 0⟩, ⟨.multi [true] [.single .direct [9]], 0⟩]
  signers := .ok [[1], [2]]
  unordered := false
  timeoutTimestamp := zeroTime

theorem uv_not_sidestepped_mixed :
    mixedDecorator.anteHandle mixedContext () mixedTx false (fun _ => .ok ()) = .ok () ∧
      mixedDecorator.PasskeyAccepted mixedContext mixedTx true
        ⟨accAddressString [1], ascii "phi", 3, 0, .secp256r1 [7]⟩ passkeySignature := by
  have haccepted : mixedDecorator.anteHandle mixedContext () mixedTx false (fun _ => .ok ()) =
      .ok () := by decide +kernel
  obtain ⟨sigs, signers, auth', hsigs, hsigners, -, -, hall⟩ :=
    uv_not_sidestepped mixedDecorator mixedContext () mixedTx _ haccepted (by decide +kernel) rfl rfl
  cases hsigs
  cases hsigners
  obtain ⟨acc, key, hacc, hkey, hpasskey⟩ := hall (⟨passkeySignature, 0⟩, [1]) List.mem_cons_self
  cases hacc
  cases hkey
  exact ⟨haccepted, hpasskey ⟨[7], .here⟩⟩

end PhiSigVerificationDecorator

/-! ## Gas and the key policy -/

structure GasMeter where
  limit : Nat
  consumed : Nat

def GasMeter.consumeGas (meter : GasMeter) (amount : Nat) : Result GasMeter := do
  ensure (meter.consumed + amount ≤ meter.limit) ⟨.outOfRange, "out of gas"⟩
  return { meter with consumed := meter.consumed + amount }

mutual

/-- Gas for one signature; `cost` is that of a secp256k1 key, and a secp256r1 key costs half. -/
def phiSigVerificationGasConsumer (cost : Nat) (meter : GasMeter) (key : PubKey)
    (data : SignatureData) : Result GasMeter :=
  match key, data with
  | .secp256k1 _, _ => meter.consumeGas cost
  | .secp256r1 _, _ => meter.consumeGas (cost / 2)
  | .multisig threshold pubKeys, .multi bitArray signatures => do
    assertAllowedKeyTree (.multisig threshold pubKeys)
    phiConsumeMultisigGas cost meter bitArray pubKeys signatures
  | .multisig threshold pubKeys, .single _ _ => do
    assertAllowedKeyTree (.multisig threshold pubKeys)
    .error ⟨.sdkInvalidPubKey, "expected multisignature data"⟩
  | .ed25519 _, _ => .error ⟨.sdkInvalidPubKey, "ed25519 keys are not supported on phi"⟩
  | .other _ _, _ => .error ⟨.sdkInvalidPubKey, "unsupported key type"⟩
termination_by (sizeOf data, 0)

/-- The loop over the bits; the signatures stand in the order of the set ones. -/
def phiConsumeMultisigGas (cost : Nat) (meter : GasMeter) (bits : List Bool)
    (pubKeys : List PubKey) (signatures : List SignatureData) : Result GasMeter :=
  match bits, pubKeys, signatures with
  | [], _, _ => .ok meter
  | false :: bits, keys, sigs => phiConsumeMultisigGas cost meter bits keys.tail sigs
  | true :: bits, key :: keys, sig :: sigs => do
    let meter ← phiSigVerificationGasConsumer cost meter key sig
    phiConsumeMultisigGas cost meter bits keys sigs
  -- an index out of range panics
  | true :: _, _, _ => .error ⟨.outOfRange, "index out of range"⟩
termination_by (sizeOf signatures, bits.length)

end

open PhiSigVerificationDecorator

theorem allowed_of_gas {cost : Nat} {meter meter' : GasMeter} {key : PubKey} {data : SignatureData}
    (h : phiSigVerificationGasConsumer cost meter key data = .ok meter') :
    assertAllowedKeyTree key = .ok () := by
  unfold phiSigVerificationGasConsumer at h
  split at h
  · rfl
  · rfl
  · exact (bind_eq_ok.1 h).choose_spec.1
  · exact (bind_eq_ok.1 h).choose_spec.1
  · cases h
  · cases h

/-- When the decorator accepts a sensitive transaction with signature verification on, every signer
whose signature the gas consumer lets through as well is a passkey whose assertion was accepted, or
every leaf of its key tree is a secp256k1 key. -/
theorem sensitive_signer_policy {σ α : Type} (svd : PhiSigVerificationDecorator σ) (ctx : Context)
    (auth : σ) (tx : Tx) (next : σ → Result α) {result : α}
    (h : svd.anteHandle ctx auth tx false next = .ok result)
    (hsensitive : requiresUserVerification ctx.identityParams tx.msgs = true)
    (hcheck : ctx.isReCheckTx = false) (hverify : ctx.isSigverifyTx = true) :
    ∃ sigs signers auth', tx.signatures = .ok sigs ∧ tx.signers = .ok signers ∧
      sigs.length = signers.length ∧ svd.signingState ctx auth tx = .ok auth' ∧
      ∀ s ∈ sigs.zip signers, ∃ acc key,
        svd.ak.getAccount auth' s.2 = some acc ∧ acc.pubKey = some key ∧
        ∀ cost meter meter', phiSigVerificationGasConsumer cost meter key s.1.data = .ok meter' →
          svd.PasskeyAccepted ctx tx true
              ⟨accAddressString acc.address, ctx.chainID,
                if ctx.blockHeight = 0 then 0 else acc.accountNumber, s.1.sequence, key⟩
              s.1.data ∨
            ∀ leaf, PubKey.In leaf key → leaf.isMultisig = false → ∃ raw, leaf = .secp256k1 raw := by
  obtain ⟨sigs, signers, auth', hsigs, hsigners, hlength, hauth, hall⟩ :=
    signers_of_anteHandle h hcheck hverify
  refine ⟨sigs, signers, auth', hsigs, hsigners, hlength, hauth, fun s hs => ?_⟩
  obtain ⟨acc, key, hacc, hkey, hverified⟩ := hall s hs
  refine ⟨acc, key, hacc, hkey, fun cost meter meter' hgas => ?_⟩
  rw [hsensitive] at hverified
  rcases verifySigner_ok hverified with hpasskey | ⟨hpolicy, -⟩
  · exact .inl hpasskey
  · exact .inr fun leaf hin hleaf =>
      secp256k1_of_allowed (allowed_of_gas hgas) (fun hr1 => hpolicy ⟨rfl, hr1⟩) hin hleaf

/-- The multisig of account 2 in the accepted transaction. -/
theorem sensitive_signer_policy_mixed :
    mixedDecorator.PasskeyAccepted mixedContext mixedTx true
        ⟨accAddressString [2], ascii "phi", 4, 0, .multisig 1 [.secp256k1 [8]]⟩
        (.multi [true] [.single .direct [9]]) ∨
      ∀ leaf, PubKey.In leaf (.multisig 1 [.secp256k1 [8]]) → leaf.isMultisig = false →
        ∃ raw, leaf = .secp256k1 raw := by
  have haccepted : mixedDecorator.anteHandle mixedContext () mixedTx false (fun _ => .ok ()) =
      .ok () := by decide +kernel
  have hgas : phiSigVerificationGasConsumer 1000 ⟨5000, 0⟩ (.multisig 1 [.secp256k1 [8]])
      (.multi [true] [.single .direct [9]]) = .ok ⟨5000, 1000⟩ := by
    simp [phiSigVerificationGasConsumer, phiConsumeMultisigGas]
    rfl
  obtain ⟨sigs, signers, auth', hsigs, hsigners, -, -, hall⟩ :=
    sensitive_signer_policy mixedDecorator mixedContext () mixedTx _ haccepted
      (by decide +kernel) rfl rfl
  cases hsigs
  cases hsigners
  obtain ⟨acc, key, hacc, hkey, hpolicy⟩ :=
    hall (⟨.multi [true] [.single .direct [9]], 0⟩, [2]) (List.mem_cons_of_mem _ List.mem_cons_self)
  cases hacc
  cases hkey
  exact hpolicy 1000 ⟨5000, 0⟩ ⟨5000, 1000⟩ hgas

end PhiChain.Ante
