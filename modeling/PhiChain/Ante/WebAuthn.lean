import PhiChain.Coin.Keeper
import PhiChain.Identity.Types

/-!
# Ante: WebAuthn assertions

A passkey signs over its authenticator data and client data, not over the sign bytes of a
transaction; the three travel in an envelope in place of a signature. The chain derives the
challenge from the sign bytes, takes the origin from the client data, and leaves the
cryptography to a verifier. The policy of x/identity says which transactions ask for user
verification, and which origins are allowed.
-/

set_option autoImplicit false

namespace PhiChain.Ante

open Foundations Sdk

/-! ## Envelopes -/

def webAuthnMagic : Bytes := ascii "PWA1"

structure WebAuthnSignature where
  authenticatorData : Bytes
  clientDataJSON : Bytes
  signature : Bytes
  deriving DecidableEq

/-- The fields behind the magic, each behind its length. -/
def WebAuthnSignature.marshal (w : WebAuthnSignature) : Bytes :=
  webAuthnMagic ++ lengthPrefixed [w.authenticatorData, w.clientDataJSON, w.signature]

def isWebAuthnEnvelope (sig : Bytes) : Bool :=
  webAuthnMagic.length ≤ sig.length ∧ sig.take webAuthnMagic.length = webAuthnMagic

/-- Field `i` of an envelope and what follows it. -/
def unmarshalField (i : Nat) (rest : Bytes) : Result (Bytes × Bytes) := do
  ensure (4 ≤ rest.length) ⟨.invalidRequest, "webauthn: truncated length prefix"⟩
  let n := ofBigEndian (rest.take 4)
  let rest := rest.drop 4
  ensure (n ≤ rest.length) ⟨.invalidRequest, s!"webauthn: field {i} truncated"⟩
  return (rest.take n, rest.drop n)

def unmarshalWebAuthnSignature (b : Bytes) : Result WebAuthnSignature := do
  ensure (isWebAuthnEnvelope b = true) ⟨.invalidRequest, "webauthn: missing envelope magic"⟩
  let (authenticatorData, rest) ← unmarshalField 0 (b.drop webAuthnMagic.length)
  let (clientDataJSON, rest) ← unmarshalField 1 rest
  let (signature, rest) ← unmarshalField 2 rest
  ensure (rest = []) ⟨.invalidRequest, "webauthn: trailing bytes after envelope"⟩
  return ⟨authenticatorData, clientDataJSON, signature⟩

/-! ## Policy -/

/-- A message of a transaction, as the policy looks at it. -/
inductive TxMsg where
  | transfer (msg : PhiChain.Coin.MsgTransfer)
  | other (typeURL : Bytes)

def TxMsg.typeURL : TxMsg → Bytes
  | .transfer _ => PhiChain.Coin.msgTransferTypeURL
  | .other typeURL => typeURL

def uvLargeTransferAmount (p : Identity.Params) : Int :=
  (newIntFromString p.uvLargeTransferUphi).getD 0

/-- A transfer is sensitive from a governed amount on; an amount that cannot be read is. -/
def isLargeTransfer (largeTransfer : Int) : TxMsg → Bool
  | .transfer msg =>
    decide (0 < largeTransfer) &&
      match newIntFromString msg.amount with
      | some amt => decide (largeTransfer ≤ amt)
      | none => true
  | .other _ => false

def requiresUserVerification (p : Identity.Params) (msgs : List TxMsg) : Bool :=
  msgs.any fun m => p.uvSensitiveMsgTypeUrls.contains m.typeURL ||
    isLargeTransfer (uvLargeTransferAmount p) m

/-! ## Verification -/

structure WebAuthnAssertion where
  authenticatorData : Bytes
  clientDataJSON : Bytes
  signature : Bytes
  challenge : Bytes
  publicKey : Bytes
  origin : Bytes
  rpID : Bytes
  requireUserVerification : Bool

/-- The hash, the verifier of assertions, and the origin that a JSON decoder finds in client
data. -/
structure WebAuthnDecorator where
  sha256 : Bytes → Bytes
  verifyWebAuthn : WebAuthnAssertion → Bool
  jsonOrigin : Bytes → Option Bytes

namespace WebAuthnDecorator

def webAuthnChallengeDomain : Bytes := ascii "PHI-WEBAUTHN-v1"

def webAuthnChallenge (d : WebAuthnDecorator) (signBytes : Bytes) : Bytes :=
  d.sha256 (webAuthnChallengeDomain ++ signBytes)

def clientDataOrigin (d : WebAuthnDecorator) (clientDataJSON : Bytes) : Result Bytes := do
  let origin ← orFail (d.jsonOrigin clientDataJSON)
    ⟨.sdkUnauthorized, "webauthn client data is not valid JSON"⟩
  ensure (origin ≠ []) ⟨.sdkUnauthorized, "webauthn client data carries no origin"⟩
  return origin

/-- The assertion that an envelope makes about a key and sign bytes. -/
def assertion (d : WebAuthnDecorator) (env : WebAuthnSignature)
    (publicKey signBytes origin rpID : Bytes) (requireUV : Bool) : WebAuthnAssertion where
  authenticatorData := env.authenticatorData
  clientDataJSON := env.clientDataJSON
  signature := env.signature
  challenge := d.webAuthnChallenge signBytes
  publicKey := publicKey
  origin := origin
  rpID := rpID
  requireUserVerification := requireUV

def verifyWebAuthnAssertion (d : WebAuthnDecorator) (env : WebAuthnSignature)
    (publicKey signBytes origin rpID : Bytes) (requireUV : Bool) : Result Unit :=
  ensure (d.verifyWebAuthn (d.assertion env publicKey signBytes origin rpID requireUV) = true)
    ⟨.sdkUnauthorized, "webauthn assertion verification failed"⟩

/-- The judgement on an envelope; nothing on what is none. -/
def verifyEnvelope (d : WebAuthnDecorator) (p : Identity.Params) (pubKey signBytes sig : Bytes)
    (requireUV : Bool) : Option (Result Unit) :=
  if isWebAuthnEnvelope sig then
    some do
      let env ← unmarshalWebAuthnSignature sig
      let origin ← d.clientDataOrigin env.clientDataJSON
      ensure (p.webauthnAllowedOrigins.contains origin = true)
        ⟨.sdkUnauthorized, "webauthn assertion origin is not on the allowed list"⟩
      (d.verifyWebAuthnAssertion env pubKey signBytes origin p.webauthnRpId requireUV).mapError
        fun _ => ⟨.sdkUnauthorized, if requireUV then
          "webauthn assertion did not verify (this transaction is sensitive and requires User-Verification)"
        else "webauthn assertion did not verify"⟩
  else none

/-- What an accepted envelope carries. -/
structure Verified (d : WebAuthnDecorator) (p : Identity.Params) (pubKey signBytes sig : Bytes)
    (requireUV : Bool) (env : WebAuthnSignature) (origin : Bytes) : Prop where
  decoded : unmarshalWebAuthnSignature sig = .ok env
  named : d.jsonOrigin env.clientDataJSON = some origin
  allowed : origin ∈ p.webauthnAllowedOrigins
  verified : d.verifyWebAuthn (d.assertion env pubKey signBytes origin p.webauthnRpId requireUV) =
    true

/-- An envelope is always judged, and one that passes carries an assertion the verifier
accepted. -/
theorem verifyEnvelope_eq {d : WebAuthnDecorator} {p : Identity.Params}
    {pubKey signBytes sig : Bytes} {requireUV : Bool} (h : isWebAuthnEnvelope sig = true) :
    ∃ r, d.verifyEnvelope p pubKey signBytes sig requireUV = some r ∧
      (r = .ok () → ∃ env origin, Verified d p pubKey signBytes sig requireUV env origin) := by
  refine ⟨_, if_pos h, fun hok => ?_⟩
  simp only [clientDataOrigin, verifyWebAuthnAssertion, bind_eq_ok, ensure_eq_ok, orFail_eq_ok,
    pure_eq_ok, mapError_eq_ok, exists_const] at hok
  obtain ⟨env, hdecoded, origin, ⟨origin', hnamed, -, rfl⟩, hallowed, hverified⟩ := hok
  exact ⟨env, origin', hdecoded, hnamed, List.contains_iff_mem.1 hallowed, hverified⟩

end WebAuthnDecorator

end PhiChain.Ante
