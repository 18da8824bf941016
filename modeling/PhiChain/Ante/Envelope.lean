import PhiChain.Ante.WebAuthn
import PhiChain.Foundations.Framing

/-!
# Ante: the envelope codec

The decoder of WebAuthn envelopes accepts exactly the encodings of triples whose fields are
shorter than `2 ^ 32` bytes, and returns the triple (`unmarshalWebAuthnSignature_ok`). One
field is read at a time, and `unmarshalField_ok` says what a field read successfully was.
-/

set_option autoImplicit false

namespace PhiChain.Ante

open Foundations Sdk

/-- The three fields of an envelope, each short enough for its length prefix. -/
def WebAuthnSignature.Encodable (w : WebAuthnSignature) : Prop :=
  Frameable w.authenticatorData ∧ Frameable w.clientDataJSON ∧ Frameable w.signature

section Fields

variable {i : Nat} {b p rest : Bytes}

/-- A field is read off the front of a string exactly when the string starts with its frame. -/
theorem unmarshalField_ok : unmarshalField i b = .ok (p, rest) ↔
    Frameable p ∧ b = bigEndian lengthWidth p.length ++ p ++ rest := by
  simp only [unmarshalField, bind_eq_ok, ensure_eq_ok, pure_eq_ok, exists_const, Prod.mk.injEq]
  constructor
  · rintro ⟨hwidth, hlength, rfl, rfl⟩
    exact frame_of_read hwidth hlength
  · rintro ⟨hp, rfl⟩
    obtain ⟨hwidth, hlength, hdrop⟩ := read_of_frame hp rest
    rw [hlength, hdrop]
    refine ⟨hwidth, ?_, List.take_left, List.drop_left⟩
    rw [List.length_append]
    omega

theorem isWebAuthnEnvelope_iff : isWebAuthnEnvelope b = true ↔
    b = webAuthnMagic ++ b.drop webAuthnMagic.length := by
  simp only [isWebAuthnEnvelope, decide_eq_true_eq]
  constructor
  · rintro ⟨-, hmagic⟩
    nth_rewrite 1 [← List.take_append_drop webAuthnMagic.length b]
    rw [hmagic]
  · intro hb
    rw [hb]
    exact ⟨by rw [List.length_append]; omega, List.take_left⟩

end Fields

/-- The decoder accepts the encodings of encodable triples and nothing else. -/
theorem unmarshalWebAuthnSignature_ok {b : Bytes} {w : WebAuthnSignature} :
    unmarshalWebAuthnSignature b = .ok w ↔ w.Encodable ∧ b = w.marshal := by
  simp only [unmarshalWebAuthnSignature, bind_eq_ok, ensure_eq_ok, pure_eq_ok, exists_const,
    Prod.exists, unmarshalField_ok, isWebAuthnEnvelope_iff]
  constructor
  · rintro ⟨hmagic, authenticatorData, rest₁, ⟨hdata, hrest⟩, clientDataJSON, rest₂, ⟨hclient, rfl⟩,
      signature, rest₃, ⟨hsignature, rfl⟩, rfl, rfl⟩
    refine ⟨⟨hdata, hclient, hsignature⟩, ?_⟩
    -- nothing follows the third field
    rw [hmagic, hrest]
    simp only [WebAuthnSignature.marshal, lengthPrefixed, List.append_nil, List.append_assoc]
  · rintro ⟨⟨hdata, hclient, hsignature⟩, rfl⟩
    have hdrop : w.marshal.drop webAuthnMagic.length =
        lengthPrefixed [w.authenticatorData, w.clientDataJSON, w.signature] := List.drop_left
    rw [hdrop]
    exact ⟨rfl, w.authenticatorData, _, ⟨hdata, rfl⟩, w.clientDataJSON, _, ⟨hclient, rfl⟩,
      w.signature, _, ⟨hsignature, rfl⟩, rfl, rfl⟩

/-- Decoding the encoding of three fields shorter than `2 ^ 32` bytes returns them; whatever the
decoder accepts is the encoding of its result; so no two byte strings decode to the same
assertion. -/
theorem envelope_codec_bijective :
    (∀ w : WebAuthnSignature, w.authenticatorData.length < 2 ^ 32 →
      w.clientDataJSON.length < 2 ^ 32 → w.signature.length < 2 ^ 32 →
        unmarshalWebAuthnSignature w.marshal = .ok w) ∧
    (∀ b w, unmarshalWebAuthnSignature b = .ok w → w.marshal = b) ∧
    ∀ b b' w, unmarshalWebAuthnSignature b = .ok w → unmarshalWebAuthnSignature b' = .ok w →
      b = b' := by
  refine ⟨fun w hdata hclient hsignature => ?_, fun b w hb => ?_, fun b b' w hb hb' => ?_⟩
  · exact unmarshalWebAuthnSignature_ok.2 ⟨⟨hdata, hclient, hsignature⟩, rfl⟩
  · exact (unmarshalWebAuthnSignature_ok.1 hb).2.symm
  · have hencoded := (unmarshalWebAuthnSignature_ok.1 hb).2
    have hencoded' := (unmarshalWebAuthnSignature_ok.1 hb').2
    rw [hencoded, hencoded']

/-- An envelope with an empty field, its encoding, and one of its truncations. -/
theorem envelope_codec_bijective_small :
    unmarshalWebAuthnSignature (WebAuthnSignature.marshal ⟨[1], [], [2, 3]⟩) = .ok ⟨[1], [], [2, 3]⟩ ∧
      isOk (unmarshalWebAuthnSignature
        (WebAuthnSignature.marshal ⟨[1], [], [2, 3]⟩).dropLast) = false :=
  ⟨envelope_codec_bijective.1 ⟨[1], [], [2, 3]⟩ (by decide) (by decide) (by decide), by decide⟩

end PhiChain.Ante
