import PhiChain.Foundations.Framing
import PhiChain.Identity.Types
import PhiChain.Institutions.Mint

/-!
# Signed and hashed messages

The messages that x/identity lets keys sign, and the contents and deposit attestations of
x/institutions, are framed part by part. Framed parts are read back in one way only, so a
message fixes its domain and all its fields. A deposit attestation of an fx institution has
three parts more than one of another institution, which keeps the two kinds apart.
-/

set_option autoImplicit false

namespace PhiChain.App

open Foundations
open Identity (canonicalMessage)
open Institutions

/-- What a deposit attestation is about. -/
structure DepositTerms where
  instID : Bytes
  recipient : Bytes
  amountToman : Bytes
  depositRef : Bytes
  isFx : Bool
  fxCurrency : Bytes
  fxAmount : Bytes
  fxTxRef : Bytes

namespace DepositTerms

/-- The bytes that the deposit key signs. -/
def message (d : DepositTerms) : Bytes :=
  buildDepositMessage d.instID d.recipient d.amountToman d.depositRef d.isFx d.fxCurrency d.fxAmount
    d.fxTxRef

/-- The fields that go into the message. -/
def fields (d : DepositTerms) : List Bytes :=
  [d.instID, d.recipient, d.amountToman, d.depositRef] ++
    if d.isFx then [d.fxCurrency, d.fxAmount, d.fxTxRef] else []

theorem message_eq (d : DepositTerms) :
    d.message = lengthPrefixed (depositMessageDomain :: d.fields) := rfl

variable {d d' : DepositTerms}

/-- The fields say whether the institution is an fx one. -/
theorem isFx_of_fields (h : d.fields = d'.fields) : d.isFx = d'.isFx := by
  have hlength := congrArg List.length h
  cases hfx : d.isFx with
  | false =>
    cases hfx' : d'.isFx with
    | false => rfl
    | true => simp [fields, hfx, hfx'] at hlength
  | true =>
    cases hfx' : d'.isFx with
    | false => simp [fields, hfx, hfx'] at hlength
    | true => rfl

theorem fields_of_message (hd : ∀ f ∈ d.fields, Frameable f) (hd' : ∀ f ∈ d'.fields, Frameable f)
    (h : d.message = d'.message) : d.fields = d'.fields := by
  have hdomain : Frameable depositMessageDomain := by decide
  rw [message_eq, message_eq] at h
  have hparts := lengthPrefixed_inj (List.forall_mem_cons.2 ⟨hdomain, hd⟩)
    (List.forall_mem_cons.2 ⟨hdomain, hd'⟩) h
  exact (List.cons.inj hparts).2

end DepositTerms

/-- For fields shorter than `2 ^ 32` bytes, a canonical message fixes its domain and its list of
fields, framed parts fix the list of parts, and a deposit message fixes the kind of the institution,
the four fields that every deposit has, and the provenance fields of an fx deposit. -/
theorem framed_messages_unambiguous :
    (∀ domain domain' : Bytes, ∀ fields fields' : List Bytes,
      (∀ f ∈ domain :: fields, f.length < 2 ^ 32) → (∀ f ∈ domain' :: fields', f.length < 2 ^ 32) →
        canonicalMessage domain fields = canonicalMessage domain' fields' →
          domain = domain' ∧ fields = fields') ∧
    (∀ parts parts' : List Bytes,
      (∀ p ∈ parts, p.length < 2 ^ 32) → (∀ p ∈ parts', p.length < 2 ^ 32) →
        lengthPrefixed parts = lengthPrefixed parts' → parts = parts') ∧
    ∀ d d' : DepositTerms,
      (∀ f ∈ d.fields, f.length < 2 ^ 32) → (∀ f ∈ d'.fields, f.length < 2 ^ 32) →
        d.message = d'.message →
          d.isFx = d'.isFx ∧ d.instID = d'.instID ∧ d.recipient = d'.recipient ∧
            d.amountToman = d'.amountToman ∧ d.depositRef = d'.depositRef ∧
            (d.isFx = true →
              d.fxCurrency = d'.fxCurrency ∧ d.fxAmount = d'.fxAmount ∧ d.fxTxRef = d'.fxTxRef) := by
  refine ⟨fun domain domain' fields fields' h h' heq => ?_, fun parts parts' h h' heq => ?_,
    fun d d' h h' heq => ?_⟩
  · exact List.cons.inj (lengthPrefixed_inj h h' heq)
  · exact lengthPrefixed_inj h h' heq
  · have hfields := DepositTerms.fields_of_message h h' heq
    have hfx := DepositTerms.isFx_of_fields hfields
    -- the four fields of every deposit stand in front of the provenance
    rw [DepositTerms.fields, DepositTerms.fields, ← hfx] at hfields
    obtain ⟨hfour, hrest⟩ := List.append_inj hfields rfl
    simp only [List.cons.injEq, and_true] at hfour
    obtain ⟨hinst, hrecipient, hamount, href⟩ := hfour
    refine ⟨hfx, hinst, hrecipient, hamount, href, fun hisFx => ?_⟩
    rw [if_pos hisFx, if_pos hisFx] at hrest
    simpa only [List.cons.injEq, and_true] using hrest

/-- A deposit of an fx institution and one of another, with the same four fields. -/
theorem framed_messages_unambiguous_fx :
    DepositTerms.message ⟨[1], [2], [3], [4], true, [], [], []⟩ ≠
      DepositTerms.message ⟨[1], [2], [3], [4], false, [], [], []⟩ := by
  intro heq
  have hfx := (framed_messages_unambiguous.2.2 _ _ (by decide) (by decide) heq).1
  exact Bool.noConfusion hfx

end PhiChain.App
