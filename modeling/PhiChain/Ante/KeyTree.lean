import PhiChain.Foundations.Bytes
import PhiChain.Sdk.Failure

/-!
# Ante: key trees

The key of an account is a single key or a multisig over keys, which may be multisigs again.
`pubKeyContainsR1` looks for a secp256r1 leaf, and `assertAllowedKeyTree` admits the trees whose
leaves are of the two curves the chain supports. Both walk the tree; `pubKeyContainsR1_iff` and
`isSupported_of_allowed` say what they find in terms of the leaves.
-/

set_option autoImplicit false

namespace PhiChain.Ante

open Foundations Sdk

inductive PubKey where
  | secp256k1 (key : Bytes)
  | secp256r1 (key : Bytes)
  | ed25519 (key : Bytes)
  | multisig (threshold : Nat) (pubKeys : List PubKey)
  | other (typeURL key : Bytes)

namespace PubKey

/-- Induction over key trees. -/
theorem treeInduction {motive : PubKey → Prop} (secp256k1 : ∀ key, motive (.secp256k1 key))
    (secp256r1 : ∀ key, motive (.secp256r1 key)) (ed25519 : ∀ key, motive (.ed25519 key))
    (other : ∀ typeURL key, motive (.other typeURL key))
    (multisig : ∀ threshold pubKeys, (∀ sub ∈ pubKeys, motive sub) →
      motive (.multisig threshold pubKeys)) : ∀ key, motive key
  | .secp256k1 key => secp256k1 key
  | .secp256r1 key => secp256r1 key
  | .ed25519 key => ed25519 key
  | .other typeURL key => other typeURL key
  | .multisig threshold pubKeys => multisig threshold pubKeys fun sub hsub =>
    have : sizeOf sub < sizeOf pubKeys := List.sizeOf_lt_of_mem hsub
    treeInduction secp256k1 secp256r1 ed25519 other multisig sub

/-- A key stands in a tree. -/
inductive In (leaf : PubKey) : PubKey → Prop where
  | here : In leaf leaf
  | beneath {threshold : Nat} {pubKeys : List PubKey} {sub : PubKey} (member : sub ∈ pubKeys)
      (within : In leaf sub) : In leaf (.multisig threshold pubKeys)

/-- A key of one of the supported curves. -/
def isSupported : PubKey → Bool
  | .secp256k1 _ => true
  | .secp256r1 _ => true
  | _ => false

def isMultisig : PubKey → Bool
  | .multisig _ _ => true
  | _ => false

end PubKey

/-! ## Leaves of the curve secp256r1 -/

mutual

def pubKeyContainsR1 : PubKey → Bool
  | .secp256r1 _ => true
  | .secp256k1 _ => false
  | .multisig _ pubKeys => anyContainsR1 pubKeys
  | _ => false

/-- The loop over the keys of a multisig. -/
def anyContainsR1 : List PubKey → Bool
  | [] => false
  | sub :: rest => if pubKeyContainsR1 sub then true else anyContainsR1 rest

end

theorem anyContainsR1_iff {pubKeys : List PubKey} :
    anyContainsR1 pubKeys = true ↔ ∃ sub ∈ pubKeys, pubKeyContainsR1 sub = true := by
  induction pubKeys with
  | nil => simp [anyContainsR1]
  | cons sub rest ih =>
    rw [anyContainsR1]
    split
    · rename_i hsub
      exact iff_of_true rfl ⟨sub, List.mem_cons_self, hsub⟩
    · rename_i hsub
      rw [ih, List.exists_mem_cons_iff]
      exact (or_iff_right hsub).symm

/-- The walk finds a secp256r1 key in the tree if there is one. -/
theorem pubKeyContainsR1_iff {key : PubKey} :
    pubKeyContainsR1 key = true ↔ ∃ raw, PubKey.In (.secp256r1 raw) key := by
  -- a leaf contains only itself
  have hleaf : ∀ key : PubKey, key.isMultisig = false → ∀ raw, PubKey.In (.secp256r1 raw) key →
      key = .secp256r1 raw := by
    intro key hsingle raw h
    cases h with
    | here => rfl
    | beneath => cases hsingle
  induction key using PubKey.treeInduction with
  | secp256k1 | ed25519 | other =>
    refine iff_of_false (by simp [pubKeyContainsR1]) ?_
    rintro ⟨raw, h⟩
    cases hleaf _ rfl raw h
  | secp256r1 key => exact iff_of_true rfl ⟨key, .here⟩
  | multisig threshold pubKeys ih =>
    rw [pubKeyContainsR1, anyContainsR1_iff]
    constructor
    · rintro ⟨sub, hsub, hfound⟩
      obtain ⟨raw, hraw⟩ := (ih sub hsub).1 hfound
      exact ⟨raw, .beneath hsub hraw⟩
    · rintro ⟨raw, h⟩
      cases h with
      | beneath member within => exact ⟨_, member, (ih _ member).2 ⟨raw, within⟩⟩

/-! ## Supported trees -/

mutual

def assertAllowedKeyTree : PubKey → Result Unit
  | .secp256k1 _ => .ok ()
  | .secp256r1 _ => .ok ()
  | .multisig _ pubKeys => assertAllowedKeys pubKeys
  | _ => .error ⟨.sdkInvalidPubKey, "unsupported key type in multisig"⟩

/-- The loop over the keys of a multisig. -/
def assertAllowedKeys : List PubKey → Result Unit
  | [] => .ok ()
  | sub :: rest => do
    assertAllowedKeyTree sub
    assertAllowedKeys rest

end

theorem assertAllowedKeys_ok {pubKeys : List PubKey} :
    assertAllowedKeys pubKeys = .ok () ↔ ∀ sub ∈ pubKeys, assertAllowedKeyTree sub = .ok () := by
  induction pubKeys with
  | nil => exact iff_of_true rfl (List.forall_mem_nil _)
  | cons sub rest ih =>
    rw [assertAllowedKeys, List.forall_mem_cons, ← ih, bind_eq_ok]
    constructor
    · rintro ⟨⟨⟩, hsub, hrest⟩
      exact ⟨hsub, hrest⟩
    · rintro ⟨hsub, hrest⟩
      exact ⟨(), hsub, hrest⟩

/-- An admitted tree has no leaf of another curve. -/
theorem isSupported_of_allowed {key leaf : PubKey} (h : assertAllowedKeyTree key = .ok ())
    (hin : PubKey.In leaf key) (hleaf : leaf.isMultisig = false) : leaf.isSupported = true := by
  induction hin with
  | here =>
    cases leaf with
    | secp256k1 | secp256r1 => rfl
    | multisig => cases hleaf
    | ed25519 | other => cases h
  | beneath member _ ih =>
    apply ih
    rw [assertAllowedKeyTree, assertAllowedKeys_ok] at h
    exact h _ member

/-- An admitted tree without a secp256r1 leaf has secp256k1 leaves only. -/
theorem secp256k1_of_allowed {key leaf : PubKey} (h : assertAllowedKeyTree key = .ok ())
    (hno : pubKeyContainsR1 key ≠ true) (hin : PubKey.In leaf key)
    (hleaf : leaf.isMultisig = false) : ∃ raw, leaf = .secp256k1 raw := by
  have hsupported := isSupported_of_allowed h hin hleaf
  cases leaf with
  | secp256k1 raw => exact ⟨raw, rfl⟩
  | secp256r1 raw => exact absurd (pubKeyContainsR1_iff.2 ⟨raw, hin⟩) hno
  | ed25519 | multisig | other => cases hsupported

end PhiChain.Ante
