import PhiChain.Foundations.Bytes
import PhiChain.Foundations.Run

/-!
# Disclosure: the proof envelope

A selective-disclosure proof travels in an envelope: the claim count of the credential, a
body behind its length, and the revealed claims, each an index and a value behind its
length. The chain reads the indices and nothing else; numbers are 32 bits wide, most
significant byte first. A reader keeps the place it has come to.
-/

set_option autoImplicit false

namespace PhiChain.Disclosure

open Foundations

/-- No credential carries more claims. -/
def maxBbsMessages : Nat := 64

inductive DisclosureLevel where
  | unspecified
  | predicate
  | partialReveal
  deriving DecidableEq

structure DisclosedProof where
  messageCount : UInt32
  revealedIndices : List UInt32
  deriving DecidableEq

def DisclosedProof.isPredicate (d : DisclosedProof) : Bool := d.revealedIndices.length = 0

def DisclosedProof.level (d : DisclosedProof) : DisclosureLevel :=
  if d.isPredicate then .predicate else .partialReveal

/-! ## The reader -/

/-- The bytes of an envelope and how far they are read. -/
structure Reader where
  b : Bytes
  pos : Nat

def Reader.left (r : Reader) : Nat := r.b.length - r.pos

def Reader.u32 (r : Reader) : Except String (UInt32 × Reader) := do
  let rest := r.left
  ensure (r.pos + 4 ≤ r.b.length)
    s!"truncated proof envelope: want 4 bytes at offset {r.pos}, have {rest}"
  return (UInt32.ofNat (ofBigEndian ((r.b.drop r.pos).take 4)), { r with pos := r.pos + 4 })

/-- A byte string behind its length. -/
def Reader.bytes (r : Reader) : Except String (Bytes × Reader) := do
  let (n, r) ← r.u32
  let remaining := r.left
  ensure (n.toNat ≤ r.left)
    s!"truncated proof envelope: length prefix {n} exceeds the {remaining} bytes remaining"
  return ((r.b.drop r.pos).take n.toNat, { r with pos := r.pos + n.toNat })

/-! ## The envelope -/

/-- The revealed claims one after the other; their values are skipped. -/
def readIndices (messageCount : UInt32) :
    Nat → List UInt32 → Reader → Except String (List UInt32 × Reader)
  | 0, indices, r => .ok (indices, r)
  | n + 1, indices, r => do
    let (idx, r) ← r.u32
    let (_, r) ← r.bytes
    ensure (idx < messageCount)
      s!"revealed index {idx} is out of range for a {messageCount}-claim credential"
    ensure (idx ∉ indices) s!"index {idx} revealed more than once"
    readIndices messageCount n (indices ++ [idx]) r

/-- Move a value left past the greater ones at the end of a list. -/
def sinkLeft (x : UInt32) (a : List UInt32) : List UInt32 :=
  (a.reverse.dropWhile (x < ·)).reverse ++ x :: (a.reverse.takeWhile (x < ·)).reverse

def sortAscending (a : List UInt32) : List UInt32 := a.foldl (fun done x => sinkLeft x done) []

def parseDisclosedProof (b : Bytes) : Except String DisclosedProof := do
  let (messageCount, r) ← Reader.u32 ⟨b, 0⟩
  ensure (messageCount ≠ 0 ∧ messageCount.toNat ≤ maxBbsMessages)
    s!"message_count {messageCount} out of range (1..{maxBbsMessages})"
  -- the body of the proof is for the verifier
  let (_, r) ← r.bytes
  let (n, r) ← r.u32
  ensure (n ≤ messageCount)
    s!"proof reveals {n} claims but the credential has {messageCount}"
  let (indices, r) ← readIndices messageCount n.toNat [] r
  let trailing := r.left
  ensure (r.pos = b.length) s!"{trailing} trailing bytes after the proof envelope"
  return ⟨messageCount, sortAscending indices⟩

end PhiChain.Disclosure
