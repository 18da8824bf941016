import PhiChain.Foundations.Bytes
import PhiChain.Sdk.Failure

/-!
# Bech32 account addresses

The decoder and encoder of the vendored bech32 library and the two account
address functions built on them: `accAddressFromBech32`, which every message
handler applies to the strings a message carries, and `accAddressString`, the
canonical spelling an account address prints as.

The decoder lower-cases an all-upper-case string before anything else
(`normalize`), so an account has at least two accepted spellings.
-/

set_option autoImplicit false

namespace PhiChain.Sdk

open Foundations

/-- Characters of the data part; position is value. -/
def charset : Bytes := ascii "qpzry9x8gf2tvdw0s3jn54khce6mua7l"

/-- Generator polynomial of the checksum. -/
def gen : List Nat := [0x3b6a57b2, 0x26508e6d, 0x1ea119fa, 0x3d4233dd, 0x2a1462b3]

/-- Position of a byte in a string. -/
def indexByte (s : Bytes) (c : Byte) : Option Nat := s.findIdx? fun b => b = c

/-- Position of the last occurrence of a byte in a string. -/
def lastIndexByte (s : Bytes) (c : Byte) : Option Nat :=
  (indexByte s.reverse c).map fun i => s.length - 1 - i

/-- Values of the characters of the data part; fails outside the charset. -/
def toBytes (chars : Bytes) : Option (List Nat) := chars.mapM (indexByte charset)

/-- One round of the checksum: shift in a five-bit value and reduce. -/
def polymodStep (chk v : Nat) : Nat :=
  let b := chk >>> 25
  let shifted := ((chk &&& 0x1ffffff) <<< 5) ^^^ v
  (gen.zipIdx).foldl (fun c g => if (b >>> g.2) &&& 1 = 1 then c ^^^ g.1 else c) shifted

/-- Checksum over the expanded human-readable part, the values and the checksum symbols. -/
def bech32Polymod (hrp : Bytes) (values checksum : List Nat) : Nat :=
  let hi := hrp.map fun c => c.val >>> 5
  let lo := hrp.map fun c => c.val &&& 31
  (hi ++ [0] ++ lo ++ values ++ checksum).foldl polymodStep 1

def verifyChecksum (hrp : Bytes) (values checksum : List Nat) : Bool :=
  bech32Polymod hrp values checksum = 1

/-- The six checksum characters written behind a payload. -/
def bech32Checksum (hrp : Bytes) (data : List Nat) : List Nat :=
  let polymod := bech32Polymod hrp data [0, 0, 0, 0, 0, 0] ^^^ 1
  (List.range 6).map fun i => (polymod >>> (5 * (5 - i))) &&& 31

def isLower (c : Byte) : Bool := 97 ≤ c.val ∧ c.val ≤ 122

def isUpper (c : Byte) : Bool := 65 ≤ c.val ∧ c.val ≤ 90

def toLower (c : Byte) : Byte := if isUpper c then Fin.ofNat 256 (c.val + 32) else c

/-- Lower-case form of a string of printable characters of one case. -/
def normalize (bech : Bytes) : Option Bytes :=
  if bech.any (fun c => c.val < 33 ∨ 126 < c.val) then none
  else if bech.any isLower && bech.any isUpper then none
  else if bech.any isUpper then some (bech.map toLower)
  else some bech

/-- Human-readable part, data values and checksum values of a lower-case string. -/
def decodeUnsafe (bech : Bytes) : Option (Bytes × List Nat × List Nat) := do
  let one ← lastIndexByte bech 49
  if one < 1 ∨ bech.length < one + 7 then none
  else
    let decoded ← toBytes (bech.drop (one + 1))
    some (bech.take one, decoded.take (decoded.length - 6), decoded.drop (decoded.length - 6))

/-- Human-readable part and data values of a string of at most `limit` characters. -/
def decode (bech : Bytes) (limit : Nat) : Option (Bytes × List Nat) :=
  if limit < bech.length ∨ bech.length < 8 then none
  else do
    let lowered ← normalize bech
    let (hrp, values, checksum) ← decodeUnsafe lowered
    if verifyChecksum hrp values checksum then some (hrp, values) else none

/-- Bits collected towards the next output group, and the groups completed so far. -/
structure Regroup where
  next : Nat
  filled : Nat
  out : List Nat

/-- Move the `rem` leading bits of the byte `b` into groups of `toBits` bits. Each
round extracts at least one bit, so `fuel = rem` rounds are enough. -/
def extractBits (toBits : Nat) : Nat → Nat → Nat → Regroup → Regroup
  | 0, _, _, g => g
  | fuel + 1, b, rem, g =>
    if rem = 0 then g
    else
      let n := min rem (toBits - g.filled)
      let next := ((g.next <<< n) % 256) ||| (b >>> (8 - n))
      let filled := g.filled + n
      extractBits toBits fuel ((b <<< n) % 256) (rem - n)
        (if filled = toBits then ⟨0, 0, g.out ++ [next]⟩ else ⟨next, filled, g.out⟩)

/-- Regroup `fromBits`-bit values into `toBits`-bit values, padding or refusing an
incomplete last group. -/
def convertBits (data : List Nat) (fromBits toBits : Nat) (pad : Bool) : Option (List Nat) :=
  let g := data.foldl
    (fun g b => extractBits toBits fromBits ((b <<< (8 - fromBits)) % 256) fromBits g) ⟨0, 0, []⟩
  if pad then
    if 0 < g.filled then some (g.out ++ [(g.next <<< (toBits - g.filled)) % 256]) else some g.out
  else if 0 < g.filled ∧ (4 < g.filled ∨ g.next ≠ 0) then none
  else some g.out

/-- Human-readable part of this chain's account addresses. -/
def accountAddressPrefix : Bytes := ascii "phi"

/-- Character limit of `DecodeAndConvert`. -/
def bech32Limit : Nat := 1023

/-- White space `strings.TrimSpace` removes, among single bytes. -/
def isSpace (c : Byte) : Bool := c.val = 32 ∨ (9 ≤ c.val ∧ c.val ≤ 13)

/-- Address that a string denotes under a human-readable part: the string is not blank, and the
address has between one and 255 bytes. -/
def addressFromBech32 (hrp address : Bytes) : Option Bytes :=
  if address.all isSpace then none
  else do
    let (found, data) ← decode address bech32Limit
    let converted ← convertBits data 5 8 false
    if found = hrp ∧ 0 < converted.length ∧ converted.length ≤ 255 then
      some (converted.map (Fin.ofNat 256))
    else none

/-- Account address a string denotes. -/
def accAddressFromBech32 (address : Bytes) : Option Bytes :=
  addressFromBech32 accountAddressPrefix address

/-- An address field that must decode. -/
def validateAddress (field : String) (address : Bytes) : Result Unit :=
  ensure ((accAddressFromBech32 address).isSome = true) ⟨.invalidAddress, "invalid " ++ field⟩

/-- Human-readable part of this chain's validator operator addresses. -/
def validatorAddressPrefix : Bytes := accountAddressPrefix ++ ascii "valoper"

/-- Operator address a string denotes. -/
def valAddressFromBech32 (address : Bytes) : Option Bytes :=
  addressFromBech32 validatorAddressPrefix address

/-- What a string denoting an address decodes to. -/
theorem addressFromBech32_ok {hrp address addr : Bytes}
    (h : addressFromBech32 hrp address = some addr) : ∃ data converted,
      decode address bech32Limit = some (hrp, data) ∧ convertBits data 5 8 false = some converted ∧
        0 < converted.length ∧ converted.length ≤ 255 ∧ converted.map (Fin.ofNat 256) = addr := by
  unfold addressFromBech32 at h
  split at h
  · cases h
  · simp only [Option.bind_eq_bind, Option.bind_eq_some_iff] at h
    obtain ⟨⟨found, data⟩, hdecode, converted, hconvert, h⟩ := h
    split at h
    · rename_i hvalid
      obtain ⟨rfl, hpos, hle⟩ := hvalid
      exact ⟨data, converted, hdecode, hconvert, hpos, hle, Option.some.inj h⟩
    · cases h

/-- The length of a decoded address is one that an address may have. -/
theorem accAddressFromBech32_size {address addr : Bytes}
    (h : accAddressFromBech32 address = some addr) : 0 < addr.length ∧ addr.length ≤ 255 := by
  obtain ⟨data, converted, -, -, hpos, hle, rfl⟩ := addressFromBech32_ok h
  rw [List.length_map]
  exact ⟨hpos, hle⟩

/-- A decoded address is not empty. -/
theorem accAddressFromBech32_ne_nil {address addr : Bytes}
    (h : accAddressFromBech32 address = some addr) : addr ≠ [] :=
  List.length_pos_iff.1 (accAddressFromBech32_size h).1

theorem decode_length_le {bech : Bytes} {limit : Nat} {r : Bytes × List Nat}
    (h : decode bech limit = some r) : bech.length ≤ limit := by
  unfold decode at h
  split at h
  · cases h
  · rename_i hlen
    exact Nat.le_of_not_lt fun hlt => hlen (.inl hlt)

/-- A string that denotes an account is short. -/
theorem accAddressFromBech32_length_le {address addr : Bytes}
    (h : accAddressFromBech32 address = some addr) : address.length ≤ bech32Limit := by
  obtain ⟨data, converted, hdecode, -⟩ := addressFromBech32_ok h
  exact decode_length_le hdecode

/-- Canonical spelling of an address under a human-readable part; the empty address prints empty. -/
def addressString (hrp addr : Bytes) : Bytes :=
  if addr = [] then []
  else
    let data := (convertBits (addr.map Fin.val) 8 5 true).getD []
    hrp ++ ascii "1" ++ (data ++ bech32Checksum hrp data).map fun v => charset.getD v 0

/-- Canonical spelling of an account address. -/
def accAddressString (addr : Bytes) : Bytes := addressString accountAddressPrefix addr

/-- Canonical spelling of an operator address. -/
def valAddressString (addr : Bytes) : Bytes := addressString validatorAddressPrefix addr

end PhiChain.Sdk
