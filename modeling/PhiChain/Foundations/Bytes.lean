import Mathlib.Data.Fin.Basic
import Mathlib.Data.List.Lex
import Mathlib.Data.Nat.ModEq
import Mathlib.Tactic.Ring

/-!
# Byte strings, big-endian numbers and length prefixes

Byte strings are lists of bytes, ordered lexicographically. `bigEndian w n` is the
fixed-width encoding of `n` modulo `256 ^ w`. `lengthPrefixed` concatenates parts,
each behind the four-byte length a 32-bit cast of its length gives.

A length prefix is read back from the front: `lengthPrefixed_cons_inj` compares
the first parts and hands the rest on, so that an injectivity argument about a
fixed list of parts goes part by part.
-/

set_option autoImplicit false

namespace PhiChain.Foundations

/-- An octet. -/
abbrev Byte := Fin 256

/-- One proof behind every byte numeral. -/
instance byteNeZero : NeZero 256 := ⟨nofun⟩

/-- A byte string. -/
abbrev Bytes := List Byte

instance bytesLawfulBEq : LawfulBEq Bytes := inferInstance

/-- The bytes of an ASCII text. -/
def ascii (s : String) : Bytes := s.toList.map fun c => Fin.ofNat 256 c.toNat

/-- Big-endian encoding of `n` modulo `256 ^ w` in `w` bytes. -/
def bigEndian : Nat → Nat → Bytes
  | 0, _ => []
  | w + 1, n => Fin.ofNat 256 (n / 256 ^ w) :: bigEndian w n

/-- The number a big-endian byte string denotes. -/
def ofBigEndian : Bytes → Nat
  | [] => 0
  | b :: rest => b.val * 256 ^ rest.length + ofBigEndian rest

@[simp] theorem length_bigEndian (w n : Nat) : (bigEndian w n).length = w := by
  induction w with
  | zero => rfl
  | succ w ih => simp [bigEndian, ih]

theorem ofBigEndian_bigEndian (w n : Nat) : ofBigEndian (bigEndian w n) = n % 256 ^ w := by
  induction w with
  | zero => simp [bigEndian, ofBigEndian, Nat.mod_one]
  | succ w ih =>
    have hhead : (Fin.ofNat 256 (n / 256 ^ w)).val = n / 256 ^ w % 256 := rfl
    simp only [bigEndian, ofBigEndian, length_bigEndian, ih, hhead]
    rw [pow_succ, Nat.mod_mul, Nat.add_comm, Nat.mul_comm]

theorem bigEndian_mul_add (w c n : Nat) : bigEndian w (c * 256 ^ w + n) = bigEndian w n := by
  induction w generalizing c with
  | zero => rfl
  | succ w ih =>
    have hpos : 0 < 256 ^ w := Nat.pow_pos (by decide)
    have hsplit : c * 256 ^ (w + 1) + n = n + 256 ^ w * (c * 256) := by ring
    have hhead : Fin.ofNat 256 ((c * 256 ^ (w + 1) + n) / 256 ^ w) =
        Fin.ofNat 256 (n / 256 ^ w) := by
      rw [hsplit, Nat.add_mul_div_left _ _ hpos]
      exact Fin.ext (Nat.add_mul_mod_self_right _ _ _)
    have htail : bigEndian w (c * 256 ^ (w + 1) + n) = bigEndian w n := by
      rw [pow_succ, Nat.mul_comm (256 ^ w), ← Nat.mul_assoc, ih]
    rw [bigEndian, bigEndian, hhead, htail]

theorem ofBigEndian_lt (b : Bytes) : ofBigEndian b < 256 ^ b.length := by
  induction b with
  | nil => exact Nat.one_pos
  | cons d rest ih =>
    have hdigit : d.val + 1 ≤ 256 := d.isLt
    have hbound := Nat.mul_le_mul_right (256 ^ rest.length) hdigit
    rw [Nat.succ_mul] at hbound
    rw [ofBigEndian, List.length_cons, pow_succ, Nat.mul_comm (256 ^ rest.length)]
    omega

/-- A byte string is the encoding of the number it denotes. -/
theorem bigEndian_ofBigEndian (b : Bytes) : bigEndian b.length (ofBigEndian b) = b := by
  induction b with
  | nil => rfl
  | cons d rest ih =>
    have hpos : 0 < 256 ^ rest.length := Nat.pow_pos (by decide)
    have hhead : (d.val * 256 ^ rest.length + ofBigEndian rest) / 256 ^ rest.length = d.val := by
      rw [Nat.add_comm, Nat.add_mul_div_right _ _ hpos, Nat.div_eq_of_lt (ofBigEndian_lt rest),
        Nat.zero_add]
    rw [ofBigEndian, List.length_cons, bigEndian, hhead, bigEndian_mul_add, ih]
    exact congrArg (· :: rest) (Fin.ext (Nat.mod_eq_of_lt d.isLt))

variable {m n w : Nat} {p q : Bytes} {ps qs : List Bytes}

/-- The first bytes of a string, read as a number and written again. -/
theorem bigEndian_ofBigEndian_take {b : Bytes} (h : w ≤ b.length) :
    bigEndian w (ofBigEndian (b.take w)) = b.take w := by
  have hlength : (b.take w).length = w := by
    rw [List.length_take]
    omega
  have hread := bigEndian_ofBigEndian (b.take w)
  rwa [hlength] at hread

theorem ofBigEndian_take_append (h : n < 256 ^ w) (rest : Bytes) :
    ofBigEndian ((bigEndian w n ++ rest).take w) = n := by
  have htake : (bigEndian w n ++ rest).take w = bigEndian w n :=
    List.take_left' (length_bigEndian w n)
  rw [htake, ofBigEndian_bigEndian, Nat.mod_eq_of_lt h]

/-- Equal encodings come from numbers that agree modulo `256 ^ w`. -/
theorem bigEndian_inj (h : bigEndian w m = bigEndian w n) :
    m % 256 ^ w = n % 256 ^ w := by
  rw [← ofBigEndian_bigEndian, ← ofBigEndian_bigEndian, h]

theorem bigEndian_inj_of_lt (hm : m < 256 ^ w) (hn : n < 256 ^ w)
    (h : bigEndian w m = bigEndian w n) : m = n := by
  have hmod := bigEndian_inj h
  rwa [Nat.mod_eq_of_lt hm, Nat.mod_eq_of_lt hn] at hmod

/-- Encodings of one width are ordered as the numbers are, whatever follows the larger. -/
theorem not_append_lt_bigEndian (h : m % 256 ^ w ≤ n % 256 ^ w) (rest : Bytes) :
    ¬ bigEndian w n ++ rest < bigEndian w m := by
  induction w with
  | zero => exact List.not_lt_nil _
  | succ w ih =>
    have hlow : n % 256 ^ w < 256 ^ w := Nat.mod_lt _ (Nat.pow_pos (by decide))
    rw [pow_succ, Nat.mod_mul, Nat.mod_mul] at h
    intro hlt
    rcases List.cons_lt_cons_iff.1 hlt with hdigit | ⟨hsame, htail⟩
    · -- a larger first digit outweighs the rest
      have hdigit : n / 256 ^ w % 256 < m / 256 ^ w % 256 := hdigit
      have hgap := Nat.mul_le_mul_left (256 ^ w) (Nat.succ_le_of_lt hdigit)
      rw [Nat.mul_succ] at hgap
      omega
    · have hsame : n / 256 ^ w % 256 = m / 256 ^ w % 256 := congrArg Fin.val hsame
      rw [hsame] at h
      exact ih (Nat.le_of_add_le_add_right h) htail

/-- The encoding of a smaller number comes first, whatever follows the two. -/
theorem bigEndian_append_lt (h : m % 256 ^ w < n % 256 ^ w) (rest rest' : Bytes) :
    bigEndian w m ++ rest < bigEndian w n ++ rest' := by
  induction w with
  | zero =>
    rw [pow_zero, Nat.mod_one, Nat.mod_one] at h
    exact absurd h (lt_irrefl 0)
  | succ w ih =>
    have hlow : m % 256 ^ w < 256 ^ w := Nat.mod_lt _ (Nat.pow_pos (by decide))
    rw [pow_succ, Nat.mod_mul, Nat.mod_mul] at h
    refine List.cons_lt_cons_iff.2 ?_
    rcases lt_trichotomy (m / 256 ^ w % 256) (n / 256 ^ w % 256) with hlt | heq | hgt
    · exact Or.inl hlt
    · refine Or.inr ⟨Fin.ext heq, ih ?_⟩
      rw [heq] at h
      exact Nat.lt_of_add_lt_add_right h
    · have hgap := Nat.mul_le_mul_left (256 ^ w) (Nat.succ_le_of_lt hgt)
      have hlow' : n % 256 ^ w < 256 ^ w := Nat.mod_lt _ (Nat.pow_pos (by decide))
      rw [Nat.mul_succ] at hgap
      omega

/-- Behind a byte string come those that are not before it with a zero byte added. -/
theorem not_lt_append_zero_iff {c key : Bytes} : ¬ key < c ++ [(0x00 : Byte)] ↔ c < key := by
  induction c generalizing key with
  | nil =>
    cases key with
    | nil => exact iff_of_false (fun h => h (List.nil_lt_cons _ _)) (List.not_lt_nil _)
    | cons b rest =>
      refine iff_of_true ?_ (List.nil_lt_cons b rest)
      rw [List.nil_append, List.cons_lt_cons_iff]
      rintro (hlt | ⟨-, hlt⟩)
      · exact Nat.not_lt_zero _ (Fin.lt_def.1 hlt)
      · exact List.not_lt_nil _ hlt
  | cons a c ih =>
    cases key with
    | nil =>
      rw [List.cons_append]
      exact iff_of_false (fun h => h (List.nil_lt_cons _ _)) (List.not_lt_nil _)
    | cons b rest =>
      rw [List.cons_append, List.cons_lt_cons_iff, List.cons_lt_cons_iff, ← ih]
      constructor
      · intro h
        rcases Nat.lt_trichotomy a.val b.val with hlt | heq | hgt
        · exact Or.inl (Fin.lt_def.2 hlt)
        · exact Or.inr ⟨Fin.ext heq, fun hrest => h (Or.inr ⟨Fin.ext heq.symm, hrest⟩)⟩
        · exact absurd (Or.inl (Fin.lt_def.2 hgt)) h
      · rintro (hlt | ⟨rfl, hrest⟩) (hgt | ⟨heq, hgt⟩)
        · exact Nat.lt_asymm (Fin.lt_def.1 hlt) (Fin.lt_def.1 hgt)
        · exact Nat.lt_irrefl _ (Fin.lt_def.1 (heq ▸ hlt))
        · exact Nat.lt_irrefl _ (Fin.lt_def.1 hgt)
        · exact hrest hgt

/-- Number of bytes of a length prefix. -/
abbrev lengthWidth : Nat := 4

/-- Concatenation of the parts, each behind its length cast to 32 bits. -/
def lengthPrefixed : List Bytes → Bytes
  | [] => []
  | p :: rest => bigEndian lengthWidth p.length ++ p ++ lengthPrefixed rest

theorem length_lengthPrefixed_cons (p : Bytes) (rest : List Bytes) :
    (lengthPrefixed (p :: rest)).length =
      lengthWidth + p.length + (lengthPrefixed rest).length := by
  simp [lengthPrefixed, Nat.add_assoc]

theorem lengthPrefixed_cons_length_mod (h : lengthPrefixed (p :: ps) = lengthPrefixed (q :: qs)) :
    p.length % 256 ^ lengthWidth = q.length % 256 ^ lengthWidth := by
  simp only [lengthPrefixed, List.append_assoc] at h
  have hhead := (List.append_inj h (by simp)).1
  exact bigEndian_inj hhead

/-- First parts of equal length are equal, and so are the encodings of the rest. -/
theorem lengthPrefixed_cons_inj (h : lengthPrefixed (p :: ps) = lengthPrefixed (q :: qs))
    (hlen : p.length = q.length) :
    p = q ∧ lengthPrefixed ps = lengthPrefixed qs := by
  simp only [lengthPrefixed, List.append_assoc] at h
  have htail := (List.append_inj h (by simp)).2
  exact List.append_inj htail hlen

/-- First parts shorter than `2 ^ 32` are equal, and so are the encodings of the rest. -/
theorem lengthPrefixed_cons_inj_of_lt (h : lengthPrefixed (p :: ps) = lengthPrefixed (q :: qs))
    (hp : p.length < 256 ^ lengthWidth) (hq : q.length < 256 ^ lengthWidth) :
    p = q ∧ lengthPrefixed ps = lengthPrefixed qs := by
  have hmod := lengthPrefixed_cons_length_mod h
  rw [Nat.mod_eq_of_lt hp, Nat.mod_eq_of_lt hq] at hmod
  exact lengthPrefixed_cons_inj h hmod

/-- First parts of any length are equal when what follows them is shorter than `2 ^ 32`:
their lengths agree modulo `2 ^ 32`, and the total lengths are the same. -/
theorem lengthPrefixed_cons_inj_of_rest_lt (h : lengthPrefixed (p :: ps) = lengthPrefixed (q :: qs))
    (hps : (lengthPrefixed ps).length < 256 ^ lengthWidth)
    (hqs : (lengthPrefixed qs).length < 256 ^ lengthWidth) :
    p = q ∧ lengthPrefixed ps = lengthPrefixed qs := by
  have hmod := lengthPrefixed_cons_length_mod h
  have htotal := congrArg List.length h
  rw [length_lengthPrefixed_cons, length_lengthPrefixed_cons] at htotal
  have hlen : p.length = q.length := by
    have hwidth : 256 ^ lengthWidth = 4294967296 := rfl
    rw [hwidth] at hmod hps hqs
    omega
  exact lengthPrefixed_cons_inj h hlen

/-- A one-byte length followed by the bytes it counts, the length cast to a byte. -/
def bytePrefixed (p : Bytes) : Bytes := Fin.ofNat 256 p.length :: p

/-- A one-byte length prefix is read back unambiguously below 256 bytes. -/
theorem bytePrefixed_append_inj {r s : Bytes} (hp : p.length < 256) (hq : q.length < 256)
    (h : bytePrefixed p ++ r = bytePrefixed q ++ s) : p = q ∧ r = s := by
  simp only [bytePrefixed, List.cons_append, List.cons.injEq] at h
  obtain ⟨hhead, htail⟩ := h
  have hval : p.length % 256 = q.length % 256 := congrArg Fin.val hhead
  rw [Nat.mod_eq_of_lt hp, Nat.mod_eq_of_lt hq] at hval
  exact List.append_inj htail hval

/-- The text before the last mark and the text after it. -/
theorem append_mark_inj {α : Type} {a : α} {x x' y y' : List α} (hy : a ∉ y) (hy' : a ∉ y')
    (h : x ++ a :: y = x' ++ a :: y') : x = x' ∧ y = y' := by
  rcases List.append_eq_append_iff.1 h with ⟨z, rfl, hz⟩ | ⟨z, rfl, hz⟩
  · cases z with
    | nil => exact ⟨(List.append_nil x).symm, (List.cons.inj hz).2⟩
    | cons b rest =>
      obtain ⟨-, rfl⟩ := List.cons.inj hz
      exact absurd (List.mem_append_right rest List.mem_cons_self) hy
  · cases z with
    | nil => exact ⟨List.append_nil x', (List.cons.inj hz).2.symm⟩
    | cons b rest =>
      obtain ⟨-, rfl⟩ := List.cons.inj hz
      exact absurd (List.mem_append_right rest List.mem_cons_self) hy'

end PhiChain.Foundations
