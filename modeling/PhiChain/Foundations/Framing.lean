import PhiChain.Foundations.Bytes

/-!
# Framed byte strings

A part is framed by its length: `lengthPrefixed` puts four bytes in front of each part,
`bytePrefixed` one byte. As long as the lengths fit, framing loses nothing.

- `lengthPrefixed_inj`: two lists of parts with the same framing are the same list, whatever
  their numbers of parts.
- `frame_of_read`, `read_of_frame`: reading a length and that many bytes takes the first part
  off a string, and only strings that start with a frame allow it.
- `bytePrefixed_isPrefix_iff`: behind one byte of length, one name is a start of another only
  if they are the same.
-/

set_option autoImplicit false

namespace PhiChain.Foundations

/-- Short enough for four bytes of length. -/
def Frameable (p : Bytes) : Prop := p.length < 256 ^ lengthWidth

instance decidableFrameable (p : Bytes) : Decidable (Frameable p) :=
  inferInstanceAs (Decidable (p.length < 256 ^ lengthWidth))

section Lists

variable {p q : Bytes} {ps qs : List Bytes}

theorem lengthPrefixed_cons_ne_nil (p : Bytes) (ps : List Bytes) : lengthPrefixed (p :: ps) ≠ [] := by
  intro hnil
  have hlength := congrArg List.length hnil
  have hwidth : 0 < lengthWidth := by decide
  rw [length_lengthPrefixed_cons, List.length_nil] at hlength
  omega

/-- Framing tells lists of parts apart. -/
theorem lengthPrefixed_inj (hps : ∀ p ∈ ps, Frameable p) (hqs : ∀ q ∈ qs, Frameable q)
    (h : lengthPrefixed ps = lengthPrefixed qs) : ps = qs := by
  induction ps generalizing qs with
  | nil =>
    -- a list that has a part left frames to at least four bytes
    cases qs with
    | nil => rfl
    | cons q qs => exact absurd h.symm (lengthPrefixed_cons_ne_nil q qs)
  | cons p ps ih =>
    cases qs with
    | nil => exact absurd h (lengthPrefixed_cons_ne_nil p ps)
    | cons q qs =>
      obtain ⟨hfirst, hrest⟩ := lengthPrefixed_cons_inj_of_lt h (hps p List.mem_cons_self)
        (hqs q List.mem_cons_self)
      have htail := ih (fun p' hp' => hps p' (List.mem_cons_of_mem p hp'))
        (fun q' hq' => hqs q' (List.mem_cons_of_mem q hq')) hrest
      rw [hfirst, htail]

end Lists

section Reading

variable {b p : Bytes}

/-- What a length says of the bytes behind it is a part, and the string starts with its frame. -/
theorem frame_of_read (hwidth : lengthWidth ≤ b.length)
    (hlength : ofBigEndian (b.take lengthWidth) ≤ (b.drop lengthWidth).length) :
    let n := ofBigEndian (b.take lengthWidth)
    Frameable ((b.drop lengthWidth).take n) ∧
      b = bigEndian lengthWidth ((b.drop lengthWidth).take n).length ++
        (b.drop lengthWidth).take n ++ (b.drop lengthWidth).drop n := by
  intro n
  have htaken : ((b.drop lengthWidth).take n).length = n := by
    rw [List.length_take]
    exact Nat.min_eq_left hlength
  have hbound : n < 256 ^ lengthWidth := by
    have hlt := ofBigEndian_lt (b.take lengthWidth)
    rwa [List.length_take, Nat.min_eq_left hwidth] at hlt
  constructor
  · rw [Frameable, htaken]
    exact hbound
  · rw [htaken, bigEndian_ofBigEndian_take hwidth, List.append_assoc, List.take_append_drop,
      List.take_append_drop]

/-- A string that starts with a frame is read back. -/
theorem read_of_frame (hp : Frameable p) (rest : Bytes) :
    let b := bigEndian lengthWidth p.length ++ p ++ rest
    lengthWidth ≤ b.length ∧ ofBigEndian (b.take lengthWidth) = p.length ∧
      b.drop lengthWidth = p ++ rest := by
  intro b
  have hb : b = bigEndian lengthWidth p.length ++ (p ++ rest) := List.append_assoc _ _ _
  rw [hb]
  refine ⟨?_, ofBigEndian_take_append hp (p ++ rest), List.drop_left' (length_bigEndian _ _)⟩
  rw [List.length_append, length_bigEndian]
  omega

end Reading

/-- Behind one byte of length, a name is a start of another only if they are the same. -/
theorem bytePrefixed_isPrefix_iff {p q : Bytes} (hp : p.length < 256) (hq : q.length < 256)
    (rest : Bytes) : bytePrefixed p <+: bytePrefixed q ++ rest ↔ p = q := by
  constructor
  · rintro ⟨tail, htail⟩
    exact (bytePrefixed_append_inj hp hq htail).1
  · rintro rfl
    exact ⟨rest, rfl⟩

end PhiChain.Foundations
