import PhiChain.Sdk.Bech32
import Mathlib.Data.Nat.Digits.Lemmas
import Mathlib.Data.Nat.Bitwise

/-!
# Spellings of an account

An account has one lower-case and one upper-case spelling. `convertBits_inj` shows that
regrouping five-bit values into bytes loses nothing, `checksum_unique` that the values
determine the six checksum characters, and `accAddressFromBech32_inj` puts them
together: two strings of one letter case that denote the same account are equal.
-/

set_option autoImplicit false

namespace PhiChain.Sdk

open Foundations

/-! ## Regrouping bits -/

/-- The groups hold the first `bits` bits of a number of that value. -/
structure Regroup.Holds (toBits : Nat) (g : Regroup) (bits value : Nat) : Prop where
  filled : g.filled < toBits
  next : g.next < 2 ^ g.filled
  digits : ∀ d ∈ g.out, d < 2 ^ toBits
  count : toBits * g.out.length + g.filled = bits
  value : Nat.ofDigits (2 ^ toBits) g.out.reverse * 2 ^ g.filled + g.next = value

/-- Append `n` bits with value `x`, completing a group when it is full. -/
def Regroup.push (toBits n x : Nat) (g : Regroup) : Regroup :=
  if g.filled + n = toBits then ⟨0, 0, g.out ++ [g.next * 2 ^ n + x]⟩
  else ⟨g.next * 2 ^ n + x, g.filled + n, g.out⟩

variable {n toBits x : Nat} {xs ys : List Nat} {c : Byte} {addr s : Bytes}

theorem append_bits_lt {a m : Nat} (ha : a < 2 ^ m) (hx : x < 2 ^ n) :
    a * 2 ^ n + x < 2 ^ (m + n) := by
  calc a * 2 ^ n + x < a * 2 ^ n + 2 ^ n := Nat.add_lt_add_left hx _
    _ = (a + 1) * 2 ^ n := by rw [Nat.add_mul, Nat.one_mul]
    _ ≤ 2 ^ m * 2 ^ n := Nat.mul_le_mul_right _ ha
    _ = 2 ^ (m + n) := (Nat.pow_add 2 m n).symm

theorem Regroup.Holds.push {bits value : Nat} {g : Regroup} (h : g.Holds toBits bits value)
    (hn : g.filled + n ≤ toBits) (hx : x < 2 ^ n) :
    (g.push toBits n x).Holds toBits (bits + n) (value * 2 ^ n + x) := by
  have hnext := append_bits_lt h.next hx
  have hvalue := h.value
  have hcount := h.count
  unfold Regroup.push
  split
  · rename_i hfull
    refine ⟨Nat.zero_lt_of_lt h.filled, Nat.one_pos, ?_, ?_, ?_⟩
    · intro d hd
      rcases List.mem_append.1 hd with hold | hnew
      · exact h.digits d hold
      · rw [List.mem_singleton.1 hnew, ← hfull]
        exact hnext
    · simp only [List.length_append, List.length_singleton, Nat.mul_add]
      omega
    · simp only [List.reverse_append, List.reverse_cons, List.reverse_nil, List.nil_append,
        List.cons_append, Nat.ofDigits_cons]
      rw [← hvalue, ← hfull, Nat.pow_add]
      ring
  · rename_i hopen
    refine ⟨by dsimp only; omega, hnext, h.digits, by dsimp only; omega, ?_⟩
    dsimp only
    rw [← hvalue, Nat.pow_add]
    ring

/-- The leading `n` of `rem` bits, and the rest, of a byte that holds them at its top. -/
theorem topBits (r : Nat) {rem : Nat} (hrem : rem ≤ 8) (hn : n ≤ rem) :
    (r * 2 ^ (8 - rem)) >>> (8 - n) = r / 2 ^ (rem - n) ∧
      ((r * 2 ^ (8 - rem)) <<< n) % 256 = r % 2 ^ (rem - n) * 2 ^ (8 - (rem - n)) := by
  constructor
  · rw [Nat.shiftRight_eq_div_pow, show 8 - n = (rem - n) + (8 - rem) by omega, Nat.pow_add,
      Nat.mul_div_mul_right _ _ (Nat.two_pow_pos _)]
  · rw [Nat.shiftLeft_eq, Nat.mul_assoc, ← Nat.pow_add,
      show 8 - rem + n = 8 - (rem - n) by omega]
    have h256 : 256 = 2 ^ (rem - n) * 2 ^ (8 - (rem - n)) := by
      rw [← Nat.pow_add, show rem - n + (8 - (rem - n)) = 8 by omega]
    rw [h256, Nat.mul_mod_mul_right]

/-- The bit operations of one round append the leading bits of the byte. -/
theorem or_append {a m : Nat} (ha : a < 2 ^ m) (hmn : m + n ≤ 8) (hx : x < 2 ^ n) :
    ((a <<< n) % 256) ||| x = a * 2 ^ n + x := by
  have hlt : a <<< n < 256 := by
    rw [Nat.shiftLeft_eq]
    have hbound := append_bits_lt ha (Nat.two_pow_pos n)
    have hpow : 2 ^ (m + n) ≤ 2 ^ 8 := Nat.pow_le_pow_right (by decide) hmn
    omega
  rw [Nat.mod_eq_of_lt hlt, ← Nat.shiftLeft_add_eq_or_of_lt hx, Nat.shiftLeft_eq]

theorem xor_eq_or_of_lt {a : Nat} (hx : x < 2 ^ n) : (a <<< n) ^^^ x = (a <<< n) ||| x := by
  apply Nat.eq_of_testBit_eq
  intro i
  rw [Nat.testBit_xor, Nat.testBit_or, Nat.testBit_shiftLeft]
  rcases Nat.lt_or_ge i n with hi | hi
  · simp [Nat.not_le.2 hi]
  · rw [Nat.testBit_lt_two_pow (hx.trans_le (Nat.pow_le_pow_right (by decide) hi))]
    simp

/-- `extractBits` appends all the leading bits of the byte. -/
theorem extractBits_holds (hto : toBits ≤ 8) (fuel : Nat) :
    ∀ {rem r bits value : Nat} {g : Regroup}, rem ≤ fuel → rem ≤ 8 → r < 2 ^ rem →
      g.Holds toBits bits value →
      (extractBits toBits fuel (r * 2 ^ (8 - rem)) rem g).Holds toBits (bits + rem)
        (value * 2 ^ rem + r) := by
  induction fuel with
  | zero =>
    intro rem r bits value g hfuel _ hr h
    obtain rfl : rem = 0 := Nat.le_zero.1 hfuel
    have hr0 : r = 0 := Nat.lt_one_iff.1 hr
    simpa [extractBits, hr0] using h
  | succ fuel ih =>
    intro rem r bits value g hfuel hrem hr h
    unfold extractBits
    split
    · rename_i hzero
      subst hzero
      have hr0 : r = 0 := Nat.lt_one_iff.1 hr
      simpa [hr0] using h
    · rename_i hpos
      have hfilled := h.filled
      obtain ⟨n, hn⟩ : ∃ n, n = min rem (toBits - g.filled) := ⟨_, rfl⟩
      have hn1 : 0 < n := by omega
      have hnrem : n ≤ rem := by omega
      have hnto : g.filled + n ≤ toBits := by omega
      have hsplit : rem - n + n = rem := Nat.sub_add_cancel hnrem
      have hx : r / 2 ^ (rem - n) < 2 ^ n := by
        rw [Nat.div_lt_iff_lt_mul (Nat.two_pow_pos _), ← Nat.pow_add, Nat.add_comm, hsplit]
        exact hr
      obtain ⟨htop, hrest⟩ := topBits r hrem hnrem
      have hpush := h.push hnto hx
      have hgroup : (if g.filled + n = toBits then
            (⟨0, 0, g.out ++ [(g.next <<< n) % 256 ||| r / 2 ^ (rem - n)]⟩ : Regroup)
          else ⟨(g.next <<< n) % 256 ||| r / 2 ^ (rem - n), g.filled + n, g.out⟩) =
          g.push toBits n (r / 2 ^ (rem - n)) := by
        rw [or_append h.next (hnto.trans hto) hx]
        rfl
      dsimp only
      rw [← hn, htop, hrest, hgroup]
      have hnext := @ih (rem - n) (r % 2 ^ (rem - n)) _ _ _ (by omega) (by omega)
        (Nat.mod_lt _ (Nat.two_pow_pos _)) hpush
      have hbits : bits + n + (rem - n) = bits + rem := by omega
      have hvalue : (value * 2 ^ n + r / 2 ^ (rem - n)) * 2 ^ (rem - n) + r % 2 ^ (rem - n) =
          value * 2 ^ rem + r := by
        rw [Nat.add_mul, Nat.mul_assoc, ← Nat.pow_add, Nat.add_comm n, hsplit, Nat.add_assoc,
          Nat.div_add_mod']
      rwa [hbits, hvalue] at hnext

/-- Groups of a list of `fromBits`-bit values. -/
theorem fold_holds {fromBits : Nat} (hfrom : fromBits ≤ 8) (hto : toBits ≤ 8) (data : List Nat) :
    ∀ {bits value : Nat} {g : Regroup}, (∀ d ∈ data, d < 2 ^ fromBits) →
      g.Holds toBits bits value →
      (data.foldl (fun g b =>
          extractBits toBits fromBits ((b <<< (8 - fromBits)) % 256) fromBits g) g).Holds toBits
        (bits + fromBits * data.length)
        (value * 2 ^ (fromBits * data.length) + Nat.ofDigits (2 ^ fromBits) data.reverse) := by
  induction data with
  | nil =>
    intro bits value g _ h
    simpa using h
  | cons b rest ih =>
    intro bits value g hdigits h
    have hb : b < 2 ^ fromBits := hdigits b List.mem_cons_self
    have htop : (b <<< (8 - fromBits)) % 256 = b * 2 ^ (8 - fromBits) := by
      rw [Nat.shiftLeft_eq]
      apply Nat.mod_eq_of_lt
      have hlt := append_bits_lt hb (Nat.two_pow_pos (8 - fromBits))
      rw [Nat.add_sub_cancel' hfrom] at hlt
      omega
    have hstep := extractBits_holds hto fromBits (le_refl _) hfrom hb h
    rw [List.foldl_cons, htop]
    have hrest := ih (fun d hd => hdigits d (List.mem_cons_of_mem _ hd)) hstep
    have hbits : bits + fromBits + fromBits * rest.length =
        bits + fromBits * (b :: rest).length := by
      rw [List.length_cons, Nat.mul_add, Nat.mul_one]
      omega
    have hvalue : (value * 2 ^ fromBits + b) * 2 ^ (fromBits * rest.length) +
        Nat.ofDigits (2 ^ fromBits) rest.reverse =
        value * 2 ^ (fromBits * (b :: rest).length) +
          Nat.ofDigits (2 ^ fromBits) (b :: rest).reverse := by
      rw [List.reverse_cons, Nat.ofDigits_append, List.length_reverse, Nat.ofDigits_singleton,
        List.length_cons, ← Nat.pow_mul, Nat.mul_add, Nat.pow_add, Nat.mul_one]
      ring
    rwa [hbits, hvalue] at hrest

/-- The groups `convertBits` computes before it looks at the last one. -/
def regroup (data : List Nat) (fromBits toBits : Nat) : Regroup :=
  data.foldl
    (fun g b => extractBits toBits fromBits ((b <<< (8 - fromBits)) % 256) fromBits g) ⟨0, 0, []⟩

theorem regroup_holds {fromBits : Nat} (hfrom : fromBits ≤ 8) (hto : toBits ≤ 8) (hpos : 0 < toBits)
    {data : List Nat} (hdigits : ∀ d ∈ data, d < 2 ^ fromBits) :
    (regroup data fromBits toBits).Holds toBits (fromBits * data.length)
      (Nat.ofDigits (2 ^ fromBits) data.reverse) := by
  have hempty : (⟨0, 0, []⟩ : Regroup).Holds toBits 0 0 :=
    ⟨hpos, Nat.one_pos, by simp, rfl, rfl⟩
  simpa [regroup] using fold_holds hfrom hto data hdigits hempty

/-- A list is determined by its length and the number it spells. -/
theorem digits_inj {b : Nat} (hb : 1 < b) (hlen : xs.length = ys.length) (hxs : ∀ d ∈ xs, d < b)
    (hys : ∀ d ∈ ys, d < b)
    (h : Nat.ofDigits b xs.reverse = Nat.ofDigits b ys.reverse) : xs = ys := by
  have hrev := Nat.ofDigits_inj_of_len_eq hb (by simpa using hlen) (by simpa using hxs)
    (by simpa using hys) h
  exact List.reverse_inj.1 hrev

/-- Five-bit values regroup to bytes that spell the same number, up to at most four
zero bits of padding. -/
theorem convertBits_spec {out : List Nat} (hxs : ∀ d ∈ xs, d < 32)
    (h : convertBits xs 5 8 false = some out) :
    (∀ d ∈ out, d < 256) ∧ ∃ filled, filled ≤ 4 ∧ 8 * out.length + filled = 5 * xs.length ∧
      Nat.ofDigits (2 ^ 8) out.reverse * 2 ^ filled = Nat.ofDigits (2 ^ 5) xs.reverse := by
  have hholds := regroup_holds (by decide : 5 ≤ 8) (le_refl 8) (by decide) hxs
  have hlast : (regroup xs 5 8).filled ≤ 4 ∧ (regroup xs 5 8).next = 0 ∧
      (regroup xs 5 8).out = out := by
    change (if 0 < (regroup xs 5 8).filled ∧
        (4 < (regroup xs 5 8).filled ∨ (regroup xs 5 8).next ≠ 0) then none
      else some (regroup xs 5 8).out) = some out at h
    split at h
    · cases h
    · rename_i hpad
      refine ⟨by omega, ?_, Option.some.inj h⟩
      have hnext := hholds.next
      rcases Nat.eq_zero_or_pos (regroup xs 5 8).filled with hzero | hpos
      · rw [hzero] at hnext
        omega
      · omega
  obtain ⟨hfilled, hnext, rfl⟩ := hlast
  have hvalue := hholds.value
  rw [hnext, Nat.add_zero] at hvalue
  exact ⟨hholds.digits, _, hfilled, hholds.count, hvalue⟩

/-- Five-bit values that regroup to the same bytes without padding are the same. -/
theorem convertBits_inj {out : List Nat} (hxs : ∀ d ∈ xs, d < 32) (hys : ∀ d ∈ ys, d < 32)
    (hx : convertBits xs 5 8 false = some out) (hy : convertBits ys 5 8 false = some out) :
    xs = ys := by
  obtain ⟨-, f, hf, hcount, hvalue⟩ := convertBits_spec hxs hx
  obtain ⟨-, f', hf', hcount', hvalue'⟩ := convertBits_spec hys hy
  -- both lengths are the number of symbols that just covers the bytes
  have hlen : xs.length = ys.length := by omega
  obtain rfl : f = f' := by omega
  exact digits_inj (by decide) hlen hxs hys (hvalue.symm.trans hvalue')

/-! ## Checksum -/

/-- Generators selected by the bits shifted out. -/
def feedback (b : Nat) : Nat :=
  gen.zipIdx.foldl (fun c g => if (b >>> g.2) &&& 1 = 1 then c ^^^ g.1 else c) 0

theorem foldl_select_xor {α : Type} (sel : α → Prop) [DecidablePred sel] (val : α → Nat)
    (l : List α) (a c : Nat) :
    l.foldl (fun c g => if sel g then c ^^^ val g else c) (a ^^^ c) =
      a ^^^ l.foldl (fun c g => if sel g then c ^^^ val g else c) c := by
  induction l generalizing c with
  | nil => rfl
  | cons g rest ih =>
    simp only [List.foldl_cons]
    split
    · rw [Nat.xor_assoc, ih]
    · rw [ih]

/-- A round is the shift, the feedback of what was shifted out, and the new value. -/
theorem polymodStep_eq (chk v : Nat) :
    polymodStep chk v = ((chk &&& 0x1ffffff) <<< 5) ^^^ v ^^^ feedback (chk >>> 25) := by
  have h := foldl_select_xor (fun g : Nat × Nat => ((chk >>> 25) >>> g.2) &&& 1 = 1) Prod.fst
    gen.zipIdx (((chk &&& 0x1ffffff) <<< 5) ^^^ v) 0
  rw [Nat.xor_zero] at h
  exact h

theorem select_xor (g x y i : Nat) :
    (if ((x ^^^ y) >>> i) &&& 1 = 1 then g else 0) =
      (if (x >>> i) &&& 1 = 1 then g else 0) ^^^ (if (y >>> i) &&& 1 = 1 then g else 0) := by
  rw [Nat.shiftRight_xor_distrib, Nat.and_xor_distrib_right]
  have hx : (x >>> i) &&& 1 = 0 ∨ (x >>> i) &&& 1 = 1 := by
    rw [Nat.and_one_is_mod]
    omega
  have hy : (y >>> i) &&& 1 = 0 ∨ (y >>> i) &&& 1 = 1 := by
    rw [Nat.and_one_is_mod]
    omega
  rcases hx with hx | hx <;> rcases hy with hy | hy <;> simp [hx, hy]

theorem foldl_select_linear (l : List (Nat × Nat)) (x y : Nat) :
    l.foldl (fun c g => if ((x ^^^ y) >>> g.2) &&& 1 = 1 then c ^^^ g.1 else c) 0 =
      l.foldl (fun c g => if (x >>> g.2) &&& 1 = 1 then c ^^^ g.1 else c) 0 ^^^
        l.foldl (fun c g => if (y >>> g.2) &&& 1 = 1 then c ^^^ g.1 else c) 0 := by
  induction l with
  | nil => simp
  | cons g rest ih =>
    -- split the first generator off each of the three folds
    have hhead : ∀ z : Nat, (g :: rest).foldl
        (fun c g => if (z >>> g.2) &&& 1 = 1 then c ^^^ g.1 else c) 0 =
        (if (z >>> g.2) &&& 1 = 1 then g.1 else 0) ^^^
          rest.foldl (fun c g => if (z >>> g.2) &&& 1 = 1 then c ^^^ g.1 else c) 0 := by
      intro z
      rw [← foldl_select_xor (fun g : Nat × Nat => (z >>> g.2) &&& 1 = 1) Prod.fst]
      simp only [List.foldl_cons, Nat.xor_zero, Nat.zero_xor]
    rw [hhead, hhead, hhead, ih, select_xor]
    ac_rfl

theorem feedback_xor (x y : Nat) : feedback (x ^^^ y) = feedback x ^^^ feedback y :=
  foldl_select_linear _ x y

/-- The difference of two states after a round, from their difference before it. -/
theorem polymodStep_xor (c c' v w : Nat) :
    polymodStep c v ^^^ polymodStep c' w = polymodStep (c ^^^ c') (v ^^^ w) := by
  simp only [polymodStep_eq, Nat.and_xor_distrib_right, Nat.shiftLeft_xor_distrib,
    Nat.shiftRight_xor_distrib, feedback_xor]
  ac_rfl

/-- A state of at most 25 bits is only shifted. -/
theorem polymodStep_of_lt {c : Nat} (v : Nat) (h : c < 2 ^ 25) :
    polymodStep c v = (c <<< 5) ^^^ v := by
  have hshift : c >>> 25 = 0 := by
    rw [Nat.shiftRight_eq_div_pow]
    exact Nat.div_eq_of_lt h
  have hmask : c &&& 0x1ffffff = c := by
    have hand := Nat.and_two_pow_sub_one_eq_mod c 25
    rw [Nat.mod_eq_of_lt h] at hand
    exact hand
  have hzero : feedback 0 = 0 := by decide
  rw [polymodStep_eq, hshift, hmask, hzero, Nat.xor_zero]

/-- Up to six rounds that end in the same state started in the same state with the same
values, if the states were close. -/
theorem foldl_polymod_inj (vs : List Nat) :
    ∀ {ws : List Nat} {c c' j : Nat}, vs.length = ws.length → (∀ v ∈ vs, v < 32) →
      (∀ w ∈ ws, w < 32) → c ^^^ c' < 2 ^ (5 * j) → j + vs.length ≤ 6 →
      vs.foldl polymodStep c = ws.foldl polymodStep c' → c = c' ∧ vs = ws := by
  induction vs with
  | nil =>
    intro ws c c' j hlen _ _ _ _ h
    obtain rfl : ws = [] := List.length_eq_zero_iff.1 hlen.symm
    exact ⟨h, rfl⟩
  | cons v vs ih =>
    intro ws c c' j hlen hvs hws hclose hj h
    cases ws with
    | nil => cases hlen
    | cons w ws =>
      have hj5 : j + 1 + vs.length ≤ 6 := by
        rw [List.length_cons] at hj
        omega
      have hvw : v ^^^ w < 2 ^ 5 :=
        Nat.xor_lt_two_pow (hvs v List.mem_cons_self) (hws w List.mem_cons_self)
      have hsmall : c ^^^ c' < 2 ^ 25 :=
        hclose.trans_le (Nat.pow_le_pow_right (by decide) (by omega))
      have hnext : polymodStep c v ^^^ polymodStep c' w = (c ^^^ c') * 2 ^ 5 + (v ^^^ w) := by
        rw [polymodStep_xor, polymodStep_of_lt _ hsmall]
        rw [← Nat.shiftLeft_eq, Nat.shiftLeft_add_eq_or_of_lt hvw]
        exact xor_eq_or_of_lt hvw
      have hclose' : polymodStep c v ^^^ polymodStep c' w < 2 ^ (5 * (j + 1)) := by
        rw [hnext]
        exact append_bits_lt hclose hvw
      obtain ⟨hstate, rfl⟩ := ih (Nat.succ.inj hlen)
        (fun x hx => hvs x (List.mem_cons_of_mem _ hx))
        (fun x hx => hws x (List.mem_cons_of_mem _ hx)) hclose' hj5 h
      rw [hstate, Nat.xor_self] at hnext
      have hc : c ^^^ c' = 0 := by omega
      have hv : v ^^^ w = 0 := by omega
      exact ⟨Nat.xor_eq_zero_iff.1 hc, by rw [Nat.xor_eq_zero_iff.1 hv]⟩

/-! ## Strings -/

theorem toLower_val (c : Byte) :
    (toLower c).val = if 65 ≤ c.val ∧ c.val ≤ 90 then c.val + 32 else c.val := by
  simp only [toLower, isUpper, decide_eq_true_eq]
  split
  · rename_i hupper
    exact Nat.mod_eq_of_lt (by omega)
  · rfl

theorem toLower_inj {d : Byte} (hc : isLower c = false) (hd : isLower d = false)
    (h : toLower c = toLower d) : c = d := by
  have hval := congrArg Fin.val h
  have hc' : ¬ (97 ≤ c.val ∧ c.val ≤ 122) := of_decide_eq_false hc
  have hd' : ¬ (97 ≤ d.val ∧ d.val ≤ 122) := of_decide_eq_false hd
  rw [toLower_val, toLower_val] at hval
  apply Fin.ext
  split at hval <;> split at hval <;> omega

theorem map_toLower_inj {t : Bytes} (hs : s.any isLower = false) (ht : t.any isLower = false)
    (h : s.map toLower = t.map toLower) : s = t := by
  induction s generalizing t with
  | nil =>
    cases t with
    | nil => rfl
    | cons d t => cases h
  | cons c s ih =>
    cases t with
    | nil => cases h
    | cons d t =>
      simp only [List.any_cons, Bool.or_eq_false_iff] at hs ht
      simp only [List.map_cons, List.cons.injEq] at h
      rw [toLower_inj hs.1 ht.1 h.1, ih hs.2 ht.2 h.2]

/-- Two strings of one letter case with one lower-case form are the same. -/
theorem normalize_inj {t lowered : Bytes} (hs : normalize s = some lowered)
    (ht : normalize t = some lowered) (hcase : s.any isUpper = t.any isUpper) : s = t := by
  have hform : ∀ {r : Bytes}, normalize r = some lowered →
      (r.any isUpper = true → r.any isLower = false) ∧
        lowered = if r.any isUpper then r.map toLower else r := by
    intro r hr
    unfold normalize at hr
    split at hr
    · cases hr
    · split at hr
      · cases hr
      · rename_i hmixed
        rw [Bool.and_eq_true, not_and] at hmixed
        refine ⟨?_, ?_⟩
        · intro hupper
          rw [Bool.eq_false_iff]
          exact fun hlower => hmixed hlower hupper
        · split at hr
          · rename_i hupper
            rw [if_pos hupper]
            exact (Option.some.inj hr).symm
          · rename_i hupper
            rw [if_neg hupper]
            exact (Option.some.inj hr).symm
  obtain ⟨hsl, hseq⟩ := hform hs
  obtain ⟨htl, hteq⟩ := hform ht
  rw [← hcase] at hteq htl
  rw [hseq] at hteq
  rcases Bool.eq_false_or_eq_true (s.any isUpper) with hup | hup
  · rw [if_pos hup, if_pos hup] at hteq
    exact map_toLower_inj (hsl hup) (htl hup) hteq
  · rw [hup] at hteq
    exact hteq

theorem indexByte_getElem {i : Nat} (h : indexByte s c = some i) :
    s[i]? = some c := by
  obtain ⟨hi, hp, -⟩ := List.findIdx?_eq_some_iff_getElem.1 h
  rw [List.getElem?_eq_getElem hi, of_decide_eq_true hp]

theorem toBytes_cons {chars : Bytes} {ds : List Nat} (h : toBytes (c :: chars) = some ds) :
    ∃ d rest, indexByte charset c = some d ∧ toBytes chars = some rest ∧ ds = d :: rest := by
  simp only [toBytes, List.mapM_cons, Option.bind_eq_bind, Option.bind_eq_some_iff, Option.pure_def,
    Option.some.injEq] at h
  obtain ⟨d, hd, rest, hrest, rfl⟩ := h
  exact ⟨d, rest, hd, hrest, rfl⟩

/-- Charset values determine the characters. -/
theorem toBytes_inj {chars chars' : Bytes} {ds : List Nat} (h : toBytes chars = some ds)
    (h' : toBytes chars' = some ds) : chars = chars' := by
  induction chars generalizing chars' ds with
  | nil =>
    cases chars' with
    | nil => rfl
    | cons c' chars' =>
      cases h
      obtain ⟨d, rest, -, -, hds⟩ := toBytes_cons h'
      cases hds
  | cons c chars ih =>
    obtain ⟨d, rest, hd, hrest, rfl⟩ := toBytes_cons h
    cases chars' with
    | nil => cases h'
    | cons c' chars' =>
      obtain ⟨d', rest', hd', hrest', hds⟩ := toBytes_cons h'
      obtain ⟨rfl, rfl⟩ := List.cons.inj hds
      have hsame := (indexByte_getElem hd).symm.trans (indexByte_getElem hd')
      rw [Option.some.inj hsame, ih hrest hrest']

/-- Charset values fit five bits, and there is one for each character. -/
theorem toBytes_spec {chars : Bytes} {ds : List Nat} (h : toBytes chars = some ds) :
    ds.length = chars.length ∧ ∀ d ∈ ds, d < 32 := by
  induction chars generalizing ds with
  | nil =>
    cases h
    exact ⟨rfl, by simp⟩
  | cons c chars ih =>
    obtain ⟨d, rest, hd, hrest, rfl⟩ := toBytes_cons h
    obtain ⟨hlen, hlt⟩ := ih hrest
    have hd32 : d < 32 := by
      have hlookup := indexByte_getElem hd
      exact (List.getElem?_eq_some_iff.1 hlookup).1
    refine ⟨congrArg Nat.succ hlen, ?_⟩
    intro x hx
    rcases List.mem_cons.1 hx with rfl | hmem
    · exact hd32
    · exact hlt x hmem

theorem lastIndexByte_spec {i : Nat} (h : lastIndexByte s c = some i) :
    s[i]? = some c := by
  obtain ⟨j, hj, rfl⟩ := Option.map_eq_some_iff.1 h
  have hrev := indexByte_getElem hj
  have hlt : j < s.length := by
    have := (List.getElem?_eq_some_iff.1 hrev).1
    simpa using this
  rwa [List.getElem?_reverse hlt] at hrev

/-- What a decoded string looks like: a human-readable part, the separator, and the
characters of the values and of six checksum symbols. -/
theorem decodeUnsafe_ok {hrp : Bytes} {values checksum : List Nat}
    (h : decodeUnsafe s = some (hrp, values, checksum)) :
    ∃ chars, s = hrp ++ 49 :: chars ∧ toBytes chars = some (values ++ checksum) ∧
      checksum.length = 6 := by
  simp only [decodeUnsafe, Option.bind_eq_bind, Option.bind_eq_some_iff] at h
  obtain ⟨one, hone, h⟩ := h
  split at h
  · cases h
  · rename_i hbounds
    obtain ⟨decoded, hdecoded, h⟩ := Option.bind_eq_some_iff.1 h
    obtain ⟨rfl, hrest⟩ := Prod.mk.inj (Option.some.inj h)
    obtain ⟨rfl, rfl⟩ := Prod.mk.inj hrest
    have hsep := lastIndexByte_spec hone
    obtain ⟨hlt, hget⟩ := List.getElem?_eq_some_iff.1 hsep
    have hlen := (toBytes_spec hdecoded).1
    rw [List.length_drop] at hlen
    refine ⟨s.drop (one + 1), ?_, ?_, ?_⟩
    · rw [← hget, List.getElem_cons_drop hlt, List.take_append_drop]
    · rw [List.take_append_drop]
      exact hdecoded
    · rw [List.length_drop]
      omega

/-- What a string denoting an account looks like. -/
theorem accAddressFromBech32_ok {address : Bytes} (h : accAddressFromBech32 address = some addr) :
    ∃ lowered chars values checksum converted, normalize address = some lowered ∧
      lowered = accountAddressPrefix ++ 49 :: chars ∧ toBytes chars = some (values ++ checksum) ∧
      checksum.length = 6 ∧ verifyChecksum accountAddressPrefix values checksum = true ∧
      convertBits values 5 8 false = some converted ∧ addr = converted.map (Fin.ofNat 256) := by
  obtain ⟨values, converted, hdecode, hconvert, -, -, haddr⟩ := addressFromBech32_ok h
  unfold decode at hdecode
  split at hdecode
  · cases hdecode
  · simp only [Option.bind_eq_bind, Option.bind_eq_some_iff] at hdecode
    obtain ⟨lowered, hlowered, ⟨hrp, values', checksum⟩, hrefused, hdecode⟩ := hdecode
    dsimp only at hdecode
    split at hdecode
    · rename_i hverify
      obtain ⟨rfl, rfl⟩ := Prod.mk.inj (Option.some.inj hdecode)
      obtain ⟨chars, hchars, hbytes, hsix⟩ := decodeUnsafe_ok hrefused
      exact ⟨lowered, chars, values', checksum, converted, hlowered, hchars, hbytes, hsix,
        hverify, hconvert, haddr.symm⟩
    · cases hdecode

/-- An address string has printable characters only. -/
theorem accAddressFromBech32_printable {address : Bytes}
    (h : accAddressFromBech32 address = some addr) : ∀ c ∈ address, 33 ≤ c.val := by
  obtain ⟨lowered, _, _, _, _, hnormal, -⟩ := accAddressFromBech32_ok h
  unfold normalize at hnormal
  split at hnormal
  · cases hnormal
  · rename_i hprintable
    intro c hc
    by_contra hlow
    refine hprintable (List.any_eq_true.2 ⟨c, hc, decide_eq_true (Or.inl ?_)⟩)
    omega

theorem ne_nil_of_accAddressFromBech32 {address : Bytes}
    (h : accAddressFromBech32 address = some addr) : address ≠ [] := by
  rintro rfl
  cases h

/-- The values determine the checksum symbols. -/
theorem checksum_unique {hrp : Bytes} {values checksum checksum' : List Nat}
    (hlen : checksum.length = 6) (hlen' : checksum'.length = 6) (hlt : ∀ v ∈ checksum, v < 32)
    (hlt' : ∀ v ∈ checksum', v < 32) (h : verifyChecksum hrp values checksum = true)
    (h' : verifyChecksum hrp values checksum' = true) : checksum = checksum' := by
  have hone : bech32Polymod hrp values checksum = bech32Polymod hrp values checksum' :=
    (of_decide_eq_true h).trans (of_decide_eq_true h').symm
  simp only [bech32Polymod, List.foldl_append] at hone
  refine (foldl_polymod_inj checksum (j := 0) (hlen.trans hlen'.symm) hlt hlt' ?_ (by omega) hone).2
  rw [Nat.xor_self]
  decide

theorem map_ofNat_inj (hxs : ∀ d ∈ xs, d < 256) (hys : ∀ d ∈ ys, d < 256)
    (h : xs.map (Fin.ofNat 256) = ys.map (Fin.ofNat 256)) : xs = ys := by
  have hval : ∀ {zs : List Nat}, (∀ d ∈ zs, d < 256) →
      (zs.map (Fin.ofNat 256)).map Fin.val = zs := by
    intro zs hzs
    rw [List.map_map]
    refine (List.map_congr_left ?_).trans (List.map_id zs)
    intro d hd
    exact Nat.mod_eq_of_lt (hzs d hd)
  rw [← hval hxs, ← hval hys, h]

/-- Two strings that denote the same account are equal if both or neither have upper-case
letters. -/
theorem accAddressFromBech32_inj {t : Bytes} (hs : accAddressFromBech32 s = some addr)
    (ht : accAddressFromBech32 t = some addr) (hcase : s.any isUpper = t.any isUpper) : s = t := by
  obtain ⟨lowered, chars, values, checksum, converted, hnorm, rfl, hbytes, hsix, hverify, hconvert,
    haddr⟩ := accAddressFromBech32_ok hs
  obtain ⟨lowered', chars', values', checksum', converted', hnorm', rfl, hbytes', hsix', hverify',
    hconvert', haddr'⟩ := accAddressFromBech32_ok ht
  have hlt := (toBytes_spec hbytes).2
  have hlt' := (toBytes_spec hbytes').2
  have hvalues : ∀ d ∈ values, d < 32 := fun d hd => hlt d (List.mem_append_left _ hd)
  have hvalues' : ∀ d ∈ values', d < 32 := fun d hd => hlt' d (List.mem_append_left _ hd)
  obtain rfl : converted = converted' :=
    map_ofNat_inj (convertBits_spec hvalues hconvert).1 (convertBits_spec hvalues' hconvert').1
      (haddr.symm.trans haddr')
  obtain rfl : values = values' := convertBits_inj hvalues hvalues' hconvert hconvert'
  obtain rfl : checksum = checksum' :=
    checksum_unique hsix hsix' (fun d hd => hlt d (List.mem_append_right _ hd))
      (fun d hd => hlt' d (List.mem_append_right _ hd)) hverify hverify'
  obtain rfl : chars = chars' := toBytes_inj hbytes hbytes'
  exact normalize_inj hnorm hnorm' hcase

/-! ## Canonical spellings -/

/-- Bytes regroup to five-bit values that spell the same number, up to at most four zero
bits of padding. -/
theorem convertBits_pad_spec (hxs : ∀ d ∈ xs, d < 256) :
    ∃ out pad, convertBits xs 8 5 true = some out ∧ (∀ d ∈ out, d < 32) ∧ pad ≤ 4 ∧
      5 * out.length = 8 * xs.length + pad ∧
      Nat.ofDigits (2 ^ 5) out.reverse = Nat.ofDigits (2 ^ 8) xs.reverse * 2 ^ pad := by
  have hholds := regroup_holds (le_refl 8) (by decide : 5 ≤ 8) (by decide) hxs
  have hshape : convertBits xs 8 5 true = if 0 < (regroup xs 8 5).filled then
      some ((regroup xs 8 5).out ++
        [((regroup xs 8 5).next <<< (5 - (regroup xs 8 5).filled)) % 256])
    else some (regroup xs 8 5).out := rfl
  rw [hshape]
  generalize regroup xs 8 5 = g at hholds
  obtain ⟨hfilled, hnext, hdigits, hcount, hvalue⟩ := hholds
  split
  · rename_i hpos
    have hlast : g.next * 2 ^ (5 - g.filled) < 2 ^ 5 := by
      have hlt := append_bits_lt hnext (Nat.two_pow_pos (5 - g.filled))
      rw [Nat.add_sub_cancel' hfilled.le] at hlt
      omega
    have hsmall : (g.next <<< (5 - g.filled)) % 256 = g.next * 2 ^ (5 - g.filled) := by
      rw [Nat.shiftLeft_eq]
      exact Nat.mod_eq_of_lt (by omega)
    rw [hsmall]
    refine ⟨_, 5 - g.filled, rfl, ?_, by omega, ?_, ?_⟩
    · intro d hd
      rcases List.mem_append.1 hd with hold | hnew
      · exact hdigits d hold
      · rw [List.mem_singleton.1 hnew]
        exact hlast
    · simp only [List.length_append, List.length_singleton]
      omega
    · have hpow : 2 ^ g.filled * 2 ^ (5 - g.filled) = 2 ^ 5 := by
        rw [← Nat.pow_add, Nat.add_sub_cancel' hfilled.le]
      simp only [List.reverse_append, List.reverse_cons, List.reverse_nil, List.nil_append,
        List.cons_append, Nat.ofDigits_cons]
      rw [← hvalue, Nat.add_mul, Nat.mul_assoc, hpow]
      ring
  · rename_i hzero
    have hfilled0 : g.filled = 0 := by omega
    rw [hfilled0] at hnext hcount hvalue
    refine ⟨_, 0, rfl, hdigits, by omega, by omega, ?_⟩
    have hnext0 : g.next = 0 := by omega
    rw [← hvalue, hnext0]
    ring

/-- Values that were regrouped with padding regroup to what they were made from. -/
theorem convertBits_of_pad {xs out : List Nat} {pad : Nat} (hxs : ∀ d ∈ xs, d < 256)
    (hout : ∀ d ∈ out, d < 32) (hpad : pad ≤ 4) (hcount : 5 * out.length = 8 * xs.length + pad)
    (hvalue : Nat.ofDigits (2 ^ 5) out.reverse = Nat.ofDigits (2 ^ 8) xs.reverse * 2 ^ pad) :
    convertBits out 5 8 false = some xs := by
  have hholds := regroup_holds (by decide : 5 ≤ 8) (le_refl 8) (by decide) hout
  have hshape : convertBits out 5 8 false = if 0 < (regroup out 5 8).filled ∧
      (4 < (regroup out 5 8).filled ∨ (regroup out 5 8).next ≠ 0) then none
    else some (regroup out 5 8).out := rfl
  rw [hshape]
  generalize regroup out 5 8 = g at hholds
  obtain ⟨hfilled, hnext, hdigits, hbits, hnumber⟩ := hholds
  have hlen : g.out.length = xs.length := by omega
  obtain rfl : g.filled = pad := by omega
  rw [hvalue] at hnumber
  -- the padding is what is left over, and it is zero
  have hzero : g.next = 0 := by
    have hmod := congrArg (· % 2 ^ g.filled) hnumber
    simp only [Nat.mul_add_mod_self_right, Nat.mul_mod_left, Nat.mod_eq_of_lt hnext] at hmod
    exact hmod
  rw [hzero, Nat.add_zero] at hnumber
  have hsame := Nat.eq_of_mul_eq_mul_right (Nat.two_pow_pos g.filled) hnumber
  rw [if_neg (by omega), digits_inj (by decide) hlen hdigits hxs hsame]

/-- Bytes regroup to five-bit values, of which there are at most eight for five bytes, and back. -/
theorem convertBits_round (hxs : ∀ d ∈ xs, d < 256) :
    ∃ out, convertBits xs 8 5 true = some out ∧ (∀ d ∈ out, d < 32) ∧
      5 * out.length ≤ 8 * xs.length + 4 ∧ convertBits out 5 8 false = some xs := by
  obtain ⟨out, pad, hout, hdigits, hpad, hcount, hvalue⟩ := convertBits_pad_spec hxs
  exact ⟨out, hout, hdigits, by omega, convertBits_of_pad hxs hdigits hpad hcount hvalue⟩

theorem indexByte_charset : ∀ v < 32, indexByte charset (charset.getD v 0) = some v := by decide

theorem toBytes_charset {ds : List Nat} (h : ∀ d ∈ ds, d < 32) :
    toBytes (ds.map fun v => charset.getD v 0) = some ds := by
  induction ds with
  | nil => rfl
  | cons d rest ih =>
    have hrest := ih fun d' hd' => h d' (List.mem_cons_of_mem _ hd')
    unfold toBytes at hrest ⊢
    rw [List.map_cons, List.mapM_cons, indexByte_charset d (h d List.mem_cons_self), hrest]
    rfl

theorem bech32Checksum_spec (hrp : Bytes) (data : List Nat) :
    (bech32Checksum hrp data).length = 6 ∧ ∀ d ∈ bech32Checksum hrp data, d < 32 := by
  refine ⟨by simp [bech32Checksum], fun d hd => ?_⟩
  obtain ⟨i, -, rfl⟩ := List.mem_map.1 hd
  exact Nat.lt_succ_of_le Nat.and_le_right

theorem val_lt_of_mem (a : Bytes) : ∀ d ∈ a.map Fin.val, d < 256 := by
  intro d hd
  obtain ⟨x, -, rfl⟩ := List.mem_map.1 hd
  exact x.isLt

/-- Different addresses have different canonical spellings. -/
theorem addressString_inj {hrp a b : Bytes} (h : addressString hrp a = addressString hrp b) :
    a = b := by
  have hne : ∀ chars : Bytes, hrp ++ ascii "1" ++ chars ≠ [] := by
    intro chars hnil
    simp [ascii] at hnil
  unfold addressString at h
  split at h
  · rename_i ha
    split at h
    · rename_i hb
      rw [ha, hb]
    · exact absurd h.symm (hne _)
  · split at h
    · exact absurd h (hne _)
    · obtain ⟨out, hout, hdigits, -, hback⟩ := convertBits_round (val_lt_of_mem a)
      obtain ⟨out', hout', hdigits', -, hback'⟩ := convertBits_round (val_lt_of_mem b)
      rw [hout, hout'] at h
      have hmap := List.append_cancel_left h
      have hck := bech32Checksum_spec hrp
      have hlt : ∀ {ds : List Nat}, (∀ d ∈ ds, d < 32) →
          ∀ d ∈ ds ++ bech32Checksum hrp ds, d < 32 := by
        intro ds hds d hd
        rcases List.mem_append.1 hd with hd | hd
        · exact hds d hd
        · exact (hck ds).2 d hd
      -- the characters are read back, the checksum cut off, and the groups regrouped
      have hlists := (toBytes_charset (hlt hdigits)).symm.trans
        ((congrArg toBytes hmap).trans (toBytes_charset (hlt hdigits')))
      obtain rfl : out = out' :=
        List.append_inj_left' (Option.some.inj hlists) ((hck _).1.trans (hck _).1.symm)
      exact List.map_injective_iff.2 Fin.val_injective (Option.some.inj (hback.symm.trans hback'))

/-- Different accounts have different canonical spellings. -/
theorem accAddressString_inj {a b : Bytes} (h : accAddressString a = accAddressString b) :
    a = b :=
  addressString_inj h

end PhiChain.Sdk
