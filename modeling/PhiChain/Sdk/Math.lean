import PhiChain.Foundations.Bytes
import PhiChain.Sdk.Failure
import Mathlib.Algebra.Order.BigOperators.Group.List
import Mathlib.Algebra.Order.Group.Int

/-!
# Integer amounts and their text form

Amounts are integers of at most 256 bits (`Fits`). Sums and products are checked:
`intAdd` and `intMul` fail where the code panics, and a transaction whose handler
panics is rolled back like one that returns an error. A handler that computes with a
pure function whose intermediate results may be larger asks for them with `ensureFit`.

A message or a parameter carries an amount as text; `newIntFromString` is the reader
the code uses everywhere. It follows `big.Int.SetString` with base 0: an optional sign,
an optional base marker (`0b`, `0o`, `0x`, or a leading `0` for octal), digits, and
underscores between digits or behind the base marker. Values of more than 256 bits are
refused.

Integer division truncates (`quo`) and the remainder is Euclidean (`Int.emod`).
-/

set_option autoImplicit false

namespace PhiChain.Sdk

open Foundations

/-- Bit bound of an amount. -/
def maxBitLen : Nat := 256

/-- A value of at most 256 bits. -/
def Fits (v : Int) : Prop := v.natAbs < 2 ^ maxBitLen

instance (v : Int) : Decidable (Fits v) := inferInstanceAs (Decidable (_ < _))

theorem fits_of_le {a v : Int} (ha : 0 ≤ a) (hle : a ≤ v) (h : Fits v) : Fits a := by
  unfold Fits at *
  omega

/-- The panic of an operation on amounts. -/
def intOverflow : Failure := ⟨.panic, "Int overflow"⟩

/-- The results of operations on amounts must fit. -/
def ensureFit (vs : List Int) : Result Unit := ensure (∀ v ∈ vs, Fits v) intOverflow

theorem ensureFit_eq_ok {vs : List Int} {u : Unit} : ensureFit vs = .ok u ↔ ∀ v ∈ vs, Fits v :=
  ensure_eq_ok

def checkedInt (v : Int) : Result Int := if Fits v then .ok v else .error intOverflow

def intAdd (a b : Int) : Result Int := checkedInt (a + b)

def intSub (a b : Int) : Result Int := checkedInt (a - b)

def intMul (a b : Int) : Result Int := checkedInt (a * b)

theorem checkedInt_eq_ok {v r : Int} : checkedInt v = .ok r ↔ Fits v ∧ r = v := by
  unfold checkedInt
  split
  · simp_all [eq_comm]
  · simp_all

theorem intAdd_eq_ok {a b r : Int} : intAdd a b = .ok r ↔ Fits (a + b) ∧ r = a + b :=
  checkedInt_eq_ok

theorem intSub_eq_ok {a b r : Int} : intSub a b = .ok r ↔ Fits (a - b) ∧ r = a - b :=
  checkedInt_eq_ok

theorem intMul_eq_ok {a b r : Int} : intMul a b = .ok r ↔ Fits (a * b) ∧ r = a * b :=
  checkedInt_eq_ok

/-- Running sum of amounts. -/
def intSum (vs : List Int) : Result Int := vs.foldlM intAdd 0

/-- Of amounts that are not negative, the whole sum is the largest one on the way. -/
theorem foldlM_intAdd {vs : List Int} (h : ∀ v ∈ vs, 0 ≤ v) {acc : Int} (hacc : Fits acc)
    (hpos : 0 ≤ acc) : vs.foldlM intAdd acc = checkedInt (acc + vs.sum) := by
  induction vs generalizing acc with
  | nil =>
    rw [List.sum_nil, add_zero]
    exact (checkedInt_eq_ok.2 ⟨hacc, rfl⟩).symm
  | cons v rest ih =>
    have hv := h v List.mem_cons_self
    have hrest : ∀ u ∈ rest, 0 ≤ u := fun u hu => h u (List.mem_cons_of_mem v hu)
    have hsum : 0 ≤ rest.sum := List.sum_nonneg hrest
    rw [List.foldlM_cons, List.sum_cons, ← add_assoc]
    by_cases hfirst : Fits (acc + v)
    · rw [intAdd_eq_ok.2 ⟨hfirst, rfl⟩]
      exact ih hrest hfirst (by omega)
    · have hwhole : ¬ Fits (acc + v + rest.sum) := fun hfit =>
        hfirst (fits_of_le (by omega) (by omega) hfit)
      unfold intAdd checkedInt
      rw [if_neg hfirst, if_neg hwhole]
      rfl

theorem intSum_eq {vs : List Int} (h : ∀ v ∈ vs, 0 ≤ v) : intSum vs = checkedInt vs.sum := by
  have hfold := @foldlM_intAdd vs h 0 (by decide) (le_refl 0)
  rwa [zero_add] at hfold

/-- Digit value of a character in bases up to 36. -/
def digitValue (c : Byte) : Option Nat :=
  if 48 ≤ c.val ∧ c.val ≤ 57 then some (c.val - 48)
  else if 97 ≤ c.val ∧ c.val ≤ 122 then some (c.val - 97 + 10)
  else if 65 ≤ c.val ∧ c.val ≤ 90 then some (c.val - 65 + 10)
  else none

/-- The previously scanned character, as far as separators are concerned. -/
inductive PrevChar where
  | other
  | digit
  | separator
  deriving DecidableEq

/-- Scan digits of a base to the end of the text. An underscore must follow a digit
(or the base marker) and must not end the text; no digits at all is an error. -/
def scanDigits (base : Nat) : Bytes → PrevChar → (count acc : Nat) → Option (Nat × Nat)
  | [], prev, count, acc => if prev = .separator then none else some (count, acc)
  | c :: rest, prev, count, acc =>
    if c.val = 95 then
      if prev = .digit then scanDigits base rest .separator count acc else none
    else
      match digitValue c with
      | some d =>
        if d < base then scanDigits base rest .digit (count + 1) (acc * base + d) else none
      | none => none

/-- At least one digit must have been scanned. -/
def someDigits : Option (Nat × Nat) → Option Nat
  | some (count, acc) => if count = 0 then none else some acc
  | none => none

/-- Magnitude of an unsigned literal in base-0 syntax. -/
def scanNat : Bytes → Option Nat
  | [] => none
  | [c] => if c.val = 48 then some 0 else someDigits (scanDigits 10 [c] .other 0 0)
  | c :: m :: rest =>
    if c.val = 48 then
      if m.val = 98 ∨ m.val = 66 then someDigits (scanDigits 2 rest .digit 0 0)
      else if m.val = 111 ∨ m.val = 79 then someDigits (scanDigits 8 rest .digit 0 0)
      else if m.val = 120 ∨ m.val = 88 then someDigits (scanDigits 16 rest .digit 0 0)
      else someDigits (scanDigits 8 (m :: rest) .digit 0 0)
    else someDigits (scanDigits 10 (c :: m :: rest) .other 0 0)

/-- Signed literal in base-0 syntax. -/
def setString (s : Bytes) : Option Int :=
  match s with
  | [] => none
  | c :: rest =>
    if c.val = 45 then (scanNat rest).map fun n => -(n : Int)
    else if c.val = 43 then (scanNat rest).map fun n => (n : Int)
    else (scanNat s).map fun n => (n : Int)

/-- Amount a text denotes, when it denotes one of at most 256 bits. -/
def newIntFromString (s : Bytes) : Option Int :=
  match setString s with
  | some v => if Fits v then some v else none
  | none => none

/-- The values of a 64-bit signed integer. -/
def InInt64 (v : Int) : Prop := -2 ^ 63 ≤ v ∧ v < 2 ^ 63

instance (v : Int) : Decidable (InInt64 v) :=
  inferInstanceAs (Decidable (-2 ^ 63 ≤ v ∧ v < 2 ^ 63))

/-- The 64-bit signed integer an integer wraps to. -/
def int64 (v : Int) : Int := v.bmod (2 ^ 64)

theorem int64_of_inInt64 {v : Int} (h : InInt64 v) : int64 v = v := by
  obtain ⟨hlow, hhigh⟩ := h
  unfold int64
  rw [Int.bmod_eq_of_le (by omega) (by omega)]

/-- A sum that leaves the range upwards comes out negative. -/
theorem int64_of_le {v : Int} (hlow : 2 ^ 63 ≤ v) (hhigh : v < 2 ^ 64) : int64 v = v - 2 ^ 64 := by
  have hshift : v.bmod (2 ^ 64) = (v - 2 ^ 64).bmod (2 ^ 64) :=
    (Int.sub_bmod_right v (2 ^ 64)).symm
  unfold int64
  rw [hshift, Int.bmod_eq_of_le (by omega) (by omega)]

/-- The 64-bit unsigned integer an integer wraps to. -/
def uint64 (v : Int) : Nat := (v % 2 ^ 64).toNat

/-- Decimal text of an amount. -/
def intString (v : Int) : Bytes :=
  (if v < 0 then [45] else []) ++ (Nat.toDigits 10 v.natAbs).map fun c => Fin.ofNat 256 c.toNat

/-! ## Decimal text is read back -/

/-- Decimal digits of a number. -/
def decimal (n : Nat) : Bytes := (Nat.toDigits 10 n).map fun c => Fin.ofNat 256 c.toNat

theorem toNat_digitChar {d : Nat} (h : d < 10) : (Nat.digitChar d).toNat = 48 + d := by
  revert d
  decide

theorem decimal_of_lt {n : Nat} (h : n < 10) : decimal n = [Fin.ofNat 256 (48 + n)] := by
  unfold decimal
  rw [Nat.toDigits_of_lt_base h, List.map_singleton, toNat_digitChar h]

theorem decimal_of_le {n : Nat} (h : 10 ≤ n) :
    decimal n = decimal (n / 10) ++ [Fin.ofNat 256 (48 + n % 10)] := by
  unfold decimal
  rw [Nat.toDigits_of_base_le (by decide) h, List.map_append, List.map_singleton,
    toNat_digitChar (Nat.mod_lt n (by decide))]

theorem scanDigits_digit {d : Nat} (h : d < 10) (rest : Bytes) (prev : PrevChar) (count acc : Nat) :
    scanDigits 10 (Fin.ofNat 256 (48 + d) :: rest) prev count acc =
      scanDigits 10 rest .digit (count + 1) (acc * 10 + d) := by
  have hval : (Fin.ofNat 256 (48 + d)).val = 48 + d := Nat.mod_eq_of_lt (by omega)
  have hdigit : digitValue (Fin.ofNat 256 (48 + d)) = some d := by
    unfold digitValue
    rw [hval, if_pos (by omega)]
    congr 1
    omega
  rw [scanDigits, hval, if_neg (by omega), hdigit]
  dsimp only
  rw [if_pos h]

/-- Scanning the digits of a number appends them to what was scanned. -/
theorem scanDigits_decimal (n : Nat) (rest : Bytes) (prev : PrevChar) (count acc : Nat) :
    ∃ len, 0 < len ∧ scanDigits 10 (decimal n ++ rest) prev count acc =
      scanDigits 10 rest .digit (count + len) (acc * 10 ^ len + n) := by
  induction n using Nat.strongRecOn generalizing rest prev count acc with
  | _ n ih =>
    by_cases hsmall : n < 10
    · refine ⟨1, Nat.one_pos, ?_⟩
      rw [decimal_of_lt hsmall, pow_one]
      exact scanDigits_digit hsmall rest prev count acc
    · have hlarge : 10 ≤ n := Nat.le_of_not_lt hsmall
      have hlast : n % 10 < 10 := Nat.mod_lt n (by decide)
      obtain ⟨len, hpos, hscan⟩ := ih (n / 10) (by omega)
        (Fin.ofNat 256 (48 + n % 10) :: rest) prev count acc
      refine ⟨len + 1, Nat.succ_pos _, ?_⟩
      rw [decimal_of_le hlarge, List.append_assoc, List.singleton_append, hscan,
        scanDigits_digit hlast, ← Nat.add_assoc]
      congr 1
      rw [pow_succ, ← Nat.mul_assoc, Nat.add_mul]
      omega

/-- The first digit of a number is zero only for zero. -/
theorem decimal_head (n : Nat) :
    ∃ d rest, decimal n = Fin.ofNat 256 (48 + d) :: rest ∧ d < 10 ∧ (d = 0 → n = 0) := by
  induction n using Nat.strongRecOn with
  | _ n ih =>
    by_cases hsmall : n < 10
    · exact ⟨n, [], decimal_of_lt hsmall, hsmall, fun h => h⟩
    · have hlarge : 10 ≤ n := Nat.le_of_not_lt hsmall
      obtain ⟨d, rest, hdecimal, hd, hzero⟩ := ih (n / 10) (by omega)
      refine ⟨d, rest ++ [Fin.ofNat 256 (48 + n % 10)], ?_, hd, ?_⟩
      · rw [decimal_of_le hlarge, hdecimal]
        rfl
      · intro h
        have := hzero h
        omega

theorem scanNat_decimal (n : Nat) : scanNat (decimal n) = some n := by
  have hten : someDigits (scanDigits 10 (decimal n) .other 0 0) = some n := by
    obtain ⟨len, hpos, hscan⟩ := scanDigits_decimal n [] .other 0 0
    rw [List.append_nil] at hscan
    rw [hscan, scanDigits, if_neg (by decide)]
    unfold someDigits
    dsimp only
    rw [if_neg (by omega)]
    congr 1
    omega
  by_cases hzero : n = 0
  · rw [hzero]
    decide
  · obtain ⟨d, rest, hdecimal, hd, hfirst⟩ := decimal_head n
    have hval : (Fin.ofNat 256 (48 + d)).val = 48 + d := Nat.mod_eq_of_lt (by omega)
    have hmarker : (Fin.ofNat 256 (48 + d)).val ≠ 48 := by
      intro h
      exact hzero (hfirst (by omega))
    rw [hdecimal] at hten ⊢
    cases rest with
    | nil | cons => rw [scanNat, if_neg hmarker, hten]

/-- The text of a non-negative amount of at most 256 bits is read back as the amount. -/
theorem newIntFromString_intString {v : Int} (hsign : 0 ≤ v) (hbound : Fits v) :
    newIntFromString (intString v) = some v := by
  have htext : intString v = decimal v.natAbs := by
    unfold intString
    rw [if_neg (not_lt.2 hsign)]
    rfl
  obtain ⟨d, rest, hdecimal, hd, -⟩ := decimal_head v.natAbs
  have hval : (Fin.ofNat 256 (48 + d)).val = 48 + d := Nat.mod_eq_of_lt (by omega)
  have hread : setString (intString v) = some v := by
    have hscan := scanNat_decimal v.natAbs
    rw [hdecimal] at hscan
    rw [htext, hdecimal, setString, if_neg (by omega), if_neg (by omega), hscan]
    show some (v.natAbs : Int) = some v
    rw [Int.natAbs_of_nonneg hsign]
  unfold newIntFromString
  rw [hread]
  dsimp only
  rw [if_pos hbound]

/-- Truncated integer division. -/
def quo (a b : Int) : Int := Int.tdiv a b

theorem quo_of_nonneg {a b : Int} (ha : 0 ≤ a) : quo a b = a / b :=
  Int.tdiv_eq_ediv_of_nonneg ha

end PhiChain.Sdk
