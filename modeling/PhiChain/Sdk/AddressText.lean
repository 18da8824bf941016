import PhiChain.Sdk.Spelling

/-!
# Printed addresses are read back

`decode_addressString` follows the decoder over a printed address: the printed text is in
one letter case, its last separator is the one that was printed, the characters stand for
the values they were chosen for, and the checksum is the one the verifier expects. The
regrouping of bits is undone exactly, so `accAddressFromBech32` and `valAddressFromBech32`
return the address that was printed.
-/

set_option autoImplicit false

namespace PhiChain.Sdk

open Foundations

/-! ## Checksum -/

theorem feedback_lt (b : Nat) : feedback b < 2 ^ 30 := by
  have hgen : ∀ g ∈ gen.zipIdx, g.1 < 2 ^ 30 := by decide
  have hfold : ∀ (l : List (Nat × Nat)) (c : Nat), (∀ g ∈ l, g.1 < 2 ^ 30) → c < 2 ^ 30 →
      l.foldl (fun c g => if (b >>> g.2) &&& 1 = 1 then c ^^^ g.1 else c) c < 2 ^ 30 := by
    intro l
    induction l with
    | nil => exact fun c _ hc => hc
    | cons g rest ih =>
      intro c hl hc
      rw [List.foldl_cons]
      refine ih _ (fun g' hg' => hl g' (List.mem_cons_of_mem _ hg')) ?_
      split
      · exact Nat.xor_lt_two_pow hc (hl g List.mem_cons_self)
      · exact hc
  exact hfold gen.zipIdx 0 hgen (Nat.two_pow_pos 30)

theorem polymodStep_lt (c : Nat) {v : Nat} (hv : v < 32) : polymodStep c v < 2 ^ 30 := by
  have hmask : c &&& 0x1ffffff < 2 ^ 25 := Nat.lt_succ_of_le Nat.and_le_right
  have hshift : (c &&& 0x1ffffff) <<< 5 < 2 ^ 30 := by
    rw [Nat.shiftLeft_eq]
    omega
  rw [polymodStep_eq]
  exact Nat.xor_lt_two_pow (Nat.xor_lt_two_pow hshift (by omega)) (feedback_lt _)

/-- Rounds over two lists differ by the rounds over their difference. -/
theorem foldl_polymod_xor (vs : List Nat) :
    ∀ {ws : List Nat} {c c' : Nat}, vs.length = ws.length →
      vs.foldl polymodStep c ^^^ ws.foldl polymodStep c' =
        (List.zipWith (· ^^^ ·) vs ws).foldl polymodStep (c ^^^ c') := by
  induction vs with
  | nil =>
    intro ws c c' hlen
    obtain rfl : ws = [] := List.length_eq_zero_iff.1 hlen.symm
    rfl
  | cons v vs ih =>
    intro ws c c' hlen
    cases ws with
    | nil => cases hlen
    | cons w ws =>
      rw [List.foldl_cons, List.foldl_cons, ih (Nat.succ.inj hlen), polymodStep_xor]
      rfl

/-- A round that shifts in the next five bits of a 30-bit number. -/
theorem polymodStep_window {p k : Nat} (hp : p < 2 ^ 30) :
    polymodStep (p >>> (5 * (k + 1))) ((p >>> (5 * k)) &&& 31) = p >>> (5 * k) := by
  have hsmall : p >>> (5 * (k + 1)) < 2 ^ 25 := by
    rw [Nat.shiftRight_eq_div_pow]
    refine (Nat.div_lt_iff_lt_mul (Nat.two_pow_pos _)).2 (hp.trans_le ?_)
    rw [← Nat.pow_add]
    exact Nat.pow_le_pow_right (by decide) (by omega)
  have hlow : (p >>> (5 * k)) &&& 31 < 2 ^ 5 := Nat.lt_succ_of_le Nat.and_le_right
  have hdiv : p >>> (5 * (k + 1)) = (p >>> (5 * k)) / 2 ^ 5 := by
    rw [← Nat.shiftRight_eq_div_pow, ← Nat.shiftRight_add]
    rfl
  have hmod : (p >>> (5 * k)) &&& 31 = (p >>> (5 * k)) % 2 ^ 5 :=
    Nat.and_two_pow_sub_one_eq_mod (p >>> (5 * k)) 5
  rw [polymodStep_of_lt _ hsmall, xor_eq_or_of_lt hlow, ← Nat.shiftLeft_add_eq_or_of_lt hlow,
    Nat.shiftLeft_eq, hdiv, hmod]
  omega

/-- Six groups of five bits, most significant first. -/
def fiveBitGroups (p : Nat) : List Nat := (List.range 6).map fun i => (p >>> (5 * (5 - i))) &&& 31

theorem fiveBitGroups_eq (p : Nat) :
    fiveBitGroups p = [(p >>> (5 * 5)) &&& 31, (p >>> (5 * 4)) &&& 31, (p >>> (5 * 3)) &&& 31,
      (p >>> (5 * 2)) &&& 31, (p >>> (5 * 1)) &&& 31, (p >>> (5 * 0)) &&& 31] := by
  have hrange : List.range 6 = [0, 1, 2, 3, 4, 5] := by decide
  unfold fiveBitGroups
  rw [hrange]
  rfl

/-- From the zero state the groups of a number spell the number. -/
theorem foldl_fiveBitGroups {p : Nat} (hp : p < 2 ^ 30) :
    (fiveBitGroups p).foldl polymodStep 0 = p := by
  have hstart : 0 = p >>> (5 * (5 + 1)) := by
    rw [Nat.shiftRight_eq_div_pow]
    exact (Nat.div_eq_of_lt hp).symm
  rw [fiveBitGroups_eq]
  simp only [List.foldl_cons, List.foldl_nil]
  rw [congrArg (fun c => polymodStep c ((p >>> (5 * 5)) &&& 31)) hstart, polymodStep_window hp,
    polymodStep_window hp, polymodStep_window hp, polymodStep_window hp, polymodStep_window hp,
    polymodStep_window hp]
  rfl

theorem bech32Polymod_eq (hrp : Bytes) (values checksum : List Nat) :
    bech32Polymod hrp values checksum = checksum.foldl polymodStep (bech32Polymod hrp values []) := by
  simp only [bech32Polymod, List.foldl_append, List.foldl_nil]

/-- The checksum that is printed is the one that is expected. -/
theorem verifyChecksum_bech32Checksum (hrp : Bytes) (data : List Nat) :
    verifyChecksum hrp data (bech32Checksum hrp data) = true := by
  have hprinted : bech32Checksum hrp data =
      fiveBitGroups (bech32Polymod hrp data [0, 0, 0, 0, 0, 0] ^^^ 1) := rfl
  unfold verifyChecksum
  rw [hprinted, bech32Polymod_eq hrp data (fiveBitGroups _),
    bech32Polymod_eq hrp data [0, 0, 0, 0, 0, 0]]
  generalize bech32Polymod hrp data [] = c
  -- the printed groups make up for the difference between the round over zeros and one
  have hzeros : [0, 0, 0, 0, 0, 0].foldl polymodStep c < 2 ^ 30 := polymodStep_lt _ (by decide)
  generalize hz : [0, 0, 0, 0, 0, 0].foldl polymodStep c = z at hzeros
  have hlt : z ^^^ 1 < 2 ^ 30 := Nat.xor_lt_two_pow hzeros (by decide)
  have hlinear := @foldl_polymod_xor (fiveBitGroups (z ^^^ 1)) [0, 0, 0, 0, 0, 0] c c rfl
  have hsame : List.zipWith (· ^^^ ·) (fiveBitGroups (z ^^^ 1)) [0, 0, 0, 0, 0, 0] =
      fiveBitGroups (z ^^^ 1) := by
    rw [fiveBitGroups_eq]
    simp only [List.zipWith_cons_cons, List.zipWith_nil_left, Nat.xor_zero]
  rw [hsame, Nat.xor_self, foldl_fiveBitGroups hlt, hz] at hlinear
  refine decide_eq_true ?_
  calc (fiveBitGroups (z ^^^ 1)).foldl polymodStep c
      = (fiveBitGroups (z ^^^ 1)).foldl polymodStep c ^^^ z ^^^ z := by
        rw [Nat.xor_assoc, Nat.xor_self, Nat.xor_zero]
    _ = z ^^^ 1 ^^^ z := by rw [hlinear]
    _ = 1 := by rw [Nat.xor_comm, ← Nat.xor_assoc, Nat.xor_self, Nat.zero_xor]

/-! ## Characters -/

/-- A character that passes the decoder unchanged. -/
def plainChar (c : Byte) : Bool := 33 ≤ c.val ∧ c.val ≤ 126 ∧ isUpper c = false

theorem plainChar_charset : ∀ v < 32, plainChar (charset.getD v 0) = true ∧ charset.getD v 0 ≠ 49 := by
  decide

theorem normalize_of_plain {s : Bytes} (h : ∀ c ∈ s, plainChar c = true) : normalize s = some s := by
  have hchars : ∀ c ∈ s, 33 ≤ c.val ∧ c.val ≤ 126 ∧ isUpper c = false :=
    fun c hc => of_decide_eq_true (h c hc)
  have hprintable : (s.any fun c => decide (c.val < 33 ∨ 126 < c.val)) = false := by
    rw [List.any_eq_false]
    intro c hc
    have := hchars c hc
    simp only [decide_eq_true_eq]
    omega
  have hupper : s.any isUpper = false := by
    rw [List.any_eq_false]
    intro c hc
    simp [(hchars c hc).2.2]
  unfold normalize
  rw [hprintable, hupper, Bool.and_false]
  rfl

/-- The last separator is the one in front of characters that are none. -/
theorem lastIndexByte_append {pre chars : Bytes} {c : Byte} (h : c ∉ chars) :
    lastIndexByte (pre ++ c :: chars) c = some pre.length := by
  have hfind : indexByte (pre ++ c :: chars).reverse c = some chars.length := by
    unfold indexByte
    rw [List.reverse_append, List.reverse_cons, List.append_assoc, List.findIdx?_append]
    have hnone : chars.reverse.findIdx? (fun b => decide (b = c)) = none := by
      rw [List.findIdx?_eq_none_iff]
      intro x hx
      have hne : x ≠ c := fun heq => h (heq ▸ List.mem_reverse.1 hx)
      simpa using hne
    rw [hnone]
    simp [List.findIdx?_cons]
  unfold lastIndexByte
  rw [hfind]
  simp only [Option.map_some, List.length_append, List.length_cons, Option.some.injEq]
  omega

/-- A text with a separator is taken apart at it. -/
theorem decodeUnsafe_of_chars {hrp chars : Bytes} {values checksum : List Nat} (hhrp : hrp ≠ [])
    (hsep : 49 ∉ chars) (hread : toBytes chars = some (values ++ checksum))
    (hsix : checksum.length = 6) :
    decodeUnsafe (hrp ++ 49 :: chars) = some (hrp, values, checksum) := by
  have hpos : 1 ≤ hrp.length := List.length_pos_iff.2 hhrp
  have hsize := (toBytes_spec hread).1
  rw [List.length_append, hsix] at hsize
  have hroom : ¬ (hrp.length < 1 ∨ (hrp ++ 49 :: chars).length < hrp.length + 7) := by
    simp only [List.length_append, List.length_cons]
    omega
  have hdrop : (hrp ++ 49 :: chars).drop (hrp.length + 1) = chars := by
    rw [← List.drop_drop, List.drop_left]
    rfl
  have hcut : (values ++ checksum).length - 6 = values.length := by
    rw [List.length_append, hsix]
    exact Nat.add_sub_cancel _ _
  unfold decodeUnsafe
  rw [lastIndexByte_append hsep]
  dsimp only [Option.bind_eq_bind, Option.bind_some]
  rw [if_neg hroom, hdrop, hread]
  dsimp only [Option.bind_some]
  rw [hcut, List.take_left, List.take_left, List.drop_left]

/-! ## Addresses -/

/-- A human-readable part the decoder leaves alone. -/
structure PlainPrefix (hrp : Bytes) : Prop where
  nonempty : hrp ≠ []
  short : hrp.length ≤ 20
  plain : hrp.all plainChar = true

/-- The decoder reads a printed address back. -/
theorem decode_addressString {hrp addr : Bytes} (hhrp : PlainPrefix hrp) (hne : addr ≠ [])
    (hlen : addr.length ≤ 255) :
    ∃ data, decode (addressString hrp addr) bech32Limit = some (hrp, data) ∧
      convertBits data 5 8 false = some (addr.map Fin.val) := by
  obtain ⟨data, hdata, hdigits, hcount, hback⟩ := convertBits_round (val_lt_of_mem addr)
  obtain ⟨hsix, hcheck⟩ := bech32Checksum_spec hrp data
  have hvalues : ∀ d ∈ data ++ bech32Checksum hrp data, d < 32 := by
    intro d hd
    rcases List.mem_append.1 hd with hd | hd
    · exact hdigits d hd
    · exact hcheck d hd
  refine ⟨data, ?_, hback⟩
  generalize hchars : ((data ++ bech32Checksum hrp data).map fun v => charset.getD v 0) = chars
  have htext : addressString hrp addr = hrp ++ 49 :: chars := by
    unfold addressString
    rw [if_neg hne, hdata, ← hchars]
    dsimp only [Option.getD_some]
    rw [List.append_assoc]
    rfl
  have hsize : chars.length = data.length + 6 := by
    rw [← hchars, List.length_map, List.length_append, hsix]
  have hcharsPlain : ∀ c ∈ chars, plainChar c = true ∧ c ≠ 49 := by
    intro c hc
    rw [← hchars] at hc
    obtain ⟨v, hv, rfl⟩ := List.mem_map.1 hc
    exact plainChar_charset v (hvalues v hv)
  have hplain : ∀ c ∈ hrp ++ 49 :: chars, plainChar c = true := by
    intro c hc
    rcases List.mem_append.1 hc with hc | hc
    · exact List.all_eq_true.1 hhrp.plain c hc
    · rcases List.mem_cons.1 hc with rfl | hc
      · decide
      · exact (hcharsPlain c hc).1
  have hpos : 1 ≤ hrp.length := List.length_pos_iff.2 hhrp.nonempty
  have hbytes : (addr.map Fin.val).length = addr.length := List.length_map _
  have hshort := hhrp.short
  have hread : toBytes chars = some (data ++ bech32Checksum hrp data) := by
    rw [← hchars]
    exact toBytes_charset hvalues
  have hrefused := decodeUnsafe_of_chars hhrp.nonempty (fun hmem => (hcharsPlain 49 hmem).2 rfl)
    hread hsix
  have hfits : ¬ (bech32Limit < (hrp ++ 49 :: chars).length ∨ (hrp ++ 49 :: chars).length < 8) := by
    simp only [List.length_append, List.length_cons, bech32Limit]
    omega
  unfold decode
  rw [htext, if_neg hfits, normalize_of_plain hplain]
  dsimp only [Option.bind_eq_bind, Option.bind_some]
  rw [hrefused]
  dsimp only [Option.bind_some]
  rw [verifyChecksum_bech32Checksum]
  rfl

theorem map_ofNat_val (addr : Bytes) : (addr.map Fin.val).map (Fin.ofNat 256) = addr := by
  rw [List.map_map]
  refine (List.map_congr_left fun c _ => ?_).trans (List.map_id addr)
  exact Fin.ext (Nat.mod_eq_of_lt c.isLt)

/-- A printed address is not blank. -/
theorem addressString_not_blank {hrp addr : Bytes} (hhrp : PlainPrefix hrp) (hne : addr ≠ []) :
    (addressString hrp addr).all isSpace = false := by
  obtain ⟨c, rest, rfl⟩ := List.exists_cons_of_ne_nil hhrp.nonempty
  have hplain : 33 ≤ c.val ∧ c.val ≤ 126 ∧ isUpper c = false :=
    of_decide_eq_true (List.all_eq_true.1 hhrp.plain c List.mem_cons_self)
  have hvisible : isSpace c = false := by
    refine decide_eq_false ?_
    omega
  unfold addressString
  rw [if_neg hne]
  dsimp only [List.cons_append]
  rw [List.all_cons, hvisible, Bool.false_and]

theorem plainPrefix_account : PlainPrefix accountAddressPrefix := ⟨by decide, by decide, by decide⟩

theorem plainPrefix_validator : PlainPrefix validatorAddressPrefix :=
  ⟨by decide, by decide, by decide⟩

/-- A printed address is read back. -/
theorem addressFromBech32_addressString {hrp addr : Bytes} (hplain : PlainPrefix hrp)
    (hne : addr ≠ []) (hlen : addr.length ≤ 255) :
    addressFromBech32 hrp (addressString hrp addr) = some addr := by
  obtain ⟨data, hdecode, hconvert⟩ := decode_addressString hplain hne hlen
  have hsize : 0 < (addr.map Fin.val).length ∧ (addr.map Fin.val).length ≤ 255 := by
    rw [List.length_map]
    exact ⟨List.length_pos_iff.2 hne, hlen⟩
  unfold addressFromBech32
  rw [addressString_not_blank hplain hne, hdecode]
  dsimp only [Option.bind_eq_bind, Option.bind_some]
  rw [if_neg Bool.false_ne_true, hconvert]
  dsimp only [Option.bind_some]
  rw [if_pos ⟨rfl, hsize⟩, map_ofNat_val]

theorem accAddressFromBech32_accAddressString {addr : Bytes} (hne : addr ≠ [])
    (hlen : addr.length ≤ 255) : accAddressFromBech32 (accAddressString addr) = some addr :=
  addressFromBech32_addressString plainPrefix_account hne hlen

theorem valAddressFromBech32_valAddressString {addr : Bytes} (hne : addr ≠ [])
    (hlen : addr.length ≤ 255) : valAddressFromBech32 (valAddressString addr) = some addr :=
  addressFromBech32_addressString plainPrefix_validator hne hlen

end PhiChain.Sdk
