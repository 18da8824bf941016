import PhiChain.Disclosure.Query

/-!
# Disclosure: what a valid answer reveals

The envelope of a proof is a wire format: `ProofEnvelope` is what it carries, with the bounds
that make it one, and `ProofEnvelope.encode` is how it is written. The parser accepts exactly
the encodings (`parseDisclosedProof_ok`).

A reader and the bytes it has consumed are related by `Reads`, which is a relation of
concatenation: reading `c ++ c'` is reading `c` and then `c'` (`reads_append`). Each function of
the parser has one lemma that says what it reads, and the parser is their composition.
-/

set_option autoImplicit false

namespace PhiChain.Disclosure

open Foundations Sdk

/-! ## Reading -/

/-- Reader `r'` is `r` with `consumed` read. -/
structure Reads (r : Reader) (consumed : Bytes) (r' : Reader) : Prop where
  same : r'.b = r.b
  pos : r'.pos = r.pos + consumed.length
  bytes : r.b.drop r.pos = consumed ++ r'.b.drop r'.pos

variable {r r' : Reader}

theorem reads_nil : Reads r [] r' ↔ r' = r := by
  constructor
  · rintro ⟨hsame, hpos, -⟩
    cases r
    cases r'
    dsimp only at hsame hpos
    rw [hsame, hpos]
    rfl
  · rintro rfl
    exact ⟨rfl, rfl, rfl⟩

/-- Reading a concatenation is reading its parts in turn. -/
theorem reads_append {c c' : Bytes} {r'' : Reader} :
    Reads r (c ++ c') r'' ↔ ∃ r', Reads r c r' ∧ Reads r' c' r'' := by
  constructor
  · rintro ⟨hsame, hpos, hbytes⟩
    have hrest : r.b.drop (r.pos + c.length) = c' ++ r''.b.drop r''.pos := by
      rw [← List.drop_drop, hbytes, List.append_assoc, List.drop_left]
    refine ⟨⟨r.b, r.pos + c.length⟩, ⟨rfl, rfl, ?_⟩, ⟨hsame, ?_, hrest⟩⟩
    · rw [hrest, hbytes, List.append_assoc]
    · rw [hpos, List.length_append, Nat.add_assoc]
  · rintro ⟨r', ⟨hsame, hpos, hbytes⟩, ⟨hsame', hpos', hbytes'⟩⟩
    refine ⟨hsame'.trans hsame, ?_, ?_⟩
    · rw [hpos', hpos, List.length_append, Nat.add_assoc]
    · rw [hbytes, hbytes', List.append_assoc]

/-- A reader that has read `c` is further on by its length. -/
theorem Reads.eq_advance {c : Bytes} (h : Reads r c r') : r' = { r with pos := r.pos + c.length } := by
  obtain ⟨hsame, hpos, -⟩ := h
  cases r'
  dsimp only at hsame hpos
  rw [hsame, hpos]

/-- What is read is there to be read. -/
theorem reads_advance {n : Nat} (h : n ≤ (r.b.drop r.pos).length) :
    Reads r ((r.b.drop r.pos).take n) { r with pos := r.pos + n } := by
  have hlength : ((r.b.drop r.pos).take n).length = n := by
    rw [List.length_take]
    omega
  refine ⟨rfl, ?_, ?_⟩
  · rw [hlength]
  · dsimp only
    rw [← List.drop_drop, List.take_append_drop]

theorem toNat_lt_width (v : UInt32) : v.toNat < 256 ^ 4 := v.toNat_lt

/-- `u32` reads four bytes, most significant first. -/
theorem u32_iff {v : UInt32} : r.u32 = .ok (v, r') ↔ Reads r (bigEndian 4 v.toNat) r' := by
  simp only [Reader.u32, bind_eq_ok, ensure_eq_ok, pure_eq_ok, exists_const, Prod.mk.injEq]
  constructor
  · rintro ⟨hfits, rfl, rfl⟩
    have hlong : 4 ≤ (r.b.drop r.pos).length := by
      rw [List.length_drop]
      omega
    have hnumber : (UInt32.ofNat (ofBigEndian ((r.b.drop r.pos).take 4))).toNat =
        ofBigEndian ((r.b.drop r.pos).take 4) := by
      apply UInt32.toNat_ofNat_of_lt'
      have hlt := ofBigEndian_lt ((r.b.drop r.pos).take 4)
      rw [List.length_take, Nat.min_eq_left hlong] at hlt
      exact hlt
    rw [hnumber, bigEndian_ofBigEndian_take hlong]
    exact reads_advance hlong
  · intro h
    have hlength : (bigEndian 4 v.toNat ++ r'.b.drop r'.pos).length = r.b.length - r.pos := by
      rw [← h.bytes, List.length_drop]
    rw [List.length_append, length_bigEndian] at hlength
    refine ⟨by omega, ?_, ?_⟩
    · rw [h.bytes, ofBigEndian_take_append (toNat_lt_width v), UInt32.ofNat_toNat]
    · rw [h.eq_advance, length_bigEndian]

/-- `bytes` reads a byte string behind its length. -/
theorem bytes_iff {p : Bytes} : r.bytes = .ok (p, r') ↔
    p.length < 2 ^ 32 ∧ Reads r (bigEndian 4 p.length ++ p) r' := by
  simp only [Reader.bytes, bind_eq_ok, ensure_eq_ok, pure_eq_ok, exists_const, Prod.mk.injEq]
  constructor
  · rintro ⟨⟨n, r₁⟩, hn, hfits, rfl, rfl⟩
    dsimp only at hfits ⊢
    have hlong : n.toNat ≤ (r₁.b.drop r₁.pos).length := by
      rw [List.length_drop]
      exact hfits
    have hlength : ((r₁.b.drop r₁.pos).take n.toNat).length = n.toNat := by
      rw [List.length_take]
      omega
    rw [hlength]
    exact ⟨n.toNat_lt, reads_append.2 ⟨r₁, u32_iff.1 hn, reads_advance hlong⟩⟩
  · rintro ⟨hlt, h⟩
    obtain ⟨r₁, hprefix, hbody⟩ := reads_append.1 h
    have hnumber : (UInt32.ofNat p.length).toNat = p.length := UInt32.toNat_ofNat_of_lt' hlt
    refine ⟨(UInt32.ofNat p.length, r₁), u32_iff.2 (hnumber.symm ▸ hprefix), ?_⟩
    have hlength : (p ++ r'.b.drop r'.pos).length = r₁.b.length - r₁.pos := by
      rw [← hbody.bytes, List.length_drop]
    rw [List.length_append] at hlength
    rw [hnumber]
    refine ⟨?_, ?_, hbody.eq_advance.symm⟩
    · dsimp only [Reader.left]
      omega
    · rw [hbody.bytes, List.take_left]

/-! ## Revealed claims -/

/-- A revealed claim of an envelope. -/
structure RevealedClaim where
  index : UInt32
  value : Bytes
  value_fits : value.length < 2 ^ 32

def RevealedClaim.encode (c : RevealedClaim) : Bytes :=
  bigEndian 4 c.index.toNat ++ (bigEndian 4 c.value.length ++ c.value)

/-- The claims that a run of `readIndices` goes through: in range, and new each time. -/
structure Revealable (messageCount : UInt32) (seen : List UInt32) (claims : List RevealedClaim) :
    Prop where
  inRange : ∀ c ∈ claims, c.index < messageCount
  fresh : ∀ c ∈ claims, c.index ∉ seen
  distinct : (claims.map RevealedClaim.index).Nodup

theorem revealable_cons {messageCount : UInt32} {seen : List UInt32} {c : RevealedClaim}
    {claims : List RevealedClaim} :
    Revealable messageCount seen (c :: claims) ↔
      c.index < messageCount ∧ c.index ∉ seen ∧
        Revealable messageCount (seen ++ [c.index]) claims := by
  constructor
  · rintro ⟨hrange, hfresh, hdistinct⟩
    rw [List.map_cons, List.nodup_cons] at hdistinct
    refine ⟨hrange c List.mem_cons_self, hfresh c List.mem_cons_self,
      ⟨fun d hd => hrange d (List.mem_cons_of_mem _ hd), fun d hd => ?_, hdistinct.2⟩⟩
    rw [List.mem_append, List.mem_singleton]
    rintro (hseen | hsame)
    · exact hfresh d (List.mem_cons_of_mem _ hd) hseen
    · exact hdistinct.1 (hsame ▸ List.mem_map_of_mem hd)
  · rintro ⟨hrange, hfresh, hrest⟩
    refine ⟨?_, ?_, ?_⟩
    · exact List.forall_mem_cons.2 ⟨hrange, hrest.inRange⟩
    · refine List.forall_mem_cons.2 ⟨hfresh, fun d hd hseen => ?_⟩
      exact hrest.fresh d hd (List.mem_append_left _ hseen)
    · rw [List.map_cons, List.nodup_cons]
      refine ⟨fun hmem => ?_, hrest.distinct⟩
      obtain ⟨d, hd, hsame⟩ := List.mem_map.1 hmem
      exact hrest.fresh d hd (List.mem_append_right _ (List.mem_singleton.2 hsame))

/-- `readIndices` reads revealable claims and collects their indices. -/
theorem readIndices_iff {messageCount : UInt32} {n : Nat} {seen indices : List UInt32} :
    readIndices messageCount n seen r = .ok (indices, r') ↔
      ∃ claims : List RevealedClaim, claims.length = n ∧
        indices = seen ++ claims.map RevealedClaim.index ∧
        Revealable messageCount seen claims ∧
        Reads r (claims.flatMap RevealedClaim.encode) r' := by
  induction n generalizing seen r with
  | zero =>
    constructor
    · intro h
      obtain ⟨rfl, rfl⟩ := Prod.mk.inj (Except.ok.inj h)
      refine ⟨[], rfl, (List.append_nil _).symm, ⟨?_, ?_, List.nodup_nil⟩, reads_nil.2 rfl⟩
      · exact List.forall_mem_nil _
      · exact List.forall_mem_nil _
    · rintro ⟨claims, hlength, rfl, -, hreads⟩
      obtain rfl := List.length_eq_zero_iff.1 hlength
      rw [reads_nil.1 hreads, List.map_nil, List.append_nil]
      rfl
  | succ n ih =>
    simp only [readIndices, bind_eq_ok, ensure_eq_ok, exists_const]
    constructor
    · rintro ⟨⟨idx, r₁⟩, hidx, ⟨value, r₂⟩, hvalue, hrange, hfresh, hrest⟩
      obtain ⟨claims, hlength, rfl, hclaims, hreads⟩ := ih.1 hrest
      obtain ⟨hfits, hvalue⟩ := bytes_iff.1 hvalue
      refine ⟨⟨idx, value, hfits⟩ :: claims, ?_, ?_, ?_, ?_⟩
      · rw [List.length_cons, hlength]
      · rw [List.map_cons, List.append_assoc, List.singleton_append]
      · exact revealable_cons.2 ⟨hrange, hfresh, hclaims⟩
      · rw [List.flatMap_cons]
        exact reads_append.2 ⟨r₂, reads_append.2 ⟨r₁, u32_iff.1 hidx, hvalue⟩, hreads⟩
    · rintro ⟨claims, hlength, rfl, hclaims, hreads⟩
      cases claims with
      | nil => cases hlength
      | cons c claims =>
        obtain ⟨hrange, hfresh, hclaims⟩ := revealable_cons.1 hclaims
        rw [List.flatMap_cons] at hreads
        obtain ⟨r₂, hclaim, hreads⟩ := reads_append.1 hreads
        obtain ⟨r₁, hidx, hvalue⟩ := reads_append.1 hclaim
        refine ⟨(c.index, r₁), u32_iff.2 hidx, (c.value, r₂), bytes_iff.2 ⟨c.value_fits, hvalue⟩,
          hrange, hfresh, ih.2 ⟨claims, Nat.succ.inj hlength, ?_, hclaims, hreads⟩⟩
        rw [List.map_cons, List.append_assoc, List.singleton_append]

/-! ## Sorting -/

/-- What `sinkLeft` splits a list into: the values it stops at, and the greater ones it passes. -/
theorem sinkLeft_split (x : UInt32) (a : List UInt32) :
    ∃ low high, a = low ++ high ∧ sinkLeft x a = low ++ x :: high ∧ (∀ y ∈ high, x < y) ∧
      ∀ y, low.getLast? = some y → ¬ x < y := by
  refine ⟨(a.reverse.dropWhile (x < ·)).reverse, (a.reverse.takeWhile (x < ·)).reverse, ?_, rfl,
    fun y hy => ?_, fun y hy => ?_⟩
  · rw [← List.reverse_append, List.takeWhile_append_dropWhile, List.reverse_reverse]
  · have hpassed := List.all_eq_true.1 List.all_takeWhile y (List.mem_reverse.1 hy)
    exact of_decide_eq_true hpassed
  · rw [List.getLast?_reverse] at hy
    have hstop := List.head?_dropWhile_not (fun y => decide (x < y)) a.reverse
    rw [hy] at hstop
    exact of_decide_eq_false hstop

theorem sinkLeft_perm (x : UInt32) (a : List UInt32) : (sinkLeft x a).Perm (x :: a) := by
  obtain ⟨low, high, rfl, hsink, -, -⟩ := sinkLeft_split x a
  rw [hsink]
  exact List.perm_middle

/-- A value sinks to its place in an ascending list. -/
theorem sinkLeft_ascending {x : UInt32} {a : List UInt32} (ha : a.Pairwise (· ≤ ·)) :
    (sinkLeft x a).Pairwise (· ≤ ·) := by
  obtain ⟨low, high, rfl, hsink, hhigh, hlow⟩ := sinkLeft_split x a
  obtain ⟨hlows, hhighs, hacross⟩ := List.pairwise_append.1 ha
  -- the lower part stops at a value that `x` does not pass, and is below it
  have hbelow : ∀ y ∈ low, y ≤ x := by
    intro y hy
    rcases List.eq_nil_or_concat' low with rfl | ⟨init, last, rfl⟩
    · cases hy
    · have hlast : last ≤ x := UInt32.not_lt.1 (hlow last List.getLast?_concat)
      rcases List.mem_append.1 hy with hinit | hend
      · have hstep := (List.pairwise_append.1 hlows).2.2 y hinit last (List.mem_singleton_self last)
        exact UInt32.le_trans hstep hlast
      · exact List.mem_singleton.1 hend ▸ hlast
  rw [hsink, List.pairwise_append, List.pairwise_cons]
  refine ⟨hlows, ⟨fun y hy => UInt32.le_of_lt (hhigh y hy), hhighs⟩, fun y hy z hz => ?_⟩
  rcases List.mem_cons.1 hz with rfl | hz
  · exact hbelow y hy
  · exact hacross y hy z hz

/-- `sortAscending` is a permutation in ascending order. -/
theorem sortAscending_spec (a : List UInt32) :
    (sortAscending a).Perm a ∧ (sortAscending a).Pairwise (· ≤ ·) := by
  have hfold : ∀ (rest done : List UInt32), done.Pairwise (· ≤ ·) →
      (rest.foldl (fun done x => sinkLeft x done) done).Perm (done ++ rest) ∧
        (rest.foldl (fun done x => sinkLeft x done) done).Pairwise (· ≤ ·) := by
    intro rest
    induction rest with
    | nil =>
      intro done hdone
      rw [List.append_nil]
      exact ⟨List.Perm.refl _, hdone⟩
    | cons x rest ih =>
      intro done hdone
      obtain ⟨hperm, hsorted⟩ := ih (sinkLeft x done) (sinkLeft_ascending hdone)
      refine ⟨hperm.trans ?_, hsorted⟩
      exact ((sinkLeft_perm x done).append_right rest).trans List.perm_middle.symm
  exact hfold a [] List.Pairwise.nil

/-- Distinct values are strictly ascending once sorted. -/
theorem sortAscending_strict {a : List UInt32} (ha : a.Nodup) :
    (sortAscending a).Pairwise (· < ·) := by
  obtain ⟨hperm, hsorted⟩ := sortAscending_spec a
  have hdistinct : (sortAscending a).Pairwise (· ≠ ·) := hperm.nodup_iff.2 ha
  exact (hsorted.and hdistinct).imp fun h => UInt32.lt_of_le_of_ne h.1 h.2

example : sortAscending [5, 1, 3, 2] = [1, 2, 3, 5] := by decide

/-! ## Envelopes -/

/-- What the envelope of a proof carries. -/
structure ProofEnvelope where
  messageCount : UInt32
  body : Bytes
  revealed : List RevealedClaim
  counted : messageCount ≠ 0 ∧ messageCount.toNat ≤ maxBbsMessages
  body_fits : body.length < 2 ^ 32
  revealed_le : revealed.length ≤ messageCount.toNat
  inRange : ∀ c ∈ revealed, c.index < messageCount
  distinct : (revealed.map RevealedClaim.index).Nodup

namespace ProofEnvelope

def indices (e : ProofEnvelope) : List UInt32 := e.revealed.map RevealedClaim.index

/-- Count, body and revealed claims, each number in four bytes. -/
def encode (e : ProofEnvelope) : Bytes :=
  bigEndian 4 e.messageCount.toNat ++ ((bigEndian 4 e.body.length ++ e.body) ++
    (bigEndian 4 e.revealed.length ++ e.revealed.flatMap RevealedClaim.encode))

theorem revealable (e : ProofEnvelope) : Revealable e.messageCount [] e.revealed :=
  ⟨e.inRange, fun _ _ => List.not_mem_nil, e.distinct⟩

/-- The number of claims fits in four bytes. -/
theorem toNat_revealed (e : ProofEnvelope) :
    (UInt32.ofNat e.revealed.length).toNat = e.revealed.length :=
  UInt32.toNat_ofNat_of_lt' (e.revealed_le.trans_lt e.messageCount.toNat_lt)

end ProofEnvelope

/-- A string that is read to its end is what was read. -/
theorem reads_whole {b c : Bytes} :
    (∃ r', Reads ⟨b, 0⟩ c r' ∧ r'.pos = b.length) ↔ b = c := by
  constructor
  · rintro ⟨r', h, hend⟩
    have hbytes := h.bytes
    rw [h.same, hend, List.drop_length, List.append_nil] at hbytes
    exact hbytes
  · rintro rfl
    refine ⟨⟨b, b.length⟩, ⟨rfl, (Nat.zero_add _).symm, ?_⟩, rfl⟩
    rw [List.drop_length, List.append_nil]
    rfl

/-- The parser accepts the encodings, and returns the count and the sorted indices. -/
theorem parseDisclosedProof_ok {b : Bytes} {d : DisclosedProof} :
    parseDisclosedProof b = .ok d ↔
      ∃ e : ProofEnvelope, b = e.encode ∧ d = ⟨e.messageCount, sortAscending e.indices⟩ := by
  simp only [parseDisclosedProof, bind_eq_ok, ensure_eq_ok, pure_eq_ok, exists_const]
  constructor
  · rintro ⟨⟨count, r₁⟩, hcount, hcounted, ⟨body, r₂⟩, hbody, ⟨n, r₃⟩, hn, hle, ⟨indices, r₄⟩,
      hindices, hend, rfl⟩
    obtain ⟨hfits, hbody⟩ := bytes_iff.1 hbody
    obtain ⟨claims, hlength, rfl, hclaims, hreads⟩ := readIndices_iff.1 hindices
    have hsmall : claims.length ≤ count.toNat := hlength ▸ UInt32.le_iff_toNat_le.1 hle
    have hnumber := u32_iff.1 hn
    rw [← hlength] at hnumber
    refine ⟨⟨count, body, claims, hcounted, hfits, hsmall, hclaims.inRange, hclaims.distinct⟩,
      reads_whole.1 ⟨r₄, ?_, hend⟩, rfl⟩
    exact reads_append.2 ⟨r₁, u32_iff.1 hcount,
      reads_append.2 ⟨r₂, hbody, reads_append.2 ⟨r₃, hnumber, hreads⟩⟩⟩
  · rintro ⟨e, rfl, rfl⟩
    obtain ⟨r₄, hreads, hend⟩ := reads_whole.2 (Eq.refl e.encode)
    obtain ⟨r₁, hcount, hreads⟩ := reads_append.1 hreads
    obtain ⟨r₂, hbody, hreads⟩ := reads_append.1 hreads
    obtain ⟨r₃, hnumber, hclaims⟩ := reads_append.1 hreads
    have hsmall : UInt32.ofNat e.revealed.length ≤ e.messageCount := by
      rw [UInt32.le_iff_toNat_le, e.toNat_revealed]
      exact e.revealed_le
    refine ⟨(e.messageCount, r₁), u32_iff.2 hcount, e.counted, (e.body, r₂),
      bytes_iff.2 ⟨e.body_fits, hbody⟩, (UInt32.ofNat e.revealed.length, r₃), u32_iff.2 ?_, hsmall,
      (e.indices, r₄), readIndices_iff.2 ⟨e.revealed, ?_, rfl, e.revealable, hclaims⟩, hend, rfl⟩
    · rw [e.toNat_revealed]
      exact hnumber
    · exact e.toNat_revealed.symm

/-- The report is determined by the envelope: its count, and its indices in ascending order. -/
theorem report_unique {e : ProofEnvelope} {d : DisclosedProof} :
    d = ⟨e.messageCount, sortAscending e.indices⟩ ↔
      d.messageCount = e.messageCount ∧ d.revealedIndices.Pairwise (· < ·) ∧
        ∀ i, i ∈ d.revealedIndices ↔ i ∈ e.indices := by
  have hmem : ∀ i, i ∈ sortAscending e.indices ↔ i ∈ e.indices := fun i =>
    (sortAscending_spec e.indices).1.mem_iff
  have hstrict : (sortAscending e.indices).Pairwise (· < ·) := sortAscending_strict e.distinct
  constructor
  · rintro rfl
    exact ⟨rfl, hstrict, hmem⟩
  · rintro ⟨hcount, hascending, hindices⟩
    cases d
    dsimp only at hcount hascending hindices
    rw [hcount, hascending.eq_of_mem_iff hstrict fun {i} => (hindices i).trans (hmem i).symm]

theorem level_eq_predicate {d : DisclosedProof} :
    d.level = .predicate ↔ d.revealedIndices = [] := by
  have hempty : d.isPredicate = true ↔ d.revealedIndices = [] := by
    rw [DisclosedProof.isPredicate, decide_eq_true_eq, List.length_eq_zero_iff]
  rw [← hempty, DisclosedProof.level]
  cases d.isPredicate with
  | true => exact iff_of_true rfl rfl
  | false => exact iff_of_false (by decide) (by decide)

/-- The parser accepts exactly the encodings of envelopes, and reports their count and their indices
in ascending order. A valid answer is about an active anchor, its template has the claim count of
the proof, and the indices it returns are those of the proof; all of them are declared disclosable,
and the level says whether there are any. -/
theorem disclosed_claims_exact :
    (∀ b d, parseDisclosedProof b = .ok d ↔
      ∃ e : ProofEnvelope, b = e.encode ∧ d.messageCount = e.messageCount ∧
        d.revealedIndices.Pairwise (· < ·) ∧ ∀ i, i ∈ d.revealedIndices ↔ i ∈ e.indices) ∧
    ∀ (verify : (proof issuerKey nonce : Bytes) → Bool) (params : Params)
      (creds : Credentials.Store) (req : VerifyDisclosureRequest) (resp : VerifyDisclosureResponse),
      verifyDisclosure verify params creds req = .ok resp → resp.valid = true →
      ∃ anchor tmpl, ∃ e : ProofEnvelope,
        creds.anchors.get? req.credentialHash = some anchor ∧ anchor.status = .active ∧
        creds.templates.get? anchor.templateId = some tmpl ∧
        req.proof = e.encode ∧ tmpl.messageCount = e.messageCount ∧
        resp.revealedIndices.Pairwise (· < ·) ∧ (∀ i, i ∈ resp.revealedIndices ↔ i ∈ e.indices) ∧
        (∀ i ∈ resp.revealedIndices, i ∈ tmpl.disclosableIndices) ∧
        (resp.level = .predicate ↔ resp.revealedIndices = []) := by
  have hparser : ∀ b d, parseDisclosedProof b = .ok d ↔
      ∃ e : ProofEnvelope, b = e.encode ∧ d.messageCount = e.messageCount ∧
        d.revealedIndices.Pairwise (· < ·) ∧ ∀ i, i ∈ d.revealedIndices ↔ i ∈ e.indices := by
    intro b d
    rw [parseDisclosedProof_ok]
    exact exists_congr fun e => and_congr_right fun _ => report_unique
  refine ⟨hparser, ?_⟩
  intro verify params creds req resp hanswer hvalid
  obtain ⟨anchor, tmpl, disclosed, h, -, hlevel, hindices, -⟩ := presentable_of_valid hanswer hvalid
  obtain ⟨e, hencoded, hcount, hascending, hmem⟩ := (hparser req.proof disclosed).1 h.envelope
  rw [hlevel, hindices]
  refine ⟨anchor, tmpl, e, h.anchored, h.active, h.template, hencoded, ?_, hascending, hmem,
    fun i hi => ?_, level_eq_predicate⟩
  · rw [← h.counted, hcount]
  · exact List.contains_iff_mem.1 (h.disclosable i hi)

/-- A proof that reveals the first of two claims, with the value 7. -/
def revealFirst : Bytes :=
  [0, 0, 0, 2, 0, 0, 0, 0, 0, 0, 0, 1, 0, 0, 0, 0, 0, 0, 0, 1, 7]

/-- The template of `revokedFirst` lets its first claim be revealed. -/
theorem disclosed_claims_exact_first :
    ∃ resp, verifyDisclosure (fun _ _ _ => true) defaultParams revokedFirst
        ⟨[11], revealFirst, [7], []⟩ = .ok resp ∧
      resp.valid = true ∧ resp.revealedIndices = [0] ∧ resp.level = .partialReveal ∧
      ∃ e : ProofEnvelope, revealFirst = e.encode ∧ ∀ i, i ∈ resp.revealedIndices ↔ i ∈ e.indices := by
  have hanswer : verifyDisclosure (fun _ _ _ => true) defaultParams revokedFirst
      ⟨[11], revealFirst, [7], []⟩ = .ok ⟨true, "", Identity.smallDID 1, [1], .partialReveal, [0],
        ((revokedFirst.templates.get? [1]).map (·.disclosurePolicyHash)).getD []⟩ := by
    decide +kernel
  obtain ⟨anchor, tmpl, e, -, -, -, hencoded, -, -, hmem, -, -⟩ :=
    disclosed_claims_exact.2 _ _ _ _ _ hanswer rfl
  exact ⟨_, hanswer, rfl, rfl, rfl, e, hencoded, hmem⟩

end PhiChain.Disclosure
