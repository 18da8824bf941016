import PhiChain.Foundations.Words
import PhiChain.Credentials.Signatures

/-!
# Credentials: what a policy hash identifies

The text behind a policy hash is the template's id, a zero byte, and words of four bytes: version,
claim count and the disclosable indices in ascending order. An id may contain zero bytes, so the
text does not say where the id ends. Two texts of stored templates are equal for other reasons than
equal policies exactly when one id continues the other with the words of its template
(`Shadows`, `policy_text_identifies_iff`), which no id without zero bytes does.
-/

set_option autoImplicit false

namespace PhiChain.Credentials

open Foundations Sdk
open Identity (Keeper Env)

/-! ## Canonical indices -/

/-- Collecting items one after the other, each once. -/
theorem nodup_foldl_collect {l out : List UInt32} (h : out.Nodup) :
    (l.foldl (fun out i => if i ∈ out then out else out ++ [i]) out).Nodup := by
  induction l generalizing out with
  | nil => exact h
  | cons i rest ih =>
    rw [List.foldl_cons]
    split
    · exact ih h
    · next hnew =>
        apply ih
        rw [List.nodup_append]
        refine ⟨h, List.nodup_singleton i, ?_⟩
        intro x hx y hy hxy
        rw [List.mem_singleton.1 hy] at hxy
        exact hnew (hxy ▸ hx)

theorem mem_foldl_collect {l out : List UInt32} {x : UInt32} :
    x ∈ l.foldl (fun out i => if i ∈ out then out else out ++ [i]) out ↔ x ∈ out ∨ x ∈ l := by
  induction l generalizing out with
  | nil => simp
  | cons i rest ih =>
    rw [List.foldl_cons, ih]
    split
    · next hold =>
        have hcons : x ∈ out ∨ x ∈ i :: rest ↔ x ∈ out ∨ x = i ∨ x ∈ rest := by
          rw [List.mem_cons]
        rw [hcons]
        constructor
        · rintro (hx | hx)
          · exact .inl hx
          · exact .inr (.inr hx)
        · rintro (hx | rfl | hx)
          · exact .inl hx
          · exact .inl hold
          · exact .inr hx
    · rw [List.mem_append, List.mem_singleton, List.mem_cons, or_assoc]

@[simp] theorem mem_canonicalIndices {l : List UInt32} {i : UInt32} :
    i ∈ canonicalIndices l ↔ i ∈ l := by
  unfold canonicalIndices
  rw [List.mem_insertionSort, mem_foldl_collect]
  simp

theorem pairwise_canonicalIndices (l : List UInt32) : (canonicalIndices l).Pairwise (· < ·) := by
  have hnodup : (canonicalIndices l).Nodup :=
    (List.perm_insertionSort (· ≤ ·) _).nodup_iff.2 (nodup_foldl_collect List.nodup_nil)
  have hsorted : (canonicalIndices l).Pairwise (· ≤ ·) := List.pairwise_insertionSort (· ≤ ·) _
  refine (hsorted.and hnodup).imp ?_
  rintro a b ⟨hle, hne⟩
  exact UInt32.lt_of_le_of_ne hle hne

/-- The canonical indices are the set of the indices. -/
theorem canonicalIndices_eq_iff {l l' : List UInt32} (hsorted : l'.Pairwise (· < ·)) :
    canonicalIndices l = l' ↔ ∀ i, i ∈ l ↔ i ∈ l' := by
  constructor
  · rintro rfl i
    exact mem_canonicalIndices.symm
  · intro h
    refine (pairwise_canonicalIndices l).eq_of_mem_iff hsorted fun i => ?_
    rw [mem_canonicalIndices]
    exact h i

/-! ## The text and its parts -/

namespace CredentialTemplate

/-- The text that the template's policy hash covers. -/
def policyText (t : CredentialTemplate) : Bytes :=
  disclosurePolicyText t.id t.version t.messageCount t.disclosableIndices

/-- The words behind the id. -/
def words (t : CredentialTemplate) : List UInt32 :=
  t.version :: t.messageCount :: canonicalIndices t.disclosableIndices

/-- Equal ids, versions, claim counts and sets of disclosable indices. -/
def SamePolicy (t t' : CredentialTemplate) : Prop :=
  t.id = t'.id ∧ t.version = t'.version ∧ t.messageCount = t'.messageCount ∧
    ∀ i, i ∈ t.disclosableIndices ↔ i ∈ t'.disclosableIndices

/-- The second id continues the first one, behind a zero byte, with words of the first template: its
version, or its version, its claim count and the index 0. The words left over are the version and
the claim count of the second template, which discloses nothing. -/
def Shadows (t t' : CredentialTemplate) : Prop :=
  t'.disclosableIndices = [] ∧
    (t'.id ++ [0] = t.id ++ 0 :: be32 t.version ∧ t'.version = t.messageCount ∧
        (∀ i, i ∈ t.disclosableIndices ↔ i = t'.messageCount) ∨
      t'.id ++ [0] = t.id ++ 0 :: (be32 t.version ++ be32 t.messageCount ++ be32 0) ∧
        0 < t'.version ∧ t'.version < t'.messageCount ∧
        ∀ i, i ∈ t.disclosableIndices ↔ i = 0 ∨ i = t'.version ∨ i = t'.messageCount)

/-- What the policy check leaves of a template's claims. -/
structure PolicyOk (t : CredentialTemplate) : Prop where
  claims_le : t.messageCount.toNat ≤ maxBbsMessages
  index_lt : ∀ i ∈ t.disclosableIndices, i < t.messageCount

variable {t t' : CredentialTemplate}

theorem policyText_eq (t : CredentialTemplate) :
    t.policyText =
      nulKey (ascii "phi-disclosure-policy-v1") (nulKey t.id (t.words.flatMap be32)) := by
  simp [policyText, disclosurePolicyText, words, nulKey]

theorem samePolicy_iff : t.SamePolicy t' ↔ t.id = t'.id ∧ t.words = t'.words := by
  have hindices := canonicalIndices_eq_iff (l := t.disclosableIndices)
    (pairwise_canonicalIndices t'.disclosableIndices)
  simp only [mem_canonicalIndices] at hindices
  unfold SamePolicy words
  rw [List.cons.injEq, List.cons.injEq, hindices]

end CredentialTemplate

theorem length_be32 (n : UInt32) : (be32 n).length = 4 := length_bigEndian 4 n.toNat

theorem fixedWidth_be32 : FixedWidth be32 4 where
  pos := by decide
  length_eq := length_be32
  inj := by
    intro m n h
    exact UInt32.toNat_inj.1 (bigEndian_inj_of_lt m.toNat_lt n.toNat_lt h)

/-- A word that ends in a zero byte is a multiple of 256. -/
theorem low_of_be32 {front m : Bytes} {n : UInt32} (h : front ++ be32 n = m ++ [0]) :
    n.toNat % 256 = 0 := by
  have hword : be32 n = bigEndian 3 (n.toNat / 256) ++ [Fin.ofNat 256 n.toNat] := by
    simp [be32, bigEndian, Nat.div_div_eq_div_mul]
  rw [hword, ← List.append_assoc] at h
  have hlast : Fin.ofNat 256 n.toNat = 0 := List.singleton_inj.1 (List.append_inj' h rfl).2
  exact congrArg Fin.val hlast

namespace CredentialTemplate

variable {t t' : CredentialTemplate}

theorem PolicyOk.index_toNat_lt (h : t.PolicyOk) {i : UInt32}
    (hi : i ∈ canonicalIndices t.disclosableIndices) : i.toNat < maxBbsMessages := by
  have hlt : i.toNat < t.messageCount.toNat :=
    UInt32.lt_iff_toNat_lt.1 (h.index_lt i (mem_canonicalIndices.1 hi))
  exact Nat.lt_of_lt_of_le hlt h.claims_le

theorem eq_zero_of_low {n : UInt32} (hsmall : n.toNat ≤ maxBbsMessages)
    (hlow : n.toNat % 256 = 0) : n = 0 := by
  unfold maxBbsMessages at hsmall
  apply UInt32.toNat_inj.1
  rw [UInt32.toNat_zero]
  omega

/-- Ascending indices that end in the claim count of a template and its own indices: there are none
of the latter, which lie below the claim count. -/
theorem PolicyOk.indices_nil (h : t'.PolicyOk) {indices : List UInt32} (front : List UInt32)
    (hsorted : indices.Pairwise (· < ·))
    (hend : indices = front ++ t'.messageCount :: canonicalIndices t'.disclosableIndices) :
    t'.disclosableIndices = [] := by
  rw [hend] at hsorted
  obtain ⟨-, htail, -⟩ := List.pairwise_append.1 hsorted
  rw [List.eq_nil_iff_forall_not_mem]
  intro i hi
  have habove : t'.messageCount < i :=
    (List.pairwise_cons.1 htail).1 i (mem_canonicalIndices.2 hi)
  exact absurd (h.index_lt i hi) (UInt32.lt_asymm habove)

theorem shadows_of_cut (h : t.PolicyOk) (h' : t'.PolicyOk) {m : Bytes}
    (hid : t'.id = t.id ++ 0 :: m)
    (htail : t.words.flatMap be32 = m ++ 0 :: t'.words.flatMap be32) : t.Shadows t' := by
  obtain ⟨front, last, hwords, hm⟩ := fixedWidth_be32.split htail
  have hlow : last.toNat % 256 = 0 := low_of_be32 hm
  have hsorted := pairwise_canonicalIndices t.disclosableIndices
  have hcontinued : t'.id ++ [0] = t.id ++ 0 :: (front.flatMap be32 ++ be32 last) := by
    rw [hid, hm]
    simp
  -- by the number of words in front of the cut: `last` is the version, the claim count or an index
  match front, hwords, hcontinued with
  | [], hwords, hcontinued =>
    -- cut behind the version: the claim count is read as the second version
    obtain ⟨hversion, hrest⟩ := List.cons.inj hwords
    obtain ⟨hcount, hindices⟩ := List.cons.inj hrest
    have hnil := h'.indices_nil [] hsorted hindices
    rw [hnil] at hindices
    refine ⟨hnil, .inl ⟨?_, hcount.symm, ?_⟩⟩
    · rw [hversion]
      exact hcontinued
    · intro i
      rw [← mem_canonicalIndices, hindices]
      exact List.mem_singleton
  | [_], hwords, _ =>
    -- cut behind the claim count: it ends in a zero byte, so it is zero and nothing is disclosable
    obtain ⟨-, hrest⟩ := List.cons.inj hwords
    obtain ⟨hcount, hindices⟩ := List.cons.inj hrest
    have hzero : t.messageCount = 0 := eq_zero_of_low h.claims_le (hcount ▸ hlow)
    have hmem : t'.version ∈ t.disclosableIndices := by
      rw [← mem_canonicalIndices, hindices]
      exact List.mem_cons_self
    exact absurd (hzero ▸ h.index_lt _ hmem) UInt32.not_lt_zero
  | [_, _], hwords, hcontinued =>
    -- cut behind the first index, which ends in a zero byte and so is the index 0
    obtain ⟨hversion, hrest⟩ := List.cons.inj hwords
    obtain ⟨hcount, hindices⟩ := List.cons.inj hrest
    have hlast : last ∈ canonicalIndices t.disclosableIndices := hindices ▸ List.mem_cons_self
    have hzero : last = 0 := eq_zero_of_low (h.index_toNat_lt hlast).le hlow
    have hnil := h'.indices_nil [last, t'.version] hsorted hindices
    rw [hindices, hzero, words, hnil] at hsorted
    rw [hzero, words, hnil] at hindices
    obtain ⟨hfirst, hsecond⟩ := List.pairwise_cons.1 hsorted
    refine ⟨hnil, .inr ⟨?_, hfirst _ List.mem_cons_self, ?_, ?_⟩⟩
    · rw [hcontinued, ← hversion, ← hcount, hzero]
      simp
    · exact (List.pairwise_cons.1 hsecond).1 _ List.mem_cons_self
    · intro i
      rw [← mem_canonicalIndices, hindices]
      simp [canonicalIndices]
  | _ :: _ :: i :: front, hwords, _ =>
    -- a later index would have to be 0 as well, below the first one
    obtain ⟨-, hrest⟩ := List.cons.inj hwords
    obtain ⟨-, hindices⟩ := List.cons.inj hrest
    have hlast : last ∈ canonicalIndices t.disclosableIndices := by
      rw [hindices]
      simp
    have hzero : last = 0 := eq_zero_of_low (h.index_toNat_lt hlast).le hlow
    rw [hindices, hzero] at hsorted
    have habove : i < 0 := (List.pairwise_cons.1 hsorted).1 0 (by simp)
    exact absurd habove UInt32.not_lt_zero

/-- The words in front of the cut, when a template shadows another one. -/
theorem Shadows.front (h : t.Shadows t') : ∃ front, front ≠ [] ∧ t.words = front ++ t'.words ∧
    t'.id ++ [0] = t.id ++ 0 :: front.flatMap be32 := by
  obtain ⟨hnil, ⟨hid, hversion, hindices⟩ | ⟨hid, hpos, hlt, hindices⟩⟩ := h
  · refine ⟨[t.version], List.cons_ne_nil _ _, ?_, ?_⟩
    · have hcanonical : canonicalIndices t.disclosableIndices = [t'.messageCount] := by
        refine (canonicalIndices_eq_iff (List.pairwise_singleton _ _)).2 fun i => ?_
        rw [hindices, List.mem_singleton]
      rw [words, words, hcanonical, hversion, hnil]
      rfl
    · rw [hid, List.flatMap_singleton]
  · refine ⟨[t.version, t.messageCount, 0], List.cons_ne_nil _ _, ?_, ?_⟩
    · have hsorted : [0, t'.version, t'.messageCount].Pairwise (· < ·) := by
        have hfar : 0 < t'.messageCount := UInt32.lt_trans hpos hlt
        simp [hpos, hlt, hfar]
      have hcanonical : canonicalIndices t.disclosableIndices =
          [0, t'.version, t'.messageCount] := by
        refine (canonicalIndices_eq_iff hsorted).2 fun i => ?_
        rw [hindices]
        simp
      rw [words, words, hcanonical, hnil]
      rfl
    · rw [hid]
      simp

theorem Shadows.text_eq (h : t.Shadows t') : t.policyText = t'.policyText := by
  obtain ⟨front, -, hwords, hid⟩ := h.front
  have hbehind : nulKey t.id (t.words.flatMap be32) = nulKey t'.id (t'.words.flatMap be32) := by
    calc t.id ++ 0 :: t.words.flatMap be32
        = (t.id ++ 0 :: front.flatMap be32) ++ t'.words.flatMap be32 := by
          rw [hwords, List.flatMap_append]
          simp
      _ = (t'.id ++ [0]) ++ t'.words.flatMap be32 := by rw [hid]
      _ = t'.id ++ 0 :: t'.words.flatMap be32 := by simp
  rw [policyText_eq, policyText_eq, hbehind]

/-- The second id continues the first one behind a zero byte. -/
theorem Shadows.id_eq (h : t.Shadows t') : ∃ m, t'.id = t.id ++ 0 :: m := by
  obtain ⟨front, hne, -, hid⟩ := h.front
  rcases List.eq_nil_or_concat (front.flatMap be32) with hnil | ⟨m, c, hconcat⟩
  · have hlen : front.length * 4 = 0 := by
      rw [← fixedWidth_be32.length_flatMap, hnil]
      rfl
    exact absurd (List.length_eq_zero_iff.1 (by omega)) hne
  · rw [hconcat, List.concat_eq_append, ← List.cons_append, ← List.append_assoc] at hid
    exact ⟨m, (List.append_inj' hid rfl).1⟩

theorem Shadows.id_ne (h : t.Shadows t') : t.id ≠ t'.id := by
  obtain ⟨m, hm⟩ := h.id_eq
  intro hsame
  have hlen := congrArg List.length (hsame.trans hm)
  rw [List.length_append, List.length_cons] at hlen
  omega

theorem Shadows.not_nulFree (h : t.Shadows t') : ¬ NulFree t'.id := by
  obtain ⟨m, hm⟩ := h.id_eq
  rw [hm]
  intro hfree
  exact hfree (List.mem_append_right _ List.mem_cons_self)

/-- Equal texts come from equal policies or from a shadow. -/
theorem PolicyOk.text_cases (h : t.PolicyOk) (h' : t'.PolicyOk)
    (htext : t.policyText = t'.policyText) :
    t.SamePolicy t' ∨ t.Shadows t' ∨ t'.Shadows t := by
  rw [policyText_eq, policyText_eq] at htext
  have hbehind : nulKey t.id (t.words.flatMap be32) = nulKey t'.id (t'.words.flatMap be32) :=
    List.cons_injective (List.append_cancel_left htext)
  rcases List.append_eq_append_iff.1 hbehind with ⟨m, hid, htail⟩ | ⟨m, hid, htail⟩
  · cases m with
    | nil =>
      left
      rw [List.append_nil] at hid
      exact samePolicy_iff.2 ⟨hid.symm, fixedWidth_be32.flatMap_inj (List.cons.inj htail).2⟩
    | cons c m =>
      obtain ⟨rfl, hcut⟩ := List.cons.inj htail
      exact .inr (.inl (shadows_of_cut h h' hid hcut))
  · cases m with
    | nil =>
      left
      rw [List.append_nil] at hid
      exact samePolicy_iff.2 ⟨hid, fixedWidth_be32.flatMap_inj (List.cons.inj htail).2.symm⟩
    | cons c m =>
      obtain ⟨rfl, hcut⟩ := List.cons.inj htail
      exact .inr (.inr (shadows_of_cut h' h hid hcut))

end CredentialTemplate

/-! ## Stored templates -/

/-- A template as an accepted registration or update stores it. -/
inductive Produced (k : Keeper) : CredentialTemplate → Prop
  | registered {env : Env} {ids : Identity.Store} {s s' : Store} {t : CredentialTemplate}
      (msg : MsgRegisterCredentialTemplate)
      (happly : apply k env ids s (.registerCredentialTemplate msg) = .ok s')
      (ht : s'.templates.get? msg.id = some t) : Produced k t
  | updated {env : Env} {ids : Identity.Store} {s s' : Store} {t : CredentialTemplate}
      (msg : MsgUpdateCredentialTemplate)
      (happly : apply k env ids s (.updateCredentialTemplate msg) = .ok s')
      (ht : s'.templates.get? msg.id = some t) : Produced k t

theorem index_lt_of_validate {messageCount : UInt32} {indices seen : List UInt32}
    (h : validateIndices messageCount seen indices = .ok ()) : ∀ i ∈ indices, i < messageCount := by
  induction indices generalizing seen with
  | nil => exact fun i hi => absurd hi List.not_mem_nil
  | cons j rest ih =>
    simp only [validateIndices, bind_eq_ok, ensure_eq_ok, exists_const] at h
    obtain ⟨hj, -, hrest⟩ := h
    rintro i (_ | ⟨_, hi⟩)
    · exact hj
    · exact ih hrest i hi

theorem policyOk_of_validate {t : CredentialTemplate}
    (h : validateDisclosurePolicy t.messageCount t.disclosableIndices = .ok ()) : t.PolicyOk := by
  simp only [validateDisclosurePolicy, bind_eq_ok, ensure_eq_ok, exists_const] at h
  obtain ⟨hcount, -, -, hindices⟩ := h
  exact ⟨hcount, index_lt_of_validate hindices⟩

theorem get?_registered {k : Keeper} {env : Env} {ids : Identity.Store} {s s' : Store}
    {msg : MsgRegisterCredentialTemplate}
    (h : apply k env ids s (.registerCredentialTemplate msg) = .ok s') :
    s'.templates.get? msg.id = some (msg.template k env) := by
  cases effect_of_apply h with
  | registered _ hnew howner hbbs hpolicy => exact KeyedMap.get?_set_self _ _

theorem Produced.policyOk {k : Keeper} {t : CredentialTemplate} (h : Produced k t) :
    t.PolicyOk := by
  cases h with
  | registered msg happly ht =>
    cases (get?_registered happly).symm.trans ht
    cases effect_of_apply happly with
    | registered _ hnew howner hbbs hpolicy => exact policyOk_of_validate hpolicy
  | @updated env ids s _ _ msg happly ht =>
    cases effect_of_apply happly with
    | updated _ old hold howner hlive hpolicy =>
      have hkey : msg.id = (msg.template k env old).id := (KeyedMap.key_of_get? hold).symm
      have hstored : (s.templates.set (msg.template k env old)).get? msg.id =
          some (msg.template k env old) := by
        rw [hkey]
        exact KeyedMap.get?_set_self _ _
      cases hstored.symm.trans ht
      exact policyOk_of_validate hpolicy

/-- The texts of two stored templates identify their policies, unless one template shadows the
other; none does when the ids have no zero bytes. -/
theorem policy_text_identifies_iff {k : Keeper} {t t' : CredentialTemplate} (h : Produced k t)
    (h' : Produced k t') :
    ((t.policyText = t'.policyText ↔ t.SamePolicy t') ↔ ¬ (t.Shadows t' ∨ t'.Shadows t)) ∧
      (NulFree t.id → NulFree t'.id → (t.policyText = t'.policyText ↔ t.SamePolicy t')) := by
  have hsame : t.SamePolicy t' → t.policyText = t'.policyText := by
    intro hpolicy
    obtain ⟨hid, hwords⟩ := CredentialTemplate.samePolicy_iff.1 hpolicy
    rw [CredentialTemplate.policyText_eq, CredentialTemplate.policyText_eq, hid, hwords]
  have hexact : (t.policyText = t'.policyText ↔ t.SamePolicy t') ↔
      ¬ (t.Shadows t' ∨ t'.Shadows t) := by
    constructor
    · rintro hiff (hshadow | hshadow)
      · exact hshadow.id_ne (hiff.1 hshadow.text_eq).1
      · exact hshadow.id_ne (hiff.1 hshadow.text_eq.symm).1.symm
    · intro hnone
      refine ⟨fun htext => ?_, hsame⟩
      rcases h.policyOk.text_cases h'.policyOk htext with hpolicy | hshadow
      · exact hpolicy
      · exact absurd hshadow hnone
  refine ⟨hexact, fun hfree hfree' => hexact.2 ?_⟩
  rintro (hshadow | hshadow)
  · exact hshadow.not_nulFree hfree'
  · exact hshadow.not_nulFree hfree

/-! ## Two templates with one hash

The first discloses its three claims. The second has the words of the first in its id. -/

def registerPolicy (id : Bytes) (messageCount : UInt32) (disclosable : List UInt32) :
    MsgRegisterCredentialTemplate :=
  ⟨accAddressString [21], id, selfCustodyDID, [1], [9], [], messageCount, disclosable⟩

def openPolicy : MsgRegisterCredentialTemplate := registerPolicy [97] 3 [0, 1, 2]

def closedPolicy : MsgRegisterCredentialTemplate :=
  registerPolicy [97, 0, 0, 0, 0, 1, 0, 0, 0, 3, 0, 0, 0] 2 []

/-- The template stored for a message of the third second. -/
def storedPolicy (msg : MsgRegisterCredentialTemplate) : CredentialTemplate :=
  msg.template dualCurveKeeper (Identity.smallEnv 3)

/-- Both templates in one store. -/
def bothPolicies : Store :=
  run (step dualCurveKeeper) Store.fresh
    [⟨Identity.smallEnv 3, selfCustodyIdentities, .registerCredentialTemplate openPolicy⟩,
      ⟨Identity.smallEnv 3, selfCustodyIdentities, .registerCredentialTemplate closedPolicy⟩]

theorem produced_of_isOk {msg : MsgRegisterCredentialTemplate}
    (h : isOk (apply dualCurveKeeper (Identity.smallEnv 3) selfCustodyIdentities Store.fresh
      (.registerCredentialTemplate msg)) = true) : Produced dualCurveKeeper (storedPolicy msg) := by
  obtain ⟨s', hs'⟩ := isOk_iff.1 h
  exact .registered msg hs' (get?_registered hs')

theorem produced_openPolicy : Produced dualCurveKeeper (storedPolicy openPolicy) :=
  produced_of_isOk (by decide +kernel)

theorem produced_closedPolicy : Produced dualCurveKeeper (storedPolicy closedPolicy) :=
  produced_of_isOk (by decide +kernel)

theorem policy_text_identifies_iff_open_closed :
    ((storedPolicy openPolicy).policyText = (storedPolicy closedPolicy).policyText ↔
        (storedPolicy openPolicy).SamePolicy (storedPolicy closedPolicy)) ↔
      ¬ ((storedPolicy openPolicy).Shadows (storedPolicy closedPolicy) ∨
        (storedPolicy closedPolicy).Shadows (storedPolicy openPolicy)) :=
  (policy_text_identifies_iff produced_openPolicy produced_closedPolicy).1

/-- Both templates are stored side by side, with different ids and disclosable claims and with one
policy hash. -/
theorem policy_hash_shared :
    Produced dualCurveKeeper (storedPolicy openPolicy) ∧
      Produced dualCurveKeeper (storedPolicy closedPolicy) ∧
      bothPolicies.templates.get? openPolicy.id = some (storedPolicy openPolicy) ∧
      bothPolicies.templates.get? closedPolicy.id = some (storedPolicy closedPolicy) ∧
      (storedPolicy openPolicy).disclosurePolicyHash =
        (storedPolicy closedPolicy).disclosurePolicyHash ∧
      (storedPolicy openPolicy).policyText = (storedPolicy closedPolicy).policyText ∧
      ¬ (storedPolicy openPolicy).SamePolicy (storedPolicy closedPolicy) := by
  refine ⟨produced_openPolicy, produced_closedPolicy, by decide +kernel, by decide +kernel,
    by decide +kernel, by decide +kernel, ?_⟩
  rintro ⟨hid, -⟩
  exact absurd hid (by decide)

end PhiChain.Credentials
