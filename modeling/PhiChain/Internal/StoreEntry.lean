import PhiChain.Foundations.BestMatch
import PhiChain.Foundations.Bytes
import PhiChain.Foundations.OrdMap
import PhiChain.Foundations.Run

/-!
# Raw genesis entries

Some records travel through a genesis as raw keys and values. The validator confines them: each
key lies strictly under the prefix of a rule, the most specific rule judges the value, no key
comes twice, and no value is longer than the ceiling.

The code sorts the rules by falling prefix length and lets the first one that matches decide.
`validate_isOk_iff` says what it accepts in terms of the longest matching prefix, so neither the
order of the rules nor that of the entries matters.
-/

set_option autoImplicit false

namespace PhiChain.StoreEntry

open Foundations

def maxValueLen : Nat := 4096

/-- One raw record. -/
structure KV where
  key : Bytes
  value : Bytes

/-- A store prefix and how values under it must decode; without a check, any value does. -/
structure Rule where
  name : String
  keyPrefix : Bytes
  value : Option (Bytes → Except String Unit)

/-- The key lies strictly under the prefix of the rule. -/
def Rule.applies (key : Bytes) (r : Rule) : Bool :=
  r.keyPrefix.length < key.length ∧ key.take r.keyPrefix.length = r.keyPrefix

/-- The first rule that applies. -/
def matchRule (key : Bytes) (rules : List Rule) : Option Rule := rules.find? (Rule.applies key)

/-- Two upper-case hexadecimal digits for each byte. -/
def hexUpper (b : Bytes) : String :=
  String.ofList (b.flatMap fun c =>
    [Nat.digitChar (c.val / 16), Nat.digitChar (c.val % 16)].map Char.toUpper)

/-- The entries from position `i` on, with the positions of the keys seen before. -/
def validateFrom (field : String) (ordered : List Rule) :
    Nat → OrdMap Bytes Nat → List KV → Except String Unit
  | _, _, [] => .ok ()
  | i, seen, e :: rest =>
    let shown := hexUpper e.key
    let size := e.value.length
    match seen.get? e.key with
    | some prev => .error s!"{field}[{i}]: key {shown} duplicates {field}[{prev}]"
    | none =>
      if maxValueLen < size then
        .error s!"{field}[{i}]: value is {size} bytes, exceeds the {maxValueLen}-byte ceiling"
      else
        match matchRule e.key ordered with
        | none => .error s!"{field}[{i}]: key is not under an exported store prefix"
        | some rule =>
          match rule.value with
          | none => validateFrom field ordered (i + 1) (seen.put e.key i) rest
          | some check =>
            let name := rule.name
            match check e.value with
            | .error err => .error s!"{field}[{i}]: {name}: {err}"
            | .ok () => validateFrom field ordered (i + 1) (seen.put e.key i) rest

/-- The longest prefixes come first; the sort keeps the order of prefixes of one length. -/
def longestFirst (rules : List Rule) : List Rule := fallingSort (fun r => r.keyPrefix.length) rules

def validate (field : String) (entries : List KV) (rules : List Rule) : Except String Unit :=
  validateFrom field (longestFirst rules) 0 ∅ entries

/-! ## Value checks -/

def fixedLen (n : Nat) (v : Bytes) : Except String Unit :=
  let size := v.length
  ensure (size = n) s!"value is {size} bytes, want {n}"

def nonEmpty (v : Bytes) : Except String Unit := ensure (v.length ≠ 0) "value is empty"

def boundedUint64 (ceiling : Nat) (v : Bytes) : Except String Unit := do
  let size := v.length
  ensure (size = 8) s!"value is {size} bytes, want 8"
  let n := ofBigEndian v
  ensure (n < ceiling) s!"value {n} is at or above the ceiling {ceiling}"

def uint64NoOverflow : Bytes → Except String Unit := boundedUint64 (2 ^ 64 - 1)

/-- A counter below the largest is accepted in its eight bytes. -/
theorem uint64NoOverflow_bigEndian {n : Nat} (h : n < 2 ^ 64 - 1) :
    uint64NoOverflow (bigEndian 8 n) = .ok () := by
  have hread : ofBigEndian (bigEndian 8 n) = n := by
    rw [ofBigEndian_bigEndian]
    exact Nat.mod_eq_of_lt (by omega)
  simp only [uint64NoOverflow, boundedUint64, length_bigEndian, bind_eq_ok, ensure_eq_ok, exists_const,
    hread]
  exact ⟨trivial, h⟩

def oneOfLen (ns : List Nat) (v : Bytes) : Except String Unit :=
  let size := v.length
  let widths := String.intercalate " " (ns.map toString)
  ensure (size ∈ ns) s!"value is {size} bytes, want one of [{widths}]"

/-- The rules of x/governance: tally counts, turnouts, markers of counted votes, frozen bases of
either layout, and the marks of proposals to prune. -/
def governanceRules : List Rule :=
  [⟨"running tally count", [0x10], some uint64NoOverflow⟩,
    ⟨"turnout", [0x11], some uint64NoOverflow⟩,
    ⟨"counted-vote marker", [0x12], some (fixedLen 1)⟩,
    ⟨"frozen eligibility basis", [0x13], some (oneOfLen [16, 24])⟩,
    ⟨"pruning-queue marker", [0x14], some nonEmpty⟩]

/-! ## What is accepted -/

section Verdict

variable {field : String} {rules : List Rule} {entries : List KV} {key : Bytes} {r : Rule}

theorem Rule.applies_iff : r.applies key = true ↔ r.keyPrefix <+: key ∧ r.keyPrefix ≠ key := by
  simp only [Rule.applies, decide_eq_true_eq]
  constructor
  · rintro ⟨hlength, htake⟩
    refine ⟨⟨key.drop r.keyPrefix.length, ?_⟩, fun hsame => ?_⟩
    · nth_rewrite 1 [← htake]
      exact List.take_append_drop _ key
    · rw [hsame] at hlength
      exact Nat.lt_irrefl _ hlength
  · rintro ⟨⟨rest, rfl⟩, hne⟩
    -- what follows the prefix is not empty
    have hrest : rest ≠ [] := fun hnil => hne (by rw [hnil, List.append_nil])
    refine ⟨?_, List.take_left⟩
    rw [List.length_append]
    have := List.length_pos_iff.2 hrest
    omega

/-- The rule accepts a value. -/
def Rule.accepts (r : Rule) (value : Bytes) : Prop := ∀ check ∈ r.value, check value = .ok ()

/-- The rule whose prefix is the longest of those properly under the key. -/
structure Governs (rules : List Rule) (key : Bytes) (r : Rule) : Prop where
  mem : r ∈ rules
  under : r.keyPrefix <+: key ∧ r.keyPrefix ≠ key
  longest : ∀ r' ∈ rules, r'.keyPrefix <+: key → r'.keyPrefix ≠ key →
    r'.keyPrefix.length ≤ r.keyPrefix.length

theorem governs_iff : Governs rules key r ↔
    IsBest (fun r => r.keyPrefix.length) (Rule.applies key) rules r := by
  constructor
  · intro h
    refine ⟨h.mem, Rule.applies_iff.2 h.under, fun r' hr' happlies => ?_⟩
    obtain ⟨hunder, hne⟩ := Rule.applies_iff.1 happlies
    exact h.longest r' hr' hunder hne
  · intro h
    exact ⟨h.mem, Rule.applies_iff.1 h.fit,
      fun r' hr' hunder hne => h.largest r' hr' (Rule.applies_iff.2 ⟨hunder, hne⟩)⟩

/-- With distinct prefixes, the search finds the rule that governs the key. -/
theorem matchRule_eq_some (hrules : (rules.map Rule.keyPrefix).Nodup) :
    matchRule key (longestFirst rules) = some r ↔ Governs rules key r := by
  rw [matchRule, longestFirst, governs_iff]
  apply find?_fallingSort
  intro a ha b hb happlies happlies' hlength
  -- two prefixes of one key and of one length are the same
  obtain ⟨⟨_, htail⟩, -⟩ := Rule.applies_iff.1 happlies
  obtain ⟨⟨_, htail'⟩, -⟩ := Rule.applies_iff.1 happlies'
  have hsame := (List.append_inj (htail.trans htail'.symm) hlength).1
  exact List.inj_on_of_nodup_map hrules ha hb hsame

/-- An entry on its own: short enough, under a rule, and accepted by the rule that decides. -/
def Judged (rules : List Rule) (e : KV) : Prop :=
  e.value.length ≤ maxValueLen ∧ ∃ r, Governs rules e.key r ∧ r.accepts e.value

/-- One round of the loop: the key is new, the entry passes, and the loop goes on. -/
theorem validateFrom_cons (hrules : (rules.map Rule.keyPrefix).Nodup) (i : Nat)
    (seen : OrdMap Bytes Nat) (e : KV) (rest : List KV) :
    isOk (validateFrom field (longestFirst rules) i seen (e :: rest)) = true ↔
      seen.get? e.key = none ∧ Judged rules e ∧
        isOk (validateFrom field (longestFirst rules) (i + 1) (seen.put e.key i) rest) = true := by
  have hmatch := @matchRule_eq_some rules e.key
  rw [validateFrom]
  cases hseen : seen.get? e.key with
  | some prev => simp [isOk]
  | none =>
    by_cases hsize : maxValueLen < e.value.length
    · simp [hsize, isOk, Judged, Nat.not_le.2 hsize]
    · have hshort : e.value.length ≤ maxValueLen := Nat.le_of_not_lt hsize
      cases hrule : matchRule e.key (longestFirst rules) with
      | none =>
        -- no rule governs the key
        have hnone : ∀ r, ¬ Governs rules e.key r := by
          intro r hr
          rw [(hmatch hrules).2 hr] at hrule
          cases hrule
        simp [hsize, isOk, Judged, hnone]
      | some rule =>
        have hgoverns : ∀ r, Governs rules e.key r ↔ r = rule := by
          intro r
          rw [← hmatch hrules, hrule, Option.some_inj, eq_comm]
        have hjudged : Judged rules e ↔ rule.accepts e.value := by
          simp [Judged, hshort, hgoverns]
        rw [hjudged]
        cases hvalue : rule.value with
        | none => simp [hsize, Rule.accepts, hvalue]
        | some check =>
          cases hcheck : check e.value with
          | error err => simp [hsize, isOk, Rule.accepts, hvalue, hcheck]
          | ok u => simp [hsize, Rule.accepts, hvalue, hcheck]

/-- The loop, from any position and any keys seen before. -/
theorem validateFrom_isOk_iff (hrules : (rules.map Rule.keyPrefix).Nodup) (i : Nat)
    (seen : OrdMap Bytes Nat) :
    isOk (validateFrom field (longestFirst rules) i seen entries) = true ↔
      (∀ e ∈ entries, seen.get? e.key = none) ∧ (entries.map KV.key).Nodup ∧
        ∀ e ∈ entries, Judged rules e := by
  induction entries generalizing i seen with
  | nil => simp [validateFrom, isOk]
  | cons e rest ih =>
    rw [validateFrom_cons hrules, ih]
    -- a later key is new to the extended map when it was new and is not the key just seen
    have hput : (∀ e' ∈ rest, (seen.put e.key i).get? e'.key = none) ↔
        (∀ e' ∈ rest, e.key ≠ e'.key) ∧ ∀ e' ∈ rest, seen.get? e'.key = none := by
      constructor
      · intro h
        refine ⟨fun e' he' hsame => ?_, fun e' he' => ?_⟩
        · have hnone := h e' he'
          rw [← hsame, OrdMap.get?_put_self] at hnone
          cases hnone
        · have hnone := h e' he'
          rw [OrdMap.get?_put] at hnone
          split at hnone
          · cases hnone
          · exact hnone
      · rintro ⟨hne, hnone⟩ e' he'
        rw [OrdMap.get?_put_ne _ _ (hne e' he')]
        exact hnone e' he'
    rw [hput, List.map_cons, List.nodup_cons, List.forall_mem_cons, List.forall_mem_cons]
    have hfresh : e.key ∉ rest.map KV.key ↔ ∀ e' ∈ rest, e.key ≠ e'.key := by
      rw [List.mem_map]
      constructor
      · intro h e' he' hsame
        exact h ⟨e', he', hsame.symm⟩
      · rintro h ⟨e', he', hsame⟩
        exact h e' he' hsame.symm
    rw [hfresh]
    tauto

/-- What the validator accepts. -/
theorem validate_isOk_iff (hrules : (rules.map Rule.keyPrefix).Nodup) :
    isOk (validate field entries rules) = true ↔
      (entries.map KV.key).Nodup ∧ ∀ e ∈ entries, Judged rules e := by
  rw [validate, validateFrom_isOk_iff hrules]
  simp

/-- Under a single rule, the entry has to be under its prefix. -/
theorem judged_singleton {e : KV} : Judged [r] e ↔
    e.value.length ≤ maxValueLen ∧ r.applies e.key = true ∧ r.accepts e.value := by
  refine and_congr_right fun _ => ?_
  constructor
  · rintro ⟨r', hgoverns, haccepts⟩
    obtain rfl := List.mem_singleton.1 hgoverns.mem
    exact ⟨Rule.applies_iff.2 hgoverns.under, haccepts⟩
  · rintro ⟨happlies, haccepts⟩
    refine ⟨r, ⟨List.mem_singleton_self r, Rule.applies_iff.1 happlies, fun r' hr' _ _ => ?_⟩, haccepts⟩
    rw [List.mem_singleton.1 hr']

theorem judged_perm {rules' : List Rule} (h : rules.Perm rules') {e : KV} :
    Judged rules e ↔ Judged rules' e := by
  simp only [Judged, governs_iff, isBest_perm h]

/-- With distinct prefixes, at most one rule governs a key. -/
theorem Governs.eq (hrules : (rules.map Rule.keyPrefix).Nodup) {r' : Rule}
    (hr : Governs rules key r) (hr' : Governs rules key r') : r' = r := by
  have hfound := (matchRule_eq_some hrules).2 hr
  rw [(matchRule_eq_some hrules).2 hr'] at hfound
  exact Option.some.inj hfound

/-- For rules with pairwise distinct prefixes, the validator accepts exactly when all keys are
distinct, every value has at most 4096 bytes, and every key has a longest rule prefix properly under
it, whose rule accepts the value. So the verdict does not depend on the order of the rules or of the
entries. -/
theorem most_specific_rule_decides (field : String) (entries : List KV) {rules : List Rule}
    (hrules : (rules.map Rule.keyPrefix).Nodup) :
    (isOk (validate field entries rules) = true ↔
      (entries.map KV.key).Nodup ∧ ∀ e ∈ entries, e.value.length ≤ 4096 ∧
        ∃ r, Governs rules e.key r ∧ (∀ r', Governs rules e.key r' → r' = r) ∧ r.accepts e.value) ∧
    ∀ field' entries' rules', entries.Perm entries' → rules.Perm rules' →
      isOk (validate field' entries' rules') = isOk (validate field entries rules) := by
  constructor
  · rw [validate_isOk_iff hrules]
    refine and_congr_right fun _ => forall₂_congr fun e _ => and_congr_right fun _ => ?_
    constructor
    · rintro ⟨r, hr, haccepts⟩
      exact ⟨r, hr, fun r' hr' => hr.eq hrules hr', haccepts⟩
    · rintro ⟨r, hr, -, haccepts⟩
      exact ⟨r, hr, haccepts⟩
  · intro field' entries' rules' hentries hperm
    have hrules' : (rules'.map Rule.keyPrefix).Nodup := (hperm.map Rule.keyPrefix).nodup_iff.1 hrules
    rw [Bool.eq_iff_iff, validate_isOk_iff hrules', validate_isOk_iff hrules]
    rw [(hentries.map KV.key).nodup_iff]
    refine and_congr_right fun _ => ?_
    constructor
    · intro h e he
      exact (judged_perm hperm).2 (h e (hentries.mem_iff.1 he))
    · intro h e he
      exact (judged_perm hperm).1 (h e (hentries.mem_iff.2 he))

end Verdict

/-- Records of x/governance: a tally count and a frozen basis. -/
def talliedEntries : List KV :=
  [⟨[0x10, 1], bigEndian 8 3⟩, ⟨[0x13, 1], List.replicate 24 0⟩]

theorem most_specific_rule_decides_governance :
    isOk (validate "store_entries" talliedEntries.reverse governanceRules.reverse) =
        isOk (validate "store_entries" talliedEntries governanceRules) ∧
      isOk (validate "store_entries" talliedEntries governanceRules) = true :=
  ⟨(most_specific_rule_decides "store_entries" talliedEntries (by decide)).2 _ _ _
    (List.reverse_perm _).symm (List.reverse_perm _).symm, by decide +kernel⟩

end PhiChain.StoreEntry
