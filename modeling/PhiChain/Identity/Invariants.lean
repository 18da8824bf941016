import Mathlib.Data.List.Dedup
import PhiChain.Identity.Eligibility

/-!
# Identity: the registered invariants of the indexes

The invariants `controller-index` and `eligibility-index` compare the derived keyspaces
with the identity documents, in the order the module iterates them; a report is the fixed
part of the text, and `none` is "not broken".

`recomputed_of_writes` is the result: after any sequence of writes every derived keyspace
holds what is recomputed from the documents, and neither invariant reports anything. The
one controller it leaves out is the empty string, which the code also uses for "no
previous controller": taking a document from it leaves its record behind
(`emptyController_stays`).
-/

set_option autoImplicit false

namespace PhiChain.Identity

open Foundations Sdk

namespace Directory

variable {dir : Directory} {c : Bytes}

/-! ## Controller index -/

def checkDocumentIndexed (dir : Directory) (d : DIDDocument) : Option String :=
  if dir.controllerIndex.has (controllerIndexKey d.controller d.did) then none
  else some "identity has no controller-index entry"

def parseControllerIndexKey (key : Bytes) : Option (Bytes × Bytes) := splitNul key

def checkIndexKey (dir : Directory) (key : Bytes) : Option String :=
  match parseControllerIndexKey key with
  | none => some "malformed controller-index key"
  | some (controller, did) =>
    match dir.identities.get? did with
    | none => some "controller-index entry points to missing DID"
    | some d => if d.controller ≠ controller then some "stale controller-index entry" else none

/-- First report over the documents, then over the index. -/
def controllerIndexInvariant (dir : Directory) : Option String :=
  (dir.documents.findSome? dir.checkDocumentIndexed).or
    (dir.controllerIndex.entries.findSome? fun e => dir.checkIndexKey e.1)

/-! ## Eligibility index -/

/-- Note a document in the map of the oldest standing document per controller. -/
def noteStanding (want : OrdMap Bytes Int) (d : DIDDocument) : OrdMap Bytes Int :=
  if d.status ≠ .revoked then
    match want.get? d.controller with
    | none => want.put d.controller d.createdAt
    | some cur => if d.createdAt < cur then want.put d.controller d.createdAt else want
  else want

/-- Oldest standing document per controller, by a walk over the documents. -/
def wanted (dir : Directory) : OrdMap Bytes Int := dir.documents.foldl noteStanding ∅

def checkWanted (dir : Directory) (controller : Bytes) (oldest : Int) : Option String :=
  match dir.eligibility.get? controller with
  | none => some "controller has a non-revoked DID but no readable eligibility record"
  | some r =>
    if r.oldest ≠ oldest then some "controller eligibility record is not the oldest non-revoked DID"
    else if dir.eligibilityByAge.has (eligibilityByAgeKey oldest controller) then none
    else some "controller eligibility record is not mirrored in the age index"

def checkRecord (dir : Directory) (controller : Bytes) : Option String :=
  if dir.wanted.has controller then none
  else some "controller has an eligibility record but no non-revoked DID"

/-- First report over the controllers wanted, the records, the total and the mirror. -/
def eligibilityIndexInvariant (dir : Directory) : Option String :=
  let records := dir.eligibility.entries.length
  (dir.wanted.entries.findSome? fun e => dir.checkWanted e.1 e.2).or <|
    (dir.eligibility.entries.findSome? fun e => dir.checkRecord e.1).or <|
      if dir.eligibleControllerTotal ≠ records then
        some "eligible-controller total differs from the records that exist"
      else if dir.eligibilityByAge.entries.length ≠ records then
        some "age index differs from the eligibility records that exist"
      else none

/-! ## Neither reports on indexes that agree with the documents -/

theorem controllerIndexInvariant_of_linked (h : Linked dir) : dir.controllerIndexInvariant = none := by
  unfold controllerIndexInvariant
  rw [Option.or_eq_none_iff, List.findSome?_eq_none_iff, List.findSome?_eq_none_iff]
  constructor
  · intro d hd
    exact if_pos ((h.index _).2 ⟨d, hd, rfl⟩)
  · intro e he
    obtain ⟨d, hd, hkey⟩ := (h.index e.1).1 (OrdMap.has_iff.2 ⟨e.2, OrdMap.mem_entries.1 he⟩)
    have hparse : parseControllerIndexKey e.1 = some (d.controller, d.did) := by
      rw [hkey]
      exact splitNul_nulKey (h.named d hd).1 d.did
    unfold checkIndexKey
    rw [hparse]
    dsimp only
    rw [mem_documents.1 hd]
    exact if_neg (fun hne => hne rfl)

/-- The smaller of a remembered time and a new one, as the walk keeps it. -/
def keepOldest (cur : Option Int) (t : Int) : Option Int :=
  match cur with
  | none => some t
  | some u => if t < u then some t else some u

theorem foldl_keepOldest_some (ts : List Int) (u : Int) :
    ts.foldl keepOldest (some u) = some (ts.foldl min u) := by
  induction ts generalizing u with
  | nil => rfl
  | cons t rest ih =>
    have hstep : keepOldest (some u) t = some (min u t) := by
      unfold keepOldest
      dsimp only
      split
      · rename_i hlt
        rw [min_eq_right hlt.le]
      · rename_i hge
        rw [min_eq_left (not_lt.1 hge)]
    rw [List.foldl_cons, List.foldl_cons, hstep, ih]

theorem foldl_keepOldest_none (ts : List Int) : ts.foldl keepOldest none = ts.min? := by
  cases ts with
  | nil => rfl
  | cons t rest => exact foldl_keepOldest_some rest t

theorem get?_noteStanding (want : OrdMap Bytes Int) (d : DIDDocument) (c : Bytes) :
    (noteStanding want d).get? c =
      if d.controller = c ∧ d.status ≠ .revoked then keepOldest (want.get? c) d.createdAt
      else want.get? c := by
  unfold noteStanding
  by_cases hstatus : d.status = .revoked
  · rw [if_neg (fun hne => hne hstatus), if_neg (fun h => h.2 hstatus)]
  · rw [if_pos hstatus]
    by_cases hc : d.controller = c
    · subst hc
      rw [if_pos ⟨rfl, hstatus⟩]
      unfold keepOldest
      cases hcur : want.get? d.controller with
      | none => exact OrdMap.get?_put_self _ _ _
      | some cur =>
        dsimp only
        split
        · exact OrdMap.get?_put_self _ _ _
        · exact hcur
    · rw [if_neg (fun h => hc h.1)]
      split
      · exact OrdMap.get?_put_ne _ _ hc
      · split
        · exact OrdMap.get?_put_ne _ _ hc
        · rfl

theorem get?_foldl_noteStanding (docs : List DIDDocument) (want : OrdMap Bytes Int) (c : Bytes) :
    (docs.foldl noteStanding want).get? c =
      ((((docs.filter fun d => d.controller = c).filter fun d => d.status ≠ .revoked).map
        DIDDocument.createdAt).foldl keepOldest (want.get? c)) := by
  induction docs generalizing want with
  | nil => rfl
  | cons d rest ih =>
    rw [List.foldl_cons, ih, get?_noteStanding]
    by_cases hc : d.controller = c
    · rw [List.filter_cons_of_pos (by simpa using hc)]
      by_cases hstatus : d.status = .revoked
      · rw [List.filter_cons_of_neg (by simpa using hstatus), if_neg (fun h => h.2 hstatus)]
      · rw [List.filter_cons_of_pos (by simpa using hstatus), if_pos ⟨hc, hstatus⟩]
        rfl
    · rw [List.filter_cons_of_neg (by simpa using hc), if_neg (fun h => hc h.1)]

/-- The walk finds what the documents of each controller say. -/
theorem get?_wanted (dir : Directory) (c : Bytes) :
    dir.wanted.get? c = oldestAmong (dir.recordsOf c) := by
  unfold wanted
  rw [get?_foldl_noteStanding, OrdMap.get?_empty, foldl_keepOldest_none]
  rfl

/-- The mirror has one key for each record. -/
theorem mirror_perm (h : Mirrored dir) :
    (dir.eligibilityByAge.entries.map Prod.fst).Perm
      (dir.eligibility.entries.map fun e => eligibilityByAgeKey e.2.oldest e.1) := by
  have hnodup :
      (dir.eligibility.entries.map fun e => eligibilityByAgeKey e.2.oldest e.1).Nodup := by
    refine List.pairwise_map.2 (dir.eligibility.ascending.imp ?_)
    intro a b hlt hkey
    exact absurd (eligibilityByAgeKey_inj.1 hkey).2 (ne_of_lt hlt)
  refine (List.perm_ext_iff_of_nodup dir.eligibilityByAge.nodup_keys hnodup).2 fun key => ?_
  have hkey : key = eligibilityByAgeKey (ofLex key).1 (ofLex key).2 := rfl
  rw [OrdMap.mem_keys, hkey, h.mirror, List.mem_map]
  constructor
  · intro hold
    obtain ⟨r, hr, holdest⟩ := Option.map_eq_some_iff.1 hold
    exact ⟨((ofLex key).2, r), OrdMap.mem_entries.2 hr, eligibilityByAgeKey_inj.2 ⟨holdest, rfl⟩⟩
  · rintro ⟨e, he, hekey⟩
    obtain ⟨ht, hc⟩ := eligibilityByAgeKey_inj.1 hekey
    rw [← ht, ← hc]
    exact recordedOldest_of_get? (OrdMap.mem_entries.1 he)

theorem length_mirror (h : Mirrored dir) :
    dir.eligibilityByAge.entries.length = dir.eligibility.entries.length := by
  simpa using (mirror_perm h).length_eq

theorem eligibilityIndexInvariant_of_indexed (h : Indexed dir) :
    dir.eligibilityIndexInvariant = none := by
  unfold eligibilityIndexInvariant
  dsimp only
  rw [Option.or_eq_none_iff, Option.or_eq_none_iff, List.findSome?_eq_none_iff,
    List.findSome?_eq_none_iff, if_neg (fun hne => hne h.mirrored.total),
    if_neg (fun hne => hne (length_mirror h.mirrored))]
  refine ⟨?_, ?_, rfl⟩
  · rintro ⟨c, oldest⟩ he
    have hrecord : dir.recordedOldest c = some oldest := by
      rw [(h.current c).1, ← get?_wanted]
      exact OrdMap.mem_entries.1 he
    obtain ⟨r, hr, hsame⟩ := Option.map_eq_some_iff.1 hrecord
    unfold checkWanted
    rw [hr]
    dsimp only
    rw [if_neg (fun hne => hne hsame), if_pos ((h.mirrored.mirror _ _).2 hrecord)]
  · rintro ⟨c, r⟩ he
    have hwanted : dir.wanted.get? c = some r.oldest := by
      rw [get?_wanted, ← (h.current c).1]
      exact recordedOldest_of_get? (OrdMap.mem_entries.1 he)
    exact if_pos (OrdMap.has_iff.2 ⟨_, hwanted⟩)

/-! ## Sequences of writes -/

/-- Controllers that hold a document that is not revoked, each listed once. -/
def standingControllers (dir : Directory) : List Bytes :=
  ((dir.documents.filter fun d => d.status ≠ .revoked).map DIDDocument.controller).dedup

/-- Every derived keyspace holds what is recomputed from the documents alone. -/
structure Recomputed (dir : Directory) : Prop where
  index : ∀ key, dir.controllerIndex.has key = true ↔
    ∃ d ∈ dir.documents, key = controllerIndexKey d.controller d.did
  present : ∀ c, dir.eligibility.has c = true ↔ c ∈ dir.standingControllers
  oldest : ∀ c, dir.recordedOldest c = oldestAmong (dir.recordsOf c)
  mirror : ∀ t c, dir.eligibilityByAge.has (eligibilityByAgeKey t c) = true ↔
    oldestAmong (dir.recordsOf c) = some t
  total : dir.eligibleControllerTotal = dir.standingControllers.length
  sweep : ∀ c, dir.controllerSweep.get? c = sweepOf (dir.recordsOf c)

theorem mem_standingControllers :
    c ∈ dir.standingControllers ↔ ∃ t, oldestAmong (dir.recordsOf c) = some t := by
  unfold standingControllers oldestAmong
  rw [List.mem_dedup, List.mem_map]
  constructor
  · rintro ⟨d, hd, hc⟩
    obtain ⟨hmem, hstatus⟩ := List.mem_filter.1 hd
    have hrecord : d ∈ dir.recordsOf c := mem_recordsOf.2 ⟨mem_documents.1 hmem, hc⟩
    refine Option.isSome_iff_exists.1 (List.isSome_min?_of_mem (a := d.createdAt) ?_)
    exact List.mem_map.2 ⟨d, List.mem_filter.2 ⟨hrecord, hstatus⟩, rfl⟩
  · rintro ⟨t, ht⟩
    obtain ⟨d, hd, -⟩ := List.mem_map.1 (List.min?_mem ht)
    obtain ⟨hrecord, hstatus⟩ := List.mem_filter.1 hd
    obtain ⟨hget, hc⟩ := mem_recordsOf.1 hrecord
    exact ⟨d, List.mem_filter.2 ⟨mem_documents.2 hget, hstatus⟩, hc⟩

theorem recomputed_of_indexed (h : Indexed dir) : Recomputed dir := by
  have hpresent : ∀ c, dir.eligibility.has c = true ↔ c ∈ dir.standingControllers := by
    intro c
    rw [mem_standingControllers, ← (h.current c).1, OrdMap.has_iff]
    unfold recordedOldest
    rw [← Option.isSome_iff_exists, ← Option.isSome_iff_exists, Option.isSome_map]
  have hkeys : (dir.eligibility.entries.map Prod.fst).Perm dir.standingControllers := by
    have hnodup : dir.standingControllers.Nodup := List.nodup_dedup _
    refine (List.perm_ext_iff_of_nodup dir.eligibility.nodup_keys hnodup).2 fun c => ?_
    rw [← hpresent, OrdMap.mem_keys]
  refine ⟨h.linked.index, hpresent, fun c => (h.current c).1, fun t c => ?_, ?_,
    fun c => (h.current c).2⟩
  · rw [h.mirrored.mirror, (h.current c).1]
  · rw [h.mirrored.total, ← hkeys.length_eq, List.length_map]

/-- One write of a sequence: the block time and the document. -/
def write (dir : Directory) (w : Int × DIDDocument) : Directory := dir.setIdentity w.1 w.2

/-- Rebuilding the record of a controller takes one off a total of zero. -/
def underflows (dir : Directory) (controller : Bytes) : Bool :=
  dir.eligibility.has controller ∧ dir.oldestStanding controller = none ∧
    dir.eligibleControllerTotal = 0

/-- One of the rebuilds of a write underflows. -/
def writeUnderflows (dir : Directory) (w : Int × DIDDocument) : Bool :=
  (dir.putDocument w.2).underflows w.2.controller ||
    dir.prevController w.2 ≠ [] &&
      ((dir.putDocument w.2).refresh w.1 w.2.controller).underflows (dir.prevController w.2)

/-- A record is counted in the total, so that taking one off leaves at least zero. -/
theorem underflows_eq_false (h : Mirrored dir) (c : Bytes) : dir.underflows c = false := by
  unfold underflows
  refine decide_eq_false fun hunder => ?_
  obtain ⟨hhas, -, hzero⟩ := hunder
  obtain ⟨r, hr⟩ := OrdMap.has_iff.1 hhas
  have hlen := OrdMap.length_erase hr
  have htotal := h.total
  omega

theorem writeUnderflows_eq_false (h : Mirrored dir) (w : Int × DIDDocument) :
    dir.writeUnderflows w = false := by
  have hput := mirrored_putDocument h w.2
  unfold writeUnderflows
  rw [underflows_eq_false hput, underflows_eq_false ((refreshed_refresh _ _ _).mirrored hput)]
  simp

theorem indexed_of_writes {ws : List (Int × DIDDocument)} (h : ∀ w ∈ ws, Nameable w.2.controller) :
    Indexed (run write fresh ws) :=
  @run_preserves _ _ write (fun _ w => Nameable w.2.controller) Indexed
    (fun _ w hw hdir => indexed_setIdentity hdir w.1 hw) _ indexed_fresh _ (along_of_forall h)

/-- After any sequence of writes the derived keyspaces are what the documents say, the
invariants report nothing, and no write took the total below zero. -/
theorem recomputed_of_writes {ws : List (Int × DIDDocument)} (h : ∀ w ∈ ws, Nameable w.2.controller) :
    Recomputed (run write fresh ws) ∧
      (run write fresh ws).controllerIndexInvariant = none ∧
      (run write fresh ws).eligibilityIndexInvariant = none ∧
      Along write (fun dir w => dir.writeUnderflows w = false) fresh ws := by
  have hindexed := indexed_of_writes h
  refine ⟨recomputed_of_indexed hindexed, controllerIndexInvariant_of_linked hindexed.linked,
    eligibilityIndexInvariant_of_indexed hindexed, ?_⟩
  exact @along_of_invariant _ _ write (fun _ w => Nameable w.2.controller) Indexed _
    (fun _ w hw hdir => indexed_setIdentity hdir w.1 hw)
    (fun dir w _ hdir => writeUnderflows_eq_false hdir.mirrored w) _ indexed_fresh _
    (along_of_forall h)

/-- A standing document of some DID and controller. -/
def sample (did controller : Bytes) : DIDDocument :=
  ⟨did, controller, [], [], 5, .active, .secp256r1⟩

/-- Two documents of one controller, one of which moves to another. -/
theorem recomputed_of_moved_document :
    Recomputed (run write fresh
      [(7, sample [1] [2]), (7, sample [3] [2]), (9, sample [1] [4])]) ∧
      (run write fresh [(7, sample [1] [2]), (7, sample [3] [2]), (9, sample [1] [4])]
        ).controllerIndexInvariant = none ∧
      (run write fresh [(7, sample [1] [2]), (7, sample [3] [2]), (9, sample [1] [4])]
        ).eligibilityIndexInvariant = none ∧
      Along write (fun dir w => dir.writeUnderflows w = false) fresh
        [(7, sample [1] [2]), (7, sample [3] [2]), (9, sample [1] [4])] :=
  recomputed_of_writes (by decide)

/-- A document moved away from the empty controller leaves the record of that controller
behind. -/
theorem emptyController_stays :
    (NulFree [1] ∧ NulFree [] ∧ NulFree [2]) ∧
      (run write fresh [(7, sample [1] []), (7, sample [1] [2])]).eligibilityIndexInvariant =
        some "controller has an eligibility record but no non-revoked DID" := by
  decide +kernel

end Directory

end PhiChain.Identity
