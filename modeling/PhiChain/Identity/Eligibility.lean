import PhiChain.Identity.Store

/-!
# Identity: the indexes follow the documents

What the derived keyspaces of a `Directory` should hold can be recomputed from the identity
documents alone: `recordsOf` lists the documents that name a controller, and the record of
the controller is a function of that list. `Indexed` says that every keyspace holds what
is recomputed, and `indexed_setIdentity` that a write keeps it so.

A write changes the documents of two controllers at most and rebuilds both. `Current` is
the part of the statement about one controller: a write breaks it for these two, and each
`refresh` restores it for one and leaves the others alone.
-/

set_option autoImplicit false

namespace PhiChain.Identity

open Foundations Sdk

/-- A controller that the indexes can tell apart from others. -/
def Nameable (c : Bytes) : Prop := NulFree c ∧ c ≠ []

instance (c : Bytes) : Decidable (Nameable c) := inferInstanceAs (Decidable (_ ∧ _))

namespace Directory

variable {dir : Directory} {c : Bytes} {d : DIDDocument} {now : Int}

/-- All identity documents in key order. -/
def documents (dir : Directory) : List DIDDocument := dir.identities.records.entries.map Prod.snd

/-- The documents that name a controller, by the identity records alone. -/
def recordsOf (dir : Directory) (controller : Bytes) : List DIDDocument :=
  dir.documents.filter fun d => d.controller = controller

theorem mem_documents : d ∈ dir.documents ↔ dir.identities.get? d.did = some d := by
  unfold documents
  constructor
  · intro h
    obtain ⟨⟨did, e⟩, he, rfl⟩ := List.mem_map.1 h
    have hget : dir.identities.get? did = some e := OrdMap.mem_entries.1 he
    have hkey : e.did = did := KeyedMap.key_of_get? hget
    rw [hkey]
    exact hget
  · intro h
    exact List.mem_map.2 ⟨(d.did, d), OrdMap.mem_entries.2 h, rfl⟩

theorem mem_recordsOf :
    d ∈ dir.recordsOf c ↔ dir.identities.get? d.did = some d ∧ d.controller = c := by
  unfold recordsOf
  rw [List.mem_filter, mem_documents, decide_eq_true_eq]

theorem documents_ascending (dir : Directory) :
    dir.documents.Pairwise fun a b => a.did < b.did := by
  unfold documents
  refine List.pairwise_map.2 (dir.identities.records.ascending.imp_of_mem ?_)
  intro a b ha hb hlt
  have hkey : ∀ e ∈ dir.identities.records.entries, e.2.did = e.1 := fun e he =>
    dir.identities.keyed e.1 e.2 (OrdMap.mem_entries.1 he)
  rw [hkey a ha, hkey b hb]
  exact hlt

theorem recordsOf_ascending (dir : Directory) (c : Bytes) :
    (dir.recordsOf c).Pairwise fun a b => a.did < b.did :=
  (dir.documents_ascending).filter _

/-- Two ascending lists of documents with the same members are the same list. -/
theorem eq_of_mem_iff {l l' : List DIDDocument} (h : l.Pairwise fun a b => a.did < b.did)
    (h' : l'.Pairwise fun a b => a.did < b.did) (hmem : ∀ d, d ∈ l ↔ d ∈ l') : l = l' :=
  h.eq_of_mem_iff h' fun d => hmem d

/-! ## The controller index -/

/-- The controller index holds one key per document, and controllers contain no separator. -/
structure Linked (dir : Directory) : Prop where
  named : ∀ d ∈ dir.documents, Nameable d.controller
  index : ∀ key, dir.controllerIndex.has key = true ↔
    ∃ d ∈ dir.documents, key = controllerIndexKey d.controller d.did

theorem linked_fresh : Linked fresh := by
  constructor
  · intro d hd
    cases hd
  · intro key
    constructor
    · intro h
      cases h
    · rintro ⟨d, hd, -⟩
      cases hd

/-- Reading the documents of a controller through the index finds its records. -/
theorem documentsOf_eq (h : Linked dir) (hc : NulFree c) : dir.documentsOf c = dir.recordsOf c := by
  refine eq_of_mem_iff ?_ (dir.recordsOf_ascending c) fun d => ?_
  · unfold documentsOf
    refine List.pairwise_filterMap.2 ((under_ascending dir.controllerIndex c).imp ?_)
    intro did did' hlt e he e' he'
    have hdid : e.did = did := KeyedMap.key_of_get? he
    have hdid' : e'.did = did' := KeyedMap.key_of_get? he'
    rw [hdid, hdid']
    exact hlt
  · unfold documentsOf
    rw [List.mem_filterMap, mem_recordsOf]
    constructor
    · rintro ⟨did, hunder, hget⟩
      have hdid : d.did = did := KeyedMap.key_of_get? hget
      subst hdid
      obtain ⟨e, he, hkey⟩ := (h.index _).1 (mem_under.1 hunder)
      obtain ⟨hcontroller, hsame⟩ := (nulKey_inj hc (h.named e he).1).1 hkey
      have heget := mem_documents.1 he
      rw [← hsame, hget] at heget
      cases heget
      exact ⟨hget, hcontroller.symm⟩
    · rintro ⟨hget, rfl⟩
      exact ⟨d.did, mem_under.2 ((h.index _).2 ⟨d, mem_documents.2 hget, rfl⟩), hget⟩

/-- The documents after a write: the one written, and those with another DID. -/
theorem mem_documents_putDocument {e : DIDDocument} :
    e ∈ (dir.putDocument d).documents ↔ e = d ∨ e ∈ dir.documents ∧ e.did ≠ d.did := by
  have hget : (dir.putDocument d).identities.get? e.did =
      if d.did = e.did then some d else dir.identities.get? e.did :=
    KeyedMap.get?_set dir.identities d e.did
  rw [mem_documents, mem_documents, hget]
  split
  · rename_i hdid
    constructor
    · intro h
      cases h
      exact Or.inl rfl
    · rintro (rfl | ⟨-, hne⟩)
      · rfl
      · exact absurd hdid.symm hne
  · rename_i hdid
    constructor
    · intro h
      exact Or.inr ⟨h, Ne.symm hdid⟩
    · rintro (rfl | ⟨h, -⟩)
      · exact absurd rfl hdid
      · exact h

/-- The key of the document that is replaced goes, and that of the one written comes. -/
theorem has_putDocument {key : Bytes} :
    (dir.putDocument d).controllerIndex.has key = true ↔
      key = controllerIndexKey d.controller d.did ∨ dir.controllerIndex.has key = true ∧
        ∀ prev, dir.identities.get? d.did = some prev → prev.controller ≠ d.controller →
          key ≠ controllerIndexKey prev.controller prev.did := by
  unfold putDocument
  simp only [OrdMap.has_put]
  refine or_congr eq_comm ?_
  cases hprev : dir.identities.get? d.did with
  | none => simp
  | some prev =>
    by_cases hmoved : prev.controller = d.controller
    · simp [hmoved]
    · simp only [ne_eq, hmoved, not_false_eq_true, if_true, OrdMap.has_erase, Option.some.injEq,
        forall_eq', true_implies]
      exact and_comm.trans (and_congr_right fun _ => not_congr eq_comm)

theorem linked_putDocument (h : Linked dir) (hd : Nameable d.controller) :
    Linked (dir.putDocument d) := by
  constructor
  · intro e he
    rcases mem_documents_putDocument.1 he with rfl | ⟨he, -⟩
    · exact hd
    · exact h.named e he
  · intro key
    rw [has_putDocument, h.index]
    constructor
    · rintro (rfl | ⟨⟨e, he, rfl⟩, hstale⟩)
      · exact ⟨d, mem_documents_putDocument.2 (Or.inl rfl), rfl⟩
      · by_cases hdid : e.did = d.did
        · have hprev : dir.identities.get? d.did = some e := hdid ▸ mem_documents.1 he
          have hkept : e.controller = d.controller :=
            Classical.byContradiction fun hmoved => hstale e hprev hmoved rfl
          refine ⟨d, mem_documents_putDocument.2 (Or.inl rfl), ?_⟩
          rw [hkept, hdid]
        · exact ⟨e, mem_documents_putDocument.2 (Or.inr ⟨he, hdid⟩), rfl⟩
    · rintro ⟨e, he, rfl⟩
      rcases mem_documents_putDocument.1 he with rfl | ⟨he, hdid⟩
      · exact Or.inl rfl
      · refine Or.inr ⟨⟨e, he, rfl⟩, ?_⟩
        -- the key that is deleted belongs to the replaced document, which has the DID of `d`
        intro prev hprev _ hkey
        have hnamed := h.named prev (mem_documents.2 ((KeyedMap.key_of_get? hprev).symm ▸ hprev))
        have hsame := ((nulKey_inj (h.named e he).1 hnamed.1).1 hkey).2
        exact hdid (hsame.trans (KeyedMap.key_of_get? hprev))

/-! ## Records and their mirror -/

theorem eligibilityByAgeKey_inj {t t' : Int} {c c' : Bytes} :
    eligibilityByAgeKey t c = eligibilityByAgeKey t' c' ↔ t = t' ∧ c = c' := by
  unfold eligibilityByAgeKey
  rw [toLex_inj, Prod.mk.injEq]

/-- Oldest creation time that the record of a controller holds. -/
def recordedOldest (dir : Directory) (c : Bytes) : Option Int :=
  (dir.eligibility.get? c).map ControllerEligibility.oldest

/-- The mirror lists the records by age, and the total is their number. -/
structure Mirrored (dir : Directory) : Prop where
  mirror : ∀ t c, dir.eligibilityByAge.has (eligibilityByAgeKey t c) = true ↔
    dir.recordedOldest c = some t
  total : dir.eligibleControllerTotal = dir.eligibility.entries.length

theorem mirrored_fresh : Mirrored fresh := by
  constructor
  · intro t c
    constructor
    · intro h
      cases h
    · intro h
      cases h
  · rfl

theorem recordedOldest_of_get? {r : ControllerEligibility} (h : dir.eligibility.get? c = some r) :
    dir.recordedOldest c = some r.oldest := by
  unfold recordedOldest
  rw [h]
  rfl

theorem recordedOldest_putEligibility (dir : Directory) (c : Bytes) (r : ControllerEligibility) :
    (dir.putEligibility c r).recordedOldest c = some r.oldest :=
  recordedOldest_of_get? (OrdMap.get?_put_self dir.eligibility c r)

/-- The mirror of a record that is not the one of `c`, after a change at `c` alone. -/
theorem mirror_of_ne {dir' : Directory} (h : Mirrored dir)
    (hrecord : ∀ c', c' ≠ c → dir'.eligibility.get? c' = dir.eligibility.get? c')
    (hmirror : ∀ t c', c' ≠ c → (dir'.eligibilityByAge.has (eligibilityByAgeKey t c') = true ↔
      dir.eligibilityByAge.has (eligibilityByAgeKey t c') = true))
    (hc : ∀ t, dir'.eligibilityByAge.has (eligibilityByAgeKey t c) = true ↔
      dir'.recordedOldest c = some t) (t : Int) (c' : Bytes) :
    dir'.eligibilityByAge.has (eligibilityByAgeKey t c') = true ↔ dir'.recordedOldest c' = some t := by
  by_cases hne : c' = c
  · rw [hne]
    exact hc t
  · rw [hmirror t c' hne, h.mirror]
    unfold recordedOldest
    rw [hrecord c' hne]

theorem mirrored_drop {prev : ControllerEligibility} (h : Mirrored dir)
    (hprev : dir.eligibility.get? c = some prev) :
    Mirrored { dir.dropMirror prev.oldest c with
      eligibility := dir.eligibility.erase c
      eligibleControllerTotal := decrement64 dir.eligibleControllerTotal } := by
  constructor
  · refine mirror_of_ne (c := c) h ?_ ?_ ?_
    · intro c' hne
      exact OrdMap.get?_erase_ne _ (Ne.symm hne)
    · intro t c' hne
      refine OrdMap.has_erase.trans (and_iff_right ?_)
      exact fun hkey => hne (eligibilityByAgeKey_inj.1 hkey).2.symm
    · intro t
      have hgone : (dir.eligibility.erase c).get? c = none := OrdMap.get?_erase_self _ _
      refine OrdMap.has_erase.trans ?_
      rw [h.mirror, recordedOldest_of_get? hprev]
      unfold recordedOldest
      rw [hgone]
      constructor
      · rintro ⟨hkey, ht⟩
        exact absurd (eligibilityByAgeKey_inj.2 ⟨Option.some.inj ht, rfl⟩) hkey
      · intro hnone
        cases hnone
  · have hlen := OrdMap.length_erase hprev
    have htotal := h.total
    change decrement64 dir.eligibleControllerTotal = (dir.eligibility.erase c).entries.length
    rw [htotal, ← hlen]
    rfl

theorem mirrored_add (h : Mirrored dir) (hprev : dir.eligibility.get? c = none)
    (r : ControllerEligibility) :
    Mirrored { dir.putEligibility c r with
      eligibleControllerTotal := dir.eligibleControllerTotal + 1 } := by
  constructor
  · refine mirror_of_ne (c := c) h ?_ ?_ ?_
    · intro c' hne
      exact OrdMap.get?_put_ne _ _ (Ne.symm hne)
    · intro t c' hne
      refine OrdMap.has_put.trans (or_iff_right ?_)
      exact fun hkey => hne (eligibilityByAgeKey_inj.1 hkey).2.symm
    · intro t
      have hold : dir.recordedOldest c = none := by
        unfold recordedOldest
        rw [hprev]
        rfl
      refine OrdMap.has_put.trans ?_
      rw [h.mirror, hold, eligibilityByAgeKey_inj,
        recordedOldest_of_get? (OrdMap.get?_put_self dir.eligibility c r)]
      simp
  · have hlen := OrdMap.length_put_of_none hprev r
    have htotal := h.total
    change dir.eligibleControllerTotal + 1 = (dir.eligibility.put c r).entries.length
    rw [htotal, hlen]

theorem mirrored_replace {prev : ControllerEligibility} (h : Mirrored dir)
    (hprev : dir.eligibility.get? c = some prev) (r : ControllerEligibility) :
    Mirrored ((dir.dropMirror prev.oldest c).putEligibility c r) := by
  constructor
  · refine mirror_of_ne (c := c) h ?_ ?_ ?_
    · intro c' hne
      exact OrdMap.get?_put_ne _ _ (Ne.symm hne)
    · intro t c' hne
      have hother : ∀ u, eligibilityByAgeKey u c ≠ eligibilityByAgeKey t c' := fun u hkey =>
        hne (eligibilityByAgeKey_inj.1 hkey).2.symm
      refine OrdMap.has_put.trans ((or_iff_right (hother _)).trans ?_)
      exact OrdMap.has_erase.trans (and_iff_right (hother _))
    · intro t
      refine OrdMap.has_put.trans ?_
      rw [recordedOldest_putEligibility]
      refine Iff.trans (or_congr_right OrdMap.has_erase) ?_
      rw [h.mirror, recordedOldest_of_get? hprev, eligibilityByAgeKey_inj, ne_eq,
        eligibilityByAgeKey_inj]
      simp
  · have hlen := OrdMap.length_put_of_get? hprev r
    have htotal := h.total
    change dir.eligibleControllerTotal = (dir.eligibility.put c r).entries.length
    rw [htotal, hlen]

/-! ## One refresh -/

/-- What rebuilding the record of `c` does: nothing to the documents and to other records; the
record of `c` holds the oldest standing document, and its stamp is kept unless the record
is new or gets older. -/
structure Refreshed (dir dir' : Directory) (now : Int) (c : Bytes) : Prop where
  identities : dir'.identities = dir.identities
  index : dir'.controllerIndex = dir.controllerIndex
  others : ∀ c', c' ≠ c → dir'.eligibility.get? c' = dir.eligibility.get? c'
  oldest : dir'.recordedOldest c = dir.oldestStanding c
  since : ∀ r, dir'.eligibility.get? c = some r →
    (∃ prev, dir.eligibility.get? c = some prev ∧ prev.oldest ≤ r.oldest ∧
      r.eligibleSince = prev.eligibleSince) ∨
    r.eligibleSince = now ∧ ∀ prev, dir.eligibility.get? c = some prev → r.oldest < prev.oldest
  mirrored : Mirrored dir → Mirrored dir'

theorem refreshed_eligibility (dir : Directory) (now : Int) (c : Bytes) :
    Refreshed dir (dir.refreshControllerEligibility now c) now c := by
  unfold refreshControllerEligibility
  cases hprev : dir.eligibility.get? c with
  | none =>
    cases hold : dir.oldestStanding c with
    | none =>
      refine ⟨rfl, rfl, fun _ _ => rfl, ?_, ?_, id⟩
      · unfold recordedOldest
        rw [hprev, hold]
        rfl
      · intro r hr
        rw [hprev] at hr
        cases hr
    | some oldest =>
      refine ⟨rfl, rfl, fun c' hne => OrdMap.get?_put_ne _ _ (Ne.symm hne), ?_, ?_,
        fun h => mirrored_add h hprev _⟩
      · rw [hold]
        exact recordedOldest_putEligibility dir c ⟨oldest, now⟩
      · intro r hr
        have hr' : (dir.eligibility.put c ⟨oldest, now⟩).get? c = some r := hr
        rw [OrdMap.get?_put_self] at hr'
        cases hr'
        refine Or.inr ⟨rfl, fun prev h => ?_⟩
        rw [hprev] at h
        cases h
  | some prev =>
    cases hold : dir.oldestStanding c with
    | none =>
      refine ⟨rfl, rfl, fun c' hne => OrdMap.get?_erase_ne _ (Ne.symm hne), ?_, ?_,
        fun h => mirrored_drop h hprev⟩
      · have hgone : (dir.eligibility.erase c).get? c = none := OrdMap.get?_erase_self _ _
        unfold recordedOldest
        rw [hold]
        exact congrArg (Option.map ControllerEligibility.oldest) hgone
      · intro r hr
        have hr' : (dir.eligibility.erase c).get? c = some r := hr
        rw [OrdMap.get?_erase_self] at hr'
        cases hr'
    | some oldest =>
      dsimp only
      by_cases hsame : prev.oldest = oldest
      · rw [if_neg (fun hne => hne hsame)]
        refine ⟨rfl, rfl, fun _ _ => rfl, ?_, ?_, id⟩
        · rw [hold, recordedOldest_of_get? hprev, hsame]
        · intro r hr
          exact Or.inl ⟨r, hr, le_rfl, rfl⟩
      · rw [if_pos hsame]
        refine ⟨rfl, rfl, fun c' hne => OrdMap.get?_put_ne _ _ (Ne.symm hne), ?_, ?_,
          fun h => mirrored_replace h hprev _⟩
        · rw [hold]
          exact recordedOldest_putEligibility (dir.dropMirror prev.oldest c) c _
        · intro r hr
          have hr' := (OrdMap.get?_put_self dir.eligibility c _).symm.trans hr
          cases hr'
          by_cases hlt : oldest < prev.oldest
          · refine Or.inr ⟨if_pos hlt, fun prev' h => ?_⟩
            rw [hprev] at h
            cases h
            exact hlt
          · exact Or.inl ⟨prev, hprev, not_lt.1 hlt, if_neg hlt⟩

theorem get?_refreshSweep (dir : Directory) (c c' : Bytes) :
    (dir.refreshControllerSweepStatus c).controllerSweep.get? c' =
      if c = c' then sweepOf (dir.documentsOf c) else dir.controllerSweep.get? c' := by
  unfold refreshControllerSweepStatus
  cases hsweep : sweepOf (dir.documentsOf c) with
  | none => exact OrdMap.get?_erase _ _ _
  | some r => exact OrdMap.get?_put _ _ _ _

/-- The records of one controller are what its documents say. -/
def Current (dir : Directory) (c : Bytes) : Prop :=
  dir.recordedOldest c = oldestAmong (dir.recordsOf c) ∧
    dir.controllerSweep.get? c = sweepOf (dir.recordsOf c)

theorem refreshed_refresh (dir : Directory) (now : Int) (c : Bytes) :
    Refreshed dir (dir.refresh now c) now c := by
  obtain ⟨hids, hindex, hothers, hold, hsince, hmirrored⟩ := refreshed_eligibility dir now c
  refine ⟨hids, hindex, hothers, hold, hsince, fun h => ?_⟩
  obtain ⟨hmirror, htotal⟩ := hmirrored h
  exact ⟨hmirror, htotal⟩

theorem documents_refresh (dir : Directory) (now : Int) (c : Bytes) :
    (dir.refresh now c).documents = dir.documents := by
  unfold documents
  rw [(refreshed_refresh dir now c).identities]

theorem recordsOf_refresh (dir : Directory) (now : Int) (c c' : Bytes) :
    (dir.refresh now c).recordsOf c' = dir.recordsOf c' := by
  unfold recordsOf
  rw [documents_refresh]

theorem linked_refresh (h : Linked dir) (now : Int) (c : Bytes) : Linked (dir.refresh now c) := by
  constructor
  · rw [documents_refresh]
    exact h.named
  · rw [documents_refresh, (refreshed_refresh dir now c).index]
    exact h.index

/-- Rebuilding the record of a controller brings it up to date. -/
theorem current_refresh_self (h : Linked dir) (hc : NulFree c) (now : Int) :
    Current (dir.refresh now c) c := by
  have hdocs := refreshed_eligibility dir now c
  constructor
  · rw [recordsOf_refresh, (refreshed_refresh dir now c).oldest]
    unfold oldestStanding
    rw [documentsOf_eq h hc]
  · rw [recordsOf_refresh]
    unfold refresh
    rw [get?_refreshSweep, if_pos rfl]
    unfold documentsOf
    rw [hdocs.index, hdocs.identities]
    exact congrArg sweepOf (documentsOf_eq h hc)

/-- Rebuilding the record of a controller leaves those of others as they are. -/
theorem current_refresh_of_ne {c' : Bytes} (h : Current dir c') (hne : c' ≠ c) (now : Int) :
    Current (dir.refresh now c) c' := by
  obtain ⟨hold, hsweep⟩ := h
  constructor
  · rw [recordsOf_refresh, ← hold]
    unfold recordedOldest
    rw [(refreshed_refresh dir now c).others c' hne]
  · rw [recordsOf_refresh, ← hsweep]
    unfold refresh
    rw [get?_refreshSweep, if_neg (Ne.symm hne)]
    have hsame : (dir.refreshControllerEligibility now c).controllerSweep = dir.controllerSweep := by
      unfold refreshControllerEligibility
      split
      · rfl
      · rfl
      · dsimp only
        split
        · rfl
        · rfl
      · rfl
    rw [hsame]

/-! ## One write -/

/-- A write takes a document from another controller, or keeps it with its controller. -/
theorem setIdentity_cases (h : Linked dir) (now : Int) (d : DIDDocument) :
    (∃ prev, dir.identities.get? d.did = some prev ∧ prev.controller ≠ d.controller ∧
      dir.setIdentity now d =
        ((dir.putDocument d).refresh now d.controller).refresh now prev.controller) ∨
    (∀ prev, dir.identities.get? d.did = some prev → prev.controller = d.controller) ∧
      dir.setIdentity now d = (dir.putDocument d).refresh now d.controller := by
  have hunmoved : dir.prevController d = [] →
      dir.setIdentity now d = (dir.putDocument d).refresh now d.controller := by
    intro hprev
    unfold setIdentity
    dsimp only
    rw [if_neg (fun hne => hne hprev)]
  cases hget : dir.identities.get? d.did with
  | none =>
    have hprev : dir.prevController d = [] := by
      unfold prevController
      rw [hget]
    refine Or.inr ⟨?_, hunmoved hprev⟩
    intro prev h
    cases h
  | some prev =>
    by_cases hmoved : prev.controller = d.controller
    · have hprev : dir.prevController d = [] := by
        unfold prevController
        rw [hget]
        exact if_neg (fun hne => hne hmoved)
      refine Or.inr ⟨?_, hunmoved hprev⟩
      intro prev' h
      cases h
      exact hmoved
    · have hprev : dir.prevController d = prev.controller := by
        unfold prevController
        rw [hget]
        exact if_pos hmoved
      have hmem : prev ∈ dir.documents :=
        mem_documents.2 ((KeyedMap.key_of_get? hget).symm ▸ hget)
      refine Or.inl ⟨prev, rfl, hmoved, ?_⟩
      unfold setIdentity
      dsimp only
      rw [hprev, if_pos (h.named prev hmem).2]

/-- The documents of a controller that neither gives nor takes the document written. -/
theorem recordsOf_putDocument (hc : c ≠ d.controller)
    (hprev : ∀ prev, dir.identities.get? d.did = some prev → prev.controller ≠ c) :
    (dir.putDocument d).recordsOf c = dir.recordsOf c := by
  refine eq_of_mem_iff (recordsOf_ascending _ _) (recordsOf_ascending _ _) fun e => ?_
  rw [mem_recordsOf, mem_recordsOf, ← mem_documents, ← mem_documents, mem_documents_putDocument]
  constructor
  · rintro ⟨rfl | ⟨he, -⟩, rfl⟩
    · exact absurd rfl hc
    · exact ⟨he, rfl⟩
  · rintro ⟨he, hec⟩
    refine ⟨Or.inr ⟨he, fun hdid => ?_⟩, hec⟩
    exact hprev e (hdid ▸ mem_documents.1 he) hec

/-- The derived keyspaces agree with the documents. -/
structure Indexed (dir : Directory) : Prop where
  linked : Linked dir
  mirrored : Mirrored dir
  current : ∀ c, Current dir c

theorem indexed_fresh : Indexed fresh :=
  ⟨linked_fresh, mirrored_fresh, fun _ => ⟨rfl, rfl⟩⟩

theorem mirrored_putDocument (h : Mirrored dir) (d : DIDDocument) : Mirrored (dir.putDocument d) :=
  ⟨h.mirror, h.total⟩

/-- Before any record is rebuilt, a write leaves uninvolved controllers up to date. -/
theorem current_putDocument (h : Current dir c) (hc : c ≠ d.controller)
    (hprev : ∀ prev, dir.identities.get? d.did = some prev → prev.controller ≠ c) :
    Current (dir.putDocument d) c := by
  unfold Current
  rw [recordsOf_putDocument hc hprev]
  exact h

/-- A write keeps the derived keyspaces in agreement with the documents. -/
theorem indexed_setIdentity (h : Indexed dir) (now : Int)
    (hd : Nameable d.controller) : Indexed (dir.setIdentity now d) := by
  have hput := linked_putDocument h.linked hd
  have hfirst := linked_refresh hput now d.controller
  have hmirrored := (refreshed_refresh (dir.putDocument d) now d.controller).mirrored
    (mirrored_putDocument h.mirrored d)
  rcases setIdentity_cases h.linked now d with ⟨prev, hget, hmoved, heq⟩ | ⟨hkept, heq⟩
  · have hmem : prev ∈ dir.documents := mem_documents.2 ((KeyedMap.key_of_get? hget).symm ▸ hget)
    rw [heq]
    refine ⟨linked_refresh hfirst _ _, (refreshed_refresh _ now prev.controller).mirrored hmirrored,
      fun c => ?_⟩
    -- the two controllers involved are rebuilt, one after the other
    by_cases hfrom : c = prev.controller
    · rw [hfrom]
      exact current_refresh_self hfirst (h.linked.named prev hmem).1 now
    · refine current_refresh_of_ne ?_ hfrom now
      by_cases hto : c = d.controller
      · rw [hto]
        exact current_refresh_self hput hd.1 now
      · refine current_refresh_of_ne (current_putDocument (h.current c) hto ?_) hto now
        intro prev' hget'
        rw [hget] at hget'
        cases hget'
        exact Ne.symm hfrom
  · rw [heq]
    refine ⟨hfirst, hmirrored, fun c => ?_⟩
    by_cases hto : c = d.controller
    · rw [hto]
      exact current_refresh_self hput hd.1 now
    · refine current_refresh_of_ne (current_putDocument (h.current c) hto ?_) hto now
      intro prev hget hprev
      exact hto (hprev.symm.trans (hkept prev hget))

end Directory

end PhiChain.Identity
