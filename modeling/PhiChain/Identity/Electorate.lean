import PhiChain.Identity.Genesis
import PhiChain.Identity.Invariants

/-!
# The electorate of a frozen basis

Voting power is judged against a basis that was frozen once: a cutoff for the age of a
document, and the time of the freeze. `length_electorateAt_le` bounds the controllers that
were old enough by the number that x/identity reports, whose scan may stop early and then
reports too many. `newly_eligible_of_event` says how a controller can come to pass the test of
a basis after the freeze: it is handed a document that is old enough, by a registration or by
an executed recovery, in a second that is not later than the freeze, or the basis carries no
time.
-/

set_option autoImplicit false

namespace PhiChain.Identity

open Foundations Sdk

variable {r : ControllerEligibility}

namespace Directory

variable {dir : Directory} {c : Bytes} {cutoff : Int}

/-- Controllers with a document that is not revoked and not younger than the cutoff. -/
def electorateAt (dir : Directory) (cutoff : Int) : List Bytes :=
  (dir.eligibility.entries.filter fun e => e.2.oldest ≤ cutoff).map Prod.fst

theorem mem_electorateAt :
    c ∈ dir.electorateAt cutoff ↔ ∃ r, dir.eligibility.get? c = some r ∧ r.oldest ≤ cutoff := by
  unfold electorateAt
  rw [List.mem_map]
  constructor
  · rintro ⟨e, he, rfl⟩
    obtain ⟨hmem, hold⟩ := List.mem_filter.1 he
    exact ⟨e.2, OrdMap.mem_entries.1 hmem, of_decide_eq_true hold⟩
  · rintro ⟨r, hr, hold⟩
    exact ⟨(c, r), List.mem_filter.2 ⟨OrdMap.mem_entries.2 hr, decide_eq_true hold⟩, rfl⟩

theorem nodup_electorateAt (dir : Directory) (cutoff : Int) : (dir.electorateAt cutoff).Nodup :=
  dir.eligibility.nodup_keys.sublist (List.filter_sublist.map Prod.fst)

/-! ## The reported number -/

/-- The scan counts entries above the cutoff only. -/
theorem countNewer_le (cutoff : Int) (ceiling : Nat) (es : List (AgeKey × Unit)) (n : Nat) :
    (countNewer cutoff ceiling es n).1 ≤
      n + (es.filter fun e => cutoff < (ofLex e.1).1).length := by
  induction es generalizing n with
  | nil => exact Nat.le_refl n
  | cons e rest ih =>
    unfold countNewer
    split
    · exact Nat.le_add_right n _
    · split
      · exact Nat.le_add_right n _
      · rename_i hnewer
        have hcounted : decide (cutoff < (ofLex e.1).1) = true := decide_eq_true (not_le.1 hnewer)
        have hrest := ih (n + 1)
        rw [List.filter_cons, if_pos hcounted, List.length_cons]
        omega

/-- Above the cutoff the mirror has as many entries as there are records. -/
theorem length_newer (h : Mirrored dir) (cutoff : Int) :
    (dir.eligibilityByAge.entries.filter fun e => cutoff < (ofLex e.1).1).length =
      (dir.eligibility.entries.filter fun e => cutoff < e.2.oldest).length := by
  have hperm := ((mirror_perm h).filter fun key => cutoff < (ofLex key).1).length_eq
  rw [List.filter_map, List.filter_map, List.length_map, List.length_map] at hperm
  exact hperm

/-- A controller with a record is old enough or newer than the cutoff. -/
theorem length_electorateAt_add (dir : Directory) (cutoff : Int) :
    (dir.electorateAt cutoff).length +
      (dir.eligibility.entries.filter fun e => cutoff < e.2.oldest).length =
        dir.eligibility.entries.length := by
  have hsplit := List.length_eq_length_filter_add (l := dir.eligibility.entries)
    fun e => decide (e.2.oldest ≤ cutoff)
  have hnewer : (dir.eligibility.entries.filter fun e => cutoff < e.2.oldest) =
      dir.eligibility.entries.filter fun e => !decide (e.2.oldest ≤ cutoff) := by
    refine List.filter_congr fun e _ => ?_
    rw [← decide_not]
    exact decide_eq_decide.2 not_le.symm
  rw [electorateAt, List.length_map, hnewer]
  exact hsplit.symm

/-- The controllers that are old enough are not more than the number reported. -/
theorem length_electorateAt_le (h : Mirrored dir) (cutoff : Int) :
    (dir.electorateAt cutoff).length ≤ dir.countEligibleControllersAt cutoff 0 := by
  have hsplit := dir.length_electorateAt_add cutoff
  have hscan := countNewer_le (cutoff - 0) maxEligibilityTailScan
    dir.eligibilityByAge.entries.reverse 0
  rw [Int.sub_zero, List.filter_reverse, List.length_reverse, length_newer h cutoff] at hscan
  unfold countEligibleControllersAt countEligibleNewerThanCapped
  dsimp only
  rw [h.total, Int.sub_zero]
  split
  · omega
  · omega

/-! ## Records after a write -/

theorem isEligibleControllerSince_iff {t minAge since : Int} :
    dir.isEligibleControllerSince c t minAge since = true ↔
      ∃ r, dir.eligibility.get? c = some r ∧ r.oldest ≤ t - minAge ∧
        (since = 0 ∨ r.eligibleSince ≤ since) := by
  unfold isEligibleControllerSince
  cases hget : dir.eligibility.get? c with
  | none => simp
  | some r =>
    dsimp only
    split
    · rename_i hyoung
      simp [not_le.2 hyoung]
    · rename_i hold
      simp [not_lt.1 hold]

/-- The oldest document behind a record. -/
theorem document_of_record (h : Indexed dir) (hr : dir.eligibility.get? c = some r) :
    ∃ e, dir.identities.get? e.did = some e ∧ e.controller = c ∧ e.status ≠ .revoked ∧
      e.createdAt = r.oldest := by
  have hold : oldestAmong (dir.recordsOf c) = some r.oldest := by
    rw [← (h.current c).1]
    exact recordedOldest_of_get? hr
  obtain ⟨e, he, hcreated⟩ := List.mem_map.1 (List.min?_mem hold)
  obtain ⟨hrecord, hstatus⟩ := List.mem_filter.1 he
  obtain ⟨hget, hc⟩ := mem_recordsOf.1 hrecord
  exact ⟨e, hget, hc, of_decide_eq_true hstatus, hcreated⟩

/-- A document that stands gives its controller a record that is not younger. -/
theorem record_of_document (h : Indexed dir) {e : DIDDocument}
    (hget : dir.identities.get? e.did = some e) (hstatus : e.status ≠ .revoked) :
    ∃ r, dir.eligibility.get? e.controller = some r ∧ r.oldest ≤ e.createdAt := by
  have hmem : e.createdAt ∈ ((dir.recordsOf e.controller).filter fun d => d.status ≠ .revoked).map
      DIDDocument.createdAt :=
    List.mem_map.2 ⟨e, List.mem_filter.2 ⟨mem_recordsOf.2 ⟨hget, rfl⟩, decide_eq_true hstatus⟩, rfl⟩
  obtain ⟨t, ht⟩ := Option.isSome_iff_exists.1 (List.isSome_min?_of_mem hmem)
  have hrecorded : dir.recordedOldest e.controller = some t := (h.current e.controller).1.trans ht
  obtain ⟨r, hr, holdest⟩ := Option.map_eq_some_iff.1 hrecorded
  refine ⟨r, hr, ?_⟩
  rw [holdest]
  exact (List.min?_eq_some_iff.1 ht).2 _ hmem

/-- The record of a controller after a write: an earlier one that has not become older and
keeps its stamp, or one that is stamped now and older than any before. -/
theorem since_setIdentity (h : Linked dir) (now : Int) (d : DIDDocument)
    (hr : (dir.setIdentity now d).eligibility.get? c = some r) :
    (∃ prev, dir.eligibility.get? c = some prev ∧ prev.oldest ≤ r.oldest ∧
      r.eligibleSince = prev.eligibleSince) ∨
    r.eligibleSince = now ∧ ∀ prev, dir.eligibility.get? c = some prev → r.oldest < prev.oldest := by
  -- the records before the write are those on which a controller is rebuilt
  have hfirst : ∀ r, ((dir.putDocument d).refresh now d.controller).eligibility.get? c = some r →
      (∃ prev, dir.eligibility.get? c = some prev ∧ prev.oldest ≤ r.oldest ∧
        r.eligibleSince = prev.eligibleSince) ∨
      r.eligibleSince = now ∧
        ∀ prev, dir.eligibility.get? c = some prev → r.oldest < prev.oldest := by
    intro r hr
    have hrefreshed := refreshed_refresh (dir.putDocument d) now d.controller
    by_cases hto : c = d.controller
    · subst hto
      exact hrefreshed.since r hr
    · rw [hrefreshed.others c hto] at hr
      exact Or.inl ⟨r, hr, Int.le_refl _, rfl⟩
  rcases setIdentity_cases h now d with ⟨prev, -, hmoved, heq⟩ | ⟨-, heq⟩
  · rw [heq] at hr
    have hrefreshed := refreshed_refresh ((dir.putDocument d).refresh now d.controller) now
      prev.controller
    by_cases hfrom : c = prev.controller
    · subst hfrom
      have hsame := (refreshed_refresh (dir.putDocument d) now d.controller).others _ hmoved
      have hsince := hrefreshed.since r hr
      rw [hsame] at hsince
      exact hsince
    · rw [hrefreshed.others c hfrom] at hr
      exact hfirst r hr
  · rw [heq] at hr
    exact hfirst r hr

/-- A record that is stamped by a write is that of the controller the document is written to,
and the document is its oldest. -/
theorem eligibility_setIdentity (h : Indexed dir) (now : Int) {d : DIDDocument}
    (hd : Nameable d.controller) (hr : (dir.setIdentity now d).eligibility.get? c = some r) :
    (∃ prev, dir.eligibility.get? c = some prev ∧ prev.oldest ≤ r.oldest ∧
      r.eligibleSince = prev.eligibleSince) ∨
    (r.eligibleSince = now ∧ ∀ prev, dir.eligibility.get? c = some prev → r.oldest < prev.oldest) ∧
      d.controller = c ∧ d.status ≠ .revoked ∧ d.createdAt = r.oldest := by
  rcases since_setIdentity h.linked now d hr with hkept | ⟨hnow, hyounger⟩
  · exact Or.inl hkept
  · obtain ⟨e, hget, hcontroller, hstatus, hcreated⟩ :=
      document_of_record (indexed_setIdentity h now hd) hr
    rw [identities_setIdentity, KeyedMap.get?_set] at hget
    split at hget
    · cases hget
      exact Or.inr ⟨⟨hnow, hyounger⟩, hcontroller, hstatus, hcreated⟩
    · -- a document of before the write is behind a record of before it
      obtain ⟨prev, hprev, hle⟩ := record_of_document h hget hstatus
      have hlt := hyounger prev (hcontroller ▸ hprev)
      omega

end Directory

/-! ## Messages -/

section Messages

variable {k : Keeper} {env : Env} {w w' : World} {a : Action} {c : Bytes}

/-- Creation time of the document that a message hands to a controller. -/
def Action.grants (env : Env) (s : Store) : Action → Option Int
  | .registerIdentity _ => some env.blockTime
  | .executeRecovery msg =>
    (s.getRecoveryRequest msg.recoveryId).bind fun r =>
      (s.getIdentity r.did).map DIDDocument.createdAt
  | _ => none

/-- A document that stands was handed over, or stood before with its controller. -/
theorem granted_of_writes {d : DIDDocument} (h : Writes k env w a d) (hstatus : d.status ≠ .revoked) :
    a.grants env w.store = some d.createdAt ∨
      ∃ prev, w.store.getIdentity d.did = some prev ∧ prev.controller = d.controller ∧
        prev.createdAt = d.createdAt ∧ prev.status ≠ .revoked := by
  cases h with
  | registered msg => exact Or.inl rfl
  | revoked msg doc => exact absurd rfl hstatus
  | restated msg doc hdoc hold =>
    exact Or.inr ⟨doc, (did_of_getIdentity hdoc).symm ▸ hdoc, rfl, rfl, hold.1⟩
  | rekeyed msg doc derived hdoc =>
    exact Or.inr ⟨doc, (did_of_getIdentity hdoc).symm ▸ hdoc, rfl, rfl, hstatus⟩
  | recovered msg r doc hget hdoc =>
    refine Or.inl ?_
    unfold Action.grants
    dsimp only
    rw [hget, Option.bind_some, hdoc]
    rfl

/-- A controller that comes to pass the test of a basis was just handed a document that is old
enough, not later than the basis was frozen. -/
theorem newly_eligible_of_event {cutoff frozenAt : Int} (hbasic : a.validateBasic = .ok ())
    (hevent : Event k env w a w') (h : Sound Nameable w.store)
    (hpass : w'.store.directory.isEligibleControllerSince c cutoff 0 frozenAt = true) :
    w.store.directory.isEligibleControllerSince c cutoff 0 frozenAt = true ∨
      ∃ created, a.grants env w.store = some created ∧ created ≤ cutoff ∧
        (frozenAt = 0 ∨ env.blockTime ≤ frozenAt) := by
  rcases (summary_of_event hevent).directory with hsame | ⟨d, hwrites, hset⟩
  · rw [hsame] at hpass
    exact Or.inl hpass
  · rw [hset] at hpass
    obtain ⟨r, hr, hold, hsince⟩ := Directory.isEligibleControllerSince_iff.1 hpass
    have hd := controller_of_writes h.controlled (nameable_newController hbasic) hwrites
    rcases Directory.eligibility_setIdentity h.indexed _ hd hr with
      ⟨prev, hprev, hle, hstamp⟩ | ⟨⟨hnow, hyounger⟩, hcontroller, hstatus, hcreated⟩
    · refine Or.inl (Directory.isEligibleControllerSince_iff.2 ⟨prev, hprev, by omega, ?_⟩)
      rw [← hstamp]
      exact hsince
    · rcases granted_of_writes hwrites hstatus with hgrants | ⟨prev, hprev, hsame, hborn, hstood⟩
      · refine Or.inr ⟨d.createdAt, hgrants, by omega, ?_⟩
        rw [← hnow]
        exact hsince
      · -- the document stood before, so there was a record that is not younger
        obtain ⟨r', hr', hle⟩ := Directory.record_of_document h.indexed
          ((did_of_getIdentity hprev).symm ▸ hprev) hstood
        have hlt := hyounger r' (hcontroller ▸ hsame ▸ hr')
        omega

end Messages

/-! ## Genesis -/

section Genesis

variable {k : Keeper} {env : Env} {w : World} {gs : GenesisState} {bank : Bank}

theorem controllers_of_validate {seenDID seenUniq : List Bytes} {ds : List DIDDocument}
    (h : validateGenesisIdentities seenDID seenUniq ds = .ok ()) :
    ∀ d ∈ ds, Nameable d.controller := by
  induction ds generalizing seenDID seenUniq with
  | nil => exact fun d hd => absurd hd List.not_mem_nil
  | cons d rest ih =>
    simp only [validateGenesisIdentities, bind_eq_ok] at h
    obtain ⟨⟨⟩, hfirst, hrest⟩ := h
    simp only [validateGenesisIdentity, bind_eq_ok, ensure_eq_ok, exists_const] at hfirst
    obtain ⟨-, -, -, -, haddress, -⟩ := hfirst
    intro d' hd'
    rcases List.mem_cons.1 hd' with rfl | hd'
    · obtain ⟨addr, haddr⟩ := Option.isSome_iff_exists.1 haddress
      exact nameable_of_address haddr
    · exact ih hrest d' hd'

/-- Restored stamps leave the ages of the records alone. -/
theorem indexed_restoreEligibleSince {dir : Directory} (h : dir.Indexed)
    (e : Bytes × ControllerEligibility) : (restoreEligibleSince dir e).Indexed := by
  unfold restoreEligibleSince
  split
  · exact h
  · split
    · exact h
    · rename_i rebuilt hget
      have hold : ∀ c, Directory.recordedOldest
          { dir with eligibility := dir.eligibility.put e.1 ⟨rebuilt.oldest, e.2.eligibleSince⟩ } c =
            dir.recordedOldest c := by
        intro c
        unfold Directory.recordedOldest
        dsimp only
        rw [OrdMap.get?_put]
        split
        · rename_i hc
          rw [← hc, hget]
          rfl
        · rfl
      refine ⟨⟨h.linked.named, h.linked.index⟩, ⟨fun t c => ?_, ?_⟩, fun c => ⟨?_, (h.current c).2⟩⟩
      · rw [hold]
        exact h.mirrored.mirror t c
      · exact h.mirrored.total.trans (OrdMap.length_put_of_get? hget _).symm
      · rw [hold]
        exact (h.current c).1

theorem indexed_foldl_restoreEligibleSince {es : List (Bytes × ControllerEligibility)}
    {dir : Directory} (h : dir.Indexed) : (es.foldl restoreEligibleSince dir).Indexed := by
  induction es generalizing dir with
  | nil => exact h
  | cons e rest ih => exact ih (indexed_restoreEligibleSince h e)

theorem indexed_foldl_importIdentity {ds : List DIDDocument} {s : Store} (h : s.directory.Indexed)
    (hds : ∀ d ∈ ds, Nameable d.controller) :
    (ds.foldl (importIdentity env) s).directory.Indexed := by
  induction ds generalizing s with
  | nil => exact h
  | cons d rest ih =>
    refine ih ?_ fun d' hd' => hds d' (List.mem_cons_of_mem _ hd')
    exact Directory.indexed_setIdentity h env.blockTime (hds d List.mem_cons_self)

theorem opened_directory (rs : List RecoveryRequest) (s : Store) :
    (rs.foldl Store.opened s).directory = s.directory := by
  induction rs generalizing s with
  | nil => rfl
  | cons r rest ih => exact ih (s.opened r)

theorem indexed_importStore (hvalid : gs.validate k = .ok ()) :
    (importStore env gs).directory.Indexed := by
  simp only [GenesisState.validate, bind_eq_ok] at hvalid
  obtain ⟨-, -, ⟨⟩, hidentities, -⟩ := hvalid
  have hrecords : (importRecords env gs).directory.Indexed := by
    unfold importRecords
    dsimp only
    rw [opened_directory]
    exact indexed_foldl_importIdentity Directory.indexed_fresh (controllers_of_validate hidentities)
  exact indexed_foldl_restoreEligibleSince hrecords

/-- An accepted genesis starts with sound indexes. -/
theorem sound_of_initGenesis (h : initGenesis k env gs bank = .ok w) : Sound Nameable w.store := by
  obtain ⟨hstarted, hlisted⟩ := started_of_initGenesis h
  simp only [initGenesis, bind_eq_ok, pure_eq_ok] at h
  obtain ⟨⟨⟩, hvalid, rfl⟩ := h
  have hindexed : (importStore env gs).directory.Indexed := indexed_importStore hvalid
  refine ⟨hstarted.filed, ⟨?_, ?_⟩, hindexed⟩
  · intro did doc hdoc
    exact hindexed.linked.named doc
      (Directory.mem_documents.2 ((did_of_getIdentity hdoc).symm ▸ hdoc))
  · intro id r hget
    simp only [GenesisState.validate, bind_eq_ok, ensure_eq_ok, exists_const] at hvalid
    obtain ⟨⟨⟩, -, -, -, -, -, -, -, -, -, -, -, -, -, -, ⟨⟩, hrequests, -⟩ := hvalid
    obtain ⟨heach, -⟩ :=
      Institutions.checkEach_ok (fun d r hr => (validRequest_of_validate hr).1) hrequests
    have hrequest := (heach r (hlisted id r hget)).1
    simp only [GenesisState.validateRequest, bind_eq_ok, ensure_eq_ok, exists_const] at hrequest
    obtain ⟨-, -, -, -, haddress, -⟩ := hrequest
    obtain ⟨addr, haddr⟩ := Option.isSome_iff_exists.1 haddress
    exact nameable_of_address haddr

end Genesis

end PhiChain.Identity
