import PhiChain.Identity.Documents

/-!
# Identity: one human, one DID

Every registered DID holds one uniqueness marker and every marker leads to the DID that
carries its hash; markers are never removed, and the counter of identities counts the
documents. An attestation of an issuer, named by its nonce, registers once.

`uniquenessBijectionInvariant` is the check the module registers for the markers. A revoked
document never changes again (`revocation_final`).
-/

set_option autoImplicit false

namespace PhiChain.Identity

open Foundations Sdk

variable {k : Keeper} {env : Env} {w w' : World} {a : Action} {s : Store}

/-! ## Markers -/

def Store.checkMarked (s : Store) (d : DIDDocument) : Option String :=
  match s.uniqueness.get? d.uniquenessHash with
  | none => some "identity has no uniqueness marker for hash"
  | some did => if did ≠ d.did then some "identity uniqueness marker points to another DID" else none

def Store.checkMarker (s : Store) (hash did : Bytes) : Option String :=
  match s.getIdentity did with
  | none => some "uniqueness marker points to missing DID"
  | some d =>
    if d.uniquenessHash ≠ hash then some "uniqueness marker resolves to DID with another hash"
    else none

/-- First report over the documents, then over the markers. -/
def Store.uniquenessBijectionInvariant (s : Store) : Option String :=
  (s.directory.documents.findSome? s.checkMarked).or
    (s.uniqueness.entries.findSome? fun e => s.checkMarker e.1 e.2)

/-- Markers and documents are in one-to-one correspondence, and the documents are counted. -/
structure OneEach (s : Store) : Prop where
  marker : ∀ hash did, s.uniqueness.get? hash = some did ↔
    ∃ doc, s.getIdentity did = some doc ∧ doc.uniquenessHash = hash
  count : s.identityCount = s.directory.documents.length

/-- A hash leads back to one DID. -/
theorem OneEach.nodup_hashes (h : OneEach s) :
    (s.directory.documents.map DIDDocument.uniquenessHash).Nodup := by
  have hdids : (s.directory.documents.map DIDDocument.did).Nodup :=
    s.directory.identities.nodup_values_keys
  have hmarked : ∀ d ∈ s.directory.documents, s.uniqueness.get? d.uniquenessHash = some d.did :=
    fun d hd => (h.marker _ _).2 ⟨d, Directory.mem_documents.1 hd, rfl⟩
  refine (List.nodup_map_iff_inj_on (List.Nodup.of_map _ hdids)).2 fun d hd d' hd' hsame => ?_
  have hmarker := hmarked d' hd'
  rw [← hsame, hmarked d hd] at hmarker
  exact List.inj_on_of_nodup_map hdids hd hd' (Option.some.inj hmarker)

theorem uniquenessBijectionInvariant_of_oneEach (h : OneEach s) :
    s.uniquenessBijectionInvariant = none := by
  unfold Store.uniquenessBijectionInvariant
  rw [Option.or_eq_none_iff, List.findSome?_eq_none_iff, List.findSome?_eq_none_iff]
  constructor
  · intro d hd
    have hmarked : s.uniqueness.get? d.uniquenessHash = some d.did :=
      (h.marker _ _).2 ⟨d, Directory.mem_documents.1 hd, rfl⟩
    unfold Store.checkMarked
    rw [hmarked]
    exact if_neg (fun hne => hne rfl)
  · rintro ⟨hash, did⟩ he
    obtain ⟨doc, hdoc, hhash⟩ := (h.marker hash did).1 (OrdMap.mem_entries.1 he)
    unfold Store.checkMarker
    rw [hdoc]
    exact if_neg (fun hne => hne hhash)

theorem length_documents_setIdentity (dir : Directory) (now : Int) (d : DIDDocument) :
    (dir.setIdentity now d).documents.length =
      (dir.identities.records.put d.did d).entries.length := by
  unfold Directory.documents
  rw [Directory.identities_setIdentity, List.length_map]
  rfl

/-- A registration adds one document, under a hash and a DID that were both unused. -/
theorem oneEach_registered {msg : MsgRegisterIdentity} {params : Params} (h : OneEach s)
    (hnew : s.hasIdentity msg.did = false)
    (hunused : s.uniqueness.has msg.uniquenessHash = false) :
    OneEach { s.registered env msg with params := params } := by
  have hlookup : ∀ did, ({ s.registered env msg with params := params } : Store).getIdentity did =
      if msg.did = did then some (newDocument env msg) else s.getIdentity did := by
    intro did
    unfold Store.getIdentity
    have hset : ({ s.registered env msg with params := params } : Store).directory.identities =
        s.directory.identities.set (newDocument env msg) :=
      Directory.identities_setIdentity _ _ _
    rw [hset]
    exact KeyedMap.get?_set _ (newDocument env msg) did
  have hnone : s.getIdentity msg.did = none := OrdMap.has_eq_false.1 hnew
  have hunmarked : s.uniqueness.get? msg.uniquenessHash = none := OrdMap.has_eq_false.1 hunused
  constructor
  · intro hash did
    have hmarkers : ({ s.registered env msg with params := params } : Store).uniqueness.get? hash =
        if msg.uniquenessHash = hash then some msg.did else s.uniqueness.get? hash :=
      OrdMap.get?_put _ _ _ _
    rw [hmarkers, hlookup]
    by_cases hhash : msg.uniquenessHash = hash
    · rw [if_pos hhash]
      constructor
      · intro hdid
        cases hdid
        exact ⟨newDocument env msg, if_pos rfl, hhash⟩
      · rintro ⟨doc, hdoc, hsame⟩
        by_cases hdid : msg.did = did
        · rw [hdid]
        · rw [if_neg hdid] at hdoc
          -- another document with this hash would already hold the marker
          have hheld := (h.marker hash did).2 ⟨doc, hdoc, hsame⟩
          rw [← hhash, hunmarked] at hheld
          cases hheld
    · rw [if_neg hhash, h.marker]
      constructor
      · rintro ⟨doc, hdoc, hsame⟩
        refine ⟨doc, ?_, hsame⟩
        rw [if_neg ?_]
        · exact hdoc
        · rintro rfl
          rw [hnone] at hdoc
          cases hdoc
      · rintro ⟨doc, hdoc, hsame⟩
        by_cases hdid : msg.did = did
        · rw [if_pos hdid] at hdoc
          cases hdoc
          exact absurd hsame hhash
        · rw [if_neg hdid] at hdoc
          exact ⟨doc, hdoc, hsame⟩
  · have hlen := length_documents_setIdentity s.directory env.blockTime (newDocument env msg)
    have hadd := OrdMap.length_put_of_none (x := newDocument env msg)
      (m := s.directory.identities.records) (k := msg.did) hnone
    have hcount := h.count
    unfold Directory.documents at hcount
    rw [List.length_map] at hcount
    change s.identityCount + 1 =
      (s.directory.setIdentity env.blockTime (newDocument env msg)).documents.length
    rw [hlen, hcount]
    exact hadd.symm

/-- Any other message writes over a document with the same DID and hash. -/
theorem oneEach_of_same (h : OneEach w.store) (hsummary : Summary k env w a w')
    (hregistry : SameRegistry w.store w'.store)
    (hnot : ∀ msg, a = .registerIdentity msg → w.store.hasIdentity msg.did = true) :
    OneEach w'.store := by
  constructor
  · intro hash did
    rw [hregistry.uniqueness, h.marker]
    constructor
    · rintro ⟨doc, hdoc, hhash⟩
      obtain ⟨doc', hdoc', hsame, -⟩ := getIdentity_kept hsummary hdoc
      exact ⟨doc', hdoc', hsame.trans hhash⟩
    · rintro ⟨doc, hdoc, hhash⟩
      rcases getIdentity_cases hsummary hdoc with ⟨hwrites, rfl⟩ | hdoc
      · rcases hwrites.previous with ⟨msg, ha, rfl, hnew⟩ | ⟨prev, hprev, hsame, -⟩
        · have hhas : w.store.hasIdentity msg.did = false := hnew
          rw [hnot msg ha] at hhas
          cases hhas
        · exact ⟨prev, hprev, hsame.symm.trans hhash⟩
      · exact ⟨doc, hdoc, hhash⟩
  · rw [hregistry.identityCount, h.count]
    rcases hsummary.directory with hsame | ⟨d, hwrites, hset⟩
    · rw [hsame]
    · rw [hset, length_documents_setIdentity]
      rcases hwrites.previous with ⟨msg, ha, rfl, hnew⟩ | ⟨prev, hprev, -, -⟩
      · have hhas : w.store.hasIdentity msg.did = false := hnew
        rw [hnot msg ha] at hhas
        cases hhas
      · rw [OrdMap.length_put_of_get? hprev]
        exact List.length_map _

theorem oneEach_of_event (hevent : Event k env w a w') (h : OneEach w.store) : OneEach w'.store := by
  have hsummary := summary_of_event hevent
  rcases hsummary.registry with hregistry | ⟨msg, rfl, hnew, hunused, -, params, hstore⟩
  · refine oneEach_of_same h hsummary hregistry fun msg ha => ?_
    -- a registration always changes the registry: its counter grows
    subst ha
    cases hevent with
    | registered msg params => exact absurd hregistry.identityCount (Nat.succ_ne_self _)
  · rw [hstore]
    exact oneEach_registered h hnew hunused

/-! ## Attestations -/

/-- A registration that succeeds with this nonce of this issuer. -/
def registersWith (k : Keeper) (issuerDid nonce : Bytes) (w : World) (tx : Tx) : Bool :=
  match tx.action with
  | .registerIdentity msg =>
    msg.issuerDid = issuerDid ∧ msg.nonce = nonce ∧ isOk (apply k tx.env w tx.action) = true
  | _ => false

/-- Number of successful registrations of a run with this nonce of this issuer. -/
def nonceUses (k : Keeper) (issuerDid nonce : Bytes) : World → List Tx → Nat
  | _, [] => 0
  | w, tx :: rest =>
    (if registersWith k issuerDid nonce w tx then 1 else 0) +
      nonceUses k issuerDid nonce (step k w tx) rest

theorem nonce_of_verifyRegistration {msg : MsgRegisterIdentity}
    (h : verifyRegistration k env msg s = .ok ()) :
    s.issuerNonces.has (nulKey msg.issuerDid msg.nonce) = false := by
  simp only [verifyRegistration, bind_eq_ok, orFail_eq_ok, ensure_eq_ok, exists_const] at h
  obtain ⟨_, _, _, _, _, _, _, hnonce, _⟩ := h
  exact hnonce

/-- A used nonce stays used. -/
theorem nonceUsed_of_step {key : Bytes} (h : w.store.issuerNonces.has key = true) (tx : Tx) :
    (step k w tx).store.issuerNonces.has key = true := by
  refine step_preserves (p := fun w => w.store.issuerNonces.has key = true) h fun w' _ hevent => ?_
  rcases (summary_of_event hevent).registry with hregistry | ⟨msg, -, -, -, -, params, hstore⟩
  · rw [hregistry.issuerNonces]
    exact h
  · rw [hstore]
    exact OrdMap.has_put.2 (Or.inr h)

/-- A registration consumes a fresh nonce. -/
theorem nonce_of_registersWith {issuerDid nonce : Bytes} {tx : Tx}
    (h : registersWith k issuerDid nonce w tx = true) :
    w.store.issuerNonces.has (nulKey issuerDid nonce) = false ∧
      (step k w tx).store.issuerNonces.has (nulKey issuerDid nonce) = true := by
  obtain ⟨env, a⟩ := tx
  unfold registersWith at h
  split at h
  · rename_i msg haction
    dsimp only at haction
    subst haction
    obtain ⟨rfl, rfl, hok⟩ := of_decide_eq_true h
    obtain ⟨w', happly⟩ := isOk_iff.1 hok
    obtain ⟨-, hevent⟩ := event_of_apply happly
    have hstep : step k w ⟨env, .registerIdentity msg⟩ = w' := by
      unfold step
      dsimp only
      rw [happly]
      rfl
    rw [hstep]
    cases hevent with
    | registered _ params hnew hunused hverified =>
      exact ⟨nonce_of_verifyRegistration hverified, OrdMap.has_put.2 (Or.inl rfl)⟩
  · cases h

theorem nonceUses_eq_zero {issuerDid nonce : Bytes} {txs : List Tx}
    (h : w.store.issuerNonces.has (nulKey issuerDid nonce) = true) :
    nonceUses k issuerDid nonce w txs = 0 := by
  induction txs generalizing w with
  | nil => rfl
  | cons tx rest ih =>
    unfold nonceUses
    rw [if_neg ?_, ih (nonceUsed_of_step h tx)]
    intro huse
    rw [(nonce_of_registersWith huse).1] at h
    cases h

theorem nonceUses_le_one (k : Keeper) (issuerDid nonce : Bytes) (w : World) (txs : List Tx) :
    nonceUses k issuerDid nonce w txs ≤ 1 := by
  induction txs generalizing w with
  | nil => exact Nat.zero_le 1
  | cons tx rest ih =>
    unfold nonceUses
    split
    · rename_i huse
      rw [nonceUses_eq_zero (nonce_of_registersWith huse).2]
    · rw [Nat.zero_add]
      exact ih (step k w tx)

/-! ## Runs -/

/-- A registry without identities. -/
def emptyRegistry (bank : Bank) (params : Params) : World := ⟨bank, { Store.fresh with params := params }⟩

theorem oneEach_of_run (k : Keeper) (bank : Bank) (params : Params) (txs : List Tx) :
    OneEach (run (step k) (emptyRegistry bank params) txs).store := by
  refine @run_invariant _ _ (step k) (fun w => OneEach w.store) ?_ _ ?_ txs
  · intro w tx h
    exact step_preserves (p := fun w => OneEach w.store) h fun w' _ hevent => oneEach_of_event hevent h
  · constructor
    · intro hash did
      constructor
      · intro h
        cases h
      · rintro ⟨doc, h, -⟩
        cases h
    · rfl

/-- A marker is never changed or removed. -/
theorem marker_of_run {hash did : Bytes} (h : w.store.uniqueness.get? hash = some did)
    (txs : List Tx) : (run (step k) w txs).store.uniqueness.get? hash = some did := by
  refine @run_invariant _ _ (step k) (fun w => w.store.uniqueness.get? hash = some did) ?_ _ h txs
  intro w tx h
  refine step_preserves (p := fun w => w.store.uniqueness.get? hash = some did) h
    fun w' _ hevent => ?_
  rcases (summary_of_event hevent).registry with hregistry | ⟨msg, -, -, hunused, -, params, hstore⟩
  · rw [hregistry.uniqueness]
    exact h
  · rw [hstore]
    refine (OrdMap.get?_put_ne w.store.uniqueness msg.did ?_).trans h
    rintro rfl
    rw [OrdMap.has_eq_false.1 hunused] at h
    cases h

/-- One human, one DID: in every run from an empty registry. -/
theorem one_human_one_did (k : Keeper) (bank : Bank) (params : Params) (txs : List Tx) :
    (∀ hash did,
      (run (step k) (emptyRegistry bank params) txs).store.uniqueness.get? hash = some did ↔
        ∃ doc, (run (step k) (emptyRegistry bank params) txs).store.getIdentity did = some doc ∧
          doc.uniquenessHash = hash) ∧
      (∀ hash did later,
        (run (step k) (emptyRegistry bank params) txs).store.uniqueness.get? hash = some did →
          (run (step k) (emptyRegistry bank params) (txs ++ later)).store.uniqueness.get? hash =
            some did) ∧
      (run (step k) (emptyRegistry bank params) txs).store.identityCount =
        (run (step k) (emptyRegistry bank params) txs).store.directory.documents.length ∧
      (∀ issuerDid nonce, nonceUses k issuerDid nonce (emptyRegistry bank params) txs ≤ 1) ∧
      (run (step k) (emptyRegistry bank params) txs).store.uniquenessBijectionInvariant = none := by
  have honeEach := oneEach_of_run k bank params txs
  refine ⟨honeEach.marker, ?_, honeEach.count, ?_, uniquenessBijectionInvariant_of_oneEach honeEach⟩
  · intro hash did later h
    rw [run_append]
    exact marker_of_run h later
  · intro issuerDid nonce
    exact nonceUses_le_one k issuerDid nonce _ txs

/-! ## Revoked documents -/

/-- No message changes the document of a revoked DID. -/
theorem revoked_of_event {did : Bytes} {doc : DIDDocument} (hevent : Event k env w a w')
    (hrevoked : doc.status = .revoked) (hget : w.store.getIdentity did = some doc) :
    w'.store.getIdentity did = some doc := by
  rcases (summary_of_event hevent).directory with hsame | ⟨d, hwrites, hset⟩
  · exact (getIdentity_of_same hsame did).trans hget
  · rw [getIdentity_of_set hset]
    split
    · rename_i hdid
      subst hdid
      have hstored : ∀ {key doc'}, w.store.getIdentity key = some doc' → doc'.did = d.did →
          doc' = doc := by
        intro key doc' hdoc' hsame
        rw [← did_of_getIdentity hdoc', hsame, hget] at hdoc'
        exact (Option.some.inj hdoc').symm
      cases hwrites with
      | registered msg hnew => cases (hasIdentity_of_get hget).symm.trans hnew
      | revoked msg doc' hdoc' =>
        cases hstored hdoc' rfl
        rw [DIDDocument.withStatus, ← hrevoked]
      | restated msg doc' hdoc' hold =>
        cases hstored hdoc' rfl
        exact absurd hrevoked hold.1
      | rekeyed msg doc' derived hdoc' =>
        cases hstored hdoc' rfl
        cases hevent with
        | rekeyed _ doc'' _ _ hdoc'' _ hactive =>
          cases hdoc'.symm.trans hdoc''
          cases hrevoked.symm.trans hactive
      | recovered msg r doc' _ hdoc' hactive =>
        cases hstored hdoc' rfl
        cases hrevoked.symm.trans hactive
    · exact hget

/-- Whatever messages follow, the document of a revoked DID stays as it is. -/
theorem revocation_final (k : Keeper) (w : World) (txs : List Tx) {did : Bytes} {doc : DIDDocument}
    (hget : w.store.getIdentity did = some doc) (hrevoked : doc.status = .revoked) :
    (run (step k) w txs).store.getIdentity did = some doc := by
  refine @run_invariant _ _ (step k) (fun w => w.store.getIdentity did = some doc) ?_ _ hget txs
  exact fun w tx hw => step_preserves (p := fun w => w.store.getIdentity did = some doc) hw
    fun w' _ hevent => revoked_of_event hevent hrevoked hw

/-- Account 21 registers the DID of a key and revokes it. -/
def revokedWorld : World :=
  run (step smallKeeper) ⟨⟨∅, ∅⟩, Store.fresh⟩
    [⟨smallEnv 1, trustIssuer⟩, ⟨smallEnv 2, smallRegister (accAddressString [21]) 1⟩,
      ⟨smallEnv 3, .revokeIdentity ⟨accAddressString [21], smallDID 1⟩⟩]

/-- Neither governance nor a new registration brings the revoked DID back. -/
theorem revocation_final_small :
    ∃ doc, revokedWorld.store.getIdentity (smallDID 1) = some doc ∧ doc.status = .revoked ∧
      (run (step smallKeeper) revokedWorld
        [⟨smallEnv 4, .updateStatus ⟨smallKeeper.authority, smallDID 1, .active⟩⟩,
          ⟨smallEnv 5, smallRegister (accAddressString [21]) 1⟩]).store.getIdentity (smallDID 1) =
        some doc := by
  have hstatus : (revokedWorld.store.getIdentity (smallDID 1)).map DIDDocument.status =
      some .revoked := by decide +kernel
  obtain ⟨doc, hget, hrevoked⟩ := Option.map_eq_some_iff.1 hstatus
  exact ⟨doc, hget, hrevoked, revocation_final smallKeeper revokedWorld _ hget hrevoked⟩

end PhiChain.Identity
