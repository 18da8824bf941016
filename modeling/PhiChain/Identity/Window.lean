import PhiChain.Identity.Genesis

/-!
# Identity: the window of a recovery request

Between the opening of a request and its execution the owner may cancel it. A suspension of
the DID stops the clock of its requests: it stamps them, and a reinstatement moves the start
of execution by what was left when the stamp was set and gives them a new lifetime.

`Timeline` keeps beside the world for how long each DID has been active, and for each request
the delay in force and that time at its opening. `Watched` says how the stored times of a
request bound the active time that has passed since.
-/

set_option autoImplicit false

namespace PhiChain.Identity

open Foundations Sdk

variable {k : Keeper} {env : Env} {w w' : World} {s : Store} {a : Action} {did : Bytes}
  {r : RecoveryRequest}

/-! ## Status over one message -/

def Store.statusOf (s : Store) (did : Bytes) : Option DIDStatus :=
  (s.getIdentity did).map DIDDocument.status

theorem statusOf_of_get {doc : DIDDocument} (h : s.getIdentity did = some doc) :
    s.statusOf did = some doc.status := by
  unfold Store.statusOf
  rw [h]
  rfl

/-- The status of a registered DID is changed by the authority, or by a revocation. -/
theorem statusOf_of_event {status : DIDStatus} (hevent : Event k env w a w')
    (hbefore : w.store.statusOf did = some status) :
    w'.store.statusOf did = some status ∨
    (∃ msg, a = .revokeIdentity msg ∧ msg.did = did) ∨
    ∃ msg, a = .updateStatus msg ∧ msg.did = did ∧ status ≠ msg.newStatus ∧
      (msg.newStatus = .active ∨ msg.newStatus = .suspended) ∧
      w'.store.statusOf did = some msg.newStatus := by
  obtain ⟨doc, hdoc, hstatus⟩ := Option.map_eq_some_iff.1 hbefore
  rcases (summary_of_event hevent).directory with hsame | ⟨d, hwrites, hset⟩
  · left
    rw [statusOf_of_get ((getIdentity_of_same hsame did).trans hdoc), hstatus]
  · have hafter := getIdentity_of_set hset did
    by_cases hdid : d.did = did
    · rw [if_pos hdid] at hafter
      rw [statusOf_of_get hafter]
      -- the document written is a version of the one that was there
      cases hwrites with
      | registered msg hnew =>
        have hnamed : msg.did = did := hdid
        rw [hnamed, hasIdentity_of_get hdoc] at hnew
        cases hnew
      | revoked msg prev hprev =>
        exact Or.inr (Or.inl ⟨msg, rfl, (did_of_getIdentity hprev).symm.trans hdid⟩)
      | restated msg prev hprev hold hnew =>
        have hnamed : msg.did = did := (did_of_getIdentity hprev).symm.trans hdid
        rw [hnamed, hdoc] at hprev
        cases hprev
        exact Or.inr (Or.inr ⟨msg, rfl, hnamed, hstatus ▸ hold.2, hnew, rfl⟩)
      | rekeyed msg prev derived hprev =>
        have hnamed : msg.did = did := (did_of_getIdentity hprev).symm.trans hdid
        rw [hnamed, hdoc] at hprev
        cases hprev
        exact Or.inl (congrArg some hstatus)
      | recovered msg req prev hget hprev =>
        have hnamed : req.did = did := (did_of_getIdentity hprev).symm.trans hdid
        rw [hnamed, hdoc] at hprev
        cases hprev
        exact Or.inl (congrArg some hstatus)
    · rw [if_neg hdid] at hafter
      left
      rw [statusOf_of_get (hafter.trans hdoc), hstatus]

theorem statusOf_setIdentity (s : Store) (env : Env) (d : DIDDocument) :
    (s.setIdentity env d).statusOf d.did = some d.status := by
  refine statusOf_of_get ?_
  unfold Store.getIdentity Store.setIdentity
  dsimp only
  rw [Directory.identities_setIdentity]
  exact (KeyedMap.get?_set _ d d.did).trans (if_pos rfl)

/-- The authority's message sets the status it names. -/
theorem statusOf_of_updateStatus {msg : MsgUpdateStatus}
    (hevent : Event k env w (.updateStatus msg) w') :
    w'.store.statusOf msg.did = some msg.newStatus := by
  cases hevent with
  | suspended _ doc _ hdoc _ hnew =>
    obtain ⟨_, _, hput⟩ := putAll_eq (w.store.setIdentity env (doc.withStatus .suspended))
      (w.store.frozenRequests env msg.did)
    rw [hput, ← did_of_getIdentity hdoc, hnew]
    exact statusOf_setIdentity w.store env (doc.withStatus .suspended)
  | reinstated _ doc _ hdoc _ hnew =>
    obtain ⟨_, _, hput⟩ := putAll_eq (w.store.setIdentity env (doc.withStatus .active))
      (w.store.thawedRequests env msg.did)
    rw [hput, ← did_of_getIdentity hdoc, hnew]
    exact statusOf_setIdentity w.store env (doc.withStatus .active)
  | restated _ doc _ hdoc =>
    rw [← did_of_getIdentity hdoc]
    exact statusOf_setIdentity w.store env (doc.withStatus msg.newStatus)

/-! ## Requests over one message -/

/-- Every stored request is open. -/
def AllPending (s : Store) : Prop := ∀ id r, s.getRecoveryRequest id = some r → r.status = .pending

theorem allPending_of_event (hbasic : a.validateBasic = .ok ()) (hevent : Event k env w a w')
    (hfiled : Filed w.store) (h : AllPending w.store) : AllPending w'.store := by
  intro id r hget
  cases origin_of_event hbasic hevent hfiled hget with
  | kept _ _ hstored => exact h _ r hstored
  | opened msg doc => rfl
  | frozen msg r' _ hstored | thawed msg r' _ hstored | tallied _ r' _ _ hstored =>
    exact h _ r' hstored

variable {msg : MsgInitiateRecovery} {tx : Tx}

/-- An initiation leaves the request it opened. -/
theorem get_of_initiated (hevent : Event k env w (.initiateRecovery msg) w') :
    w'.store.getRecoveryRequest (msg.request k env w.store.params).recoveryId =
      some (msg.request k env w.store.params) := by
  cases hevent with
  | initiated _ doc initiator w₁ w₂ =>
    have hset := getRecoveryRequest_set w₂.store (msg.request k env w.store.params)
      (msg.request k env w.store.params).recoveryId
    rw [if_pos rfl] at hset
    exact hset

/-- A request is opened for an active DID, which stays active. -/
theorem active_of_initiated (hevent : Event k env w (.initiateRecovery msg) w') :
    w'.store.statusOf msg.did = some .active := by
  have hbefore : w.store.statusOf msg.did = some .active := by
    cases hevent with
    | initiated _ doc _ _ _ hdoc hactive =>
      rw [statusOf_of_get hdoc, hactive]
  rcases statusOf_of_event hevent hbefore with hsame | ⟨_, haction, -⟩ | ⟨_, haction, -⟩
  · exact hsame
  · cases haction
  · cases haction

/-! ## The clock of a request -/

/-- What the stored times of a request say about the time `waited` for which its DID has been
active since the opening, `delay` being the delay then in force. -/
inductive Watched (s : Store) (now delay waited : Int) (r : RecoveryRequest) : Prop
  -- the lifetime is over, and no suspension holds the request
  | lapsed (hfree : r.frozenAt = 0) (hover : r.expiresAt < now)
  | running (hactive : s.statusOf r.did = some .active) (hfree : r.frozenAt = 0)
      (howed : delay ≤ waited + max 0 (r.executeAfter - now))
  -- the clock stands at the stamp
  | held (hsuspended : s.statusOf r.did = some .suspended) (hheld : r.frozenAt ≠ 0)
      (howed : delay ≤ waited + max 0 (r.executeAfter - r.frozenAt))

/-- Time counted for a DID between two blocks. -/
def Store.activeTime (s : Store) (did : Bytes) (start finish : Int) : Int :=
  if s.statusOf did = some .active then finish - start else 0

variable {now later delay waited : Int}

/-- Time passes: an active DID's clock runs, a suspended one's stands. -/
theorem watched_tick (h : Watched s now delay waited r) (hlater : now ≤ later) :
    Watched s later delay (waited + s.activeTime r.did now later) r := by
  cases h with
  | lapsed hfree hover => exact Watched.lapsed hfree (lt_of_lt_of_le hover hlater)
  | running hactive hfree howed =>
    refine Watched.running hactive hfree ?_
    unfold Store.activeTime
    rw [if_pos hactive]
    omega
  | held hsuspended hheld howed =>
    refine Watched.held hsuspended hheld ?_
    unfold Store.activeTime
    rw [if_neg (by rw [hsuspended]; nofun)]
    omega

/-- A request that a message passes over stays watched, or its lifetime is over. -/
theorem watched_of_passedOver (hevent : Event k env w a w') (hpending : r.status = .pending)
    (hpassed : PassedOver env w a r) (h : Watched w.store env.blockTime delay waited r) :
    Watched w'.store env.blockTime delay waited r := by
  cases h with
  | lapsed hfree hover => exact Watched.lapsed hfree hover
  | running hactive hfree howed =>
    rcases statusOf_of_event hevent hactive with hsame | ⟨msg, rfl, hdid⟩ | ⟨msg, rfl, hdid, -⟩
    · exact Watched.running hsame hfree howed
    · exact absurd hpending (hpassed.standing msg rfl hdid)
    · obtain ⟨doc, hdoc, hstatus⟩ := Option.map_eq_some_iff.1 hactive
      have hkept := (hpassed.held msg doc rfl hdid (hdid ▸ hdoc)).1 hstatus
      unfold RecoveryRequest.freezes at hkept
      have hover : ¬ env.blockTime ≤ r.expiresAt := fun hlive =>
        of_decide_eq_false hkept ⟨hpending, hfree, hlive⟩
      exact Watched.lapsed hfree (not_le.1 hover)
  | held hsuspended hheld howed =>
    rcases statusOf_of_event hevent hsuspended with hsame | ⟨msg, rfl, hdid⟩ | ⟨msg, rfl, hdid, -⟩
    · exact Watched.held hsame hheld howed
    · exact absurd hpending (hpassed.standing msg rfl hdid)
    · obtain ⟨doc, hdoc, hstatus⟩ := Option.map_eq_some_iff.1 hsuspended
      have hkept := (hpassed.held msg doc rfl hdid (hdid ▸ hdoc)).2 hstatus
      exact absurd ⟨hheld, hpending⟩ (of_decide_eq_false hkept)

/-- A suspension stops the clock of a request that is not over. -/
theorem watched_freeze (hstatus : w'.store.statusOf r.did = some .suspended)
    (hfreezes : r.freezes env = true) (hpositive : 0 < env.blockTime)
    (hactive : w.store.statusOf r.did = some .active)
    (h : Watched w.store env.blockTime delay waited r) :
    Watched w'.store env.blockTime delay waited (r.freeze env.blockTime) := by
  unfold RecoveryRequest.freezes at hfreezes
  obtain ⟨-, -, hlive⟩ := of_decide_eq_true hfreezes
  cases h with
  | lapsed hfree hover => omega
  | running _ hfree howed => exact Watched.held hstatus (ne_of_gt hpositive) howed
  | held hsuspended =>
    rw [hactive] at hsuspended
    cases hsuspended

/-- The start of execution that a reinstatement sets, when it fits 64 bits. -/
theorem thaw_executeAfter {ttl : Int}
    (hfits : r.frozenAt < r.executeAfter → env.blockTime + (r.executeAfter - r.frozenAt) < 2 ^ 63)
    (hpositive : 0 < env.blockTime) :
    (r.thaw env.blockTime ttl).executeAfter =
      if r.frozenAt < r.executeAfter then env.blockTime + (r.executeAfter - r.frozenAt)
      else r.executeAfter := by
  unfold RecoveryRequest.thaw
  dsimp only
  split
  · rename_i hleft
    have hsum := hfits hleft
    rw [int64_of_inInt64 (v := r.executeAfter - r.frozenAt) ⟨by omega, by omega⟩,
      int64_of_inInt64 ⟨by omega, hsum⟩]
  · rfl

/-- A reinstatement lets the clock run on from the stamp. -/
theorem watched_thaw {ttl : Int} (hstatus : w'.store.statusOf r.did = some .active)
    (hthaws : r.thaws = true) (hpositive : 0 < env.blockTime)
    (hfits : r.frozenAt < r.executeAfter → env.blockTime + (r.executeAfter - r.frozenAt) < 2 ^ 63)
    (h : Watched w.store env.blockTime delay waited r) :
    Watched w'.store env.blockTime delay waited (r.thaw env.blockTime ttl) := by
  unfold RecoveryRequest.thaws at hthaws
  obtain ⟨hheld, -⟩ := of_decide_eq_true hthaws
  cases h with
  | lapsed hfree | running _ hfree => exact absurd hfree hheld
  | held _ _ howed =>
    refine Watched.running hstatus rfl ?_
    rw [thaw_executeAfter hfits hpositive]
    split
    · omega
    · omega

/-- A new request: its delay lies ahead, unless the end of its lifetime does not fit 64 bits. -/
theorem watched_request {params : Params} (hactive : s.statusOf msg.did = some .active)
    (hpositive : 0 < env.blockTime) (hwindow : 0 < params.recoveryDelaySeconds ∧
      params.recoveryDelaySeconds < params.recoveryRequestTtlSeconds) :
    Watched s env.blockTime params.recoveryDelaySeconds 0 (msg.request k env params) := by
  obtain ⟨-, -, -, httl⟩ := params.int64Fields
  have hnow := env.timeFits.2
  by_cases hfits : env.blockTime + params.recoveryRequestTtlSeconds < 2 ^ 63
  · refine Watched.running hactive rfl ?_
    show _ ≤ 0 + max 0 (int64 (env.blockTime + params.recoveryDelaySeconds) - env.blockTime)
    rw [int64_of_inInt64 ⟨by omega, by omega⟩]
    omega
  · refine Watched.lapsed rfl ?_
    show int64 (env.blockTime + params.recoveryRequestTtlSeconds) < env.blockTime
    rw [int64_of_le (by omega) (by omega)]
    omega

/-! ## Timelines -/

/-- The opening of a request: the delay in force, and for how long the DID had been active. -/
structure Opening where
  delay : Int
  activeBefore : Int

/-- A world, the time of its last block, for how long each DID has been active, and the openings
of the requests. -/
structure Timeline where
  world : World
  now : Int
  active : Bytes → Int
  openings : Bytes → Option Opening

/-- For how long a DID has been active at a later block. -/
def Timeline.activeAt (t : Timeline) (later : Int) (did : Bytes) : Int :=
  t.active did + t.world.store.activeTime did t.now later

/-- The openings after a transaction. -/
def Timeline.openingsAfter (k : Keeper) (t : Timeline) (tx : Tx) (id : Bytes) : Option Opening :=
  match tx.action with
  | .initiateRecovery msg =>
    if isOk (apply k tx.env t.world tx.action) = true ∧
        (msg.request k tx.env t.world.store.params).recoveryId = id then
      some ⟨t.world.store.params.recoveryDelaySeconds, t.activeAt tx.env.blockTime msg.did⟩
    else t.openings id
  | _ => t.openings id

def timelineStep (k : Keeper) (t : Timeline) (tx : Tx) : Timeline where
  world := step k t.world tx
  now := tx.env.blockTime
  active := t.activeAt tx.env.blockTime
  openings := t.openingsAfter k tx

/-- The timeline of a run that begins at time `now`. -/
def Timeline.start (w : World) (now : Int) : Timeline := ⟨w, now, fun _ => 0, fun _ => none⟩

/-- The timeline does not bear on the run. -/
theorem timelineRun_world (t : Timeline) (txs : List Tx) :
    (run (timelineStep k) t txs).world = run (step k) t.world txs :=
  run_view Timeline.world (fun _ _ => rfl) t txs

/-- Block times are positive and do not decrease. -/
def inOrder (t : Timeline) (tx : Tx) : Bool := t.now ≤ tx.env.blockTime ∧ 0 < tx.env.blockTime

/-- What a reinstatement leaves of each window ends at a time that fits 64 bits. -/
def thawFits (w : World) (tx : Tx) : Bool :=
  match tx.action with
  | .updateStatus msg =>
    msg.newStatus ≠ .active ∨
      (w.store.recoveryRequestsForDID msg.did).all fun r =>
        r.thaws = true → r.frozenAt < r.executeAfter →
          tx.env.blockTime + (r.executeAfter - r.frozenAt) < 2 ^ 63
  | _ => true

theorem fits_of_thawFits {msg : MsgUpdateStatus} (h : thawFits w tx = true)
    (haction : tx.action = .updateStatus msg) (hnew : msg.newStatus = .active)
    (hlisted : r ∈ w.store.recoveryRequestsForDID msg.did) (hthaws : r.thaws = true) :
    r.frozenAt < r.executeAfter → tx.env.blockTime + (r.executeAfter - r.frozenAt) < 2 ^ 63 := by
  unfold thawFits at h
  rw [haction] at h
  rcases of_decide_eq_true h with hother | hall
  · exact absurd hnew hother
  · exact of_decide_eq_true (List.all_eq_true.1 hall r hlisted) hthaws

/-- The requests are filed and open, and those opened in the run are watched. -/
structure OnTime (t : Timeline) : Prop where
  filed : Filed t.world.store
  pending : AllPending t.world.store
  window : 0 < t.world.store.params.recoveryDelaySeconds ∧
    t.world.store.params.recoveryDelaySeconds < t.world.store.params.recoveryRequestTtlSeconds
  watched : ∀ id r o, t.world.store.getRecoveryRequest id = some r → t.openings id = some o →
    Watched t.world.store t.now o.delay (t.active r.did - o.activeBefore) r

/-- Accepted parameters have a positive delay that is shorter than the lifetime. -/
theorem window_of_event (hevent : Event k env w a w')
    (h : 0 < w.store.params.recoveryDelaySeconds ∧
      w.store.params.recoveryDelaySeconds < w.store.params.recoveryRequestTtlSeconds) :
    0 < w'.store.params.recoveryDelaySeconds ∧
      w'.store.params.recoveryDelaySeconds < w'.store.params.recoveryRequestTtlSeconds := by
  rcases (summary_of_event hevent).params with hsame | ⟨msg, -, -, hlatched⟩ | ⟨msg, rfl, -, hset⟩
  · rw [hsame]
    exact h
  · rw [hlatched]
    exact h
  · rw [hset]
    cases hevent with
    | reparametrised _ _ hvalid => exact window_of_validate hvalid

/-- A tally changes no time. -/
theorem watched_tally {approvals rejections : List Bytes} (h : Watched s now delay waited r) :
    Watched s now delay waited { r with approvals := approvals, rejections := rejections } := by
  cases h with
  | lapsed hfree hover => exact Watched.lapsed hfree hover
  | running hactive hfree howed => exact Watched.running hactive hfree howed
  | held hsuspended hheld howed => exact Watched.held hsuspended hheld howed

/-- A request that was there before a message stays watched. -/
theorem watched_of_origin {r' : RecoveryRequest} (hevent : Event k env w a w')
    (hfiled : Filed w.store) (hpending : AllPending w.store) (hpositive : 0 < env.blockTime)
    (hfits : ∀ msg r, a = .updateStatus msg → msg.newStatus = .active →
      r ∈ w.store.recoveryRequestsForDID msg.did → r.thaws = true →
        r.frozenAt < r.executeAfter → env.blockTime + (r.executeAfter - r.frozenAt) < 2 ^ 63)
    (horigin : Origin k env w a r')
    (hother : ∀ msg, a = .initiateRecovery msg → r' ≠ msg.request k env w.store.params)
    (h : ∀ r, w.store.getRecoveryRequest r'.recoveryId = some r → r.did = r'.did →
      Watched w.store env.blockTime delay waited r) :
    Watched w'.store env.blockTime delay waited r' := by
  cases horigin with
  | kept _ _ hget hpassed =>
    exact watched_of_passedOver hevent (hpending _ r' hget) hpassed (h r' hget rfl)
  | opened msg doc => exact absurd rfl (hother msg rfl)
  | frozen msg r doc hget hdid hdoc hold hnew hfreezes =>
    have hafter := statusOf_of_updateStatus hevent
    have hbefore := statusOf_of_get hdoc
    rw [← hdid] at hafter hbefore
    rw [hnew] at hafter
    rw [hold] at hbefore
    exact watched_freeze hafter hfreezes hpositive hbefore (h r hget rfl)
  | thawed msg r doc hget hdid hdoc hold hnew hthaws =>
    have hafter := statusOf_of_updateStatus hevent
    rw [← hdid, hnew] at hafter
    have hlisted : r ∈ w.store.recoveryRequestsForDID msg.did :=
      (mem_recoveryRequestsForDID hfiled (hdid ▸ hfiled.named _ r hget)).2 ⟨hget, hdid⟩
    exact watched_thaw hafter hthaws hpositive (hfits msg r rfl hnew hlisted hthaws) (h r hget rfl)
  | tallied _ r approvals rejections hget hpassed =>
    exact watched_tally
      (watched_of_passedOver hevent (hpending _ r hget) hpassed (h r hget rfl))

theorem step_of_ok (h : apply k tx.env w tx.action = .ok w') : step k w tx = w' := by
  unfold step
  rw [h]
  rfl

theorem step_of_error {e : Failure} (h : apply k tx.env w tx.action = .error e) :
    step k w tx = w := by
  unfold step
  rw [h]
  rfl

variable {t : Timeline}

/-- Time passes for every request. -/
theorem OnTime.tick (h : OnTime t) (hlater : t.now ≤ later) {id : Bytes} {o : Opening}
    (hget : t.world.store.getRecoveryRequest id = some r) (hopening : t.openings id = some o) :
    Watched t.world.store later o.delay (t.activeAt later r.did - o.activeBefore) r := by
  have hticked := watched_tick (h.watched id r o hget hopening) hlater
  have hsum : t.activeAt later r.did - o.activeBefore =
      t.active r.did - o.activeBefore + t.world.store.activeTime r.did t.now later := by
    unfold Timeline.activeAt
    omega
  rw [hsum]
  exact hticked

/-- The opening of a request after a transaction: it is opened now, or was known before. -/
theorem openingsAfter_cases {id : Bytes} {o : Opening} (h : t.openingsAfter k tx id = some o) :
    (∃ msg, tx.action = .initiateRecovery msg ∧
      isOk (apply k tx.env t.world tx.action) = true ∧
      (msg.request k tx.env t.world.store.params).recoveryId = id ∧
      o = ⟨t.world.store.params.recoveryDelaySeconds, t.activeAt tx.env.blockTime msg.did⟩) ∨
    t.openings id = some o ∧ ∀ msg, tx.action = .initiateRecovery msg →
      isOk (apply k tx.env t.world tx.action) = true →
        (msg.request k tx.env t.world.store.params).recoveryId ≠ id := by
  unfold Timeline.openingsAfter at h
  split at h
  · rename_i msg haction
    split at h
    · rename_i hopened
      cases h
      exact Or.inl ⟨msg, haction, hopened.1, hopened.2, rfl⟩
    · rename_i hother
      refine Or.inr ⟨h, fun msg' haction' hok hid => hother ⟨hok, ?_⟩⟩
      rw [haction] at haction'
      cases haction'
      exact hid
  · rename_i hother
    exact Or.inr ⟨h, fun msg haction => absurd haction (hother msg)⟩

theorem onTime_step (hok : inOrder t tx = true ∧ thawFits t.world tx = true) (h : OnTime t) :
    OnTime (timelineStep k t tx) := by
  obtain ⟨hlater, hpositive⟩ := of_decide_eq_true hok.1
  cases happly : apply k tx.env t.world tx.action with
  | error e =>
    have hworld : (timelineStep k t tx).world = t.world := step_of_error happly
    refine ⟨hworld ▸ h.filed, hworld ▸ h.pending, hworld ▸ h.window, ?_⟩
    intro id r o hget hopening
    rw [hworld] at hget ⊢
    rcases openingsAfter_cases hopening with ⟨-, -, hsuccess, -⟩ | ⟨hbefore, -⟩
    · rw [happly] at hsuccess
      cases hsuccess
    · exact h.tick hlater hget hbefore
  | ok w' =>
    obtain ⟨hbasic, hevent⟩ := event_of_apply happly
    have hworld : (timelineStep k t tx).world = w' := step_of_ok happly
    refine ⟨hworld ▸ filed_of_event hbasic hevent h.filed,
      hworld ▸ allPending_of_event hbasic hevent h.filed h.pending,
      hworld ▸ window_of_event hevent h.window, ?_⟩
    intro id r o hget hopening
    rw [hworld] at hget ⊢
    rcases openingsAfter_cases hopening with ⟨msg, haction, -, hid, rfl⟩ | ⟨hbefore, hother⟩
    · -- the request opened now: no time has passed
      rw [haction] at hevent
      have hopened := get_of_initiated hevent
      rw [hid, hget] at hopened
      cases hopened
      have hactive := active_of_initiated hevent
      have hzero : t.activeAt tx.env.blockTime msg.did - t.activeAt tx.env.blockTime msg.did = 0 :=
        sub_self _
      show Watched _ _ _ (t.activeAt tx.env.blockTime msg.did -
        t.activeAt tx.env.blockTime msg.did) _
      rw [hzero]
      exact watched_request hactive hpositive h.window
    · refine watched_of_origin hevent h.filed h.pending hpositive
        (fun msg r haction hnew => fits_of_thawFits hok.2 haction hnew)
        (origin_of_event hbasic hevent h.filed hget) ?_ ?_
      · intro msg haction hsame
        refine hother msg haction (isOk_iff.2 ⟨w', happly⟩) ?_
        rw [← hsame]
        exact recoveryId_of_get hget
      · intro r₀ hget₀ hdid
        rw [recoveryId_of_get hget] at hget₀
        rw [← hdid]
        exact h.tick hlater hget₀ hbefore

/-! ## The owner's window -/

/-- An execution comes after the delay in force at the opening, counted in active time. -/
def executedAfterDelay (k : Keeper) (t : Timeline) (tx : Tx) : Prop :=
  ∀ msg r o, tx.action = .executeRecovery msg →
    isOk (apply k tx.env t.world tx.action) = true →
    t.world.store.getRecoveryRequest msg.recoveryId = some r →
    t.openings msg.recoveryId = some o →
      o.delay ≤ t.activeAt tx.env.blockTime r.did - o.activeBefore

theorem executedAfterDelay_of_onTime (hlater : t.now ≤ tx.env.blockTime)
    (h : OnTime t) : executedAfterDelay k t tx := by
  intro msg r o haction hok hget hopening
  obtain ⟨w', happly⟩ := isOk_iff.1 hok
  obtain ⟨-, hevent⟩ := event_of_apply happly
  rw [haction] at hevent
  have hwatched := h.tick hlater hget hopening
  cases hevent with
  | executed _ req doc w₁ _ hreq hpending hlive hdue _ hdoc hactive =>
    rw [hget] at hreq
    cases hreq
    cases hwatched with
    | lapsed hfree hover =>
      unfold Store.expired at hlive
      refine absurd ⟨hpending, ?_, hover⟩ (of_decide_eq_false hlive)
      exact fun hheld => hheld.1 hfree
    | running _ _ howed => omega
    | held hsuspended =>
      rw [statusOf_of_get hdoc, hactive] at hsuspended
      cases hsuspended

/-- In every run from an accepted genesis, at positive block times that do not decrease, in which
each reinstatement leaves windows that end within 64 bits, every executed request has waited out
the delay in force at its opening while its DID was active. -/
theorem veto_window_kept {gs : GenesisState} {bank : Bank} {txs : List Tx}
    (hgenesis : initGenesis k env gs bank = .ok w)
    (hrun : Along (timelineStep k) (fun t tx => inOrder t tx = true ∧ thawFits t.world tx = true)
      (Timeline.start w env.blockTime) txs) :
    Along (timelineStep k) (executedAfterDelay k) (Timeline.start w env.blockTime) txs := by
  obtain ⟨hstarted, -⟩ := started_of_initGenesis hgenesis
  have hstart : OnTime (Timeline.start w env.blockTime) :=
    ⟨hstarted.filed, fun id r hget => (hstarted.requests id r hget).pending, hstarted.window,
      fun id r o _ hopening => nomatch hopening⟩
  refine @along_of_invariant _ _ (timelineStep k) _ OnTime _ ?_ ?_ _ hstart _ hrun
  · intro t tx hok ht
    exact onTime_step hok ht
  · intro t tx hok ht
    exact executedAfterDelay_of_onTime (of_decide_eq_true hok.1).1 ht

/-- The world of the small genesis. -/
def guardedWorld (params : Params) : World := ⟨⟨∅, ∅⟩, importStore (smallEnv 10) (guardedGenesis params)⟩

/-- A request of the first DID is opened, held by a suspension and approved after it. -/
def heldRequest : List Tx :=
  [⟨smallEnv 100, recoverFirst 24 9⟩, ⟨smallEnv 104, restateFirst .suspended⟩,
    ⟨smallEnv 200, restateFirst .active⟩, ⟨smallEnv 201, approveFirst 22 2 9⟩]

/-- Opened at 100 with a delay of 10 and held from 104 to 200, the request is executed at 206. -/
theorem veto_window_kept_suspended :
    isOk (apply recoveryKeeper (smallEnv 206)
      (run (step recoveryKeeper) (guardedWorld smallParams) heldRequest) (executeFirst 24 9)) = true ∧
    Along (timelineStep recoveryKeeper) (executedAfterDelay recoveryKeeper)
      (Timeline.start (guardedWorld smallParams) (smallEnv 10).blockTime)
      (heldRequest ++ [⟨smallEnv 206, executeFirst 24 9⟩]) :=
  ⟨by decide +kernel, veto_window_kept
    (initGenesis_of_validate validate_guardedGenesis) (by decide +kernel)⟩

theorem not_executedAfterDelay {msg : MsgExecuteRecovery}
    (haction : tx.action = .executeRecovery msg)
    (hearly : isOk (apply k tx.env t.world tx.action) = true ∧
      ((t.world.store.getRecoveryRequest msg.recoveryId).any fun r =>
        (t.openings msg.recoveryId).any fun o =>
          t.activeAt tx.env.blockTime r.did - o.activeBefore < o.delay) = true) :
    ¬ executedAfterDelay k t tx := by
  intro h
  obtain ⟨hok, hearly⟩ := hearly
  obtain ⟨r, hget, hopenings⟩ := (Option.any_eq_true _ _).1 hearly
  obtain ⟨o, hopening, hless⟩ := (Option.any_eq_true _ _).1 hopenings
  exact not_le.2 (of_decide_eq_true hless) (h msg r o haction hok hget hopening)

/-- Parameters with a delay and a lifetime close to the end of 64-bit time. -/
def longParams : Params :=
  { smallParams with
    recoveryDelaySeconds := 2 ^ 63 - 2000
    recoveryRequestTtlSeconds := 2 ^ 63 - 1999
    int64Fields := by decide }

/-- A request opened under long parameters is held while they are made short again. -/
def wrappedRequest : List Tx :=
  [⟨smallEnv 1000, recoverFirst 24 9⟩, ⟨smallEnv 1001, restateFirst .suspended⟩,
    ⟨smallEnv 1002, reparametrise smallParams⟩, ⟨smallEnv 3000, restateFirst .active⟩,
    ⟨smallEnv 3001, approveFirst 22 2 9⟩]

/-- The rest of the window wraps at the reinstatement, and the request is executed when its DID
has been active for three seconds. -/
theorem veto_window_cut :
    initGenesis recoveryKeeper (smallEnv 10) (guardedGenesis longParams) ⟨∅, ∅⟩ =
      .ok (guardedWorld longParams) ∧
    Along (timelineStep recoveryKeeper) (fun t tx => inOrder t tx = true)
      (Timeline.start (guardedWorld longParams) (smallEnv 10).blockTime)
      (wrappedRequest ++ [⟨smallEnv 3002, executeFirst 24 9⟩]) ∧
    ¬ Along (timelineStep recoveryKeeper) (executedAfterDelay recoveryKeeper)
      (Timeline.start (guardedWorld longParams) (smallEnv 10).blockTime)
      (wrappedRequest ++ [⟨smallEnv 3002, executeFirst 24 9⟩]) := by
  refine ⟨initGenesis_of_validate (by decide +kernel), by decide +kernel, fun h => ?_⟩
  have hlast := (along_append.1 h).2.1
  exact not_executedAfterDelay rfl (by decide +kernel) hlast

/-! ## The order of the window -/

/-- The order that the genesis validator demands: a request may be executed before it expires. -/
def RecoveryRequest.Ordered (r : RecoveryRequest) : Prop :=
  r.initiatedAt < r.executeAfter ∧ r.executeAfter < r.expiresAt

instance (r : RecoveryRequest) : Decidable r.Ordered :=
  inferInstanceAs (Decidable (r.initiatedAt < r.executeAfter ∧ r.executeAfter < r.expiresAt))

/-- A new lifetime ends within 64 bits, and what a reinstatement leaves of each window is
shorter than the lifetime in force. -/
def keepsOrder (w : World) (tx : Tx) : Bool :=
  match tx.action with
  | .initiateRecovery _ => tx.env.blockTime + w.store.params.recoveryRequestTtlSeconds < 2 ^ 63
  | .updateStatus msg =>
    msg.newStatus ≠ .active ∨
      tx.env.blockTime + w.store.params.recoveryRequestTtlSeconds < 2 ^ 63 ∧
      (w.store.recoveryRequestsForDID msg.did).all fun r =>
        r.thaws = true → r.frozenAt ≤ tx.env.blockTime ∧
          r.executeAfter - r.frozenAt < w.store.params.recoveryRequestTtlSeconds
  | _ => true

theorem ordered_request {params : Params} (hwindow : 0 < params.recoveryDelaySeconds ∧
      params.recoveryDelaySeconds < params.recoveryRequestTtlSeconds)
    (hfits : env.blockTime + params.recoveryRequestTtlSeconds < 2 ^ 63) :
    (msg.request k env params).Ordered := by
  have hnow := env.timeFits.1
  show env.blockTime < int64 (env.blockTime + params.recoveryDelaySeconds) ∧
    int64 (env.blockTime + params.recoveryDelaySeconds) <
      int64 (env.blockTime + params.recoveryRequestTtlSeconds)
  rw [int64_of_inInt64 (v := env.blockTime + params.recoveryDelaySeconds) ⟨by omega, by omega⟩,
    int64_of_inInt64 (v := env.blockTime + params.recoveryRequestTtlSeconds) ⟨by omega, hfits⟩]
  omega

theorem ordered_thaw {ttl : Int} (h : r.Ordered) (hpositive : 0 < ttl)
    (hfits : env.blockTime + ttl < 2 ^ 63) (hstamp : r.frozenAt ≤ env.blockTime)
    (hshort : r.executeAfter - r.frozenAt < ttl) (httl : ttl < 2 ^ 63) :
    (r.thaw env.blockTime ttl).Ordered := by
  obtain ⟨hstart, -⟩ := h
  have hnow := env.timeFits.1
  have hend : int64 (env.blockTime + ttl) = env.blockTime + ttl :=
    int64_of_inInt64 ⟨by omega, hfits⟩
  unfold RecoveryRequest.Ordered RecoveryRequest.thaw
  dsimp only
  rw [hend]
  split
  · rw [int64_of_inInt64 (v := r.executeAfter - r.frozenAt) ⟨by omega, by omega⟩,
      int64_of_inInt64 ⟨by omega, by omega⟩]
    omega
  · omega

/-- Filed requests in order, under parameters with a proper window. -/
structure Orderly (s : Store) : Prop where
  filed : Filed s
  window : 0 < s.params.recoveryDelaySeconds ∧
    s.params.recoveryDelaySeconds < s.params.recoveryRequestTtlSeconds
  ordered : ∀ id r, s.getRecoveryRequest id = some r → r.Ordered

theorem orderly_of_event (hok : keepsOrder w tx = true) (hbasic : tx.action.validateBasic = .ok ())
    (hevent : Event k tx.env w tx.action w') (h : Orderly w.store) : Orderly w'.store := by
  refine ⟨filed_of_event hbasic hevent h.filed, window_of_event hevent h.window, ?_⟩
  intro id r hget
  have horigin := origin_of_event hbasic hevent h.filed hget
  unfold keepsOrder at hok
  generalize haction : tx.action = a at horigin hok
  cases horigin with
  | kept _ _ hstored => exact h.ordered _ r hstored
  | opened msg doc => exact ordered_request h.window (of_decide_eq_true hok)
  | frozen msg r' _ hstored | tallied _ r' _ _ hstored => exact h.ordered _ r' hstored
  | thawed msg r' doc hstored hdid _ _ hnew hthaws =>
    rcases of_decide_eq_true hok with hother | ⟨hfits, hall⟩
    · exact absurd hnew hother
    · have hlisted : r' ∈ w.store.recoveryRequestsForDID msg.did :=
        (mem_recoveryRequestsForDID h.filed (hdid ▸ h.filed.named _ r' hstored)).2 ⟨hstored, hdid⟩
      obtain ⟨hstamp, hshort⟩ := of_decide_eq_true (List.all_eq_true.1 hall r' hlisted) hthaws
      have hpositive := lt_trans h.window.1 h.window.2
      exact ordered_thaw (h.ordered _ r' hstored) hpositive hfits hstamp hshort
        w.store.params.int64Fields.2.2.2

/-- In every run from an accepted genesis in which new lifetimes end within 64 bits and each
reinstatement leaves windows that are shorter than the lifetime in force, every stored request,
whatever the status of its DID, may be executed before it expires. -/
theorem request_window_ordered {gs : GenesisState} {bank : Bank} {txs : List Tx}
    (hgenesis : initGenesis k env gs bank = .ok w)
    (hrun : Along (step k) (fun w tx => keepsOrder w tx = true) w txs) :
    ∀ id r, (run (step k) w txs).store.getRecoveryRequest id = some r →
      r.initiatedAt < r.executeAfter ∧ r.executeAfter < r.expiresAt := by
  obtain ⟨hstarted, -⟩ := started_of_initGenesis hgenesis
  have hstart : Orderly w.store :=
    ⟨hstarted.filed, hstarted.window, fun id r hget => (hstarted.requests id r hget).ordered⟩
  have hend : Orderly (run (step k) w txs).store := by
    refine @run_preserves _ _ (step k) _ (fun w => Orderly w.store) ?_ _ hstart _ hrun
    intro w tx hok hw
    exact step_preserves (p := fun w => Orderly w.store) hw fun w' hbasic hevent =>
      orderly_of_event hok hbasic hevent hw
  exact hend.ordered

/-- A request that is held and released under the same parameters. -/
theorem request_window_ordered_released :
    ((run (step recoveryKeeper) (guardedWorld smallParams) heldRequest).store.getRecoveryRequest
      (firstRequestID 9)).isSome = true ∧
    ∀ id r, (run (step recoveryKeeper) (guardedWorld smallParams) heldRequest
      ).store.getRecoveryRequest id = some r →
        r.initiatedAt < r.executeAfter ∧ r.executeAfter < r.expiresAt :=
  ⟨by decide +kernel, @request_window_ordered _ (smallEnv 10) _ _ _ _
    (initGenesis_of_validate validate_guardedGenesis) (by decide +kernel)⟩

/-- Parameters with a lifetime of two seconds. -/
def hastyParams : Params :=
  { smallParams with
    recoveryDelaySeconds := 1
    recoveryRequestTtlSeconds := 2
    int64Fields := by decide }

/-- The lifetime is shortened while a request is held. Nine seconds of its delay are left, and
the reinstatement gives it two seconds to live. -/
theorem request_window_reversed :
    initGenesis recoveryKeeper (smallEnv 10) (guardedGenesis smallParams) ⟨∅, ∅⟩ =
      .ok (guardedWorld smallParams) ∧
    (run (step recoveryKeeper) (guardedWorld smallParams)
      [⟨smallEnv 100, recoverFirst 24 9⟩, ⟨smallEnv 101, restateFirst .suspended⟩,
        ⟨smallEnv 102, reparametrise hastyParams⟩, ⟨smallEnv 103, restateFirst .active⟩]
      ).store.statusOf (recoveryDID 1) = some .active ∧
    ((run (step recoveryKeeper) (guardedWorld smallParams)
      [⟨smallEnv 100, recoverFirst 24 9⟩, ⟨smallEnv 101, restateFirst .suspended⟩,
        ⟨smallEnv 102, reparametrise hastyParams⟩, ⟨smallEnv 103, restateFirst .active⟩]
      ).store.getRecoveryRequest (firstRequestID 9)).map
        (fun r => (r.status, r.initiatedAt, r.executeAfter, r.expiresAt)) =
      some (.pending, 100, 112, 105) := by
  refine ⟨initGenesis_of_validate validate_guardedGenesis, ?_⟩
  decide +kernel

end PhiChain.Identity
