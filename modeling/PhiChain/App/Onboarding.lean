import PhiChain.App.Upkeep
import PhiChain.Governance.Types

/-!
# Votes on fx onboarding

After the bootstrap phase an fx institution is onboarded by a governance proposal: x/gov executes
the messages of a proposal whose vote passed, all of them or none, and the proposal is marked
as passed when all have succeeded. The operator may finalise a request, too, citing a passed
proposal that names the fx id.

`govern` runs x/institutions next to the proposals and logs every finalisation with the proposal
behind it. A proposal that has passed has onboarded the ids it names, so a finalisation that
cites it uses its vote a second time: `one_onboarding_iff`.
-/

set_option autoImplicit false

namespace PhiChain.App

open Foundations Sdk Institutions
open Governance (ProposalStatus)

variable {D : Type} [LinearOrder D]

/-! ## Proposals -/

/-- What a transaction or a proposal can carry; fees, slashes and the phases of a block are no
messages. -/
def Action.isMessage : Action → Bool
  | .deductFee .. | .slash _ | .govBurn _ | .beginBlock | .restart => false
  | _ => true

structure Message where
  action : Action
  message : action.isMessage = true

def Message.op (m : Message) : Op :=
  .deliver m.action fun h => by
    have hmessage := m.message
    rw [h] at hmessage
    cases hmessage

/-- The fx id that a message finalises. -/
def Message.finalizes (m : Message) : Option Bytes :=
  match m.action with
  | .finalizeFx msg => some msg.fxId
  | _ => none

structure FxProposal where
  messages : List Message
  status : ProposalStatus

def FxProposal.finalizes (p : FxProposal) : List Bytes := p.messages.filterMap Message.finalizes

/-- A successful finalisation: the proposal behind it and whether it is the proposal's own, the
applicant of the request it used up, and the admin of the institution it created. -/
structure Finalisation where
  proposal : Nat
  fxId : Bytes
  own : Bool
  applicant : Option Bytes
  admin : Option Bytes
  deriving DecidableEq

/-- What is logged of a finalisation that leads from one world to another. -/
def finalisation (own : Bool) (id : Nat) (fxId : Bytes) (w w' : World D) : Finalisation where
  proposal := id
  fxId := fxId
  own := own
  applicant := (w.inst.fxRequests.get? fxId).map FxEntryRequest.applicant
  admin := (w'.inst.getInstitution fxId).map Institution.admin

/-- Chain state next to the proposals, and the finalisations so far, the newest first. -/
structure Chamber (D : Type) [LinearOrder D] where
  world : World D
  proposals : OrdMap Nat FxProposal
  log : List Finalisation

/-- The context of a step after the bootstrap phase. -/
def Chamber.context (c : Chamber D) (ctx : Ctx) : Ctx :=
  { ctx with
    bootstrapPhase := false
    proposal := fun id => (c.proposals.get? id).map fun p => ⟨p.status = .passed, p.finalizes⟩ }

/-! ## The machine -/

inductive GovOp where
  | deliver (op : Op)
  | submit (id : Nat) (messages : List Message)
  | pass (id : Nat)
  | reject (id : Nat)

/-- A finalisation in the name of the governance account. -/
def Op.finalizesAs (account : Bytes) : Op → Bool
  | .deliver (.finalizeFx msg) _ => msg.operator = account
  | _ => false

/-- The entry of a transaction that finalises a request, under the proposal it cites. -/
def citation (w w' : World D) : Op → List Finalisation
  | .deliver (.finalizeFx msg) _ => [finalisation false msg.proposalId msg.fxId w w']
  | _ => []

/-- The messages of a proposal one after the other, with the entries of its finalisations. -/
def runMessages (k : Keeper D) (ctx : Ctx) (id : Nat) :
    World D → List Message → Result (World D × List Finalisation)
  | w, [] => .ok (w, [])
  | w, m :: rest => do
    let w₁ ← perform k ctx w m.op
    let r ← runMessages k ctx id w₁ rest
    return (r.1, r.2 ++ (m.finalizes.map fun fxId => finalisation true id fxId w w₁).toList)

/-- One step. The governance account signs no transaction, and x/gov takes up proposals only of
messages it signs itself. -/
def govern (k : Keeper D) (c : Chamber D) (step : Ctx × GovOp) : Chamber D :=
  match step.2 with
  | .deliver op =>
    if op.finalizesAs k.authority then c
    else
      match perform k (c.context step.1) c.world op with
      | .ok w => { c with world := w, log := citation c.world w op ++ c.log }
      | .error _ => c
  | .submit id messages =>
    if c.proposals.has id = false ∧
        messages.all (fun m => m.finalizes = none ∨ m.op.finalizesAs k.authority) then
      { c with proposals := c.proposals.put id ⟨messages, .votingPeriod⟩ }
    else c
  | .pass id =>
    match c.proposals.get? id with
    | none => c
    | some p =>
      if p.status = .votingPeriod then
        match runMessages k (c.context step.1) id c.world p.messages with
        | .ok (w, entries) => ⟨w, c.proposals.put id { p with status := .passed }, entries ++ c.log⟩
        -- a message failed: nothing is written and the proposal is closed
        | .error _ => { c with proposals := c.proposals.put id { p with status := .failed } }
      else c
  | .reject id =>
    match c.proposals.get? id with
    | none => c
    | some p =>
      if p.status = .votingPeriod then
        { c with proposals := c.proposals.put id { p with status := .rejected } }
      else c

def Chamber.start (w : World D) : Chamber D := ⟨w, ∅, []⟩

/-! ## The property -/

/-- Number of finalisations of an fx id on a proposal. -/
def Chamber.finalisations (c : Chamber D) (id : Nat) (fxId : Bytes) : Nat :=
  c.log.countP fun e => e.proposal = id ∧ e.fxId = fxId

/-- The applicant whose request stood when the proposal passed. -/
def Chamber.stood (c : Chamber D) (id : Nat) (fxId : Bytes) : Option Bytes :=
  (c.log.find? fun e => e.own ∧ e.proposal = id ∧ e.fxId = fxId).bind Finalisation.applicant

/-- A proposal onboards an fx id once, for the applicant whose request stood when it passed. -/
structure OneOnboarding (c : Chamber D) : Prop where
  once : ∀ id fxId, c.finalisations id fxId ≤ 1
  administered : ∀ e ∈ c.log, e.admin.isSome = true ∧ e.admin = c.stood e.proposal e.fxId

/-- The operator finalises a guaranteed request and cites a proposal that has passed. -/
def Chamber.reuses (k : Keeper D) (c : Chamber D) : GovOp → Bool
  | .deliver (.deliver (.finalizeFx msg) _) =>
    msg.operator ≠ k.authority ∧ isOk msg.validateBasic ∧
      (c.world.inst.params.operator ≠ [] ∧ msg.operator = c.world.inst.params.operator) ∧
      ((c.world.inst.fxRequests.get? msg.fxId).any fun req => req.status = .guaranteed) ∧
      c.world.inst.institutions.has msg.fxId = false ∧
      c.world.inst.hasPendingRemoval msg.fxId = false ∧
      msg.proposalId ≠ 0 ∧
      (c.proposals.get? msg.proposalId).any fun p => p.status = .passed ∧ msg.fxId ∈ p.finalizes
  | _ => false

/-! ## One finalisation -/

section Finalise

variable {k : Keeper D} {ctx : Ctx} {w w' : World D} {msg : MsgFinalizeFxEntry}
  {hrunning : Action.finalizeFx msg ≠ .restart}

/-- A finalisation onboards an id that was free, for the applicant of its request. -/
theorem perform_finalizeFx (h : perform k ctx w (.deliver (.finalizeFx msg) hrunning) = .ok w') :
    ∃ req, w.inst.fxRequests.get? msg.fxId = some req ∧ ¬ Owned w.inst msg.fxId ∧
      w'.inst.getInstitution msg.fxId =
        some (newInstitution msg.fxId req.applicant .fx ctx.blockTime) := by
  simp only [perform, apply, onInstitutions, bind_eq_ok, pure_eq_ok] at h
  obtain ⟨⟨⟩, -, s, hs, rfl⟩ := h
  obtain ⟨req, hreq, hfresh, hidle, rfl⟩ := finalizeFxEntry_request hs
  refine ⟨req, hreq, ?_, ?_⟩
  · rintro (hreg | hpending)
    · have hnone : w.inst.getInstitution msg.fxId = none := OrdMap.has_eq_false.1 hfresh
      rw [hnone] at hreg
      cases hreg
    · rw [hidle] at hpending
      cases hpending
  · exact (getInstitution_setInstitution _ _ _).trans (if_pos rfl)

/-- Its entry has an admin, who is the applicant. -/
theorem finalisation_of_perform (own : Bool) (id : Nat)
    (h : perform k ctx w (.deliver (.finalizeFx msg) hrunning) = .ok w') :
    (finalisation own id msg.fxId w w').admin.isSome = true ∧
      (finalisation own id msg.fxId w w').admin =
        (finalisation own id msg.fxId w w').applicant := by
  obtain ⟨req, hreq, -, hinst⟩ := perform_finalizeFx h
  unfold finalisation
  dsimp only
  rw [hreq, hinst]
  exact ⟨rfl, rfl⟩

/-- Messages keep an id registered or queued. -/
theorem owned_of_message {m : Message} {fxId : Bytes} (h : perform k ctx w m.op = .ok w')
    (howned : Owned w.inst fxId) : Owned w'.inst fxId := by
  rcases owned_of_change (change_of_perform h) with hkeep | ⟨⟨hblock, hop⟩, -⟩
  · exact hkeep fxId howned
  · -- the start of a block is no message
    have hmessage := m.message
    unfold Message.op at hop
    injection hop with haction
    rw [haction] at hmessage
    cases hmessage

/-- After the bootstrap phase the operator can finalise exactly when they reuse a vote. -/
theorem isOk_finalizeFx (c : Chamber D) (ctx : Ctx) (hgov : msg.operator ≠ k.authority) :
    isOk (perform k (c.context ctx) c.world (.deliver (.finalizeFx msg) hrunning)) =
      c.reuses k (.deliver (.deliver (.finalizeFx msg) hrunning)) := by
  have hpath : ¬ ((c.context ctx).bootstrapPhase = true ∨ msg.operator = k.authority) := by
    rintro (hphase | hop)
    · cases hphase
    · exact hgov hop
  rw [Bool.eq_iff_iff, isOk_iff]
  unfold Chamber.reuses
  simp only [perform, Action.validateBasic, apply, onInstitutions, finalizeFxEntry, if_neg hpath,
    requirePassedProposalFor, bind_eq_ok, ensure_eq_ok, orFail_eq_ok, pure_eq_ok, exists_const,
    decide_eq_true_eq, isOk_iff, Option.any_eq_true]
  constructor
  · rintro ⟨-, ⟨⟩, hbasic, -, ⟨hop, req, hreq, hstatus, hfresh, hidle, ⟨hid, prop, hprop, hpassed,
      hnamed⟩, -⟩, -⟩
    obtain ⟨p, hp, rfl⟩ := Option.map_eq_some_iff.1 hprop
    exact ⟨hgov, ⟨(), hbasic⟩, hop.resolve_right hgov, ⟨req, hreq, hstatus⟩, hfresh, hidle, hid, p, hp,
      of_decide_eq_true hpassed, hnamed⟩
  · rintro ⟨-, ⟨⟨⟩, hbasic⟩, hop, ⟨req, hreq, hstatus⟩, hfresh, hidle, hid, p, hp, hpassed, hnamed⟩
    have hprop : (c.context ctx).proposal msg.proposalId =
        some ⟨p.status = .passed, p.finalizes⟩ := Option.map_eq_some_iff.2 ⟨p, hp, rfl⟩
    exact ⟨_, (), hbasic, _, ⟨.inl hop, req, hreq, hstatus, hfresh, hidle,
      ⟨hid, _, hprop, decide_eq_true hpassed, hnamed⟩, rfl⟩, rfl⟩

end Finalise

/-! ## The execution of a proposal -/

section Execution

variable {k : Keeper D} {ctx : Ctx} {id : Nat} {w w' : World D} {m : Message} {ms : List Message}
  {es : List Finalisation} {e : Finalisation} {fxId : Bytes}

/-- A message that finalises an id, as an operation. -/
theorem op_of_finalizes (h : m.finalizes = some fxId) :
    ∃ msg hrunning, m.op = .deliver (.finalizeFx msg) hrunning ∧ msg.fxId = fxId := by
  obtain ⟨action, hmessage⟩ := m
  unfold Message.finalizes at h
  dsimp only at h
  split at h
  · rename_i msg
    cases h
    exact ⟨msg, by simp, rfl, rfl⟩
  · cases h

/-- The entries of an execution: each is the proposal's own, its admin is the applicant, and
its id was free when the execution began. -/
structure Executed (id : Nat) (w : World D) (ms : List Message) (es : List Finalisation) : Prop where
  own : ∀ e ∈ es, e.own = true ∧ e.proposal = id
  administered : ∀ e ∈ es, e.admin.isSome = true ∧ e.admin = e.applicant
  free : ∀ e ∈ es, ¬ Owned w.inst e.fxId
  distinct : (es.map Finalisation.fxId).Nodup
  complete : ∀ m ∈ ms, ∀ fxId, m.finalizes = some fxId → ∃ e ∈ es, e.fxId = fxId

/-- One message more in front. After a finalisation its id is taken, so that no later message
of the execution finalises it again. -/
theorem Executed.cons {w₁ : World D} (hm : perform k ctx w m.op = .ok w₁)
    (h : Executed id w₁ ms es) :
    Executed id w (m :: ms)
      (es ++ (m.finalizes.map fun fxId => finalisation true id fxId w w₁).toList) := by
  have hfree : ∀ e ∈ es, ¬ Owned w.inst e.fxId := fun e he howned =>
    h.free e he (owned_of_message hm howned)
  cases hfx : m.finalizes with
  | none =>
    rw [Option.map_none, Option.toList_none, List.append_nil]
    refine ⟨h.own, h.administered, hfree, h.distinct, fun m' hm' fxId hnames => ?_⟩
    rcases List.mem_cons.1 hm' with rfl | hrest
    · rw [hfx] at hnames
      cases hnames
    · exact h.complete m' hrest fxId hnames
  | some fxId =>
    obtain ⟨msg, hrunning, hop, rfl⟩ := op_of_finalizes hfx
    rw [hop] at hm
    obtain ⟨req, hreq, hnew, hinst⟩ := perform_finalizeFx hm
    have htaken : Owned w₁.inst msg.fxId := by
      refine .inl ?_
      rw [hinst]
      rfl
    rw [Option.map_some, Option.toList_some]
    have hmem : ∀ e ∈ es ++ [finalisation true id msg.fxId w w₁],
        e ∈ es ∨ e = finalisation true id msg.fxId w w₁ := fun e he => by
      simpa using he
    refine ⟨fun e he => ?_, fun e he => ?_, fun e he => ?_, ?_, fun m' hm' fxId hnames => ?_⟩
    · rcases hmem e he with hold | rfl
      · exact h.own e hold
      · exact ⟨rfl, rfl⟩
    · rcases hmem e he with hold | rfl
      · exact h.administered e hold
      · exact finalisation_of_perform true id hm
    · rcases hmem e he with hold | rfl
      · exact hfree e hold
      · exact hnew
    · rw [List.map_append, List.map_singleton, ← List.concat_eq_append]
      refine h.distinct.concat fun hagain => ?_
      obtain ⟨e, he, hsame⟩ := List.mem_map.1 hagain
      exact h.free e he (hsame ▸ htaken)
    · rcases List.mem_cons.1 hm' with rfl | hrest
      · rw [hfx] at hnames
        cases hnames
        exact ⟨_, List.mem_append_right _ List.mem_cons_self, rfl⟩
      · obtain ⟨e, he, hsame⟩ := h.complete m' hrest fxId hnames
        exact ⟨e, List.mem_append_left _ he, hsame⟩

theorem executed_of_runMessages (h : runMessages k ctx id w ms = .ok (w', es)) :
    Executed id w ms es := by
  induction ms generalizing w es with
  | nil =>
    cases h
    exact ⟨nofun, nofun, nofun, List.nodup_nil, nofun⟩
  | cons m rest ih =>
    simp only [runMessages, bind_eq_ok, pure_eq_ok] at h
    obtain ⟨w₁, hm, ⟨w₂, later⟩, hrest, heq⟩ := h
    cases heq
    exact (ih hrest).cons hm

end Execution

/-! ## One step -/

section Step

variable {k : Keeper D} {c c' : Chamber D} {step : Ctx × GovOp} {id : Nat} {fxId : Bytes}

/-- What one step does to the proposals and the log. -/
inductive Governed (k : Keeper D) (c : Chamber D) (step : Ctx × GovOp) : Chamber D → Prop
  | moved (w : World D) (hfresh : c.reuses k step.2 = false) :
      Governed k c step { c with world := w }
  | cited (msg : MsgFinalizeFxEntry) (p : FxProposal) (w : World D)
      (hreuses : c.reuses k step.2 = true)
      (hget : c.proposals.get? msg.proposalId = some p) (hpassed : p.status = .passed)
      (hnamed : msg.fxId ∈ p.finalizes) :
      Governed k c step { c with
        world := w
        log := finalisation false msg.proposalId msg.fxId c.world w :: c.log }
  | filed (id : Nat) (p : FxProposal) (hfresh : c.reuses k step.2 = false)
      (hopen : ∀ prev, c.proposals.get? id = some prev → prev.status ≠ .passed)
      (hstatus : p.status ≠ .passed) :
      Governed k c step { c with proposals := c.proposals.put id p }
  | executed (id : Nat) (p : FxProposal) (w : World D) (es : List Finalisation)
      (hfresh : c.reuses k step.2 = false) (hget : c.proposals.get? id = some p)
      (hvoting : p.status = .votingPeriod) (hexecuted : Executed id c.world p.messages es) :
      Governed k c step ⟨w, c.proposals.put id { p with status := .passed }, es ++ c.log⟩

/-- A step that leaves everything as it is. -/
theorem governed_same (hfresh : c.reuses k step.2 = false) : Governed k c step c :=
  Governed.moved c.world hfresh

/-- A proposal whose vote ends without passing is filed under its new status. -/
theorem governed_closed {id : Nat} {p closed : FxProposal} (hstatus : closed.status ≠ .passed)
    (hfresh : c.reuses k step.2 = false) (hget : c.proposals.get? id = some p)
    (hvoting : p.status = .votingPeriod) :
    Governed k c step { c with proposals := c.proposals.put id closed } := by
  refine Governed.filed id closed hfresh (fun prev hprev => ?_) hstatus
  rw [hget] at hprev
  cases hprev
  rw [hvoting]
  nofun

theorem governed_deliver (ctx : Ctx) (op : Op) :
    Governed k c (ctx, .deliver op) (govern k c (ctx, .deliver op)) := by
  unfold govern
  dsimp only
  by_cases hfinal : ∃ msg hrunning, op = .deliver (.finalizeFx msg) hrunning
  · obtain ⟨msg, hrunning, rfl⟩ := hfinal
    by_cases hgov : msg.operator = k.authority
    · rw [if_pos (by simpa [Op.finalizesAs] using hgov)]
      refine governed_same (decide_eq_false fun h => ?_)
      exact h.1 hgov
    · rw [if_neg (by simpa [Op.finalizesAs] using hgov)]
      have hreuses := @isOk_finalizeFx _ _ k msg hrunning c ctx hgov
      cases hperform : perform k (c.context ctx) c.world (.deliver (.finalizeFx msg) hrunning) with
      | error e =>
        rw [hperform] at hreuses
        exact governed_same hreuses.symm
      | ok w =>
        rw [hperform] at hreuses
        have htrue := hreuses.symm
        unfold Chamber.reuses at htrue
        obtain ⟨-, -, -, -, -, -, -, hcited⟩ := of_decide_eq_true htrue
        obtain ⟨p, hget, hp⟩ := (Option.any_eq_true _ _).1 hcited
        obtain ⟨hpassed, hnamed⟩ := of_decide_eq_true hp
        exact Governed.cited msg p w hreuses.symm hget hpassed hnamed
  · -- any other operation is not logged
    have hfresh : c.reuses k (.deliver op) = false := by
      unfold Chamber.reuses
      split
      · rename_i msg hrunning heq
        injection heq with hop
        exact absurd ⟨msg, hrunning, hop⟩ hfinal
      · rfl
    split
    · exact governed_same hfresh
    · split
      · rename_i w _
        have hnone : citation c.world w op = [] := by
          unfold citation
          split
          · exact absurd ⟨_, _, rfl⟩ hfinal
          · rfl
        rw [hnone]
        exact Governed.moved w hfresh
      · exact governed_same hfresh

theorem governed_of_step (k : Keeper D) (c : Chamber D) (step : Ctx × GovOp) :
    Governed k c step (govern k c step) := by
  obtain ⟨ctx, op⟩ := step
  cases op with
  | deliver op => exact governed_deliver ctx op
  | submit id messages =>
    unfold govern
    dsimp only
    split
    · rename_i hnew
      refine Governed.filed id ⟨messages, .votingPeriod⟩ rfl (fun prev hprev => ?_) nofun
      rw [OrdMap.has_eq_false.1 hnew.1] at hprev
      cases hprev
    · exact governed_same rfl
  | pass id =>
    unfold govern
    dsimp only
    split
    · exact governed_same rfl
    · rename_i p hget
      split
      · rename_i hvoting
        split
        · rename_i w es hrun
          exact Governed.executed id p w es rfl hget hvoting (executed_of_runMessages hrun)
        · exact governed_closed nofun rfl hget hvoting
      · exact governed_same rfl
  | reject id =>
    unfold govern
    dsimp only
    split
    · exact governed_same rfl
    · rename_i p hget
      split
      · rename_i hvoting
        exact governed_closed nofun rfl hget hvoting
      · exact governed_same rfl

end Step

/-! ## The log and the proposals -/

section Log

variable {k : Keeper D} {c c' : Chamber D} {step : Ctx × GovOp}

/-- Only passed proposals are behind a finalisation, and a passed proposal is behind one of its
own for each id it names. -/
structure Recorded (c : Chamber D) : Prop where
  logged : ∀ e ∈ c.log, ∃ p, c.proposals.get? e.proposal = some p ∧ p.status = .passed
  complete : ∀ id p, c.proposals.get? id = some p → p.status = .passed → ∀ fxId ∈ p.finalizes,
    ∃ e ∈ c.log, e.own = true ∧ e.proposal = id ∧ e.fxId = fxId

theorem recorded_start (w : World D) : Recorded (Chamber.start w) where
  logged := nofun
  complete := fun id p hget => by
    rw [Chamber.start, OrdMap.get?_empty] at hget
    cases hget

/-- A proposal that has not passed is behind no finalisation. -/
theorem Recorded.proposal_ne (h : Recorded c) {id : Nat}
    (hopen : ∀ p, c.proposals.get? id = some p → p.status ≠ .passed) :
    ∀ e ∈ c.log, id ≠ e.proposal := by
  rintro e he rfl
  obtain ⟨p, hget, hpassed⟩ := h.logged e he
  exact hopen p hget hpassed

theorem recorded_of_governed (h : Recorded c) (hstep : Governed k c step c') : Recorded c' := by
  cases hstep with
  | moved w hfresh => exact ⟨h.logged, h.complete⟩
  | cited msg p w hreuses hget hpassed hnamed =>
    refine ⟨fun e he => ?_, fun id q hq hqpassed fxId hfx => ?_⟩
    · rcases List.mem_cons.1 he with rfl | hold
      · exact ⟨p, hget, hpassed⟩
      · exact h.logged e hold
    · obtain ⟨e, he, hown⟩ := h.complete id q hq hqpassed fxId hfx
      exact ⟨e, List.mem_cons_of_mem _ he, hown⟩
  | filed id p hfresh hopen hstatus =>
    refine ⟨fun e he => ?_, fun id' q hq hqpassed => ?_⟩
    · obtain ⟨q, hq, hqpassed⟩ := h.logged e he
      refine ⟨q, ?_, hqpassed⟩
      rw [OrdMap.get?_put_ne _ _ (h.proposal_ne hopen e he)]
      exact hq
    · rcases eq_or_ne id id' with rfl | hne
      · rw [OrdMap.get?_put_self] at hq
        cases hq
        exact absurd hqpassed hstatus
      · rw [OrdMap.get?_put_ne _ _ hne] at hq
        exact h.complete id' q hq hqpassed
  | executed id p w es hfresh hget hvoting hexecuted =>
    have hopen : ∀ q, c.proposals.get? id = some q → q.status ≠ .passed := fun q hq => by
      rw [hget] at hq
      cases hq
      rw [hvoting]
      nofun
    refine ⟨fun e he => ?_, fun id' q hq hqpassed fxId hfx => ?_⟩
    · rcases List.mem_append.1 he with hnew | hold
      · refine ⟨{ p with status := .passed }, ?_, rfl⟩
        rw [(hexecuted.own e hnew).2]
        exact OrdMap.get?_put_self _ _ _
      · obtain ⟨q, hq, hqpassed⟩ := h.logged e hold
        refine ⟨q, ?_, hqpassed⟩
        exact (OrdMap.get?_put_ne _ _ (h.proposal_ne hopen e hold)).trans hq
    · rcases eq_or_ne id id' with rfl | hne
      · rw [OrdMap.get?_put_self] at hq
        cases hq
        obtain ⟨m, hm, hnames⟩ := List.mem_filterMap.1 hfx
        obtain ⟨e, he, hsame⟩ := hexecuted.complete m hm fxId hnames
        obtain ⟨hown, hproposal⟩ := hexecuted.own e he
        exact ⟨e, List.mem_append_left _ he, hown, hproposal, hsame⟩
      · rw [OrdMap.get?_put_ne _ _ hne] at hq
        obtain ⟨e, he, hown⟩ := h.complete id' q hq hqpassed fxId hfx
        exact ⟨e, List.mem_append_right _ he, hown⟩

/-- The log only grows. -/
theorem log_of_governed (hstep : Governed k c step c') : ∃ es, c'.log = es ++ c.log := by
  cases hstep with
  | moved | filed => exact ⟨[], rfl⟩
  | cited msg p w hreuses hget hpassed hnamed => exact ⟨[_], rfl⟩
  | executed id p w es hfresh hget hvoting hexecuted => exact ⟨es, rfl⟩

end Log

/-! ## One onboarding for each vote -/

section Once

variable {k : Keeper D} {c c' : Chamber D} {step : Ctx × GovOp}

/-- New entries of a proposal that had none before: its own execution. -/
theorem OneOnboarding.execute {id : Nat} {w w' : World D} {ms : List Message}
    {es : List Finalisation} {ps : OrdMap Nat FxProposal} (h : OneOnboarding c)
    (hnew : ∀ e ∈ c.log, id ≠ e.proposal) (hexecuted : Executed id w ms es) :
    OneOnboarding ⟨w', ps, es ++ c.log⟩ := by
  refine ⟨fun id' fxId => ?_, fun e he => ?_⟩
  · unfold Chamber.finalisations
    rw [List.countP_append]
    rcases eq_or_ne id id' with rfl | hne
    · -- all entries are new, and their ids are distinct
      have hold : c.log.countP (fun e => e.proposal = id ∧ e.fxId = fxId) = 0 :=
        List.countP_eq_zero.2 fun e he hmatch =>
          hnew e he (of_decide_eq_true hmatch).1.symm
      have hcount : es.countP (fun e => e.proposal = id ∧ e.fxId = fxId) ≤
          (es.map Finalisation.fxId).count fxId := by
        rw [List.count, List.countP_map]
        refine List.countP_mono_left fun e _ hmatch => ?_
        exact beq_iff_eq.2 (of_decide_eq_true hmatch).2
      rw [hold]
      exact hcount.trans (List.nodup_iff_count_le_one.1 hexecuted.distinct fxId)
    · have hzero : es.countP (fun e => e.proposal = id' ∧ e.fxId = fxId) = 0 :=
        List.countP_eq_zero.2 fun e he hmatch =>
          hne ((hexecuted.own e he).2.symm.trans (of_decide_eq_true hmatch).1)
      rw [hzero, Nat.zero_add]
      exact h.once id' fxId
  · unfold Chamber.stood
    rw [List.find?_append]
    rcases List.mem_append.1 he with hin | hold
    · -- the entry itself is the one that is found
      obtain ⟨hown, hproposal⟩ := hexecuted.own e hin
      obtain ⟨e', hfind⟩ : ∃ e', es.find? (fun e' => e'.own ∧ e'.proposal = e.proposal ∧
          e'.fxId = e.fxId) = some e' := by
        refine Option.isSome_iff_exists.1 (List.find?_isSome.2 ⟨e, hin, ?_⟩)
        simp [hown]
      have hmatch : e'.own = true ∧ e'.proposal = e.proposal ∧ e'.fxId = e.fxId := by
        simpa using List.find?_some hfind
      have hsame : e' = e :=
        List.inj_on_of_nodup_map hexecuted.distinct (List.mem_of_find?_eq_some hfind) hin
          hmatch.2.2
      rw [hfind, hsame]
      exact hexecuted.administered e hin
    · have hnone : es.find? (fun e' => e'.own ∧ e'.proposal = e.proposal ∧ e'.fxId = e.fxId) =
          none := by
        refine List.find?_eq_none.2 fun e' he' hmatch => hnew e hold ?_
        exact (hexecuted.own e' he').2.symm.trans (of_decide_eq_true hmatch).2.1
      rw [hnone, Option.none_or]
      exact h.administered e hold

/-- A step that reuses no vote keeps the property. -/
theorem oneOnboarding_of_governed (hrec : Recorded c) (h : OneOnboarding c)
    (hfresh : c.reuses k step.2 = false) (hstep : Governed k c step c') : OneOnboarding c' := by
  cases hstep with
  | moved | filed => exact ⟨h.once, h.administered⟩
  | cited msg p w hreuses hget hpassed hnamed =>
    rw [hreuses] at hfresh
    cases hfresh
  | executed id p w es _ hget hvoting hexecuted =>
    refine h.execute (hrec.proposal_ne fun q hq => ?_) hexecuted
    rw [hget] at hq
    cases hq
    rw [hvoting]
    nofun

/-- A reused vote is counted next to the proposal's own finalisation. -/
theorem twice_of_reuses (hrec : Recorded c) (hreuses : c.reuses k step.2 = true)
    (hstep : Governed k c step c') : ∃ id fxId, 1 < c'.finalisations id fxId := by
  cases hstep with
  | moved w hfresh | filed id p hfresh | executed id p w es hfresh =>
    rw [hreuses] at hfresh
    cases hfresh
  | cited msg p w _ hget hpassed hnamed =>
    obtain ⟨e, he, -, hproposal, hfx⟩ := hrec.complete msg.proposalId p hget hpassed msg.fxId hnamed
    refine ⟨msg.proposalId, msg.fxId, ?_⟩
    have hpos : 0 < c.log.countP fun e => e.proposal = msg.proposalId ∧ e.fxId = msg.fxId :=
      List.countP_pos_iff.2 ⟨e, he, decide_eq_true ⟨hproposal, hfx⟩⟩
    have hcited : decide ((finalisation false msg.proposalId msg.fxId c.world w).proposal =
        msg.proposalId ∧ (finalisation false msg.proposalId msg.fxId c.world w).fxId = msg.fxId) =
        true := decide_eq_true ⟨rfl, rfl⟩
    unfold Chamber.finalisations
    dsimp only
    rw [List.countP_cons, if_pos hcited]
    exact Nat.succ_lt_succ hpos

/-- What has been counted stays counted. -/
theorem finalisations_le_run (c : Chamber D) (ops : List (Ctx × GovOp)) (id : Nat)
    (fxId : Bytes) : c.finalisations id fxId ≤ (run (govern k) c ops).finalisations id fxId := by
  induction ops generalizing c with
  | nil => exact Nat.le_refl _
  | cons step rest ih =>
    obtain ⟨es, hlog⟩ := log_of_governed (governed_of_step k c step)
    refine Nat.le_trans ?_ (ih (govern k c step))
    unfold Chamber.finalisations
    rw [hlog, List.countP_append]
    exact Nat.le_add_left _ _

theorem oneOnboarding_run_iff (hrec : Recorded c) (h : OneOnboarding c)
    (ops : List (Ctx × GovOp)) :
    OneOnboarding (run (govern k) c ops) ↔
      Along (govern k) (fun c step => c.reuses k step.2 = false) c ops := by
  induction ops generalizing c with
  | nil => exact ⟨fun _ => trivial, fun _ => h⟩
  | cons step rest ih =>
    have hstep := governed_of_step k c step
    have hrec' := recorded_of_governed hrec hstep
    cases hreuses : c.reuses k step.2 with
    | false =>
      have hone := oneOnboarding_of_governed hrec h hreuses hstep
      exact (ih hrec' hone).trans ⟨fun hrest => ⟨hreuses, hrest⟩, fun hall => hall.2⟩
    | true =>
      obtain ⟨id, fxId, htwice⟩ := twice_of_reuses hrec hreuses hstep
      refine ⟨fun hone => ?_, fun hall => ?_⟩
      · have hle := finalisations_le_run (k := k) (govern k c step) rest id fxId
        exact absurd (hone.once id fxId) (Nat.not_le.2 (Nat.lt_of_lt_of_le htwice hle))
      · have hfresh : c.reuses k step.2 = false := hall.1
        rw [hreuses] at hfresh
        cases hfresh

/-- Over a run after the bootstrap phase every passed proposal onboards each fx id it names once,
for the applicant whose request stood when it passed, exactly when the operator never finalises
a later request on a proposal that has passed. -/
theorem one_onboarding_iff (k : Keeper D) (w : World D) (ops : List (Ctx × GovOp)) :
    OneOnboarding (run (govern k) (Chamber.start w) ops) ↔
      Along (govern k) (fun c step => c.reuses k step.2 = false) (Chamber.start w) ops :=
  oneOnboarding_run_iff (recorded_start w) ⟨fun _ _ => Nat.zero_le _, nofun⟩ ops

end Once

/-! ## A reused vote -/

/-- An account applies for fx id `x` with guarantor `a`, whose admin approves. -/
def applySmall (applicant : Bytes) : List (Ctx × GovOp) :=
  [(smallCtx 1, .deliver (.deliver (.requestFx ⟨applicant, ascii "x", ascii "a"⟩) nofun)),
    (smallCtx 1, .deliver (.deliver (.guaranteeFx ⟨accAddressString [1], ascii "x", true⟩) nofun))]

/-- A proposal is submitted and its vote passes. -/
def voteSmall (id : Nat) (messages : List Message) : List (Ctx × GovOp) :=
  [(smallCtx 1, .submit id messages), (smallCtx 1, .pass id)]

/-- Account 2 is onboarded by a vote and removed again; then account 3 applies for the same id
and the operator cites the old vote. -/
def reusedVote : List (Ctx × GovOp) :=
  voteSmall 1
      [⟨.updateParams ⟨accAddressString [9],
          { defaultParams with operator := accAddressString [4] }⟩, rfl⟩,
        ⟨.register ⟨accAddressString [9], ascii "a", accAddressString [1], .financial⟩, rfl⟩] ++
    applySmall (accAddressString [2]) ++
    voteSmall 2 [⟨.finalizeFx ⟨accAddressString [9], ascii "x", 0⟩, rfl⟩] ++
    voteSmall 3 [⟨.remove ⟨accAddressString [9], ascii "x"⟩, rfl⟩] ++
    [(smallCtx 2, .deliver startBlock)] ++
    applySmall (accAddressString [3]) ++
    [(smallCtx 3, .deliver (.deliver (.finalizeFx ⟨accAddressString [4], ascii "x", 2⟩) nofun))]

/-- The vote on account 2 is behind two finalisations, and account 3 administers the second. -/
theorem onboarding_vote_reused :
    ((run (govern govKeeper) (Chamber.start emptyStart) reusedVote).log.map fun e =>
        (e.proposal, e.own, e.admin)) =
      [(2, false, some (accAddressString [3])), (2, true, some (accAddressString [2]))] ∧
      ¬ OneOnboarding (run (govern govKeeper) (Chamber.start emptyStart) reusedVote) := by
  refine ⟨by decide +kernel, fun h => ?_⟩
  have hcount : (run (govern govKeeper) (Chamber.start emptyStart) reusedVote).finalisations 2
      (ascii "x") = 2 := by decide +kernel
  have honce := h.once 2 (ascii "x")
  rw [hcount] at honce
  exact absurd honce (by decide)

end PhiChain.App
