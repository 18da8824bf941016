import PhiChain.App.Authority
import PhiChain.App.SingleUse
import PhiChain.Institutions.Caps

/-!
# Daily caps over runs

A journal runs next to the chain: it keeps the time of the last block and the mints and
redemptions that executed, each with its block time. As long as block time does not go back,
every counter of the current day, and of the days to come, is what the genesis carried for it
plus what the journal has for it (`read_step`, `Balanced.step`). The caps are checked against
these counters, so after an executed mint or redemption the counters are under the caps that
were in force for it (`capsHold`).
-/

set_option autoImplicit false

namespace PhiChain.App

open Foundations Sdk Institutions

variable {D : Type} [LinearOrder D] {k : Keeper D} {ctx : Ctx} {w w' : World D} {a : Action}

/-! ## Days -/

/-- UTC day of a Unix time. -/
def utcDay (t : Int) : Int := t / 86400

theorem dayIndex_eq_utcDay (h : 0 ≤ ctx.blockTime) : ctx.dayIndex = utcDay ctx.blockTime :=
  quo_of_nonneg h

theorem isDay_utcDay {t : Int} (hlow : 0 ≤ t) (hhigh : t < 2 ^ 63) : IsDay (utcDay t) := by
  unfold IsDay utcDay
  omega

theorem utcDay_mono {t t' : Int} (h : t ≤ t') : utcDay t ≤ utcDay t' := by
  unfold utcDay
  omega

variable {b : Bank} {c : Coin.Store} {gs : GenesisState D} {toman : Int}

/-! ## Ids stay short -/

theorem short_of_initGenesis (h : initGenesis ctx gs b c = .ok w) : ShortIds w.inst := by
  obtain ⟨hvalid, hlisted, hfx, -, -⟩ := initGenesis_ok h
  simp only [GenesisState.validateAtTime, GenesisState.validate, bind_eq_ok, ensure_eq_ok,
    exists_const] at hvalid
  obtain ⟨⟨⟩, ⟨⟨⟩, -, -, ⟨⟩, hinsts, ⟨⟩, -, ⟨⟩, hreqs, -⟩, -⟩ := hvalid
  have hinst : ∀ d i, validateGenesisInstitution (capInt gs.params.redeemFloorPerTx) d i = .ok () →
      d = false ∧ i.id.length ≤ maxInstitutionIDLen := by
    intro d i hi
    simp only [validateGenesisInstitution, bind_eq_ok, ensure_eq_ok, exists_const] at hi
    exact ⟨hi.2.2.1, hi.2.1⟩
  have hreq : ∀ d e, validateGenesisFxRequest (gs.institutions.map Institution.id) d e = .ok () →
      d = false ∧ e.1.length ≤ maxInstitutionIDLen := by
    intro d e he
    simp only [validateGenesisFxRequest, bind_eq_ok, ensure_eq_ok, exists_const] at he
    exact ⟨he.2.2.1, he.2.1⟩
  obtain ⟨heach, -⟩ := checkEach_ok (fun d i hi => (hinst d i hi).1) hinsts
  obtain ⟨heachReq, -⟩ := checkEach_ok (fun d e he => (hreq d e he).1) hreqs
  constructor
  · intro id inst hget
    obtain ⟨i, hi, rfl⟩ := hlisted id inst hget
    exact (hinst false i (heach i hi).1).2
  · intro id hid
    rw [hfx] at hid
    by_cases hmem : id ∈ gs.fxRequests.map Prod.fst
    · obtain ⟨e, he, rfl⟩ := List.mem_map.1 hmem
      exact (hreq false e (heachReq e he).1).2
    · obtain ⟨req, hreq⟩ := OrdMap.has_iff.1 hid
      rw [get?_importEntries_of_not_mem ∅ hmem] at hreq
      cases hreq

theorem short_of_apply (hs : ShortIds w.inst) (h : apply k ctx w a = .ok w') : ShortIds w'.inst := by
  by_cases hblock : a = .beginBlock
  · subst hblock
    cases h
    obtain ⟨-, hinst, -, hfx, -⟩ := beginBlock_keeps ctx w.inst
    exact hs.of_eq hinst hfx
  · by_cases hrestart : a = .restart
    · subst hrestart
      exact short_of_initGenesis h
    · have heffects : Effects k False (recordedKey k w a) w.inst w'.inst :=
        apply_effects hs (fun heq => absurd heq hblock) hrestart False.elim h
      exact heffects.preserve (fun _ _ _ heffect => heffect.short) hs

/-! ## Executed mints and redemptions -/

/-- The mint or redemption that an action executes; a mint that waits for approvals executes
nothing. -/
def executed (k : Keeper D) (ctx : Ctx) (w : World D) : Action → Option Entry
  | .mint msg => do
    let toman ← newIntFromString msg.amountToman
    let recipient ← accAddressFromBech32 msg.recipient
    let answer := msg.validateBasic >>= fun _ => institutionMint k ctx msg w
    (mintedAmount answer).map fun _ => .mint msg.institution recipient toman
  | .redeem msg => do
    let toman ← newIntFromString msg.amountToman
    let holder ← accAddressFromBech32 msg.holder
    (apply k ctx w (.redeem msg)).toOption.map fun _ =>
      .redeem msg.institution holder (redeemSubject ctx holder) toman
        (uphiForToman toman w.inst.params.phiToToman)
  | _ => none

/-- The counters of a store that a restart imports are those it exported. -/
theorem read_restart {s : Store D} (h : initGenesis ctx (exportGenesis s) b c = .ok w) (m : Meter)
    (day : Int) :
    m.read w.inst day = m.read s day := by
  obtain ⟨-, -, -, hcounters, hsubjects⟩ := initGenesis_ok h
  have hsame : ∀ es : List (Bytes × Nat),
      (es.map fun e => (e.1, (e.2 : Int))).map (fun e => (e.1, e.2.toNat)) = es := by
    intro es
    rw [List.map_map]
    exact List.map_id es
  refine Meter.read_of_get? (fun key => ?_) (fun key => ?_) m day
  · rw [hcounters]
    unfold exportGenesis
    dsimp only
    rw [hsame, importEntries_empty]
  · rw [hsubjects]
    unfold exportGenesis
    dsimp only
    rw [hsame, importEntries_empty]

theorem mintedUphi_of_integral {s : Store D} {uphi : Int} (h : integralUphi s toman = .ok uphi) :
    0 < uphi ∧ uphiForToman toman s.params.phiToToman = uphi := by
  simp only [integralUphi, bind_eq_ok, mintedUphiForToman_ok, ensure_eq_ok, pure_eq_ok,
    exists_const] at h
  obtain ⟨r, ⟨-, rfl⟩, ⟨-, hpositive⟩, rfl⟩ := h
  exact ⟨hpositive, rfl⟩

/-- A mint that answered: it waits and keeps the store up to approvals, or it executed its
plan. -/
theorem mint_ok {msg : MsgInstitutionMint} (h : apply k ctx w (.mint msg) = .ok w') :
    (executed k ctx w (.mint msg) = none ∧ ∃ approvals, w'.inst = { w.inst with approvals := approvals }) ∨
      ∃ plan approvals, MintAccepted k ctx msg w.inst plan ∧
        executed k ctx w (.mint msg) = some (.mint plan.inst.id plan.recipient plan.toman) ∧
        w'.inst = mintStore ctx msg plan { w.inst with approvals := approvals } := by
  obtain ⟨hbasic, r, hmint⟩ := apply_mint_ok h
  obtain ⟨plan, gate, s, hacc, hgate, h⟩ := institutionMint_ok hmint
  obtain ⟨approvals, rfl⟩ := mintGate_frame hgate
  have hid : plan.inst.id = msg.institution := Registry.id_of_get? hacc.found
  have hanswer : (msg.validateBasic >>= fun _ => institutionMint k ctx msg w) = .ok (r, w') := by
    rw [hbasic]
    exact hmint
  have hexecuted : executed k ctx w (.mint msg) =
      (mintedAmount (.ok (r, w'))).map fun _ => .mint plan.inst.id plan.recipient plan.toman := by
    unfold executed
    dsimp only
    rw [hanswer, hacc.toman, hacc.recipient, hid]
    rfl
  rcases h with ⟨p, -, rfl, rfl⟩ | ⟨-, rfl, b, -, rfl⟩
  · exact Or.inl ⟨hexecuted, approvals, rfl⟩
  · exact Or.inr ⟨plan, approvals, hacc, hexecuted, rfl⟩

theorem redeem_ok {msg : MsgInstitutionRedeem} (h : apply k ctx w (.redeem msg) = .ok w') :
    ∃ plan split, RedeemAccepted ctx msg w.inst plan ∧
      executed k ctx w (.redeem msg) = some
        (.redeem plan.inst.id plan.holder (redeemSubject ctx plan.holder) plan.toman plan.uphi) ∧
      w'.inst = redeemStore ctx msg plan split w.inst := by
  obtain ⟨r, hredeem⟩ := apply_redeem_ok h
  obtain ⟨plan, split, coin, b, hacc, -, -, -, rfl⟩ := institutionRedeem_ok hredeem
  have hid : plan.inst.id = msg.institution := Registry.id_of_get? hacc.found
  obtain ⟨-, huphi⟩ := mintedUphi_of_integral hacc.uphi
  refine ⟨plan, split, hacc, ?_, rfl⟩
  unfold executed
  dsimp only
  rw [h, hacc.toman, hacc.holder, hid, ← huphi]
  rfl

/-- A failed action executes nothing. -/
theorem executed_of_error {e : Failure} (h : apply k ctx w a = .error e) :
    executed k ctx w a = none := by
  cases a with
  | mint msg =>
    cases hanswer : (msg.validateBasic >>= fun _ => institutionMint k ctx msg w) with
    | error e' =>
      unfold executed
      dsimp only
      rw [hanswer]
      simp [mintedAmount]
    | ok r =>
      obtain ⟨⟨⟩, hbasic, hmint⟩ := bind_eq_ok.1 hanswer
      have hok : apply k ctx w (.mint msg) = .ok r.2 :=
        bind_eq_ok.2 ⟨(), hbasic, bind_eq_ok.2 ⟨r, hmint, rfl⟩⟩
      rw [hok] at h
      cases h
  | redeem msg =>
    unfold executed
    dsimp only
    rw [h]
    simp [Except.toOption]
  | _ => rfl

section Charge

variable {m : Meter} {day : Int}

/-- What an action adds to a meter. -/
def Meter.charge (m : Meter) (e : Option Entry) : Int := (e.map m.amount).getD 0

/-- A meter of the current day, or of one to come, moves by what the action executes today. -/
theorem read_apply (hs : ShortIds w.inst) (hm : m.Named) (hday : IsDay day)
    (htoday : IsDay ctx.dayIndex) (hlive : ctx.dayIndex ≤ day) (h : apply k ctx w a = .ok w') :
    m.read w'.inst day = m.read w.inst day +
      if day = ctx.dayIndex then Meter.charge m (executed k ctx w a) else 0 := by
  -- actions without an entry leave the meters
  have hidle : executed k ctx w a = none → m.read w'.inst day = m.read w.inst day →
      m.read w'.inst day = m.read w.inst day +
        if day = ctx.dayIndex then Meter.charge m (executed k ctx w a) else 0 := by
    intro hnone hread
    rw [hread, hnone]
    unfold Meter.charge
    simp
  cases a with
  | mint msg =>
    rcases mint_ok h with ⟨hnone, approvals, heq⟩ | ⟨plan, approvals, hacc, hsome, heq⟩
    · refine hidle hnone ?_
      rw [heq]
      exact Meter.read_congr rfl rfl m day
    · have hid := hs.institutions _ _ (Store.getInstitution_self hacc.found)
      rw [heq, hsome, read_mintStore hm hid hday htoday hacc.positive.le]
      exact congrArg (· + _) (Meter.read_congr rfl rfl m day)
  | redeem msg =>
    obtain ⟨plan, split, hacc, hsome, heq⟩ := redeem_ok h
    have hid := hs.institutions _ _ (Store.getInstitution_self hacc.found)
    obtain ⟨huphi, -⟩ := mintedUphi_of_integral hacc.uphi
    rw [heq, hsome, read_redeemStore hm hid hday htoday hacc.positive.le huphi.le]
    rfl
  | beginBlock =>
    cases h
    exact hidle rfl (read_beginBlock hm hday hlive)
  | restart => exact hidle rfl (read_restart h m day)
  | _ =>
    obtain ⟨-, hcounters, hsubjects⟩ := sameLedgers_of_apply rfl h
    exact hidle rfl (Meter.read_congr hcounters hsubjects m day)

theorem read_step (hs : ShortIds w.inst) (hm : m.Named) (hday : IsDay day)
    (htoday : IsDay ctx.dayIndex) (hlive : ctx.dayIndex ≤ day) :
    m.read (step k w (ctx, a)).inst day = m.read w.inst day +
      if day = ctx.dayIndex then Meter.charge m (executed k ctx w a) else 0 := by
  cases happly : apply k ctx w a with
  | ok w' =>
    have hstep : step k w (ctx, a) = w' := by simp only [step, happly, commit]
    rw [hstep]
    exact read_apply hs hm hday htoday hlive happly
  | error e =>
    have hstep : step k w (ctx, a) = w := by simp only [step, happly, commit]
    rw [hstep, executed_of_error happly]
    unfold Meter.charge
    simp

end Charge

/-! ## Caps of a step -/

/-- The day of the counters is the UTC day of the block, and after an executed mint or
redemption its counters are under the caps that were in force for it. -/
structure CapsHold (k : Keeper D) (w : World D) (ctx : Ctx) (a : Action) : Prop where
  day : ctx.dayIndex = utcDay ctx.blockTime
  mint : ∀ msg id recipient toman, a = .mint msg →
    executed k ctx w a = some (.mint id recipient toman) →
    ∃ inst, w.inst.getInstitution id = some inst ∧
      MintWithin ctx w.inst (step k w (ctx, a)).inst inst recipient msg.kycTier
  redeem : ∀ id holder subject toman uphi,
    executed k ctx w a = some (.redeem id holder subject toman uphi) →
    ∃ inst, w.inst.getInstitution id = some inst ∧ subject = redeemSubject ctx holder ∧
      RedeemWithin ctx w.inst (step k w (ctx, a)).inst inst holder

theorem ok_of_executed {e : Entry} (h : executed k ctx w a = some e) :
    ∃ w', apply k ctx w a = .ok w' := by
  cases happly : apply k ctx w a with
  | ok w' => exact ⟨w', rfl⟩
  | error f =>
    rw [executed_of_error happly] at h
    cases h

/-- A meter of today that an entry is charged to. -/
theorem read_executed {e : Entry} {m : Meter} (hs : ShortIds w.inst) (hm : m.Named)
    (htoday : IsDay ctx.dayIndex) (h : executed k ctx w a = some e) :
    m.read (step k w (ctx, a)).inst ctx.dayIndex = m.read w.inst ctx.dayIndex + m.amount e := by
  rw [read_step hs hm htoday htoday le_rfl, if_pos rfl, h]
  rfl

theorem mintWithin_of_executed {msg : MsgInstitutionMint} {id recipient : Bytes}
    (hs : ShortIds w.inst) (htoday : IsDay ctx.dayIndex)
    (h : executed k ctx w (.mint msg) = some (.mint id recipient toman)) :
    ∃ inst, w.inst.getInstitution id = some inst ∧
      MintWithin ctx w.inst (step k w (ctx, .mint msg)).inst inst recipient msg.kycTier := by
  obtain ⟨w', happly⟩ := ok_of_executed h
  rcases mint_ok happly with ⟨hnone, -⟩ | ⟨plan, approvals, hacc, hsome, -⟩
  · rw [hnone] at h
    cases h
  · obtain ⟨rfl, rfl, rfl⟩ := Entry.mint.inj (Option.some.inj (hsome.symm.trans h))
    have hfound := Store.getInstitution_self hacc.found
    have hid := hs.institutions _ _ hfound
    refine ⟨plan.inst, hfound, mintWithin_of_caps hacc.caps ?_ ?_⟩
    · rw [read_executed (m := .mintDaily plan.inst.id) hs hid htoday h]
      exact congrArg _ (if_pos rfl)
    · rw [read_executed (m := .mintUser plan.inst.id plan.recipient) hs hid htoday h]
      exact congrArg _ (if_pos ⟨rfl, rfl⟩)

theorem redeemWithin_of_executed {id holder : Bytes} {subject : Byte × Bytes} {uphi : Int}
    (hs : ShortIds w.inst) (htoday : IsDay ctx.dayIndex)
    (h : executed k ctx w a = some (.redeem id holder subject toman uphi)) :
    ∃ inst, w.inst.getInstitution id = some inst ∧ subject = redeemSubject ctx holder ∧
      RedeemWithin ctx w.inst (step k w (ctx, a)).inst inst holder := by
  obtain ⟨w', happly⟩ := ok_of_executed h
  cases a with
  | redeem msg =>
    obtain ⟨plan, split, hacc, hsome, -⟩ := redeem_ok happly
    obtain ⟨rfl, rfl, rfl, rfl, rfl⟩ :=
      Entry.redeem.inj (Option.some.inj (hsome.symm.trans h))
    have hfound := Store.getInstitution_self hacc.found
    have hid := hs.institutions _ _ hfound
    refine ⟨plan.inst, hfound, rfl, redeemWithin_of_caps hacc.caps ?_ ?_ ?_⟩
    · rw [read_executed (m := .redeemDaily plan.inst.id) hs hid htoday h]
      exact congrArg _ (if_pos rfl)
    · rw [read_executed (m := .redeemUser plan.inst.id plan.holder) hs hid htoday h]
      exact congrArg _ (if_pos ⟨rfl, rfl⟩)
    · rw [read_executed (m := .redeemSubject (redeemSubject ctx plan.holder).1
        (redeemSubject ctx plan.holder).2) hs trivial htoday h]
      exact congrArg _ (if_pos rfl)
  | mint msg =>
    rcases mint_ok happly with ⟨hnone, -⟩ | ⟨plan, approvals, -, hsome, -⟩
    · rw [hnone] at h
      cases h
    · rw [hsome] at h
      cases h
  | _ => cases h

theorem capsHold (hs : ShortIds w.inst) (hlow : 0 ≤ ctx.blockTime) (hhigh : ctx.blockTime < 2 ^ 63) :
    CapsHold k w ctx a := by
  have hday := dayIndex_eq_utcDay hlow
  have htoday : IsDay ctx.dayIndex := hday ▸ isDay_utcDay hlow hhigh
  refine ⟨hday, ?_, ?_⟩
  · rintro msg id recipient toman rfl hentry
    exact mintWithin_of_executed hs htoday hentry
  · intro id holder subject toman uphi hentry
    exact redeemWithin_of_executed hs htoday hentry

/-! ## Runs -/

/-- The chain, the time of its last block, and the executed mints and redemptions with their
block times. -/
structure Journal (D : Type) [LinearOrder D] where
  world : World D
  now : Int
  entries : List (Int × Entry)

def Journal.step (k : Keeper D) (j : Journal D) (a : Ctx × Action) : Journal D where
  world := App.step k j.world a
  now := a.1.blockTime
  entries := ((executed k a.1 j.world a.2).map fun e => (a.1.blockTime, e)).toList ++ j.entries

/-- Block time does not go back, and it is a 64-bit Unix time. -/
def Journal.inOrder (j : Journal D) (a : Ctx × Action) : Prop :=
  j.now ≤ a.1.blockTime ∧ a.1.blockTime < 2 ^ 63

instance (j : Journal D) (a : Ctx × Action) : Decidable (j.inOrder a) :=
  inferInstanceAs (Decidable (_ ∧ _))

/-- Sum of the entries of a day that are charged to a meter. -/
def Meter.total (m : Meter) (entries : List (Int × Entry)) (day : Int) : Int :=
  ((entries.filter fun e => utcDay e.1 = day).map fun e => m.amount e.2).sum

theorem Meter.total_append (m : Meter) (o : Option Entry) (t : Int) (entries : List (Int × Entry))
    (day : Int) :
    Meter.total m ((o.map fun e => (t, e)).toList ++ entries) day =
      Meter.total m entries day + if day = utcDay t then Meter.charge m o else 0 := by
  unfold Meter.total Meter.charge
  cases o with
  | none => simp
  | some e =>
    by_cases hday : utcDay t = day
    · simp [hday, Int.add_comm]
    · simp [hday, Ne.symm hday]

/-- The journal of a chain that starts from a genesis. -/
def Journal.start (w : World D) (now : Int) : Journal D := ⟨w, now, []⟩

/-- Ids are short, time is not negative, and from the current day on every counter is what the
first world had for it and what the journal adds. -/
structure Balanced (first : World D) (j : Journal D) : Prop where
  short : ShortIds j.world.inst
  started : 0 ≤ j.now
  read : ∀ (m : Meter) (day : Int), m.Named → IsDay day → utcDay j.now ≤ day →
    m.read j.world.inst day = m.read first.inst day + Meter.total m j.entries day

/-- An accepted genesis is not before 1970: it has timestamps that are neither negative nor in
its future. -/
theorem blockTime_of_initGenesis (h : initGenesis ctx gs b c = .ok w) : 0 ≤ ctx.blockTime := by
  obtain ⟨hvalid, -⟩ := initGenesis_ok h
  simp only [GenesisState.validateAtTime, GenesisState.validate, bind_eq_ok, ensure_eq_ok,
    exists_const] at hvalid
  obtain ⟨⟨⟩, ⟨⟨⟩, -, hlow, -⟩, hhigh⟩ := hvalid
  have hmem : gs.params.emergencyRedemption.startedAt ∈ gs.genesisTimestamps := List.mem_cons_self
  exact (hlow _ hmem).trans (hhigh _ hmem)

theorem Balanced.of_initGenesis
    (h : initGenesis ctx gs b c = .ok w) : Balanced w (Journal.start w ctx.blockTime) where
  short := short_of_initGenesis h
  started := blockTime_of_initGenesis h
  read _ _ _ _ _ := (Int.add_zero _).symm

theorem Balanced.step {first : World D} {j : Journal D} {a : Ctx × Action} (hj : Balanced first j)
    (horder : j.inOrder a) : Balanced first (j.step k a) := by
  obtain ⟨ctx, a⟩ := a
  obtain ⟨hlater, hhigh⟩ := horder
  have hlow : 0 ≤ ctx.blockTime := hj.started.trans hlater
  refine ⟨?_, hlow, ?_⟩
  · exact commit_preserves (p := fun w : World D => ShortIds w.inst) hj.short
      fun _ => short_of_apply hj.short
  · intro m day hm hday hlive
    have hindex := @dayIndex_eq_utcDay ctx hlow
    have htoday : IsDay ctx.dayIndex := hindex ▸ isDay_utcDay hlow hhigh
    have hbefore := hj.read m day hm hday ((utcDay_mono hlater).trans hlive)
    calc m.read (App.step k j.world (ctx, a)).inst day
        = m.read j.world.inst day +
            if day = ctx.dayIndex then Meter.charge m (executed k ctx j.world a) else 0 :=
          read_step hj.short hm hday htoday (hindex ▸ hlive)
      _ = m.read first.inst day + (Meter.total m j.entries day +
            if day = utcDay ctx.blockTime then Meter.charge m (executed k ctx j.world a) else 0) := by
          rw [hbefore, hindex, Int.add_assoc]
      _ = m.read first.inst day + Meter.total m (j.step k (ctx, a)).entries day :=
          congrArg _ (Meter.total_append m _ _ _ _).symm

/-- From an accepted genesis, in every run whose block time does not go back, each counter of the
current day, and of the days after it, is the value that the genesis carried plus the sum of the
mints or redemptions of that day for its key; and after every executed mint or redemption the
counters are under the caps in force for it, the daily cap of an institution giving way to a subject
that stays within one floor. -/
theorem daily_caps_hold {gs : GenesisState D} {b : Bank} {c : Coin.Store}
    (hgenesis : initGenesis ctx gs b c = .ok w) {as : List (Ctx × Action)}
    (horder : Along (Journal.step k) Journal.inOrder (Journal.start w ctx.blockTime) as) :
    (∀ (m : Meter) (day : Int), m.Named → IsDay day →
      utcDay (run (Journal.step k) (Journal.start w ctx.blockTime) as).now ≤ day →
      m.read (run (Journal.step k) (Journal.start w ctx.blockTime) as).world.inst day =
        m.read w.inst day +
          Meter.total m (run (Journal.step k) (Journal.start w ctx.blockTime) as).entries day) ∧
      Along (Journal.step k) (fun j a => CapsHold k j.world a.1 a.2)
        (Journal.start w ctx.blockTime) as := by
  have hstart := Balanced.of_initGenesis hgenesis
  constructor
  · exact (@run_preserves _ _ (Journal.step k) _ (Balanced w)
      (fun _ _ hok hj => hj.step hok) _ hstart _ horder).read
  · refine @along_of_invariant _ _ (Journal.step k) _ (Balanced w) _
      (fun _ _ hok hj => hj.step hok) ?_ _ hstart _ horder
    intro j a hok hj
    exact capsHold hj.short (hj.started.trans hok.1) hok.2

/-- The chain of `multisigWorld`, restarted on day 1. -/
def multisigRestart : Result (World Bytes) :=
  initGenesis (smallCtx 86400) (exportGenesis multisigStore) multisigWorld.bank multisigWorld.coin

def redeemOne : MsgInstitutionRedeem where
  admin := accAddressString [9]
  institution := ascii "a"
  holder := accAddressString [9]
  amountToman := ascii "1"
  redeemRef := ascii "s"
  fxCurrency := []
  fxAmount := []
  fxTxRef := []

/-- Two admins approve a mint, and its recipient redeems one toman. -/
def mintAndRedeem : List (Ctx × Action) :=
  [(smallCtx 86400, .mint (largeMint [1])), (smallCtx 86401, .mint (largeMint [2])),
    (smallCtx 86402, .redeem redeemOne)]

/-- One mint and one redemption execute; the counter of mints is the one of ten toman. -/
theorem daily_caps_hold_two_admins :
    (multisigRestart.toOption.map fun w =>
      ((run (Journal.step textKeeper) (Journal.start w 86400) mintAndRedeem).entries.length,
        Meter.total (.mintDaily (ascii "a"))
          (run (Journal.step textKeeper) (Journal.start w 86400) mintAndRedeem).entries 1)) =
      some (2, 10) ∧
    ∃ w, multisigRestart = .ok w ∧
      (Meter.mintDaily (ascii "a")).read
          (run (Journal.step textKeeper) (Journal.start w 86400) mintAndRedeem).world.inst 1 =
        (Meter.mintDaily (ascii "a")).read w.inst 1 + Meter.total (.mintDaily (ascii "a"))
          (run (Journal.step textKeeper) (Journal.start w 86400) mintAndRedeem).entries 1 ∧
      Along (Journal.step textKeeper) (fun j a => CapsHold textKeeper j.world a.1 a.2)
        (Journal.start w 86400) mintAndRedeem := by
  refine ⟨by decide +kernel, ?_⟩
  have haccepted : isOk multisigRestart = true := by decide +kernel
  obtain ⟨w, hw⟩ := isOk_iff.1 haccepted
  -- the clock of a journal does not depend on its world
  have hfirst : (86400 : Int) ≤ 86401 := by decide
  have hsecond : (86401 : Int) ≤ 86402 := by decide
  have horder : Along (Journal.step textKeeper) Journal.inOrder (Journal.start w 86400)
      mintAndRedeem :=
    ⟨⟨le_refl _, by decide⟩, ⟨hfirst, by decide⟩, ⟨hsecond, by decide⟩, trivial⟩
  have hday : utcDay 86402 ≤ 1 := by decide
  have hid : (ascii "a").length ≤ maxInstitutionIDLen := by decide
  obtain ⟨hread, hcaps⟩ := daily_caps_hold (k := textKeeper) hw horder
  exact ⟨w, hw, hread (.mintDaily (ascii "a")) 1 hid ⟨by decide, by decide⟩ hday, hcaps⟩

end PhiChain.App
