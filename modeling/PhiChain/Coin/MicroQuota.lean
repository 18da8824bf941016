import PhiChain.Coin.FeeRouting

/-!
# The daily micro-fee exemption

A counter per DID and day bounds how many small transfers a human may send without a fee. The
chain is a delivered branch, which blocks write and prune, and a check branch, which a commit
resets. `Branch.exemption` names the DID and day a delivered transaction is charged to.

Along every run with nondecreasing block times, the counters of the retained days count exactly
the exemptions of the run, none beyond the quota (`micro_exemption_counted`).
-/

set_option autoImplicit false

namespace PhiChain.Coin

open Foundations Sdk

/-! ## Days and keys -/

section Days

/-- The day is truncated towards the epoch. -/
theorem quo_day (t : Int) :
    quo t 86400 = if 0 ≤ t then t / 86400 else -(-t / 86400) := by
  split
  · rename_i h
    exact quo_of_nonneg h
  · have hneg : quo t 86400 = -quo (-t) 86400 := by
      unfold quo
      rw [Int.neg_tdiv, neg_neg]
    rw [hneg, quo_of_nonneg (by omega)]

theorem quo_day_mono {t t' : Int} (h : t ≤ t') : quo t 86400 ≤ quo t' 86400 := by
  rw [quo_day, quo_day]
  split
  · split
    · omega
    · omega
  · split
    · omega
    · omega

theorem inInt64_quo_day {t : Int} (h : InInt64 t) : InInt64 (quo t 86400) := by
  obtain ⟨hlow, hhigh⟩ := h
  rw [quo_day]
  constructor
  · split
    · omega
    · omega
  · split
    · omega
    · omega

variable {day day' : Int}

theorem uint64_lt (v : Int) : uint64 v < 256 ^ 8 := by
  unfold uint64
  omega

theorem uint64_inj (h : InInt64 day) (h' : InInt64 day') (heq : uint64 day = uint64 day') :
    day = day' := by
  obtain ⟨hlow, hhigh⟩ := h
  obtain ⟨hlow', hhigh'⟩ := h'
  unfold uint64 at heq
  omega

/-- The key of a day and a DID determines both. -/
theorem microQuotaKey_inj {did did' : Bytes} (h : InInt64 day) (h' : InInt64 day')
    (heq : Store.microQuotaKey day did = Store.microQuotaKey day' did') :
    day = day' ∧ did = did' := by
  unfold Store.microQuotaKey Store.microQuotaDayBound at heq
  obtain ⟨hdays, hdids⟩ := List.append_inj heq (by simp)
  have hdays := bigEndian_inj_of_lt (uint64_lt day) (uint64_lt day') (List.cons.inj hdays).2
  exact ⟨uint64_inj h h' hdays, hdids⟩

/-- The keys of a day from a positive one on do not lie below that day's bound. -/
theorem not_microQuotaKey_lt (hpositive : 0 < day) (hday : InInt64 day') (hle : day ≤ day')
    (did : Bytes) : ¬ Store.microQuotaKey day' did < Store.microQuotaDayBound day := by
  obtain ⟨-, hhigh⟩ := hday
  unfold Store.microQuotaKey Store.microQuotaDayBound
  rw [List.cons_append, List.cons_lt_cons_iff]
  rintro (hhead | ⟨-, htail⟩)
  · exact lt_irrefl _ hhead
  · refine not_append_lt_bigEndian ?_ did htail
    rw [Nat.mod_eq_of_lt (uint64_lt day), Nat.mod_eq_of_lt (uint64_lt day')]
    unfold uint64
    omega

end Days

/-! ## Counters -/

section Counters

variable {s : Store} {ctx : Ctx} {day : Int}

/-- A use counts for its own day and DID only. A counter short of the quota does not wrap. -/
theorem getMicroUsed_incr {day' : Int} (h : InInt64 day) (h' : InInt64 day') {did : Bytes}
    (hroom : s.getMicroUsed day did + 1 < 2 ^ 64) (did' : Bytes) :
    (s.incrMicroUsed day did).getMicroUsed day' did' =
      s.getMicroUsed day' did' + if (day, did) = (day', did') then 1 else 0 := by
  by_cases hsame : (day, did) = (day', did')
  · obtain ⟨rfl, rfl⟩ := Prod.mk.inj hsame
    rw [if_pos rfl, Store.incrMicroUsed, Nat.mod_eq_of_lt hroom]
    simp only [Store.getMicroUsed, OrdMap.getD, OrdMap.get?_put_self, Option.getD_some]
  · have hkeys : Store.microQuotaKey day did ≠ Store.microQuotaKey day' did' := by
      intro heq
      obtain ⟨rfl, rfl⟩ := microQuotaKey_inj h h' heq
      exact hsame rfl
    rw [if_neg hsame]
    simp only [Store.getMicroUsed, Store.incrMicroUsed, OrdMap.getD, OrdMap.get?_put_ne _ _ hkeys,
      Nat.add_zero]

/-- Pruning keeps the counters of the retained days. -/
theorem getMicroUsed_prune (h : InInt64 day)
    (hretained : ctx.dayIndex - Store.microQuotaRetentionDays ≤ day) (did : Bytes) :
    (s.pruneMicroQuota ctx).getMicroUsed day did = s.getMicroUsed day did := by
  unfold Store.pruneMicroQuota
  dsimp only
  split
  · rename_i hcutoff
    have hkept : Store.microQuotaKey day did ∉ (s.microUsed.keysWhere fun key =>
        key < Store.microQuotaDayBound (ctx.dayIndex - Store.microQuotaRetentionDays)).take
          Store.microQuotaPruneBudget := by
      intro hmem
      have hstale := (OrdMap.mem_keysWhere.1 (List.mem_of_mem_take hmem)).1
      exact not_microQuotaKey_lt hcutoff h hretained did (of_decide_eq_true hstale)
    simp only [Store.getMicroUsed, OrdMap.getD, OrdMap.get?_eraseAll_of_not_mem _ hkept]
  · rfl

theorem pruneMicroQuota_params (ctx : Ctx) (s : Store) :
    (s.pruneMicroQuota ctx).params = s.params := by
  unfold Store.pruneMicroQuota
  dsimp only
  split
  · rfl
  · rfl

/-- An exempt payer is a human with quota left. -/
theorem exempt_subject {payer : Bytes} {msgs : List FeeMsg}
    (h : isMicroExempt ctx s payer msgs = true) :
    ∃ did, ctx.subjectDID payer = some did ∧ did ≠ [] ∧
      s.getMicroUsed ctx.dayIndex did < s.params.microDailyQuota := by
  unfold isMicroExempt at h
  split at h
  · split at h
    · split at h
      · rename_i did other _ hpayer _
        obtain ⟨-, hnonempty, -, -, hroom⟩ := of_decide_eq_true h
        exact ⟨did, hpayer, hnonempty, hroom⟩
      · cases h
    · cases h
  · cases h

/-- Consuming the exemption of a human is one use on the day of the block. -/
theorem consumeMicroExemption_eq {payer did : Bytes} (hpayer : ctx.subjectDID payer = some did)
    (hnonempty : did ≠ []) :
    consumeMicroExemption ctx s payer = s.incrMicroUsed ctx.dayIndex did := by
  unfold consumeMicroExemption
  rw [hpayer]
  exact if_neg hnonempty

/-- A delivered transaction leaves the store as it was, or counts one use of a DID with quota
left. -/
theorem deductFee_store {payer deductFrom : Bytes} {msgs : List FeeMsg} {b b' : Bank} {s' : Store}
    (h : deductFee ctx payer deductFrom msgs b s = .ok (b', s')) :
    s' = s ∨ ∃ did, s.getMicroUsed ctx.dayIndex did < s.params.microDailyQuota ∧
      s' = s.incrMicroUsed ctx.dayIndex did := by
  unfold deductFee at h
  split at h
  · rename_i hexempt
    obtain ⟨did, hpayer, hnonempty, hroom⟩ := exempt_subject hexempt
    rw [consumeMicroExemption_eq hpayer hnonempty] at h
    cases h
    exact .inr ⟨did, hroom, rfl⟩
  · obtain ⟨fee, -, h⟩ := bind_eq_ok.1 h
    split at h
    · obtain ⟨b₁, -, h⟩ := bind_eq_ok.1 h
      obtain ⟨b₂, -, h⟩ := bind_eq_ok.1 h
      cases h
      exact .inl rfl
    · cases h
      exact .inl rfl

theorem quota_of_validate {p : Params} (h : p.validate = .ok ()) :
    p.microDailyQuota ≤ maxMicroDailyQuota := by
  simp only [Params.validate, bind_eq_ok, ensure_eq_ok, forM_eq_ok, exists_const] at h
  obtain ⟨-, -, hquota, -⟩ := h
  exact hquota

end Counters

/-! ## The chain -/

/-- Block times are 64-bit seconds. -/
abbrev BlockTime := { t : Int // InInt64 t }

/-- One branch of the application state, in the block of a given time. -/
structure Branch where
  time : BlockTime
  bank : Bank
  store : Store

/-- The delivered state, and the one that transactions are checked against. -/
structure Node where
  deliver : Branch
  check : Branch

/-- A transaction with everything the other parts of the chain decide about it: the answers of
other modules' keepers, whether the other decorators accept it, and what its messages write to
the bank and the lot queues, if they succeed. -/
structure TxCall where
  view : Ctx
  keepers : FeeKeepers
  tx : FeeTx
  othersAccept : Bool
  written : Option (Bank × OrdMap Bytes (List CoinLot))

/-- The answers of the other modules in the block of the branch. -/
def Branch.ctx (b : Branch) (view : Ctx) : Ctx := { view with blockTime := b.time.1 }

def Branch.today (b : Branch) : Int := quo b.time.1 86400

/-- The ante chain: any error discards all its writes. -/
def Branch.ante (b : Branch) (simulate isCheckTx : Bool) (c : TxCall) : Result Branch := do
  let r ← anteHandle c.keepers (b.ctx c.view) simulate isCheckTx c.tx b.bank b.store
  ensure (c.othersAccept = true) ⟨.unregistered, "rejected by another decorator"⟩
  return { b with bank := r.bank, store := r.store }

/-- Delivery: the writes of an accepted ante chain stay even if the messages fail. -/
def Branch.deliverTx (b : Branch) (c : TxCall) : Branch :=
  match b.ante false false c with
  | .error _ => b
  | .ok b' =>
    match c.written with
    | none => b'
    | some (bank, coinAges) =>
      { b' with bank := bank, store := { b'.store with coinAges := coinAges } }

/-- The day and DID that a delivered transaction is charged to, if it is fee-exempt and its ante
writes are kept. -/
def Branch.exemption (b : Branch) (c : TxCall) : Option (Int × Bytes) :=
  match b.ante false false c with
  | .error _ => none
  | .ok _ =>
    let payer := accAddressString c.tx.feePayer
    if isMicroExempt (b.ctx c.view) b.store payer c.tx.msgs then
      (c.view.subjectDID payer).map fun did => (b.today, did)
    else none

/-- A block starts by pruning. -/
def Branch.beginBlock (b : Branch) (time : BlockTime) (view : Ctx) : Branch :=
  let b : Branch := { b with time := time }
  { b with store := b.store.pruneMicroQuota (b.ctx view) }

inductive ChainOp where
  | beginBlock (time : BlockTime) (view : Ctx)
  | deliverTx (c : TxCall)
  | checkTx (c : TxCall)
  | simulate (c : TxCall)
  | updateParams (authority : Bytes) (msg : MsgUpdateParams)
  | commit

/-- One step of the chain. A checked transaction writes to the check branch only, and a simulated
one nowhere. -/
def chainStep (n : Node) : ChainOp → Node
  | .beginBlock time view => { n with deliver := n.deliver.beginBlock time view }
  | .deliverTx c => { n with deliver := n.deliver.deliverTx c }
  | .checkTx c => { n with check := commit n.check (n.check.ante false true c) }
  | .simulate c => { n with check := commit n.check ((n.check.ante true true c).map fun _ => n.check) }
  | .updateParams authority msg =>
    let store := commit n.deliver.store (updateParams authority msg n.deliver.store)
    { n with deliver := { n.deliver with store := store } }
  | .commit => { n with check := n.deliver }

/-- Exemption of a step. -/
def charged (n : Node) : ChainOp → Option (Int × Bytes)
  | .deliverTx c => n.deliver.exemption c
  | _ => none

/-- Exemptions of a run, in order. -/
def exemptions : Node → List ChainOp → List (Int × Bytes)
  | _, [] => []
  | n, op :: rest => (charged n op).toList ++ exemptions (chainStep n op) rest

/-- No block is earlier than the one before it. -/
def Forward (n : Node) : ChainOp → Prop
  | .beginBlock time _ => n.deliver.time.1 ≤ time.1
  | _ => True

instance (n : Node) : (op : ChainOp) → Decidable (Forward n op)
  | .beginBlock time _ => inferInstanceAs (Decidable (n.deliver.time.1 ≤ time.1))
  | .deliverTx _ | .checkTx _ | .simulate _ | .updateParams _ _ | .commit =>
    inferInstanceAs (Decidable True)

/-- The counters of the retained days count the exemptions so far. -/
structure Counted (b : Branch) (log : List (Int × Bytes)) : Prop where
  params : b.store.params.validate = .ok ()
  counters : ∀ day did, InInt64 day → b.today - Store.microQuotaRetentionDays ≤ day →
    b.store.getMicroUsed day did = log.count (day, did)

/-! ## One step -/

section Steps

variable {b b' : Branch} {c : TxCall} {n : Node} {log : List (Int × Bytes)}

theorem inInt64_today (b : Branch) : InInt64 b.today := inInt64_quo_day b.time.2

/-- What the ante chain does to a branch. -/
theorem ante_ok {simulate isCheckTx : Bool} (h : b.ante simulate isCheckTx c = .ok b') :
    b'.time = b.time ∧ b'.store =
      if isMicroExempt (b.ctx c.view) b.store (accAddressString c.tx.feePayer) c.tx.msgs
          && !simulate && !isCheckTx
      then consumeMicroExemption (b.ctx c.view) b.store (accAddressString c.tx.feePayer)
      else b.store := by
  simp only [Branch.ante, bind_eq_ok, ensure_eq_ok, pure_eq_ok, exists_const] at h
  obtain ⟨r, hante, -, rfl⟩ := h
  obtain ⟨-, -, -, -, -, -, hstore⟩ := anteHandle_ok hante
  exact ⟨rfl, hstore⟩

/-- Messages do not write counters or parameters. -/
theorem deliverTx_of_ante (h : b.ante false false c = .ok b') :
    (b.deliverTx c).time = b'.time ∧ (b.deliverTx c).store.params = b'.store.params ∧
      (b.deliverTx c).store.microUsed = b'.store.microUsed := by
  simp only [Branch.deliverTx, h]
  cases c.written with
  | none | some => exact ⟨rfl, rfl, rfl⟩

/-- A delivered transaction either is exempt, with quota left, and counts once for the payer's
DID today, or it leaves the counters as they were. -/
theorem deliverTx_cases (b : Branch) (c : TxCall) :
    (b.deliverTx c).time = b.time ∧ (b.deliverTx c).store.params = b.store.params ∧
      ((b.exemption c = none ∧ (b.deliverTx c).store.microUsed = b.store.microUsed) ∨
        ∃ did, b.exemption c = some (b.today, did) ∧
          b.store.getMicroUsed b.today did < b.store.params.microDailyQuota ∧
          (b.deliverTx c).store.microUsed = (b.store.incrMicroUsed b.today did).microUsed) := by
  cases hante : b.ante false false c with
  | error e =>
    have hrefused : b.deliverTx c = b := by simp only [Branch.deliverTx, hante]
    rw [hrefused]
    exact ⟨rfl, rfl, .inl ⟨by simp only [Branch.exemption, hante], rfl⟩⟩
  | ok b' =>
    obtain ⟨htime, hstore⟩ := ante_ok hante
    obtain ⟨htime', hparams', hcounters⟩ := deliverTx_of_ante hante
    rw [htime', hparams', hcounters]
    cases hexempt : isMicroExempt (b.ctx c.view) b.store (accAddressString c.tx.feePayer)
        c.tx.msgs with
    | false =>
      rw [hexempt] at hstore
      have hstore : b'.store = b.store := hstore
      refine ⟨htime, by rw [hstore], .inl ⟨?_, by rw [hstore]⟩⟩
      simp only [Branch.exemption, hante, hexempt, if_neg Bool.false_ne_true]
    | true =>
      obtain ⟨did, hpayer, hnonempty, hroom⟩ := exempt_subject hexempt
      rw [hexempt] at hstore
      have hstore : b'.store = b.store.incrMicroUsed b.today did :=
        hstore.trans (consumeMicroExemption_eq hpayer hnonempty)
      refine ⟨htime, by rw [hstore]; rfl, .inr ⟨did, ?_, hroom, by rw [hstore]⟩⟩
      have hview : c.view.subjectDID (accAddressString c.tx.feePayer) = some did := hpayer
      simp only [Branch.exemption, hante, hexempt, if_pos, hview, Option.map_some]

/-- An exemption counts where it is charged, and within the quota. -/
theorem getMicroUsed_deliverTx (hparams : b.store.params.validate = .ok ()) {day : Int}
    (h : InInt64 day) (did : Bytes) :
    (b.deliverTx c).store.getMicroUsed day did =
      b.store.getMicroUsed day did + (b.exemption c).toList.count (day, did) := by
  obtain ⟨-, -, hcases⟩ := deliverTx_cases b c
  rcases hcases with ⟨hnone, hcounters⟩ | ⟨own, hown, hroom, hcounters⟩
  · rw [hnone, Store.getMicroUsed, hcounters]
    rfl
  · have hquota := quota_of_validate hparams
    have hfits : b.store.getMicroUsed b.today own + 1 < 2 ^ 64 := by
      unfold maxMicroDailyQuota at hquota
      omega
    rw [hown, Store.getMicroUsed, hcounters]
    have hcount := getMicroUsed_incr (inInt64_today b) h hfits did
    rw [Store.getMicroUsed] at hcount
    rw [hcount, Option.toList_some, List.count_singleton]
    simp only [beq_iff_eq]

theorem Counted.deliverTx (h : Counted b log) (c : TxCall) :
    Counted (b.deliverTx c) (log ++ (b.exemption c).toList) := by
  obtain ⟨htime, hparams, -⟩ := deliverTx_cases b c
  constructor
  · rw [hparams]
    exact h.params
  · intro day did hday hretained
    rw [Branch.today, htime] at hretained
    rw [getMicroUsed_deliverTx h.params hday, h.counters day did hday hretained, List.count_append]

/-- A new block prunes only what has left the retained days. -/
theorem Counted.beginBlock (h : Counted b log) {time : BlockTime} (hforward : b.time.1 ≤ time.1)
    (view : Ctx) : Counted (b.beginBlock time view) log := by
  constructor
  · rw [Branch.beginBlock, pruneMicroQuota_params]
    exact h.params
  · intro day did hday hretained
    have hearlier : b.today - Store.microQuotaRetentionDays ≤ day :=
      le_trans (sub_le_sub_right (quo_day_mono hforward) _) hretained
    rw [← h.counters day did hday hearlier]
    exact @getMicroUsed_prune b.store (Branch.ctx { b with time := time } view) day hday hretained did

theorem Counted.updateParams (h : Counted b log) (authority : Bytes) (msg : MsgUpdateParams) :
    Counted { b with store := commit b.store (updateParams authority msg b.store) } log := by
  cases hupdate : Coin.updateParams authority msg b.store with
  | error e => exact h
  | ok s =>
    simp only [Coin.updateParams, bind_eq_ok, ensure_eq_ok, pure_eq_ok, exists_const] at hupdate
    obtain ⟨-, ⟨⟩, hvalid, rfl⟩ := hupdate
    exact ⟨hvalid, h.counters⟩

/-- One step of the chain adds its exemption to the count. -/
theorem Counted.step (h : Counted n.deliver log) {op : ChainOp} (hop : Forward n op) :
    Counted (chainStep n op).deliver (log ++ (charged n op).toList) := by
  -- only a delivered transaction is charged
  have hquiet : log ++ (none : Option (Int × Bytes)).toList = log := List.append_nil log
  cases op with
  | deliverTx c => exact h.deliverTx c
  | beginBlock time view => exact hquiet.symm ▸ h.beginBlock hop view
  | updateParams authority msg => exact hquiet.symm ▸ h.updateParams authority msg
  | checkTx | simulate | commit => exact hquiet.symm ▸ h

/-- Along a run the counters count its exemptions. -/
theorem Counted.run (h : Counted n.deliver log) {ops : List ChainOp}
    (hops : Along chainStep Forward n ops) :
    Counted (run chainStep n ops).deliver (log ++ exemptions n ops) := by
  induction ops generalizing n log with
  | nil =>
    rw [exemptions, List.append_nil]
    exact h
  | cons op rest ih =>
    obtain ⟨hop, hrest⟩ := hops
    rw [exemptions, ← List.append_assoc]
    exact ih (h.step hop) hrest

/-- A checked transaction does not use up quota, not even in the check branch. -/
theorem checkTx_store (n : Node) (c : TxCall) :
    (chainStep n (.checkTx c)).check.store = n.check.store := by
  apply commit_preserves (p := fun b : Branch => b.store = n.check.store) rfl
  intro b' h
  obtain ⟨-, hstore⟩ := ante_ok h
  rw [hstore]
  simp

end Steps

/-- Along every run from a state without counters, with blocks in order of time: the counters of
the retained days count the exempt transactions committed on each of them; an exempt transaction
is charged to the current day and leaves its counter within the quota in force; the pruning of a
block keeps the counters of its day; and checked transactions leave the counters alone. -/
theorem micro_exemption_counted {n : Node} (hstart : n.deliver.store.microUsed = ∅)
    (hparams : n.deliver.store.params.validate = .ok ()) {ops : List ChainOp}
    (hops : Along chainStep Forward n ops) :
    let m := run chainStep n ops
    (∀ day did, InInt64 day → m.deliver.today - Store.microQuotaRetentionDays ≤ day →
      m.deliver.store.getMicroUsed day did = (exemptions n ops).count (day, did)) ∧
    (∀ op day did, charged m op = some (day, did) → day = m.deliver.today ∧
      (chainStep m op).deliver.store.getMicroUsed day did ≤
        m.deliver.store.params.microDailyQuota) ∧
    (∀ time view did,
      (m.deliver.beginBlock time view).store.getMicroUsed (quo time.1 86400) did =
        m.deliver.store.getMicroUsed (quo time.1 86400) did) ∧
    ∀ c, (chainStep m (.checkTx c)).check.store.microUsed = m.check.store.microUsed := by
  intro m
  have hempty : Counted n.deliver [] := by
    refine ⟨hparams, fun day did _ _ => ?_⟩
    rw [Store.getMicroUsed, hstart]
    rfl
  have hcounted : Counted m.deliver (exemptions n ops) := hempty.run hops
  refine ⟨hcounted.counters, fun op day did hcharged => ?_, fun time view did => ?_, fun c => ?_⟩
  · cases op with
    | deliverTx c =>
      have hcharged : m.deliver.exemption c = some (day, did) := hcharged
      obtain ⟨-, -, hcases⟩ := deliverTx_cases m.deliver c
      rcases hcases with ⟨hnone, -⟩ | ⟨own, hown, hroom, -⟩
      · rw [hnone] at hcharged
        cases hcharged
      · rw [hown] at hcharged
        cases hcharged
        have hcount := @getMicroUsed_deliverTx m.deliver c hcounted.params m.deliver.today
          (inInt64_today m.deliver) did
        rw [hown, Option.toList_some, List.count_singleton_self] at hcount
        exact ⟨rfl, hcount ▸ hroom⟩
    | beginBlock | checkTx | simulate | updateParams | commit => cases hcharged
  · apply @getMicroUsed_prune m.deliver.store (Branch.ctx { m.deliver with time := time } view)
      _ (inInt64_quo_day time.2)
    exact sub_le_self _ (by decide)
  · rw [checkTx_store]

/-- Everyone is a human. -/
def humanCtx : Ctx := { separateCtx 0 with subjectDID := fun addr => some (ascii "did:" ++ addr) }

/-- Account 1 sends 100 units; the messages fail or write nothing that matters here. -/
def smallCall : TxCall where
  view := humanCtx
  keepers := openKeepers
  tx := ⟨[1], none, [⟨msgTransferTypeURL, none, some (accAddressString [2], ascii "100")⟩]⟩
  othersAccept := true
  written := none

/-- A chain on its twelfth day. -/
def smallNode : Node :=
  let b : Branch := ⟨⟨1000000, by decide⟩, ⟨∅, ∅⟩, ⟨defaultParams, ∅, ∅⟩⟩
  ⟨b, b⟩

/-- Two exempt transfers, with a block a week later; a check in between and a refused delivery
do not count. -/
def smallRun : List ChainOp :=
  [.deliverTx smallCall, .checkTx smallCall, .deliverTx { smallCall with othersAccept := false },
    .deliverTx smallCall, .commit, .beginBlock ⟨1604800, by decide⟩ humanCtx]

theorem micro_exemption_two :
    (run chainStep smallNode smallRun).deliver.store.getMicroUsed 11
      (ascii "did:" ++ accAddressString [1]) = 2 := by
  have hcounted := (@micro_exemption_counted smallNode rfl (by decide +kernel) smallRun
    (by decide +kernel)).1 11 (ascii "did:" ++ accAddressString [1]) (by decide) (by decide +kernel)
  rw [hcounted]
  decide +kernel

end PhiChain.Coin
