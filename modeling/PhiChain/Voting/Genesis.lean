import PhiChain.Identity.Registry
import PhiChain.Institutions.Genesis
import PhiChain.Voting.Tallies

/-!
# Voting: genesis and export

The validator of a genesis state recounts the ballots: it keeps a vector of counts for each
election that has a ballot, and compares the vectors with the tallies at the end. An
exported store lists the elections and the ballots.

Every clause of the validator but one is part of the invariant `Sound`. The exception is the
sign of the start of the voting window, which the handlers never check.
-/

set_option autoImplicit false

namespace PhiChain.Voting

open Foundations Sdk
open Identity (hexEncode hexEncode_inj slash_not_mem_hexEncode)
open Institutions (checkEach)

structure GenesisState where
  params : Params
  elections : List Election
  ballots : List Ballot

/-! ## Validation -/

def validateGenesisElection (duplicate : Bool) (e : Election) : Result Unit := do
  ensure (e.id ≠ []) ⟨.unregistered, "election with empty id"⟩
  ensure (duplicate = false) ⟨.unregistered, "duplicate election id in genesis"⟩
  ensure (2 ≤ e.options.length) ⟨.unregistered, "election must have at least two options"⟩
  ensure (e.optionTallies.length = e.options.length)
    ⟨.unregistered, "election option_tallies length must match options"⟩
  ensure (0 ≤ e.votingStart) ⟨.unregistered, "election has negative voting_start"⟩
  ensure (e.votingStart < e.votingEnd)
    ⟨.unregistered, "election voting_end must be after voting_start"⟩

/-- The text under which a ballot is seen: the election, a slash, the nullifier in hexadecimal. -/
def Ballot.seenKey (b : Ballot) : Bytes := b.electionId ++ 0x2f :: hexEncode b.nullifier

/-- Vectors of counts and the ballots seen so far. -/
structure Recount where
  computed : OrdMap Bytes (List Nat)
  seenBallot : List Bytes

def GenesisState.election? (gs : GenesisState) (id : Bytes) : Option Election :=
  gs.elections.find? fun e => e.id = id

def Recount.counts (r : Recount) (e : Election) : List Nat :=
  r.computed.getD e.id (List.replicate e.options.length 0)

def GenesisState.countBallot (gs : GenesisState) (r : Recount) (b : Ballot) : Result Recount := do
  let e ← orFail (gs.election? b.electionId)
    ⟨.unregistered, "ballot references unknown election"⟩
  ensure (b.nullifier ≠ []) ⟨.unregistered, "ballot with empty nullifier in election"⟩
  ensure (b.optionIndex.toNat < e.options.length)
    ⟨.unregistered, "ballot in election has out-of-range option_index"⟩
  ensure (b.seenKey ∉ r.seenBallot)
    ⟨.unregistered, "duplicate ballot (nullifier reused) in genesis"⟩
  -- the counts are 64 bits wide
  let counts := (r.counts e).modify b.optionIndex.toNat fun n => (n + 1) % 2 ^ 64
  return ⟨r.computed.put b.electionId counts, b.seenKey :: r.seenBallot⟩

def Recount.checkElection (r : Recount) (e : Election) : Result Unit := do
  (List.range e.options.length).forM fun i =>
    ensure (e.optionTallies[i]? = (r.counts e)[i]?)
      ⟨.unregistered, "election option_tallies disagrees with ballots"⟩
  ensure (e.totalVotes = (r.counts e).sum % 2 ^ 64)
    ⟨.unregistered, "election total_votes disagrees with ballots"⟩

def GenesisState.validate (gs : GenesisState) : Result Unit := do
  gs.params.validate
  checkEach Election.id validateGenesisElection [] gs.elections
  let r ← gs.ballots.foldlM gs.countBallot ⟨∅, []⟩
  gs.elections.forM r.checkElection

/-! ## Import and export -/

def exportGenesis (s : Store) : GenesisState := ⟨s.params, s.elections.values, s.ballots.values⟩

variable {n : Nat} {r : Recount} {s : Store}

/-! ## Seen keys -/

/-- Ballots seen under one text are of one election and one nullifier. -/
theorem seenKey_inj {b b' : Ballot} (h : b.seenKey = b'.seenKey) : b.key = b'.key := by
  obtain ⟨hid, hhex⟩ :=
    append_mark_inj (slash_not_mem_hexEncode _) (slash_not_mem_hexEncode _) h
  rw [Ballot.key, Ballot.key, hid, hexEncode_inj hhex]

/-! ## The recount of an exported store -/

/-- Number of listed ballots of an election for one option. -/
def countOf (ballots : List Ballot) (id : Bytes) (i : Nat) : Nat :=
  ballots.countP fun b => b.electionId = id ∧ b.optionIndex.toNat = i

/-- The counts are those of the ballots read so far. -/
structure Recounted (s : Store) (r : Recount) (done : List Ballot) : Prop where
  seen : r.seenBallot = (done.map Ballot.seenKey).reverse
  counts : ∀ e, s.elections.get? e.id = some e →
    r.counts e = (List.range e.options.length).map fun i => countOf done e.id i % 2 ^ 64

theorem recounted_nil (s : Store) : Recounted s ⟨∅, []⟩ [] := by
  refine ⟨rfl, fun e _ => ?_⟩
  have hzero : ∀ i, countOf [] e.id i % 2 ^ 64 = 0 := fun i => rfl
  simp only [Recount.counts, OrdMap.getD, OrdMap.get?_empty, Option.getD_none, hzero]
  rw [List.map_const', List.length_range]

theorem election?_exportGenesis (s : Store) (id : Bytes) :
    (exportGenesis s).election? id = s.elections.get? id := by
  cases hget : s.elections.get? id with
  | none =>
    refine List.find?_eq_none.2 fun e he hid => ?_
    obtain rfl : e.id = id := of_decide_eq_true hid
    rw [KeyedMap.mem_values.1 he] at hget
    cases hget
  | some e =>
    have hid : e.id = id := KeyedMap.key_of_get? hget
    have hmem : e ∈ s.elections.values := KeyedMap.mem_values.2 ((congrArg _ hid).trans hget)
    cases hfind : (exportGenesis s).election? id with
    | none => exact absurd (decide_eq_true hid) (List.find?_eq_none.1 hfind e hmem)
    | some e' =>
      -- the list holds what the store has under this id
      have hid' : e'.id = id :=
        of_decide_eq_true (List.find?_some (p := fun e : Election => decide (e.id = id)) hfind)
      have hget' := KeyedMap.mem_values.1 (List.mem_of_find?_eq_some hfind)
      rw [hid', hget] at hget'
      exact hget'.symm

theorem countOf_append (done : List Ballot) (b : Ballot) (id : Bytes) (i : Nat) :
    countOf (done ++ [b]) id i =
      countOf done id i + if b.electionId = id ∧ b.optionIndex.toNat = i then 1 else 0 := by
  simp only [countOf, List.countP_append, List.countP_singleton, decide_eq_true_eq]

/-- One more ballot is counted for its own option. -/
theorem modify_counts (done : List Ballot) (b : Ballot) (n : Nat) :
    ((List.range n).map fun i => countOf done b.electionId i % 2 ^ 64).modify b.optionIndex.toNat
        (fun m => (m + 1) % 2 ^ 64) =
      (List.range n).map fun i => countOf (done ++ [b]) b.electionId i % 2 ^ 64 := by
  refine List.ext_getElem? fun i => ?_
  simp only [List.getElem?_modify, List.getElem?_map, countOf_append, true_and]
  by_cases hi : i < n
  · simp only [List.getElem?_range hi, Option.map_some]
    split <;> simp
  · rw [List.getElem?_eq_none (by simpa using hi)]
    rfl

theorem recounted_step {done : List Ballot} {b : Ballot} (h : Recounted s r done)
    (hb : BallotSound s.elections b) (hfresh : b.seenKey ∉ done.map Ballot.seenKey) :
    ∃ r', (exportGenesis s).countBallot r b = .ok r' ∧ Recounted s r' (done ++ [b]) := by
  obtain ⟨e, he, hoption⟩ := hb.option
  have hid : e.id = b.electionId := KeyedMap.key_of_get? he
  have hunseen : b.seenKey ∉ r.seenBallot := by
    rw [h.seen, List.mem_reverse]
    exact hfresh
  refine ⟨⟨r.computed.put b.electionId
    ((r.counts e).modify b.optionIndex.toNat fun n => (n + 1) % 2 ^ 64), b.seenKey :: r.seenBallot⟩,
    ?_, ?_, ?_⟩
  · simp only [GenesisState.countBallot, election?_exportGenesis, bind_eq_ok, orFail_eq_ok,
      ensure_eq_ok, pure_eq_ok, exists_const]
    exact ⟨e, he, hb.nullifier, hoption, hunseen, rfl⟩
  · rw [h.seen, List.map_append, List.reverse_append]
    rfl
  · intro e' he'
    by_cases hsame : b.electionId = e'.id
    · obtain rfl : e = e' := Option.some.inj (he.symm.trans ((congrArg _ hsame).trans he'))
      rw [Recount.counts, OrdMap.getD, ← hsame, OrdMap.get?_put_self, Option.getD_some,
        h.counts e he', hid]
      exact modify_counts done b e.options.length
    · rw [Recount.counts, OrdMap.getD, OrdMap.get?_put_ne _ _ hsame]
      refine (h.counts e' he').trans ?_
      simp only [countOf_append, hsame, false_and, if_false, Nat.add_zero]

theorem recounted_fold {rest done : List Ballot} (h : Recounted s r done)
    (hrest : ∀ b ∈ rest, BallotSound s.elections b)
    (hnodup : ((done ++ rest).map Ballot.seenKey).Nodup) :
    ∃ r', rest.foldlM (exportGenesis s).countBallot r = .ok r' ∧ Recounted s r' (done ++ rest) := by
  induction rest generalizing done r with
  | nil => exact ⟨r, rfl, (List.append_nil done).symm ▸ h⟩
  | cons b rest ih =>
    have hfresh : b.seenKey ∉ done.map Ballot.seenKey := by
      rw [List.map_append, List.map_cons] at hnodup
      intro hmem
      exact List.disjoint_of_nodup_append hnodup hmem List.mem_cons_self
    obtain ⟨r₁, hcount, hr₁⟩ := recounted_step h (hrest b List.mem_cons_self) hfresh
    have happend : done ++ b :: rest = done ++ [b] ++ rest := List.append_cons done b rest
    rw [happend] at hnodup ⊢
    obtain ⟨r', hfold, hr'⟩ := ih hr₁ (fun b' hb' => hrest b' (List.mem_cons_of_mem b hb')) hnodup
    refine ⟨r', ?_, hr'⟩
    rw [List.foldlM_cons, hcount]
    exact hfold

theorem sum_indicator (n x : Nat) :
    ((List.range n).map fun i => if x = i then 1 else 0).sum = if x < n then 1 else 0 := by
  induction n with
  | zero => rfl
  | succ n ih =>
    rw [List.range_succ, List.map_append, List.sum_append, ih]
    simp only [List.map_cons, List.map_nil, List.sum_cons, List.sum_nil]
    split <;> split <;> split <;> omega

/-- The counts of all options add up to the ballots of the election. -/
theorem sum_countOf {id : Bytes} {ballots : List Ballot}
    (h : ∀ b ∈ ballots, b.electionId = id → b.optionIndex.toNat < n) :
    ((List.range n).map fun i => countOf ballots id i).sum =
      ballots.countP fun b => b.electionId = id := by
  induction ballots with
  | nil => simp [countOf]
  | cons b rest ih =>
    have hrest := ih fun b' hb' => h b' (List.mem_cons_of_mem b hb')
    have hcons : ∀ i, countOf (b :: rest) id i =
        countOf rest id i + if b.electionId = id ∧ b.optionIndex.toNat = i then 1 else 0 := by
      intro i
      simp only [countOf, List.countP_cons, decide_eq_true_eq]
    simp only [hcons, List.sum_map_add, hrest, List.countP_cons, decide_eq_true_eq]
    by_cases hid : b.electionId = id
    · have hlt := h b List.mem_cons_self hid
      simp only [hid, true_and, sum_indicator, if_pos hlt, if_true]
    · simp only [hid, false_and, if_false, List.map_const', List.sum_replicate_nat, Nat.mul_zero]

/-! ## The export of a run -/

/-- A recounted election agrees with its ballots. -/
theorem checkElection_ok {e : Election} (hs : Sound s) (hr : Recounted s r s.ballots.values)
    (he : s.elections.get? e.id = some e) :
    r.checkElection e = .ok () := by
  have hsound := hs.elections _ e he
  have hroom : maxUint64 < 2 ^ 64 := by decide
  have hfits : ∀ i, countOf s.ballots.values e.id i % 2 ^ 64 = votesFor s.ballots e.id i := by
    intro i
    have hle : votesFor s.ballots e.id i ≤ votesIn s.ballots e.id := votesFor_le_votesIn
    exact Nat.mod_eq_of_lt
      ((hle.trans (hsound.total ▸ hsound.bounded)).trans_lt hroom)
  have hcounts : r.counts e =
      (List.range e.options.length).map fun i => votesFor s.ballots e.id i := by
    rw [hr.counts e he]
    simp only [hfits]
  simp only [Recount.checkElection, bind_eq_ok, forM_eq_ok, ensure_eq_ok, exists_const, hcounts]
  constructor
  · intro i hi
    have hlt := List.mem_range.1 hi
    rw [hsound.counted i hlt, List.getElem?_map, List.getElem?_range hlt]
    rfl
  · have hsum : ((List.range e.options.length).map fun i => votesFor s.ballots e.id i).sum =
        votesIn s.ballots e.id := by
      refine sum_countOf fun b hb hid => ?_
      obtain ⟨e', he', hoption⟩ := (hs.ballots b hb).option
      rw [hid, he] at he'
      cases he'
      exact hoption
    rw [hsum, ← hsound.total]
    exact (Nat.mod_eq_of_lt (hsound.bounded.trans_lt hroom)).symm

/-- The one clause that the handlers leave open: windows start at a time that is not negative. -/
def StartsNonnegative (s : Store) : Prop :=
  ∀ id e, s.elections.get? id = some e → 0 ≤ e.votingStart

theorem validate_exportGenesis (hs : Sound s) (hstarts : StartsNonnegative s) :
    (exportGenesis s).validate = .ok () := by
  have helections :
      checkEach Election.id validateGenesisElection [] (exportGenesis s).elections = .ok () := by
    refine Institutions.checkEach_of_nodup (fun e he => ?_) (fun _ _ => List.not_mem_nil)
      s.elections.nodup_values_keys
    have hget := KeyedMap.mem_values.1 he
    have hsound := hs.elections _ e hget
    simp only [validateGenesisElection, bind_eq_ok, ensure_eq_ok, exists_const]
    exact ⟨hsound.named, trivial, hsound.choices, hsound.shape, hstarts _ e hget, hsound.window⟩
  have hnodup : (([] ++ s.ballots.values).map Ballot.seenKey).Nodup := by
    have hkeys := s.ballots.nodup_values_keys
    refine List.Nodup.map_on (fun b hb b' hb' h => ?_) hkeys.of_map
    exact List.inj_on_of_nodup_map hkeys hb hb' (seenKey_inj h)
  obtain ⟨r, hfold, hr⟩ := recounted_fold (recounted_nil s) hs.ballots hnodup
  simp only [GenesisState.validate, bind_eq_ok, forM_eq_ok]
  refine ⟨(), hs.params, (), helections, r, hfold, fun e he => ?_⟩
  exact checkElection_ok hs hr (KeyedMap.mem_values.1 he)

/-- A creation whose window starts at a time that is not negative; any other message. -/
def StartsInTime (_ : Store) (tx : Tx) : Prop :=
  ∀ msg, tx.action = .createElection msg → 0 ≤ msg.effectiveStart tx.env.blockTime

theorem startsNonnegative_of_change {k : Keeper} {s' : Store} {tx : Tx} (h : StartsNonnegative s)
    (htx : StartsInTime s tx) (hchange : Change k s tx s') :
    StartsNonnegative s' := by
  intro id e he
  cases hchange with
  | params => exact h id e he
  | opened msg e' hopening _ =>
    rw [KeyedMap.get?_set] at he
    split at he
    · cases he
      exact (htx msg hopening.sent).trans_eq hopening.start.symm
    · exact h id e he
  | cast msg e' issuerKey _ _ hadmitted =>
    rw [KeyedMap.get?_set] at he
    split at he
    · cases he
      exact h _ e' hadmitted.election
    · exact h id e he
  | ended e' status helection _ =>
    rw [KeyedMap.get?_set] at he
    split at he
    · cases he
      exact h _ e' helection
    · exact h id e he

/-- Every state of a run whose windows start in time exports a genesis that is accepted. -/
theorem voting_export_importable {k : Keeper} {txs : List Tx}
    (hrun : Along (step k) StartsInTime Store.fresh txs) :
    (exportGenesis (run (step k) Store.fresh txs)).validate = .ok () := by
  refine validate_exportGenesis (sound_of_run k txs) ?_
  refine @run_preserves _ _ (step k) _ StartsNonnegative (fun s tx htx h => ?_) _ ?_ _ hrun
  · exact step_preserves h fun s' hchange => startsNonnegative_of_change h htx hchange
  · exact fun _ _ he => nomatch he

/-! ## A small poll

The template has the issuer key 9, and a proof shows this key and the nullifier. -/

def pollKeeper : Keeper where
  authority := accAddressString [5]
  soundnessEnforced := true
  votingSnark := false
  verifyDerivationVote proof issuerKey _ _ nullifier _ := proof = issuerKey ++ nullifier

def pollTemplates : Credentials.Store :=
  { Credentials.Store.fresh with
    templates := KeyedMap.set ∅ ⟨[1], 1, [2], [3], [9], [4], .active, 0, 0, 2, [0], [5]⟩ }

def pollTx (now : Fin 10000) (action : Action) : Tx := ⟨Identity.smallEnv now, pollTemplates, action⟩

/-- Account 21 opens a poll with two options. -/
def openPoll (start finish : Int) (h : InInt64 start ∧ InInt64 finish) : Action :=
  .createElection ⟨accAddressString [21], [7], [8], [[1], [2]], [1], [], start, finish, h⟩

def votePoll (nullifier : Byte) (option : UInt32) : Action :=
  .castVote ⟨accAddressString [22], [7], option, [nullifier], [9, nullifier]⟩

/-- A poll from second 100, and two votes in it. -/
def pollRun : List Tx :=
  [pollTx 50 (openPoll 100 9000 (by decide)), pollTx 200 (votePoll 1 0), pollTx 201 (votePoll 2 1)]

theorem voting_export_importable_poll :
    (run (step pollKeeper) Store.fresh pollRun).ballots.values.length = 2 ∧
      (exportGenesis (run (step pollKeeper) Store.fresh pollRun)).validate = .ok () := by
  refine ⟨by decide +kernel, voting_export_importable (along_of_forall fun tx htx msg hsent => ?_)⟩
  simp only [pollRun, List.mem_cons, List.not_mem_nil, or_false] at htx
  rcases htx with rfl | rfl | rfl
  · cases hsent
    decide
  · cases hsent
  · cases hsent

/-- A poll that starts two hours before the epoch is opened, and its export is refused. -/
theorem negative_start_not_importable :
    isOk (apply pollKeeper Store.fresh (pollTx 50 (openPoll (-7200) 0 (by decide)))) = true ∧
      (exportGenesis (run (step pollKeeper) Store.fresh
        [pollTx 50 (openPoll (-7200) 0 (by decide))])).validate =
          .error ⟨.unregistered, "election has negative voting_start"⟩ := by
  constructor <;> decide +kernel

end PhiChain.Voting
