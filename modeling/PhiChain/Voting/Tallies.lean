import PhiChain.Voting.Machine

/-!
# Voting: tallies and ballots

Every step of the machine opens an election, files one ballot and counts it, ends an
election, or replaces the parameters (`Change`). The invariant `Sound` counts the ballots:
the tallies of an election are the numbers of its stored ballots. Ballots are only ever
added under an unused key, so one that is stored stays, and its acceptance lies in the past.

`ballots_exact` puts this together for every run from the empty store.
-/

set_option autoImplicit false

namespace PhiChain.Voting

open Foundations Sdk

/-! ## What one step does -/

/-- What the code checks of a ballot before it files it. -/
structure Admitted (k : Keeper) (s : Store) (tx : Tx) (msg : MsgCastVote) (e : Election)
    (issuerKey : Bytes) : Prop where
  election : s.elections.get? msg.electionId = some e
  opened : e.status = .open
  started : e.votingStart ≤ tx.env.blockTime
  running : tx.env.blockTime ≤ e.votingEnd
  option : msg.optionIndex.toNat < e.options.length
  template : (tx.creds.templates.get? e.requiredTemplateId).map (·.issuerBbsPubkey) = some issuerKey
  unused : s.ballots.get? (ballotKey msg.electionId msg.nullifier) = none
  verified : k.verifyDerivationVote msg.eligibilityProof issuerKey tx.env.chainID msg.electionId
    msg.nullifier (voteSignal msg.optionIndex) = true
  room : e.totalVotes ≠ maxUint64

/-- A new election as message validation and the handler leave it. -/
structure Opening (tx : Tx) (msg : MsgCreateElection) (e : Election) : Prop where
  sent : tx.action = .createElection msg
  named : e.id ≠ []
  short : e.id.length ≤ maxElectionIDLen
  choices : 2 ≤ e.options.length
  start : e.votingStart = msg.effectiveStart tx.env.blockTime
  window : e.votingStart < e.votingEnd
  opened : e.status = .open
  tallies : e.optionTallies = List.replicate e.options.length 0
  votes : e.totalVotes = 0

/-- The changes a transaction can make. -/
inductive Change (k : Keeper) (s : Store) (tx : Tx) : Store → Prop
  | opened (msg : MsgCreateElection) (e : Election) (hopening : Opening tx msg e)
      (hfresh : s.elections.get? e.id = none) :
      Change k s tx { s with elections := s.elections.set e }
  | cast (msg : MsgCastVote) (e : Election) (issuerKey : Bytes) (hsent : tx.action = .castVote msg)
      (hnullifier : msg.nullifier ≠ []) (hadmitted : Admitted k s tx msg e issuerKey) :
      Change k s tx { s with
        ballots := s.ballots.set (msg.ballot tx.env.blockTime)
        elections := s.elections.set (e.tally msg.optionIndex.toNat) }
  | ended (e : Election) (status : ElectionStatus) (helection : s.elections.get? e.id = some e)
      (hsent : ∀ msg, tx.action ≠ .castVote msg) :
      Change k s tx { s with elections := s.elections.set { e with status := status } }
  | params (p : Params) (hvalid : p.validate = .ok ()) (hsent : ∀ msg, tx.action ≠ .castVote msg) :
      Change k s tx { s with params := p }

variable {k : Keeper} {s s' : Store} {tx : Tx} {msg : MsgCastVote} {id : Bytes} {b : Ballot}

theorem change_of_createElection {msg : MsgCreateElection} (hsent : tx.action = .createElection msg)
    (hbasic : msg.validateBasic = .ok ())
    (h : createElection tx.env tx.creds msg s = .ok s') : Change k s tx s' := by
  simp only [MsgCreateElection.validateBasic, validateNonempty, validateMaxLen, bind_eq_ok,
    ensure_eq_ok, exists_const] at hbasic
  obtain ⟨-, -, hnamed, hshort, -, -, hchoices, -⟩ := hbasic
  simp only [createElection, bind_eq_ok, ensure_eq_ok, orFail_eq_ok, pure_eq_ok,
    exists_const] at h
  obtain ⟨hfresh, -, hwindow, -, -, tmpl, -, -, -, rfl⟩ := h
  exact .opened msg _ ⟨hsent, hnamed, hshort, hchoices, rfl, hwindow, rfl, rfl, rfl⟩
    (KeyedMap.has_eq_false.1 hfresh)

theorem change_of_castVote (hsent : tx.action = .castVote msg) (hbasic : msg.validateBasic = .ok ())
    (h : castVote k tx.env tx.creds msg s = .ok s') : Change k s tx s' := by
  simp only [MsgCastVote.validateBasic, validateNonempty, validateMaxLen, bind_eq_ok, ensure_eq_ok,
    exists_const] at hbasic
  obtain ⟨-, -, -, hnullifier, -⟩ := hbasic
  simp only [castVote, checkNullifierShape, bind_eq_ok, ensure_eq_ok, orFail_eq_ok, pure_eq_ok,
    exists_const, Option.filter_eq_some_iff] at h
  obtain ⟨-, e, helection, hopen, hstarted, hrunning, ⟨hoption, -⟩, -, tmpl, ⟨htemplate, -⟩, -,
    hunused, hverified, ⟨hroom, -⟩, rfl⟩ := h
  refine .cast msg e tmpl.issuerBbsPubkey hsent hnullifier
    ⟨helection, hopen, hstarted, hrunning, hoption, ?_, KeyedMap.has_eq_false.1 hunused, hverified,
      hroom⟩
  rw [htemplate, Option.map_some]

theorem change_of_apply (h : apply k s tx = .ok s') :
    Change k s tx s' := by
  simp only [apply, bind_eq_ok] at h
  obtain ⟨⟨⟩, hbasic, hhandle⟩ := h
  cases hsent : tx.action with
  | createElection msg =>
    rw [hsent] at hbasic hhandle
    exact change_of_createElection hsent hbasic hhandle
  | castVote msg =>
    rw [hsent] at hbasic hhandle
    exact change_of_castVote hsent hbasic hhandle
  | closeElection msg =>
    rw [hsent] at hhandle
    simp only [handle, closeElection, bind_eq_ok, ensure_eq_ok, orFail_eq_ok, pure_eq_ok,
      exists_const] at hhandle
    obtain ⟨e, helection, -, -, rfl⟩ := hhandle
    rw [← KeyedMap.key_of_get? helection] at helection
    exact .ended e .closed helection (by simp [hsent])
  | cancelElection msg =>
    rw [hsent] at hhandle
    simp only [handle, cancelElection, bind_eq_ok, ensure_eq_ok, orFail_eq_ok, pure_eq_ok,
      exists_const] at hhandle
    obtain ⟨e, helection, -, -, -, rfl⟩ := hhandle
    rw [← KeyedMap.key_of_get? helection] at helection
    exact .ended e .cancelled helection (by simp [hsent])
  | updateParams msg =>
    rw [hsent] at hhandle
    simp only [handle, updateParams, bind_eq_ok, ensure_eq_ok, pure_eq_ok, exists_const]
      at hhandle
    obtain ⟨-, ⟨⟩, hvalid, rfl⟩ := hhandle
    exact .params msg.params hvalid (by simp [hsent])

/-- A property kept by every change is kept by the step. -/
theorem step_preserves {p : Store → Prop} (hs : p s)
    (hchange : ∀ s', Change k s tx s' → p s') : p (step k s tx) :=
  commit_preserves hs fun _ h => hchange _ (change_of_apply h)

/-! ## Counting ballots -/

abbrev Ballots := KeyedMap Bytes Ballot Ballot.key

/-- Number of stored ballots of an election for one option. -/
def votesFor (ballots : Ballots) (id : Bytes) (i : Nat) : Nat :=
  ballots.values.countP fun b => b.electionId = id ∧ b.optionIndex.toNat = i

/-- Number of stored ballots of an election. -/
def votesIn (ballots : Ballots) (id : Bytes) : Nat :=
  ballots.values.countP fun b => b.electionId = id

section Counting

variable {ballots : Ballots} {i : Nat}

theorem votesFor_set (h : ballots.get? b.key = none) :
    votesFor (ballots.set b) id i =
      votesFor ballots id i + if b.electionId = id ∧ b.optionIndex.toNat = i then 1 else 0 := by
  simp only [votesFor, KeyedMap.countP_values_set_of_none h, decide_eq_true_eq]

theorem votesIn_set (h : ballots.get? b.key = none) :
    votesIn (ballots.set b) id = votesIn ballots id + if b.electionId = id then 1 else 0 := by
  simp only [votesIn, KeyedMap.countP_values_set_of_none h, decide_eq_true_eq]

theorem votesIn_eq_zero (h : ∀ b ∈ ballots.values, b.electionId ≠ id) : votesIn ballots id = 0 := by
  refine List.countP_eq_zero.2 fun b hb => ?_
  simpa using h b hb

theorem votesFor_le_votesIn : votesFor ballots id i ≤ votesIn ballots id := by
  refine List.countP_mono_left fun b _ hb => ?_
  simp only [decide_eq_true_eq] at hb ⊢
  exact hb.1

end Counting

/-! ## The invariant -/

/-- An election whose tallies are its ballots. -/
structure ElectionSound (ballots : Ballots) (e : Election) : Prop where
  named : e.id ≠ []
  short : e.id.length ≤ maxElectionIDLen
  choices : 2 ≤ e.options.length
  window : e.votingStart < e.votingEnd
  shape : e.optionTallies.length = e.options.length
  counted : ∀ i < e.options.length, e.optionTallies[i]? = some (votesFor ballots e.id i)
  total : e.totalVotes = votesIn ballots e.id
  bounded : e.totalVotes ≤ maxUint64

/-- A ballot of a known election for one of its options. -/
structure BallotSound (elections : KeyedMap Bytes Election Election.id) (b : Ballot) : Prop where
  nullifier : b.nullifier ≠ []
  option : ∃ e, elections.get? b.electionId = some e ∧ b.optionIndex.toNat < e.options.length

structure Sound (s : Store) : Prop where
  params : s.params.validate = .ok ()
  elections : ∀ id e, s.elections.get? id = some e → ElectionSound s.ballots e
  ballots : ∀ b ∈ s.ballots.values, BallotSound s.elections b

theorem sound_fresh : Sound Store.fresh where
  params := by decide
  elections _ _ h := nomatch h
  ballots _ h := nomatch h

section Steps

variable {e : Election}

/-- No ballot names an election that does not exist. -/
theorem votesIn_of_fresh (h : Sound s) (hfresh : s.elections.get? id = none) :
    votesIn s.ballots id = 0 := by
  refine votesIn_eq_zero fun b hb hid => ?_
  obtain ⟨e, he, -⟩ := (h.ballots b hb).option
  rw [hid, hfresh] at he
  cases he

/-- A ballot stays sound while elections keep their options. -/
theorem BallotSound.of_set (h : BallotSound s.elections b)
    (hoptions : ∀ e', s.elections.get? e.id = some e' → e'.options.length ≤ e.options.length) :
    BallotSound (s.elections.set e) b := by
  obtain ⟨e', he', hoption⟩ := h.option
  refine ⟨h.nullifier, ?_⟩
  by_cases hid : e.id = b.electionId
  · rw [← hid] at he' ⊢
    exact ⟨e, KeyedMap.get?_set_self _ _, hoption.trans_le (hoptions e' he')⟩
  · exact ⟨e', (KeyedMap.get?_set_ne _ hid).trans he', hoption⟩

/-- Writing one sound election with the options it had. -/
theorem sound_set (h : Sound s) (he : ElectionSound s.ballots e)
    (hoptions : ∀ e', s.elections.get? e.id = some e' → e'.options.length ≤ e.options.length) :
    Sound { s with elections := s.elections.set e } where
  params := h.params
  elections id e' h' := by
    rw [KeyedMap.get?_set] at h'
    split at h'
    · cases h'
      exact he
    · exact h.elections id e' h'
  ballots b hb := (h.ballots b hb).of_set hoptions

theorem electionSound_opening {msg : MsgCreateElection} (h : Sound s) (hopening : Opening tx msg e)
    (hfresh : s.elections.get? e.id = none) : ElectionSound s.ballots e := by
  have hnone := votesIn_of_fresh h hfresh
  refine ⟨hopening.named, hopening.short, hopening.choices, hopening.window, ?_, ?_, ?_, ?_⟩
  · rw [hopening.tallies, List.length_replicate]
  · intro i hi
    have hzero : votesFor s.ballots e.id i = 0 :=
      Nat.le_zero.1 (votesFor_le_votesIn.trans_eq hnone)
    rw [hopening.tallies, hzero, List.getElem?_replicate, if_pos hi]
  · rw [hopening.votes, hnone]
  · rw [hopening.votes]
    exact Nat.zero_le _

/-- The election of an accepted ballot counts it. -/
theorem electionSound_tally {issuerKey : Bytes} {now : Int} (he : ElectionSound s.ballots e)
    (hadmitted : Admitted k s tx msg e issuerKey) :
    ElectionSound (s.ballots.set (msg.ballot now)) (e.tally msg.optionIndex.toNat) := by
  have hid : e.id = msg.electionId := KeyedMap.key_of_get? hadmitted.election
  have hunused : s.ballots.get? (msg.ballot now).key = none := hadmitted.unused
  refine ⟨he.named, he.short, he.choices, he.window, ?_, ?_, ?_, ?_⟩
  · rw [Election.tally, List.length_modify]
    exact he.shape
  · intro i hi
    rw [votesFor_set hunused]
    simp only [Election.tally, List.getElem?_modify, he.counted i hi,
      MsgCastVote.ballot, hid, true_and]
    split <;> rfl
  · rw [votesIn_set hunused]
    simp only [Election.tally, MsgCastVote.ballot, hid, if_true, he.total]
  · have hroom := hadmitted.room
    have hbounded := he.bounded
    simp only [Election.tally]
    omega

/-- Other elections do not count it. -/
theorem ElectionSound.of_other {ballots : Ballots} (he : ElectionSound ballots e)
    (hunused : ballots.get? b.key = none) (hother : b.electionId ≠ e.id) :
    ElectionSound (ballots.set b) e := by
  refine ⟨he.named, he.short, he.choices, he.window, he.shape, ?_, ?_, he.bounded⟩
  · intro i hi
    rw [votesFor_set hunused, if_neg fun h => hother h.1, Nat.add_zero]
    exact he.counted i hi
  · rw [votesIn_set hunused, if_neg hother, Nat.add_zero]
    exact he.total

end Steps

theorem sound_of_change (h : Sound s) (hchange : Change k s tx s') : Sound s' := by
  cases hchange with
  | opened msg e hopening hfresh =>
    refine sound_set h (electionSound_opening h hopening hfresh) fun e' he' => ?_
    rw [hfresh] at he'
    cases he'
  | cast msg e issuerKey hsent hnullifier hadmitted =>
    have hid : e.id = msg.electionId := KeyedMap.key_of_get? hadmitted.election
    have he := h.elections _ e hadmitted.election
    refine ⟨h.params, ?_, ?_⟩
    · intro id e' he'
      rw [KeyedMap.get?_set] at he'
      split at he'
      · cases he'
        exact electionSound_tally he hadmitted
      · rename_i hother
        have hid' : e'.id = id := KeyedMap.key_of_get? he'
        refine (h.elections id e' he').of_other hadmitted.unused fun hsame => hother ?_
        exact hid.trans (hsame.trans hid')
    · intro b hb
      have hkept : ∀ e', s.elections.get? (e.tally msg.optionIndex.toNat).id = some e' →
          e'.options.length ≤ (e.tally msg.optionIndex.toNat).options.length := by
        intro e' he'
        obtain rfl : e = e' := Option.some.inj
          (hadmitted.election.symm.trans ((congrArg _ hid.symm).trans he'))
        exact le_refl _
      rw [KeyedMap.mem_values, KeyedMap.get?_set] at hb
      split at hb
      · obtain rfl : msg.ballot tx.env.blockTime = b := Option.some.inj hb
        have hnew : BallotSound s.elections (msg.ballot tx.env.blockTime) :=
          ⟨hnullifier, e, hadmitted.election, hadmitted.option⟩
        exact hnew.of_set hkept
      · exact (h.ballots b (KeyedMap.mem_values.2 hb)).of_set hkept
  | ended e status helection _ =>
    have he := h.elections _ e helection
    have hended : ElectionSound s.ballots { e with status := status } :=
      ⟨he.named, he.short, he.choices, he.window, he.shape, he.counted, he.total, he.bounded⟩
    refine sound_set h hended fun e' he' => ?_
    obtain rfl : e = e' := Option.some.inj (helection.symm.trans he')
    exact le_refl _
  | params p hvalid _ => exact ⟨hvalid, h.elections, h.ballots⟩

theorem sound_of_run (k : Keeper) (txs : List Tx) : Sound (run (step k) Store.fresh txs) :=
  @run_invariant _ _ (step k) Sound
    (fun _ _ h => step_preserves h fun _ hchange => sound_of_change h hchange) _ sound_fresh txs

/-! ## Accepted ballots -/

/-- The store that the run from the default genesis reaches. -/
def reached (k : Keeper) (txs : List Tx) : Store := run (step k) Store.fresh txs

/-- A ballot that is stored stays as it is. -/
theorem ballot_kept_of_change (hchange : Change k s tx s') {key : Bytes}
    (h : s.ballots.get? key = some b) : s'.ballots.get? key = some b := by
  cases hchange with
  | opened | ended | params => exact h
  | cast msg e issuerKey hsent hnullifier hadmitted =>
    -- the new ballot is filed under an unused key
    refine (KeyedMap.get?_set_ne _ fun hkey => ?_).trans h
    have hunused : s.ballots.get? (msg.ballot tx.env.blockTime).key = none := hadmitted.unused
    rw [hkey, h] at hunused
    cases hunused

theorem ballot_kept {key : Bytes} (h : s.ballots.get? key = some b) (txs : List Tx) :
    (run (step k) s txs).ballots.get? key = some b :=
  @run_invariant _ _ (step k) (fun s => s.ballots.get? key = some b)
    (fun _ _ h => step_preserves h fun _ hchange => ballot_kept_of_change hchange h) _ h txs

/-- A transaction casts a vote and succeeds. -/
def Casts (k : Keeper) (s : Store) (tx : Tx) (msg : MsgCastVote) : Prop :=
  tx.action = .castVote msg ∧ isOk (apply k s tx) = true

theorem admitted_of_casts
    (h : Casts k s tx msg) : (∃ e issuerKey, Admitted k s tx msg e issuerKey) ∧
      (step k s tx).ballots.get? (ballotKey msg.electionId msg.nullifier) =
        some (msg.ballot tx.env.blockTime) := by
  obtain ⟨hsent, hok⟩ := h
  obtain ⟨s', hs'⟩ := isOk_iff.1 hok
  have hstep : step k s tx = s' := by
    unfold step
    rw [hs']
    rfl
  rw [hstep]
  cases change_of_apply hs' with
  | opened msg' e hopening => exact absurd (hopening.sent.symm.trans hsent) nofun
  | ended e status _ hnot | params p _ hnot => exact absurd hsent (hnot msg)
  | cast msg' e issuerKey hsent' _ hadmitted =>
    obtain rfl : msg' = msg := Action.castVote.inj (hsent'.symm.trans hsent)
    exact ⟨⟨e, issuerKey, hadmitted⟩, KeyedMap.get?_set_self s.ballots _⟩

/-- The step that files a ballot accepted it. -/
theorem admitted_of_filed (hbefore : s.ballots.get? b.key ≠ some b)
    (hafter : (step k s tx).ballots.get? b.key = some b) :
    ∃ msg e issuerKey, tx.action = .castVote msg ∧ b = msg.ballot tx.env.blockTime ∧
      Admitted k s tx msg e issuerKey := by
  revert hafter
  refine step_preserves (p := fun s' => s'.ballots.get? b.key = some b → _)
    (fun h => absurd h hbefore) fun s' hchange hafter => ?_
  cases hchange with
  | opened | ended | params => exact absurd hafter hbefore
  | cast msg e issuerKey hsent hnullifier hadmitted =>
    rw [KeyedMap.get?_set] at hafter
    split at hafter
    · exact ⟨msg, e, issuerKey, hsent, (Option.some.inj hafter).symm, hadmitted⟩
    · exact absurd hafter hbefore

/-- The ballot keys of two elections with short ids never meet. -/
theorem ballotKey_inj {id' nullifier nullifier' : Bytes} (hid : id.length ≤ maxElectionIDLen)
    (hid' : id'.length ≤ maxElectionIDLen)
    (h : ballotKey id nullifier = ballotKey id' nullifier') : id = id' ∧ nullifier = nullifier' :=
  bytePrefixed_append_inj (Nat.lt_succ_of_le hid) (Nat.lt_succ_of_le hid') h

/-- The mark of a nullifier stands exactly when the election has its ballot. -/
theorem has_ballotKey_iff (h : Sound s) {nullifier : Bytes} {e : Election}
    (he : s.elections.get? id = some e) :
    s.ballots.has (ballotKey id nullifier) = true ↔
      ∃ b ∈ s.ballots.values, b.electionId = id ∧ b.nullifier = nullifier := by
  constructor
  · intro hhas
    obtain ⟨b, hb⟩ := KeyedMap.has_iff.1 hhas
    have hkey : b.key = ballotKey id nullifier := KeyedMap.key_of_get? hb
    have hmem : b ∈ s.ballots.values := by
      rw [KeyedMap.mem_values]
      exact (congrArg _ hkey).trans hb
    obtain ⟨e', he', -⟩ := (h.ballots b hmem).option
    have hshort : id.length ≤ maxElectionIDLen := by
      rw [← KeyedMap.key_of_get? he]
      exact (h.elections id e he).short
    have hshort' : b.electionId.length ≤ maxElectionIDLen := by
      rw [← KeyedMap.key_of_get? he']
      exact (h.elections _ e' he').short
    exact ⟨b, hmem, ballotKey_inj hshort' hshort hkey⟩
  · rintro ⟨b, hb, rfl, rfl⟩
    exact KeyedMap.has_iff.2 ⟨b, KeyedMap.mem_values.1 hb⟩

/-- What is asked of the ballots of a run. -/
structure BallotsExact (k : Keeper) (txs : List Tx) : Prop where
  /-- Tallies and totals are the numbers of stored ballots. -/
  tallied : ∀ id e, (reached k txs).elections.get? id = some e →
    e.optionTallies.length = e.options.length ∧
      (∀ i < e.options.length, e.optionTallies[i]? = some (votesFor (reached k txs).ballots id i)) ∧
      e.totalVotes = votesIn (reached k txs).ballots id
  /-- No two votes of the run succeed with one nullifier in one election. -/
  once : ∀ before tx between tx' after msg msg', txs = before ++ tx :: (between ++ tx' :: after) →
    Casts k (reached k before) tx msg → Casts k (reached k (before ++ tx :: between)) tx' msg' →
    (msg.electionId, msg.nullifier) ≠ (msg'.electionId, msg'.nullifier)
  /-- A stored ballot is never changed. -/
  kept : ∀ before after key b, txs = before ++ after →
    (reached k before).ballots.get? key = some b → (reached k txs).ballots.get? key = some b
  /-- Keys of different elections or nullifiers do not meet. -/
  marked : ∀ id nullifier e, (reached k txs).elections.get? id = some e →
    ((reached k txs).ballots.has (ballotKey id nullifier) = true ↔
      ∃ b ∈ (reached k txs).ballots.values, b.electionId = id ∧ b.nullifier = nullifier)
  /-- Every stored ballot was accepted, in its window and with a verified proof. -/
  accepted : ∀ b ∈ (reached k txs).ballots.values, ∃ before tx after msg e issuerKey,
    txs = before ++ tx :: after ∧ tx.action = .castVote msg ∧ b = msg.ballot tx.env.blockTime ∧
      Admitted k (reached k before) tx msg e issuerKey

theorem ballots_exact (k : Keeper) (txs : List Tx) : BallotsExact k txs where
  tallied id e he := by
    have hsound := (sound_of_run k txs).elections id e he
    obtain rfl : e.id = id := KeyedMap.key_of_get? he
    exact ⟨hsound.shape, hsound.counted, hsound.total⟩
  once before tx between tx' after msg msg' _ hcasts hcasts' hsame := by
    obtain ⟨⟨e, issuerKey, hadmitted⟩, -⟩ := admitted_of_casts hcasts'
    -- the first ballot is still there when the second vote is cast
    have hfirst : (reached k (before ++ tx :: between)).ballots.get?
        (ballotKey msg.electionId msg.nullifier) = some (msg.ballot tx.env.blockTime) := by
      rw [reached, run_append]
      exact ballot_kept (admitted_of_casts hcasts).2 between
    have hunused := hadmitted.unused
    obtain ⟨hid, hnullifier⟩ := Prod.mk.inj hsame
    rw [← hid, ← hnullifier, hfirst] at hunused
    cases hunused
  kept before after key b htxs hb := by
    rw [htxs, reached, run_append]
    exact ballot_kept hb after
  marked _ _ _ he := has_ballotKey_iff (sound_of_run k txs) he
  accepted b hb := by
    obtain ⟨before, tx, after, htxs, hbefore, hafter⟩ :=
      @exists_turning_step _ _ (step k) (fun s => s.ballots.get? b.key = some b) Store.fresh txs
        nofun (KeyedMap.mem_values.1 hb)
    obtain ⟨msg, e, issuerKey, hsent, hballot, hadmitted⟩ := admitted_of_filed hbefore hafter
    exact ⟨before, tx, after, msg, e, issuerKey, htxs, hsent, hballot, hadmitted⟩

end PhiChain.Voting
