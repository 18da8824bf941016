import PhiChain.Governance.Routes

/-!
# The running tally against the last ballots

The aggregates are kept by retracting and adding single ballots. `Polled` remembers beside
the world the last ballot each voter had accepted on the public route, and
`running_tally_recounts` says that the aggregates of a proposal are what counting those
ballots gives, until the pruner reaches the proposal.

A weighted ballot is counted under one option. The scan of `dominantOption` goes through
the options in their order; `CountsUnder` states its answer without the order, by what the
ballot holds, and `dominantOption_iff` compares the two.
-/

set_option autoImplicit false

namespace PhiChain.Governance

open Foundations Sdk

/-! ## The heaviest option of a ballot -/

/-- Weight of an option of a ballot; one that does not parse weighs nothing. -/
def WeightedVoteOption.value (x : WeightedVoteOption) : Int := x.weight.getD 0

/-- The option has a positive weight, and every other option of the ballot a smaller one. -/
def StrictlyHeaviest (opts : List WeightedVoteOption) (o : VoteOption) : Prop :=
  ∃ x ∈ opts, x.option = o ∧ 0 < x.value ∧ ∀ y ∈ opts, y.option ≠ o → y.value < x.value

instance decidableStrictlyHeaviest (opts : List WeightedVoteOption) (o : VoteOption) :
    Decidable (StrictlyHeaviest opts o) :=
  inferInstanceAs (Decidable (∃ x ∈ opts, x.option = o ∧ 0 < x.value ∧
    ∀ y ∈ opts, y.option ≠ o → y.value < x.value))

/-- The ballot stands for the option: its strictly heaviest one, and `abstain` when the
maximum is shared or no weight is positive. -/
def CountsUnder (opts : List WeightedVoteOption) (o : VoteOption) : Prop :=
  StrictlyHeaviest opts o ∨ o = .abstain ∧ ∀ x ∈ opts, ¬ StrictlyHeaviest opts x.option

instance decidableCountsUnder (opts : List WeightedVoteOption) (o : VoteOption) :
    Decidable (CountsUnder opts o) :=
  inferInstanceAs (Decidable (StrictlyHeaviest opts o ∨
    o = .abstain ∧ ∀ x ∈ opts, ¬ StrictlyHeaviest opts x.option))

/-- No option is named twice. -/
def DistinctOptions (opts : List WeightedVoteOption) : Prop :=
  (opts.map WeightedVoteOption.option).Nodup

/-- What the scan knows after the options it has seen. -/
structure Leads (seen : List WeightedVoteOption) (l : Leader) : Prop where
  bound : ∀ x ∈ seen, x.value ≤ l.bestW
  start : ¬ 0 < l.bestW → l = ⟨.abstain, 0, false⟩
  leader : 0 < l.bestW → ∃ x ∈ seen, x.option = l.best ∧ x.value = l.bestW
  tied : l.tie = true → ∃ y ∈ seen, y.option ≠ l.best ∧ y.value = l.bestW
  alone : 0 < l.bestW → l.tie = false → ∀ y ∈ seen, y.option ≠ l.best → y.value < l.bestW

variable {l : Leader} {opts opts' seen : List WeightedVoteOption} {x : WeightedVoteOption}
  {id : Nat} {authority : Bytes} {ctx : VoteCtx} {w' : World}

theorem Leads.nonneg (h : Leads seen l) :
    0 ≤ l.bestW := by
  by_cases hpos : 0 < l.bestW
  · exact le_of_lt hpos
  · rw [h.start hpos]

/-- An option below the leader changes nothing. -/
theorem Leads.pass (h : Leads seen l) (hle : x.value ≤ l.bestW)
    (hlt : 0 < l.bestW → x.value < l.bestW) :
    Leads (seen ++ [x]) l where
  bound y hy := by
    rcases List.mem_append.1 hy with hy | hy
    · exact h.bound y hy
    · rw [List.mem_singleton.1 hy]
      exact hle
  start := h.start
  leader hpos := by
    obtain ⟨z, hz, hlead⟩ := h.leader hpos
    exact ⟨z, List.mem_append_left _ hz, hlead⟩
  tied htie := by
    obtain ⟨z, hz, htied⟩ := h.tied htie
    exact ⟨z, List.mem_append_left _ hz, htied⟩
  alone hpos htie y hy hne := by
    rcases List.mem_append.1 hy with hy | hy
    · exact h.alone hpos htie y hy hne
    · rw [List.mem_singleton.1 hy]
      exact hlt hpos

/-- A heavier option takes the lead. -/
theorem Leads.overtake (h : Leads seen l) (hlt : l.bestW < x.value) :
    Leads (seen ++ [x]) ⟨x.option, x.value, false⟩ where
  bound y hy := by
    rcases List.mem_append.1 hy with hy | hy
    · exact le_of_lt ((h.bound y hy).trans_lt hlt)
    · rw [List.mem_singleton.1 hy]
  start hpos := absurd (h.nonneg.trans_lt hlt) hpos
  leader _ := ⟨x, List.mem_append_right _ (List.mem_singleton_self x), rfl, rfl⟩
  tied htie := absurd htie Bool.false_ne_true
  alone _ _ y hy hne := by
    rcases List.mem_append.1 hy with hy | hy
    · exact (h.bound y hy).trans_lt hlt
    · exact absurd (congrArg WeightedVoteOption.option (List.mem_singleton.1 hy)) hne

/-- A new option as heavy as the leader makes a tie. -/
theorem Leads.draw (h : Leads seen l) (hnew : x.option ∉ seen.map WeightedVoteOption.option)
    (heq : x.value = l.bestW) (hne : l.bestW ≠ 0) : Leads (seen ++ [x]) { l with tie := true } where
  bound y hy := by
    rcases List.mem_append.1 hy with hy | hy
    · exact h.bound y hy
    · rw [List.mem_singleton.1 hy, heq]
  start hpos := absurd (lt_of_le_of_ne h.nonneg hne.symm) hpos
  leader hpos := by
    obtain ⟨z, hz, hlead⟩ := h.leader hpos
    exact ⟨z, List.mem_append_left _ hz, hlead⟩
  tied _ := by
    refine ⟨x, List.mem_append_right _ (List.mem_singleton_self x), ?_, heq⟩
    -- the leader was seen under its own option, and options do not repeat
    obtain ⟨z, hz, hlead, -⟩ := h.leader (lt_of_le_of_ne h.nonneg hne.symm)
    intro hsame
    exact hnew (List.mem_map.2 ⟨z, hz, hlead.trans hsame.symm⟩)
  alone _ htie := absurd htie.symm Bool.false_ne_true

theorem Leads.consider (h : Leads seen l) (hnew : x.option ∉ seen.map WeightedVoteOption.option) :
    Leads (seen ++ [x]) (l.consider x) := by
  cases hw : x.weight with
  | none =>
    have hvalue : x.value = 0 := by rw [WeightedVoteOption.value, hw, Option.getD_none]
    have hsame : l.consider x = l := by simp only [Leader.consider, hw]
    rw [hsame]
    exact h.pass (hvalue ▸ h.nonneg) fun hpos => hvalue ▸ hpos
  | some w =>
    have hvalue : x.value = w := by rw [WeightedVoteOption.value, hw, Option.getD_some]
    simp only [Leader.consider, hw]
    subst hvalue
    split
    · exact h.overtake ‹_›
    · rename_i hle
      split
      · rename_i hdraw
        exact h.draw hnew hdraw.1 hdraw.2
      · rename_i hdraw
        refine h.pass (not_lt.1 hle) fun hpos => lt_of_le_of_ne (not_lt.1 hle) fun heq => ?_
        exact hdraw ⟨heq, ne_of_gt hpos⟩

/-- The scan of a ballot whose options are distinct. -/
theorem Leads.foldl (opts : List WeightedVoteOption) (hdistinct : DistinctOptions (seen ++ opts))
    (h : Leads seen l) :
    Leads (seen ++ opts) (opts.foldl Leader.consider l) := by
  induction opts generalizing seen l with
  | nil =>
    rw [List.append_nil]
    exact h
  | cons x rest ih =>
    have hsplit : seen ++ x :: rest = (seen ++ [x]) ++ rest := by simp
    rw [hsplit] at hdistinct ⊢
    refine ih hdistinct (h.consider ?_)
    -- the first of the options to come is none of those seen
    rw [DistinctOptions, List.map_append, List.map_append] at hdistinct
    exact fun hseen => (List.nodup_append.1 (List.nodup_append.1 hdistinct).1).2.2 _ hseen _
      (List.mem_singleton_self _) rfl

theorem Leads.strictlyHeaviest (h : Leads opts l)
    {o : VoteOption} : StrictlyHeaviest opts o ↔ 0 < l.bestW ∧ l.tie = false ∧ o = l.best := by
  constructor
  · rintro ⟨x, hx, rfl, hpos, hothers⟩
    have hbest : 0 < l.bestW := hpos.trans_le (h.bound x hx)
    obtain ⟨z, hz, hlead, hvalue⟩ := h.leader hbest
    have hsame : x.option = l.best := by
      by_contra hne
      have hlt := hothers z hz (hlead ▸ Ne.symm hne)
      exact absurd (h.bound x hx) (not_le.2 (hvalue ▸ hlt))
    refine ⟨hbest, ?_, hsame⟩
    rw [Bool.eq_false_iff]
    intro htie
    obtain ⟨y, hy, hne, hdraw⟩ := h.tied htie
    have hlt := hothers y hy (hsame ▸ hne)
    exact absurd (h.bound x hx) (not_le.2 (hdraw ▸ hlt))
  · rintro ⟨hbest, htie, rfl⟩
    obtain ⟨z, hz, hlead, hvalue⟩ := h.leader hbest
    refine ⟨z, hz, hlead, hvalue ▸ hbest, fun y hy hne => ?_⟩
    rw [hvalue]
    exact h.alone hbest htie y hy hne

/-- The scan finds the option the ballot stands for. -/
theorem dominantOption_iff (hdistinct : DistinctOptions opts)
    {o : VoteOption} : dominantOption opts = o ↔ CountsUnder opts o := by
  have hnil : Leads [] ⟨.abstain, 0, false⟩ :=
    ⟨fun _ hx => absurd hx List.not_mem_nil, fun _ => rfl, fun hpos => absurd hpos (lt_irrefl _),
      fun htie => absurd htie Bool.false_ne_true, fun hpos => absurd hpos (lt_irrefl _)⟩
  have hscanned : DistinctOptions ([] ++ opts) := hdistinct
  have hleads := hnil.foldl opts hscanned
  rw [List.nil_append] at hleads
  rw [dominantOption, CountsUnder]
  generalize opts.foldl Leader.consider ⟨.abstain, 0, false⟩ = l at hleads
  by_cases hlead : 0 < l.bestW ∧ l.tie = false
  · have hbest : StrictlyHeaviest opts l.best :=
      hleads.strictlyHeaviest.2 ⟨hlead.1, hlead.2, rfl⟩
    simp only [hlead.2, Bool.false_eq_true, if_false]
    constructor
    · rintro rfl
      exact Or.inl hbest
    · rintro (hheaviest | ⟨-, hnone⟩)
      · exact (hleads.strictlyHeaviest.1 hheaviest).2.2.symm
      · obtain ⟨x, hx, hoption, hothers⟩ := hbest
        exact absurd (hoption ▸ ⟨x, hx, hoption, hothers⟩) (hnone x hx)
  · -- nothing positive was seen, or the lead is shared
    have hnone : ∀ o', ¬ StrictlyHeaviest opts o' := fun o' hheaviest =>
      hlead ⟨(hleads.strictlyHeaviest.1 hheaviest).1, (hleads.strictlyHeaviest.1 hheaviest).2.1⟩
    have habstain : (if l.tie then VoteOption.abstain else l.best) = .abstain := by
      cases htie : l.tie with
      | true => rfl
      | false =>
        rw [hleads.start fun hpos => hlead ⟨hpos, htie⟩]
        rfl
    rw [habstain]
    constructor
    · rintro rfl
      exact Or.inr ⟨rfl, fun x _ => hnone _⟩
    · rintro (hheaviest | ⟨rfl, -⟩)
      · exact absurd hheaviest (hnone o)
      · rfl

theorem strictlyHeaviest_perm (h : opts.Perm opts')
    (o : VoteOption) : StrictlyHeaviest opts o ↔ StrictlyHeaviest opts' o := by
  simp only [StrictlyHeaviest, h.mem_iff]

/-- The order of a ballot's options does not matter. -/
theorem dominantOption_perm (h : opts.Perm opts')
    (hdistinct : DistinctOptions opts) : dominantOption opts = dominantOption opts' := by
  have hdistinct' : DistinctOptions opts' := (h.map _).nodup_iff.1 hdistinct
  rw [dominantOption_iff hdistinct, CountsUnder]
  simp only [strictlyHeaviest_perm h, h.mem_iff]
  exact (dominantOption_iff hdistinct').1 rfl

example : dominantOption [⟨.yes, some 5⟩, ⟨.no, some 7⟩, ⟨.abstain, none⟩, ⟨.noWithVeto, some 7⟩] =
    .abstain := by decide

/-! ## The last ballots of the public route -/

/-- The world with the last ballot each voter had accepted on the public route. -/
structure Polled where
  world : World
  ballots : OrdMap CountedVoteKey (List WeightedVoteOption)

/-- An accepted ballot is remembered if its proposal is on the public route. -/
def publicBallots (w : World) (m : OrdMap CountedVoteKey (List WeightedVoteOption)) :
    Action → OrdMap CountedVoteKey (List WeightedVoteOption)
  | .vote id voter options =>
    match w.proposals.get? id with
    | some p => if routeOf w.gov p = .routeTechnical then m else m.put ⟨id, voter⟩ options
    | none => m
  | _ => m

def Polled.step (authority : Bytes) (t : Polled) (a : VoteCtx × Action) : Polled :=
  commit t do
    let w ← apply authority a.1 t.world a.2
    return ⟨w, publicBallots t.world t.ballots a.2⟩

/-- The memory does not influence the world. -/
theorem Polled.step_world (authority : Bytes) (t : Polled) (a : VoteCtx × Action) :
    (t.step authority a).world = Governance.step authority t.world a := by
  rw [Polled.step, Governance.step]
  cases apply authority a.1 t.world a.2 with
  | error e => rfl
  | ok w => rfl

theorem Polled.run_world (authority : Bytes) (t : Polled) (as : List (VoteCtx × Action)) :
    (run (Polled.step authority) t as).world = run (Governance.step authority) t.world as :=
  run_view Polled.world (Polled.step_world authority) t as

/-- The voters whose last ballot on a proposal passes a test. -/
def Polled.votersWith (t : Polled) (id : Nat) (test : List WeightedVoteOption → Bool) :
    List Bytes :=
  (t.ballots.entries.filter fun e => decide (e.1.proposal = id) && test e.2).map
    fun e => e.1.voter

/-- A ballot names no option twice. -/
def Action.distinctOptions : Action → Prop
  | .vote _ _ options => DistinctOptions options
  | _ => True

/-- The tally of a proposal is a recount of its records, and the records are those of the
last ballots. -/
structure Polls (id : Nat) (t : Polled) : Prop where
  consistent : Consistent t.world.gov id
  counted : ∀ voter, t.world.gov.getCountedVote id voter =
    (t.ballots.get? ⟨id, voter⟩).map fun options => (dominantOption options).code
  distinct : ∀ voter options, t.ballots.get? ⟨id, voter⟩ = some options → DistinctOptions options

variable {t : Polled}

theorem Polls.not_marker (h : Polls id t) (voter : Bytes) :
    t.world.gov.getCountedVote id voter ≠ some ineligibleVoteMarker := by
  rw [h.counted voter]
  intro hmarker
  obtain ⟨options, -, hcode⟩ := Option.map_eq_some_iff.1 hmarker
  exact VoteOption.code_ne_marker _ hcode

/-- A step without a ballot leaves the records of a proposal the pruner does not reach. -/
theorem apply_votes {w : World} {a : Action} (h : apply authority ctx w a = .ok w')
    (hspares : spares id w a = true) (hballot : ∀ j voter options, a ≠ .vote j voter options)
    (voter : Bytes) : w'.gov.getCountedVote id voter = w.gov.getCountedVote id voter := by
  cases tallyStep_of_apply h with
  | kept same _ => exact (same id).votes voter
  | frozen p froze =>
    rw [froze, freeze_frame]
    rfl
  | ballot _ _ => exact absurd rfl (hballot _ _ _)
  | @pruned budget _ pruned =>
    have hqueue : w.gov.isQueuedForPruning id = false := Bool.not_eq_true' _ ▸ hspares
    rw [pruned]
    exact (pruneStep_spared hqueue budget).votes voter

theorem vote_polls {j : Nat} {voter : Bytes} {options : List WeightedVoteOption} (ht : Polls id t)
    (hdistinct : DistinctOptions options)
    (h : apply authority ctx t.world (.vote j voter options) = .ok w') :
    Polls id ⟨w', publicBallots t.world t.ballots (.vote j voter options)⟩ := by
  have hconsistent : Consistent w'.gov id := apply_consistent h rfl ht.consistent
  obtain ⟨p, hp, -, -, -, hballot⟩ := vote_ok h
  obtain ⟨-, hothers⟩ := recordBallot_frame hballot
  by_cases hroute : routeOf t.world.gov p = .routeTechnical
  · -- on the technical route neither the records nor the memory change
    have hmemory : publicBallots t.world t.ballots (.vote j voter options) = t.ballots := by
      simp only [publicBallots, hp, hroute, if_true]
    rw [hmemory]
    refine ⟨hconsistent, fun u => ?_, ht.distinct⟩
    rcases recordBallot_ok hballot with ⟨-, -, hgov⟩ | ⟨hpublic, -, -⟩
    · rw [hgov, freeze_frame]
      exact ht.counted u
    · exact absurd hroute hpublic
  · have hmemory : publicBallots t.world t.ballots (.vote j voter options) =
        t.ballots.put ⟨j, voter⟩ options := by
      simp only [publicBallots, hp, hroute, if_false]
    rw [hmemory]
    refine ⟨hconsistent, fun u => ?_, fun u opts hopts => ?_⟩
    · by_cases hkey : (⟨j, voter⟩ : CountedVoteKey) = ⟨id, u⟩
      · cases hkey
        rw [OrdMap.get?_put_self]
        exact recordBallot_counted hballot (ht.not_marker voter) hroute
      · rw [OrdMap.get?_put_ne _ _ hkey]
        exact (hothers id u hkey).trans (ht.counted u)
    · rw [OrdMap.get?_put] at hopts
      split at hopts
      · cases hopts
        exact hdistinct
      · exact ht.distinct u opts hopts

theorem apply_polls {a : Action} (ht : Polls id t) (hspares : spares id t.world a = true)
    (hdistinct : a.distinctOptions) (h : apply authority ctx t.world a = .ok w') :
    Polls id ⟨w', publicBallots t.world t.ballots a⟩ := by
  by_cases hballot : ∃ j voter options, a = .vote j voter options
  · obtain ⟨j, voter, options, rfl⟩ := hballot
    exact vote_polls ht hdistinct h
  · simp only [not_exists] at hballot
    have hmemory : publicBallots t.world t.ballots a = t.ballots := by
      cases a with
      | vote j voter options => exact absurd rfl (hballot j voter options)
      | _ => rfl
    rw [hmemory]
    exact ⟨apply_consistent h hspares ht.consistent,
      fun voter => (apply_votes h hspares hballot voter).trans (ht.counted voter), ht.distinct⟩

theorem polls_of_run (authority : Bytes) {w : World} (hw : w.gov.Empty)
    {as : List (VoteCtx × Action)} (hrun : Along (Polled.step authority)
      (fun t a => spares id t.world a.2 = true ∧ a.2.distinctOptions) ⟨w, ∅⟩ as) :
    Polls id (run (Polled.step authority) ⟨w, ∅⟩ as) := by
  have hstep : ∀ (t : Polled) (a : VoteCtx × Action),
      spares id t.world a.2 = true ∧ a.2.distinctOptions → Polls id t →
        Polls id (t.step authority a) := by
    intro t a hok ht
    refine commit_preserves (p := Polls id) ht fun t' h => ?_
    obtain ⟨w', hw', h⟩ := bind_eq_ok.1 h
    cases h
    exact apply_polls ht hok.1 hok.2 hw'
  have hstart : Polls id ⟨w, ∅⟩ :=
    ⟨(hw.cleared id).consistent, fun voter => (hw.cleared id).votes voter,
      fun _ _ hget => absurd hget (Option.some_ne_none _).symm⟩
  exact run_preserves hstep hstart hrun

/-- Records with the images of the last ballots are as many as the voters. -/
theorem Polls.length_counted (h : Polls id t) (q : Byte → Bool) :
    (t.world.gov.countedVotes.entries.filter fun e => decide (e.1.proposal = id) && q e.2).length =
      (t.votersWith id fun options => q (dominantOption options).code).length := by
  rw [Polled.votersWith, List.length_map]
  refine OrdMap.length_filter_image (p := fun k : CountedVoteKey => decide (k.proposal = id))
    (f := fun options => (dominantOption options).code) (fun k hk => ?_) q
  obtain ⟨proposal, voter⟩ := k
  obtain rfl : proposal = id := of_decide_eq_true hk
  exact h.counted voter

theorem Polls.optionCount (h : Polls id t) (o : VoteOption) :
    t.world.gov.optionCount id o.code =
      (t.votersWith id fun options => CountsUnder options o).length := by
  have hcount := h.length_counted fun marker => decide (marker = o.code)
  rw [h.consistent.options _ o.code_ne_marker, Store.recount]
  have hindicator := OrdMap.total_indicator
    (fun (k : CountedVoteKey) marker => decide (k.proposal = id) && decide (marker = o.code))
    t.world.gov.countedVotes
  simp only [Bool.and_eq_true, decide_eq_true_eq] at hindicator
  rw [hindicator, hcount, Polled.votersWith, Polled.votersWith, List.length_map, List.length_map]
  refine congrArg List.length (List.filter_congr fun e he => ?_)
  -- the last ballots have distinct options, so the scan finds the heaviest
  by_cases hid : e.1.proposal = id
  · have hdistinct : DistinctOptions e.2 := by
      refine h.distinct e.1.voter e.2 ?_
      rw [← hid]
      exact OrdMap.mem_entries.1 he
    have hiff : (dominantOption e.2).code = o.code ↔ CountsUnder e.2 o := by
      rw [← dominantOption_iff hdistinct]
      exact ⟨VoteOption.code_injective, congrArg VoteOption.code⟩
    rw [decide_eq_decide.2 hiff]
  · rw [decide_eq_false hid, Bool.false_and, Bool.false_and]

theorem Polls.turnout (h : Polls id t) :
    t.world.gov.turnout id = (t.votersWith id fun _ => true).length := by
  have hcount := h.length_counted fun marker => decide (marker ≠ ineligibleVoteMarker)
  have hindicator := OrdMap.total_indicator (fun (k : CountedVoteKey) marker =>
    decide (k.proposal = id) && decide (marker ≠ ineligibleVoteMarker)) t.world.gov.countedVotes
  simp only [Bool.and_eq_true, decide_eq_true_eq] at hindicator
  rw [← h.consistent.counted, Store.countedBallots, hindicator, hcount]
  simp only [VoteOption.code_ne_marker, ne_eq, not_false_eq_true, decide_true]

theorem Polled.nodup_votersWith (t : Polled) (id : Nat) (test : List WeightedVoteOption → Bool) :
    (t.votersWith id test).Nodup := by
  refine List.pairwise_map.2 ((t.ballots.ascending.filter _).imp_of_mem ?_)
  rintro ⟨⟨pa, va⟩, oa⟩ ⟨⟨pb, vb⟩, ob⟩ ha hb hlt hvoter
  have hproposal : ∀ e ∈ t.ballots.entries.filter fun e => decide (e.1.proposal = id) && test e.2,
      e.1.proposal = id := fun e he =>
    of_decide_eq_true (Bool.and_eq_true_iff.1 (List.mem_filter.1 he).2).1
  obtain rfl : pa = pb := (hproposal _ ha).trans (hproposal _ hb).symm
  obtain rfl : va = vb := hvoter
  exact lt_irrefl _ hlt

/-- In every run from a store without tally state, as long as the pruner has not reached a proposal,
and whatever happens to other proposals: the stored count of each option is the number of voters
whose last ballot accepted on the public route stands for that option, and the stored turnout is the
number of voters with such a ballot. The option a ballot stands for does not depend on the order of
its options. -/
theorem running_tally_recounts (authority : Bytes) {w : World} (hw : w.gov.Empty) {id : Nat}
    {as : List (VoteCtx × Action)}
    (hrun : Along (Polled.step authority)
      (fun t a => spares id t.world a.2 = true ∧ a.2.distinctOptions) ⟨w, ∅⟩ as) :
    let t := run (Polled.step authority) ⟨w, ∅⟩ as
    t.world = run (step authority) w as ∧
      (∀ o : VoteOption, t.world.gov.optionCount id o.code =
        (t.votersWith id fun options => CountsUnder options o).length) ∧
      t.world.gov.turnout id = (t.votersWith id fun _ => true).length ∧
      (t.votersWith id fun _ => true).Nodup ∧
      ∀ options options' : List WeightedVoteOption, options.Perm options' →
        DistinctOptions options → dominantOption options = dominantOption options' := by
  intro t
  have hpolls : Polls id t := polls_of_run authority hw hrun
  exact ⟨Polled.run_world authority _ as, hpolls.optionCount, hpolls.turnout,
    t.nodup_votersWith id _, fun _ _ hperm hdistinct => dominantOption_perm hperm hdistinct⟩

/-- Accounts 1 to 3 are eligible. -/
def votersCtx : VoteCtx where
  blockTime := 100
  identity := ⟨fun _ _ _ _ => true, fun _ _ => 3, 3, 0⟩
  isActiveValidatorOperator _ := false
  validators := ∅

/-- Two proposals are open; account 1 changes its ballot on the first, account 2 splits its
ballot evenly, and account 3 votes on the second. -/
def ballotRun : List (VoteCtx × Action) :=
  [(votersCtx, .submit 1 (some [ascii "/a"]) false), (votersCtx, .deposit 1 true),
    (votersCtx, .submit 2 (some [ascii "/a"]) false), (votersCtx, .deposit 2 true),
    (votersCtx, .vote 1 [1] [⟨.yes, some 1000000000000000000⟩]),
    (votersCtx, .vote 1 [2] [⟨.yes, some 500000000000000000⟩, ⟨.no, some 500000000000000000⟩]),
    (votersCtx, .vote 2 [3] [⟨.yes, some 1000000000000000000⟩]),
    (votersCtx, .vote 1 [1] [⟨.yes, some 300000000000000000⟩, ⟨.no, some 700000000000000000⟩]),
    (votersCtx, .pruneStep 100)]

theorem running_tally_recounts_changed_ballot :
    let t := run (Polled.step []) ⟨upgradeWorld, ∅⟩ ballotRun
    t.world.gov.optionCount 1 VoteOption.no.code = 1 ∧
      t.world.gov.optionCount 1 VoteOption.no.code =
        (t.votersWith 1 fun options => CountsUnder options .no).length ∧
      t.world.gov.turnout 1 = (t.votersWith 1 fun _ => true).length := by
  intro t
  have hrun : Along (Polled.step [])
      (fun t a => spares 1 t.world a.2 = true ∧ a.2.distinctOptions) ⟨upgradeWorld, ∅⟩
      ballotRun := by
    refine ⟨⟨rfl, trivial⟩, ⟨rfl, trivial⟩, ⟨rfl, trivial⟩, ⟨rfl, trivial⟩, ⟨rfl, ?_⟩, ⟨rfl, ?_⟩,
      ⟨rfl, ?_⟩, ⟨rfl, ?_⟩, ⟨by decide +kernel, trivial⟩, trivial⟩
    · exact List.nodup_singleton _
    · exact List.nodup_cons.2 ⟨by decide, List.nodup_singleton _⟩
    · exact List.nodup_singleton _
    · exact List.nodup_cons.2 ⟨by decide, List.nodup_singleton _⟩
  have hrecount := running_tally_recounts [] upgradeWorld_empty hrun
  exact ⟨by decide +kernel, hrecount.2.1 .no, hrecount.2.2.1⟩

end PhiChain.Governance
