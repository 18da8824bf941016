import PhiChain.Foundations.Bytes
import PhiChain.Foundations.OrdMap
import PhiChain.Sdk.Failure

/-!
# Governance: vote routes and ballots

Which route decides a proposal is computed from the types of its messages and the
governed table. A proposal is technical only when every message of it is, so one
message outside the table makes it public; a change of the table itself is public
whatever the table says.
-/

set_option autoImplicit false

namespace PhiChain.Governance

open Foundations Sdk

inductive VoteRoute where
  | unspecified
  | routePublic
  | routeTechnical
  deriving DecidableEq

structure VoteRouteEntry where
  msgTypeUrl : Bytes
  route : VoteRoute
  deriving DecidableEq

structure Params where
  voteRoutes : List VoteRouteEntry
  deriving DecidableEq

/-- The message that rewrites the table. -/
def mappingUpdateMsgTypeURL : Bytes := ascii "/phi.governance.MsgUpdateParams"

def defaultTechnicalMsgTypeURLs : List Bytes :=
  [ascii "/cosmos.consensus.v1.MsgUpdateParams",
    ascii "/cosmos.distribution.v1beta1.MsgUpdateParams",
    ascii "/cosmos.slashing.v1beta1.MsgUpdateParams",
    ascii "/cosmos.staking.v1beta1.MsgUpdateParams",
    ascii "/cosmos.upgrade.v1beta1.MsgCancelUpgrade",
    ascii "/cosmos.upgrade.v1beta1.MsgSoftwareUpgrade"]

def defaultParams : Params :=
  ⟨defaultTechnicalMsgTypeURLs.map fun url => ⟨url, .routeTechnical⟩⟩

/-- The table's checks, entry by entry, with the urls already seen. -/
def validateEntries : List VoteRouteEntry → (seen : List Bytes) → Result Unit
  | [], _ => .ok ()
  | e :: rest, seen => do
    ensure (e.msgTypeUrl ≠ [])
      ⟨.unregistered, "vote_route entry with empty msg_type_url"⟩
    ensure (e.msgTypeUrl.head? = some 47)
      ⟨.unregistered, "vote_route msg_type_url must start with '/'"⟩
    ensure (e.msgTypeUrl ∉ seen) ⟨.unregistered, "duplicate vote_route entry"⟩
    ensure (e.route = .routePublic ∨ e.route = .routeTechnical)
      ⟨.unregistered, "vote_route must be PUBLIC or TECHNICAL"⟩
    ensure (e.msgTypeUrl ≠ mappingUpdateMsgTypeURL)
      ⟨.unregistered, "a mapping change is always decided on the PUBLIC path"⟩
    validateEntries rest (e.msgTypeUrl :: seen)

def Params.validate (p : Params) : Result Unit := validateEntries p.voteRoutes []

/-- The table as a lookup; of two entries for one url the later counts. -/
def Params.routeTable (p : Params) : OrdMap Bytes VoteRoute :=
  p.voteRoutes.foldl (fun m e => m.put e.msgTypeUrl e.route) ∅

/-- Route of one message type. -/
def routeFor (msgTypeURL : Bytes) (table : OrdMap Bytes VoteRoute) : VoteRoute :=
  if msgTypeURL = mappingUpdateMsgTypeURL then .routePublic
  else if table.getD msgTypeURL .unspecified = .routeTechnical then .routeTechnical
  else .routePublic

/-- Route of a proposal with the given message types. -/
def classify (msgs : List Bytes) (table : OrdMap Bytes VoteRoute) : VoteRoute :=
  if msgs.any fun m => routeFor m table = .routePublic then .routePublic
  else if msgs.length = 0 then .routePublic
  else .routeTechnical

/-! ## Ballots -/

/-- The options x/gov lets a vote name. -/
inductive VoteOption where
  | yes
  | abstain
  | no
  | noWithVeto
  deriving DecidableEq

/-- Wire number of an option. -/
def VoteOption.code : VoteOption → Byte
  | .yes => 1
  | .abstain => 2
  | .no => 3
  | .noWithVeto => 4

theorem VoteOption.code_injective {o o' : VoteOption} (h : o.code = o'.code) : o = o' := by
  cases o <;> cases o' <;> first | rfl | exact absurd h (by decide)

/-- One option of a ballot with its weight in units of 10⁻¹⁸; `none` is a weight text
that does not parse. -/
structure WeightedVoteOption where
  option : VoteOption
  weight : Option Int
  deriving DecidableEq

/-- Best option so far, its weight, and whether another option has the same weight. -/
structure Leader where
  best : VoteOption
  bestW : Int
  tie : Bool

def Leader.consider (l : Leader) (o : WeightedVoteOption) : Leader :=
  match o.weight with
  | none => l
  | some w =>
    if l.bestW < w then ⟨o.option, w, false⟩
    else if w = l.bestW ∧ l.bestW ≠ 0 then { l with tie := true }
    else l

/-- Option a weighted ballot is counted under: the heaviest one, `abstain` on a tie. -/
def dominantOption (opts : List WeightedVoteOption) : VoteOption :=
  let l := opts.foldl Leader.consider ⟨.abstain, 0, false⟩
  if l.tie then .abstain else l.best

/-! ## Proposals of x/gov -/

inductive ProposalStatus where
  | depositPeriod
  | votingPeriod
  | passed
  | rejected
  | failed
  deriving DecidableEq

/-- What the governance module reads of a proposal. `msgs` lists the message types, and
is `none` when the stored messages cannot be unpacked. -/
structure Proposal where
  msgs : Option (List Bytes)
  status : ProposalStatus
  votingStart : Option Int
  expedited : Bool

end PhiChain.Governance
