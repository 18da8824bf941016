import PhiChain.Governance.Store

/-!
# Governance: store keys

A record of the running tally lies under a byte that names its kind, the proposal's id in eight
bytes, and for a count the option, for a recorded vote the voter. Byte strings of this layout are
ordered by kind, then by id, then by the rest (`proposalKey_lt`).

So the typed maps of `Store` stand for the raw store: its keys, map by map, are listed in
strictly ascending byte order, and a scan of one proposal's range meets exactly the keys that
`Store.countedVoteKeys` and `Store.tallyCountKeys` name, in their order.
-/

set_option autoImplicit false

namespace PhiChain.Governance

open Foundations

/-! ## Builders -/

def uint64Key (v : Nat) : Bytes := bigEndian 8 v

/-- The layout all builders share. -/
def proposalKey (kind : Byte) (proposalID : Nat) (rest : Bytes) : Bytes :=
  kind :: (uint64Key proposalID ++ rest)

def tallyCountPrefix : Byte := 0x10

def countedVotePrefix : Byte := 0x12

def tallyCountKey (proposalID : Nat) (option : Byte) : Bytes :=
  proposalKey tallyCountPrefix proposalID [option]

def tallyTurnoutKey (proposalID : Nat) : Bytes := proposalKey 0x11 proposalID []

def countedVoteKey (proposalID : Nat) (voter : Bytes) : Bytes :=
  proposalKey countedVotePrefix proposalID voter

/-- Range of the votes recorded for one proposal. -/
def countedVotePrefixFor (proposalID : Nat) : Bytes := proposalKey countedVotePrefix proposalID []

def proposalEligibilityKey (proposalID : Nat) : Bytes := proposalKey 0x13 proposalID []

def pruneKey (proposalID : Nat) : Bytes := proposalKey 0x14 proposalID []

section Layout

variable {kind kind' : Byte} {m n : Nat} {rest rest' : Bytes}

/-- Keys are ordered by kind, then by id, then by what follows. -/
theorem proposalKey_lt (hm : m < 2 ^ 64) (hn : n < 2 ^ 64)
    (h : kind < kind' ∨ kind = kind' ∧ (m < n ∨ m = n ∧ rest < rest')) :
    proposalKey kind m rest < proposalKey kind' n rest' := by
  refine List.cons_lt_cons_iff.2 (h.imp_right (And.imp_right ?_))
  rintro (hlt | ⟨rfl, hrest⟩)
  · have hm : m % 256 ^ 8 = m := Nat.mod_eq_of_lt hm
    have hn : n % 256 ^ 8 = n := Nat.mod_eq_of_lt hn
    exact bigEndian_append_lt (by rwa [hm, hn]) rest rest'
  · exact hrest.append_left _ _

/-- The range of a kind and an id holds the keys of that kind and id. -/
theorem proposalKey_prefix_iff (hm : m < 2 ^ 64) (hn : n < 2 ^ 64) :
    proposalKey kind m [] <+: proposalKey kind' n rest ↔ kind = kind' ∧ m = n := by
  rw [proposalKey, proposalKey, List.append_nil, List.cons_prefix_cons]
  refine and_congr_right fun _ => ?_
  constructor
  · rintro ⟨tail, htail⟩
    exact bigEndian_inj_of_lt hm hn (List.append_inj_left htail (by simp))
  · rintro rfl
    exact List.prefix_append _ _

end Layout

/-! ## The keys of a store -/

inductive StoreKey where
  | tallyCount (key : TallyCountKey)
  | tallyTurnout (proposal : Nat)
  | countedVote (key : CountedVoteKey)
  | eligibility (proposal : Nat)
  | prune (proposal : Nat)

namespace StoreKey

/-- The bytes of a key, from the builder of its kind. -/
def encode : StoreKey → Bytes
  | tallyCount key => tallyCountKey key.proposal key.option
  | tallyTurnout proposal => tallyTurnoutKey proposal
  | countedVote key => countedVoteKey key.proposal key.voter
  | eligibility proposal => proposalEligibilityKey proposal
  | prune proposal => pruneKey proposal

/-- The byte that names the kind of record. -/
def kind : StoreKey → Byte
  | tallyCount _ => tallyCountPrefix
  | tallyTurnout _ => 0x11
  | countedVote _ => countedVotePrefix
  | eligibility _ => 0x13
  | prune _ => 0x14

def proposal : StoreKey → Nat
  | tallyCount key => key.proposal
  | countedVote key => key.proposal
  | tallyTurnout proposal | eligibility proposal | prune proposal => proposal

/-- What follows the proposal's id. -/
def rest : StoreKey → Bytes
  | tallyCount key => [key.option]
  | countedVote key => key.voter
  | tallyTurnout _ | eligibility _ | prune _ => []

/-- The order of kinds, within a kind of proposals, within a proposal of what follows. -/
def Precedes (key key' : StoreKey) : Prop :=
  key.kind < key'.kind ∨ key.kind = key'.kind ∧
    (key.proposal < key'.proposal ∨ key.proposal = key'.proposal ∧ key.rest < key'.rest)

theorem encode_eq (key : StoreKey) : key.encode = proposalKey key.kind key.proposal key.rest := by
  cases key <;> rfl

end StoreKey

namespace Store

variable {s : Store}

/-- The keys of the five maps, one map after the other. -/
def keys (s : Store) : List StoreKey :=
  s.tallyCounts.entries.map (fun e => .tallyCount e.1) ++
    (s.tallyTurnout.entries.map (fun e => .tallyTurnout e.1) ++
      (s.countedVotes.entries.map (fun e => .countedVote e.1) ++
        (s.eligibility.entries.map (fun e => .eligibility e.1) ++
          s.pruneQueue.entries.map fun e => .prune e.1)))

/-- Every proposal the store speaks of has an id of 64 bits. -/
def IDsFit (s : Store) : Prop := ∀ key ∈ s.keys, key.proposal < 2 ^ 64

theorem keys_precede (s : Store) : s.keys.Pairwise StoreKey.Precedes := by
  have hcount : ∀ {k k' : TallyCountKey}, k < k' →
      (StoreKey.tallyCount k).Precedes (.tallyCount k') := fun hlt =>
    Or.inr ⟨rfl, (Prod.Lex.lt_iff.1 hlt).imp_right
      (And.imp_right fun hoption => List.cons_lt_cons_iff.2 (Or.inl hoption))⟩
  have hvote : ∀ {k k' : CountedVoteKey}, k < k' →
      (StoreKey.countedVote k).Precedes (.countedVote k') := fun hlt =>
    Or.inr ⟨rfl, Prod.Lex.lt_iff.1 hlt⟩
  simp only [keys, List.pairwise_append, List.pairwise_map, List.mem_append, List.mem_map]
  -- within a map its own order decides, between two maps the byte of the kind
  refine ⟨s.tallyCounts.ascending.imp hcount,
    ⟨s.tallyTurnout.ascending.imp fun hlt => Or.inr ⟨rfl, Or.inl hlt⟩,
      ⟨s.countedVotes.ascending.imp hvote,
        ⟨s.eligibility.ascending.imp fun hlt => Or.inr ⟨rfl, Or.inl hlt⟩,
          s.pruneQueue.ascending.imp fun hlt => Or.inr ⟨rfl, Or.inl hlt⟩, ?_⟩, ?_⟩, ?_⟩, ?_⟩
  · rintro _ ⟨e, -, rfl⟩ _ ⟨e', -, rfl⟩
    exact Or.inl (of_decide_eq_true rfl)
  · rintro _ ⟨e, -, rfl⟩ _ (⟨e', -, rfl⟩ | ⟨e', -, rfl⟩) <;> exact Or.inl (of_decide_eq_true rfl)
  · rintro _ ⟨e, -, rfl⟩ _ (⟨e', -, rfl⟩ | ⟨e', -, rfl⟩ | ⟨e', -, rfl⟩) <;>
      exact Or.inl (of_decide_eq_true rfl)
  · rintro _ ⟨e, -, rfl⟩ _ (⟨e', -, rfl⟩ | ⟨e', -, rfl⟩ | ⟨e', -, rfl⟩ | ⟨e', -, rfl⟩) <;>
      exact Or.inl (of_decide_eq_true rfl)

/-- The keys' bytes are strictly ascending: no two records share a key, and the maps' own orders
are the order in which the raw store is iterated. -/
theorem keys_ascending (hfit : s.IDsFit) : (s.keys.map StoreKey.encode).Pairwise (· < ·) := by
  rw [List.pairwise_map]
  refine s.keys_precede.imp_of_mem fun hkey hkey' hlt => ?_
  rw [StoreKey.encode_eq, StoreKey.encode_eq]
  exact proposalKey_lt (hfit _ hkey) (hfit _ hkey') hlt

/-- What a scan of the range of a kind and a proposal meets. -/
theorem scan_eq (hfit : s.IDsFit) (kind : Byte) {proposalID : Nat} (hid : proposalID < 2 ^ 64) :
    (s.keys.map StoreKey.encode).filter (proposalKey kind proposalID []).isPrefixOf =
      (s.keys.filter fun key => kind = key.kind ∧ proposalID = key.proposal).map
        StoreKey.encode := by
  rw [List.filter_map]
  refine congrArg _ (List.filter_congr fun key hkey => ?_)
  rw [Function.comp_apply, Bool.eq_iff_iff, List.isPrefixOf_iff_prefix, StoreKey.encode_eq,
    proposalKey_prefix_iff hid (hfit key hkey), decide_eq_true_iff]

/-- A scan of `countedVotePrefixFor` meets the votes recorded for the proposal, and one of the
range of its counts meets the counts. -/
theorem scan_proposal (hfit : s.IDsFit) {proposalID : Nat} (hid : proposalID < 2 ^ 64) :
    (s.keys.map StoreKey.encode).filter (countedVotePrefixFor proposalID).isPrefixOf =
        (s.countedVoteKeys proposalID).map (fun key => countedVoteKey key.proposal key.voter) ∧
      (s.keys.map StoreKey.encode).filter (proposalKey tallyCountPrefix proposalID []).isPrefixOf =
        (s.tallyCountKeys proposalID).map fun key => tallyCountKey key.proposal key.option := by
  rw [countedVotePrefixFor, scan_eq hfit _ hid, scan_eq hfit _ hid]
  constructor <;>
    simp [keys, countedVoteKeys, tallyCountKeys, OrdMap.keysWhere, List.filter_map,
      Function.comp_def, StoreKey.kind, StoreKey.proposal, StoreKey.encode, countedVotePrefix,
      tallyCountPrefix, eq_comm]

end Store

end PhiChain.Governance
