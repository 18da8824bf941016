import PhiChain.Identity.Uniqueness

/-!
# Identity: the status guard of the ante chain

An ante decorator that refuses a transaction if one of its signers controls a suspended or
revoked identity. It looks a signer up under the canonical string of the account, while a
controller is stored as the message spelled it; the two agree when the registering and the
recovering accounts spell themselves canonically.
-/

set_option autoImplicit false

namespace PhiChain.Identity

open Foundations Sdk

variable {k : Keeper} {w : World}

/-- Whether an account string controls a document that is not active. -/
def hasNonActiveDID (s : Store) (controller : Bytes) : Bool :=
  (s.directory.documentsOf controller).any fun d => d.status ≠ .active

/-- How a transaction is run. -/
structure Mode where
  simulate : Bool
  recheck : Bool

/-- A transaction as the decorator sees it: its signers, unless it is of a type that cannot be
signed or its signers cannot be read. -/
abbrev SignedTx := Option (Result (List Bytes))

def signerStatus (s : Store) (signer : Bytes) : Result Unit :=
  ensure (hasNonActiveDID s (accAddressString signer) = false)
    ⟨.sdkUnauthorized, "signer controls a suspended or revoked phi identity and may not transact"⟩

/-- The decorator, with the rest of the chain as `next`. -/
def identityStatusGuard (s : Store) (mode : Mode) (tx : SignedTx) (next : Result Unit) :
    Result Unit :=
  if mode.simulate ∨ mode.recheck then next
  else do
    let read ← orFail tx ⟨.txDecode, "invalid transaction type for identity status guard"⟩
    let signers ← read
    signers.forM (signerStatus s)
    next

/-- The string is the one its account is written as. -/
def Canonical (c : Bytes) : Prop := (accAddressFromBech32 c).map accAddressString = some c

instance (c : Bytes) : Decidable (Canonical c) := inferInstanceAs (Decidable (_ = _))

theorem nameable_of_canonical {c : Bytes} (h : Canonical c) : Nameable c := by
  obtain ⟨addr, haddr, -⟩ := Option.map_eq_some_iff.1 h
  exact nameable_of_address haddr

theorem string_of_canonical {c addr : Bytes} (h : Canonical c)
    (haddr : accAddressFromBech32 c = some addr) : accAddressString addr = c := by
  unfold Canonical at h
  rw [haddr] at h
  exact Option.some.inj h

/-- A signer who fails the check stops the loop over the signers. -/
theorem forM_error {α : Type} {f : α → Result Unit} {xs : List α} {x : α} (hx : x ∈ xs)
    (hf : ∃ e, f x = .error e) : ∃ e, xs.forM f = .error e := by
  induction xs with
  | nil => cases hx
  | cons y rest ih =>
    rw [List.forM_eq_forM, List.forM_cons]
    cases hy : f y with
    | error e => exact ⟨e, rfl⟩
    | ok u =>
      rcases List.mem_cons.1 hx with rfl | hx
      · obtain ⟨e, he⟩ := hf
        rw [hy] at he
        cases he
      · exact ih hx

/-- The controller of a document that is not active is refused, when controllers are stored
canonically and the index of documents is sound. -/
theorem guard_rejects {s : Store} (h : Sound Canonical s) {mode : Mode}
    (hmode : mode.simulate = false ∧ mode.recheck = false) {signers : List Bytes} {did : Bytes}
    {doc : DIDDocument} (hdoc : s.getIdentity did = some doc) (hstatus : doc.status ≠ .active)
    {signer : Bytes} (haddr : accAddressFromBech32 doc.controller = some signer)
    (hsigner : signer ∈ signers) (next : Result Unit) :
    ∃ e, identityStatusGuard s mode (some (.ok signers)) next = .error e := by
  have hcanonical := h.controlled.documents did doc hdoc
  have hstring := string_of_canonical hcanonical haddr
  have hfound : hasNonActiveDID s (accAddressString signer) = true := by
    unfold hasNonActiveDID
    rw [hstring, Directory.documentsOf_eq h.indexed.linked (nameable_of_canonical hcanonical).1]
    refine List.any_eq_true.2 ⟨doc, ?_, decide_eq_true hstatus⟩
    exact Directory.mem_recordsOf.2 ⟨(did_of_getIdentity hdoc).symm ▸ hdoc, rfl⟩
  have hfail : ∃ e, signerStatus s signer = .error e := by
    refine ⟨_, if_neg ?_⟩
    rw [hfound]
    nofun
  obtain ⟨e, he⟩ := forM_error hsigner hfail
  have hrun : ¬ (mode.simulate = true ∨ mode.recheck = true) := by simp [hmode]
  refine ⟨e, ?_⟩
  unfold identityStatusGuard
  rw [if_neg hrun]
  change (signers.forM (signerStatus s) >>= fun _ => next) = .error e
  rw [he]
  rfl

/-- The account a message makes a controller spells itself canonically. -/
def spellsCanonically (a : Action) : Bool := a.newController.all fun c => Canonical c

theorem sound_of_run {bank : Bank} {params : Params} {txs : List Tx}
    (h : ∀ tx ∈ txs, spellsCanonically tx.action = true) :
    Sound Canonical (run (step k) (emptyRegistry bank params) txs).store := by
  refine @run_preserves _ _ (step k) (fun _ tx => spellsCanonically tx.action = true)
    (fun w => Sound Canonical w.store) ?_ _ ?_ _ (along_of_forall h)
  · intro w tx hok hw
    refine step_preserves (p := fun w => Sound Canonical w.store) hw fun w' hbasic hevent => ?_
    refine sound_of_event hbasic hevent (fun c => nameable_of_canonical) ?_ hw
    intro c hc
    unfold spellsCanonically at hok
    rw [hc] at hok
    exact of_decide_eq_true hok
  · refine ⟨filed_of_empty rfl rfl, ⟨?_, ?_⟩, Directory.indexed_fresh⟩
    · intro did doc hdoc
      cases hdoc
    · intro id r hget
      cases hget

/-- In every state reached by messages whose new controllers spell themselves canonically, a
transaction signed by the controller of an identity that is not active is refused. -/
theorem guard_rejects_of_run {bank : Bank} {params : Params} {txs : List Tx}
    (h : ∀ tx ∈ txs, spellsCanonically tx.action = true) (mode : Mode)
    (hmode : mode.simulate = false ∧ mode.recheck = false) (signers : List Bytes) (did : Bytes)
    (doc : DIDDocument)
    (hdoc : (run (step k) (emptyRegistry bank params) txs).store.getIdentity did = some doc)
    (hstatus : doc.status ≠ .active) (signer : Bytes)
    (haddr : accAddressFromBech32 doc.controller = some signer) (hsigner : signer ∈ signers)
    (next : Result Unit) :
    ∃ e, identityStatusGuard (run (step k) (emptyRegistry bank params) txs).store mode
      (some (.ok signers)) next = .error e :=
  guard_rejects (sound_of_run h) hmode hdoc hstatus haddr hsigner next

/-- An identity is registered by an account in some spelling and suspended. -/
def suspendedRun (creator : Bytes) : List Tx :=
  [⟨smallEnv 10, trustIssuer⟩, ⟨smallEnv 10, smallRegister creator 1⟩,
    ⟨smallEnv 11, .updateStatus ⟨accAddressString [5], smallDID 1, .suspended⟩⟩]

/-- The account of a suspended identity is refused. -/
theorem guard_rejects_suspended :
    ∃ e, identityStatusGuard
      (run (step smallKeeper) (emptyRegistry ⟨∅, ∅⟩ smallParams)
        (suspendedRun (accAddressString [21]))).store ⟨false, false⟩ (some (.ok [[21]])) (.ok ()) =
        .error e :=
  guard_rejects_of_run (by decide +kernel) ⟨false, false⟩ ⟨rfl, rfl⟩ [[21]] (smallDID 1)
    ⟨smallDID 1, accAddressString [21], [4, 1], [1], 10, .suspended, .secp256r1⟩
    (by decide +kernel) nofun [21] (by decide +kernel) (by decide) (.ok ())

/-- The same string in capital letters. -/
def capitals (s : Bytes) : Bytes :=
  s.map fun c => if isLower c then Fin.ofNat 256 (c.val - 32) else c

/-- Account 21 registers in capital letters and is suspended: its transactions still pass. -/
theorem guard_passes_capitals :
    (run (step smallKeeper) (emptyRegistry ⟨∅, ∅⟩ smallParams)
        (suspendedRun (capitals (accAddressString [21])))).store.getIdentity (smallDID 1) =
      some ⟨smallDID 1, capitals (accAddressString [21]), [4, 1], [1], 10, .suspended,
        .secp256r1⟩ ∧
    accAddressFromBech32 (capitals (accAddressString [21])) = some [21] ∧
    isOk (identityStatusGuard
      (run (step smallKeeper) (emptyRegistry ⟨∅, ∅⟩ smallParams)
        (suspendedRun (capitals (accAddressString [21])))).store ⟨false, false⟩
      (some (.ok [[21]])) (.ok ())) = true := by
  refine ⟨?_, ?_, ?_⟩
  all_goals decide +kernel

end PhiChain.Identity
