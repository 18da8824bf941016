import PhiChain.App.Spelling
import PhiChain.App.Upkeep
import PhiChain.Sdk.AddressText
import Mathlib.Data.Set.Card

/-!
# The admin count

`countAdmins` counts strings: the root admin of the record as it was written, and the canonical
string of every account with an ADMIN grant. `effectiveRole` compares the canonical string of
the signer with the record. The two agree exactly when the root admin is written canonically
(`admin_count_exact`); a root admin in upper case is counted, and no key can act as it
(`upper_case_admin_counted`).
-/

set_option autoImplicit false

namespace PhiChain.App

open Foundations Sdk Institutions

variable {D : Type} [LinearOrder D]

variable {account : Bytes} {s : Store D} {inst : Institution}

/-! ## Accounts and their strings -/

theorem Decoded.roundTrip (h : Decoded account) :
    accAddressFromBech32 (accAddressString account) = some account := by
  obtain ⟨text, htext⟩ := h
  exact accAddressFromBech32_accAddressString (accAddressFromBech32_ne_nil htext)
    (accAddressFromBech32_size htext).2

/-- The text is the string of the account that it denotes. -/
def Canonical (text : Bytes) : Prop :=
  ∀ account, accAddressFromBech32 text = some account → accAddressString account = text

/-- Accounts that can act as admin of an institution. -/
def adminKeys (s : Store D) (inst : Institution) : Set Bytes :=
  {account | Decoded account ∧ s.effectiveRole inst account = .admin}

/-! ## The two counts -/

/-- Accounts with an ADMIN grant. -/
def grantedAdmins (s : Store D) (id : Bytes) : List Bytes :=
  (s.roles.entries.filter fun e => e.1.institution = id ∧ e.2 = .admin).map fun e => e.1.account

theorem mem_grantedAdmins {id : Bytes} :
    account ∈ grantedAdmins s id ↔ s.getRole id account = .admin := by
  have hget : s.getRole id account = .admin ↔ s.roles.get? ⟨id, account⟩ = some .admin := by
    unfold Store.getRole OrdMap.getD
    cases s.roles.get? ⟨id, account⟩ with
    | none => simp
    | some role => simp
  rw [hget, ← OrdMap.mem_entries]
  simp only [grantedAdmins, List.mem_map, List.mem_filter, decide_eq_true_eq]
  constructor
  · rintro ⟨⟨⟨institution, account'⟩, role⟩, ⟨hmem, rfl, rfl⟩, rfl⟩
    exact hmem
  · intro hmem
    exact ⟨(⟨id, account⟩, .admin), ⟨hmem, rfl, rfl⟩, rfl⟩

/-- The counted strings, when all of them decode. -/
theorem countAdmins_eq (hadmin : (accAddressFromBech32 inst.admin).isSome = true)
    (hgranted : ∀ account ∈ grantedAdmins s inst.id, Decoded account) :
    s.countAdmins inst =
      (insert inst.admin ((grantedAdmins s inst.id).toFinset.image accAddressString)).card := by
  have hlist : ((s.rolesFor inst.id).filter fun rg => rg.role = .admin).map RoleGrant.address =
      (grantedAdmins s inst.id).map accAddressString := by
    simp only [Store.rolesFor, grantedAdmins, List.filter_map, List.map_map, List.filter_filter]
    congr 1
    refine List.filter_congr fun e _ => ?_
    simp [Bool.and_comm]
  have hdecode : ∀ text ∈ inst.admin :: (grantedAdmins s inst.id).map accAddressString,
      (accAddressFromBech32 text).isSome = true := by
    intro text htext
    rcases List.mem_cons.1 htext with rfl | hmem
    · exact hadmin
    · obtain ⟨account, haccount, rfl⟩ := List.mem_map.1 hmem
      rw [(hgranted account haccount).roundTrip]
      rfl
  unfold Store.countAdmins
  dsimp only
  rw [hlist, List.filter_eq_self.2 hdecode, ← List.card_toFinset, List.toFinset_cons]
  congr 2
  ext text
  simp

/-- A granted account is an admin key. -/
theorem mem_adminKeys (hgranted : ∀ account ∈ grantedAdmins s inst.id, Decoded account) :
    account ∈ adminKeys s inst ↔
      Decoded account ∧ accAddressString account = inst.admin ∨
        account ∈ grantedAdmins s inst.id := by
  unfold adminKeys Store.effectiveRole
  rw [Set.mem_ofPred_eq, mem_grantedAdmins]
  split
  · rename_i hroot
    simp only [and_true, hroot]
    exact ⟨.inl, fun h => h.elim id fun hrole => hgranted _ (mem_grantedAdmins.2 hrole)⟩
  · rename_i hroot
    simp only [hroot, and_false, false_or]
    exact ⟨fun h => h.2, fun hrole => ⟨hgranted _ (mem_grantedAdmins.2 hrole), hrole⟩⟩

theorem image_card (accounts : Finset Bytes) :
    (accounts.image accAddressString).card = accounts.card :=
  Finset.card_image_of_injective _ fun _ _ => accAddressString_inj

/-- The count is right exactly when the root admin is written canonically. -/
theorem countAdmins_eq_ncard_iff (hadmin : (accAddressFromBech32 inst.admin).isSome = true)
    (hgranted : ∀ account ∈ grantedAdmins s inst.id, Decoded account) :
    s.countAdmins inst = (adminKeys s inst).ncard ↔ Canonical inst.admin := by
  obtain ⟨root, hroot⟩ := Option.isSome_iff_exists.1 hadmin
  -- an account whose string is the record's text is the one the text denotes
  have hunique : ∀ account, Decoded account → accAddressString account = inst.admin →
      account = root := by
    intro account hdecoded htext
    have hself := hdecoded.roundTrip
    rw [htext, hroot] at hself
    exact (Option.some.inj hself).symm
  rw [countAdmins_eq hadmin hgranted]
  by_cases hcanonical : accAddressString root = inst.admin
  · have hkeys : adminKeys s inst = ↑(insert root (grantedAdmins s inst.id).toFinset) := by
      ext account
      rw [mem_adminKeys hgranted]
      simp only [Finset.coe_insert, Set.mem_insert_iff, Finset.mem_coe, List.mem_toFinset]
      refine or_congr_left ⟨fun h => hunique account h.1 h.2, ?_⟩
      rintro rfl
      exact ⟨⟨inst.admin, hroot⟩, hcanonical⟩
    have hcard := image_card (insert root (grantedAdmins s inst.id).toFinset)
    rw [Finset.image_insert, hcanonical] at hcard
    rw [hkeys, Set.ncard_coe_finset, hcard]
    refine iff_of_true rfl fun account haccount => ?_
    rwa [← Option.some.inj (hroot.symm.trans haccount)]
  · have hnone : ∀ account, Decoded account → accAddressString account ≠ inst.admin := by
      intro account hdecoded htext
      exact hcanonical (hunique account hdecoded htext ▸ htext)
    have hkeys : adminKeys s inst = ↑(grantedAdmins s inst.id).toFinset := by
      ext account
      rw [mem_adminKeys hgranted]
      simp only [Finset.mem_coe, List.mem_toFinset]
      exact or_iff_right fun h => hnone account h.1 h.2
    -- the record's text is one more string than there are accounts
    have hfresh : inst.admin ∉ (grantedAdmins s inst.id).toFinset.image accAddressString := by
      intro hmem
      obtain ⟨account, haccount, htext⟩ := Finset.mem_image.1 hmem
      exact hnone account (hgranted account (List.mem_toFinset.1 haccount)) htext
    rw [hkeys, Set.ncard_coe_finset, Finset.card_insert_of_notMem hfresh, image_card]
    exact iff_of_false (by omega) fun h => hcanonical (h root hroot)

/-! ## Runs -/

/-- A registration or an fx request names the admin-to-be by its canonical string. -/
def Op.spellsAdmin : Op → Prop
  | .deliver (.register msg) _ => Canonical msg.admin
  | .deliver (.requestFx msg) _ => Canonical msg.applicant
  | _ => True

/-- Root admins, and those who may become one, are written canonically. -/
structure Spelled (s : Store D) : Prop where
  records : ∀ id inst, s.getInstitution id = some inst → Canonical inst.admin
  requests : ∀ id req, s.fxRequests.get? id = some req → Canonical req.applicant

theorem spelled_fresh : Spelled (Store.fresh : Store D) where
  records _ _ h := by cases h
  requests _ _ h := by cases h

theorem Spelled.step {ctx : Ctx} {op : Op} {s' : Store D} (hs : Spelled s) (hop : op.spellsAdmin)
    (h : Change ctx op s s') : Spelled s' where
  records id inst hget := by
    cases record_of_change h hget with
    | same found => exact hs.records _ _ found
    | successor old found successor =>
      rw [successor.admin]
      exact hs.records _ _ found
    | registered msg sent basic idle new =>
      obtain ⟨hrunning, rfl⟩ := sent
      exact new ▸ hop
    | finalized fxId req request idle new => exact new ▸ hs.requests fxId req request
  requests id req hreq := by
    cases request_of_change h hreq with
    | same found => exact hs.requests _ _ found
    | guaranteed old found new =>
      rw [new]
      exact hs.requests id old found
    | requested msg sent basic fresh named new =>
      obtain ⟨hrunning, rfl⟩ := sent
      exact new ▸ hop

theorem spelled_run (k : Keeper D) {w : World D} (hw : Spelled w.inst) {ops : List (Ctx × Op)}
    (hops : ∀ op ∈ ops, op.2.spellsAdmin) : Spelled (run (advance k) w ops).inst := by
  induction ops generalizing w with
  | nil => exact hw
  | cons op rest ih =>
    refine ih ?_ fun op' hmem => hops op' (List.mem_cons_of_mem op hmem)
    rcases advance_cases k w op with hsame | hdone
    · rwa [hsame]
    · exact hw.step (hops op List.mem_cons_self) (change_of_perform hdone)

/-- In every store that a chain reaches, the admin count of an institution is the number of
accounts that can act as its admin exactly when its root admin is written canonically. It is
so for all institutions if every registration and every fx request writes its account
canonically. -/
theorem admin_count_exact (k : Keeper D) (bank : Bank) (coin : Coin.Store)
    (ops : List (Ctx × Op)) :
    let s := (run (advance k) (startWorld bank coin) ops).inst
    (∀ id inst, s.getInstitution id = some inst →
        (s.countAdmins inst = (adminKeys s inst).ncard ↔ Canonical inst.admin)) ∧
      ((∀ op ∈ ops, op.2.spellsAdmin) → ∀ id inst, s.getInstitution id = some inst →
        s.countAdmins inst = (adminKeys s inst).ncard) := by
  intro s
  have hkept : Kept s := run_kept k kept_fresh ops
  have hexact : ∀ id inst, s.getInstitution id = some inst →
      (s.countAdmins inst = (adminKeys s inst).ncard ↔ Canonical inst.admin) := by
    intro id inst hget
    refine countAdmins_eq_ncard_iff (hkept.records id inst hget).admin fun account haccount => ?_
    obtain ⟨⟨key, role⟩, hmem, rfl⟩ := List.mem_map.1 haccount
    exact (hkept.roles key role (OrdMap.mem_entries.1 (List.mem_filter.1 hmem).1)).2.1
  refine ⟨hexact, fun hops id inst hget => (hexact id inst hget).2 ?_⟩
  exact (spelled_run k (w := startWorld bank coin) spelled_fresh hops).records id inst hget

/-- The canonical spelling of account 1. -/
theorem canonical_small : Canonical (accAddressString [1]) := by
  intro account haccount
  have hself : accAddressFromBech32 (accAddressString [1]) = some [1] := by decide +kernel
  rw [← Option.some.inj (hself.symm.trans haccount)]

theorem admin_count_exact_small :
    let s := (run (advance govKeeper) emptyStart
      [(smallCtx 1, registerSmall (accAddressString [1]))]).inst
    ∃ inst, s.getInstitution (ascii "a") = some inst ∧ s.countAdmins inst = 1 ∧
      (adminKeys s inst).ncard = 1 := by
  intro s
  have hfound : (s.getInstitution (ascii "a")).isSome = true := by decide +kernel
  obtain ⟨inst, hinst⟩ := Option.isSome_iff_exists.1 hfound
  have hcount : (s.getInstitution (ascii "a")).map s.countAdmins = some 1 := by decide +kernel
  rw [hinst] at hcount
  have hcount : s.countAdmins inst = 1 := Option.some.inj hcount
  refine ⟨inst, hinst, hcount, ?_⟩
  rw [← hcount]
  refine ((admin_count_exact govKeeper ⟨∅, ∅⟩ ⟨Coin.defaultParams, ∅, ∅⟩
    [(smallCtx 1, registerSmall (accAddressString [1]))]).2 ?_ (ascii "a") inst hinst).symm
  intro op hop
  rw [List.mem_singleton.1 hop]
  exact canonical_small

/-- A root admin in upper case passes the checks and is counted, and no account has the
role. -/
theorem upper_case_admin_counted :
    let s := (run (advance govKeeper) emptyStart
      [(smallCtx 1, registerSmall (upperCase (accAddressString [1])))]).inst
    ∃ inst, s.getInstitution (ascii "a") = some inst ∧
      accAddressFromBech32 inst.admin = some [1] ∧ s.countAdmins inst = 1 ∧
      ∀ account, Decoded account → s.effectiveRole inst account ≠ .admin := by
  intro s
  have hfound : (s.getInstitution (ascii "a")).map Institution.admin =
      some (upperCase (accAddressString [1])) := by decide +kernel
  have hcount : (s.getInstitution (ascii "a")).map s.countAdmins = some 1 := by decide +kernel
  obtain ⟨inst, hinst, hadmin⟩ := Option.map_eq_some_iff.1 hfound
  rw [hinst] at hcount
  have hroot : accAddressFromBech32 inst.admin = some [1] := by
    rw [hadmin]
    decide +kernel
  refine ⟨inst, hinst, hroot, Option.some.inj hcount, fun account haccount hrole => ?_⟩
  have hnone : grantedAdmins s inst.id = [] := by
    have hroles : s.roles.entries = [] := by decide +kernel
    unfold grantedAdmins
    rw [hroles]
    rfl
  have hgranted : ∀ account ∈ grantedAdmins s inst.id, Decoded account := by simp [hnone]
  have hkey := (mem_adminKeys hgranted).1 ⟨haccount, hrole⟩
  rw [hnone] at hkey
  rcases hkey with ⟨-, htext⟩ | hmem
  · have hself := haccount.roundTrip
    rw [htext, hroot] at hself
    rw [← Option.some.inj hself, hadmin] at htext
    exact absurd htext (by decide +kernel)
  · cases hmem

end PhiChain.App
