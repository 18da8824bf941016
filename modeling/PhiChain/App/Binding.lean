import PhiChain.App.Separation

/-!
# Approvals and the admin set they were given under

`Traced` carries beside the world the roles that were in force when each approval was
recorded. An approval counts while its stamp is the current admin epoch, so the
recorded admins should be the current ones (`Bound`). Every effect keeps this but one:
granting another role to an ADMIN overwrites the stored role without advancing the
epoch. `counted_bound` is the result for the runs without such a grant, and
`counted_after_demotion` a run where a stale approval is counted.
-/

set_option autoImplicit false

namespace PhiChain.App

open Foundations Sdk Institutions

variable {D : Type} [LinearOrder D] {k : Keeper D}

/-- Roles of all accounts at an institution. -/
def rolesAt (s : Store D) (id : Bytes) (a : Bytes) : InstitutionRole :=
  match s.getInstitution id with
  | some inst => s.effectiveRole inst a
  | none => .unspecified

/-- For each approval, the roles in force when it was recorded. -/
abbrev History (D : Type) := ApprovalKey D → Bytes → InstitutionRole

/-- A newly recorded approval remembers the roles of the state it was given in. -/
def History.record (g : History D) (s : Store D) : Option (ApprovalKey D) → History D
  | none => g
  | some key => fun key' => if key = key' then rolesAt s key.institution else g key'

structure Traced (D : Type) [LinearOrder D] where
  world : World D
  given : History D

/-- The chain step, with the history kept beside it. -/
def Traced.step (k : Keeper D) (t : Traced D) (a : Ctx × Action) : Traced D :=
  commit t do
    let w ← apply k a.1 t.world a.2
    return ⟨w, t.given.record t.world.inst (recordedKey k t.world a.2)⟩

/-- The history does not influence the chain. -/
theorem Traced.step_world (t : Traced D) (a : Ctx × Action) :
    (t.step k a).world = App.step k t.world a := by
  unfold Traced.step App.step
  cases apply k a.1 t.world a.2 with
  | error e => rfl
  | ok w => rfl

/-- Approvals an action counts toward its threshold, its own included. -/
def countedKeys (k : Keeper D) (w : World D) (a : Action) : List (ApprovalKey D) :=
  match recordedKey k w a with
  | none => []
  | some key =>
    match w.inst.getInstitution key.institution with
    | none => []
    | some inst =>
      ((w.inst.recordApproval inst key.contentHash key.signer).countedSigners inst
        key.contentHash).map fun signer => ⟨inst.id, key.contentHash, signer⟩

/-- Accounts that were ADMIN when an approval was recorded. -/
def History.admins (g : History D) (key : ApprovalKey D) : Set Bytes := { a | g key a = .admin }

/-- The admins recorded with a live approval are those of today. -/
def Bound (g : History D) (s : Store D) : Prop :=
  ∀ inst key, IsLive s inst key → g.admins key = s.adminSet inst

variable {g : History D} {s s' : Store D}

theorem admins_record_self {inst : Institution} {key : ApprovalKey D}
    (h : s.getInstitution key.institution = some inst) :
    (g.record s (some key)).admins key = s.adminSet inst := by
  unfold History.admins History.record Store.adminSet rolesAt
  simp only [if_true, h]

theorem admins_record_ne {l : Option (ApprovalKey D)} {key : ApprovalKey D}
    (h : l ≠ some key) : (g.record s l).admins key = g.admins key := by
  cases l with
  | none => rfl
  | some key' =>
    have hne : key' ≠ key := fun heq => h (congrArg some heq)
    unfold History.admins History.record
    simp only [if_neg hne]

/-- One effect keeps live approvals bound, when no grant takes ADMIN away. -/
theorem effect_bound {l : Option (ApprovalKey D)} (h : Effect k True l s s') (hs : Sound s)
    (hb : Bound g s) : Bound (g.record s l) s' := by
  intro inst' key hlive
  rcases h.live hs hlive with ⟨inst, hbefore⟩ | happroved
  · rw [hbefore.same trivial]
    rcases eq_or_ne l (some key) with rfl | hne
    · exact admins_record_self hbefore.live.found
    · rw [admins_record_ne hne]
      exact hb inst key hbefore.live
  · have hfound := hlive.found
    rw [happroved.recorded] at hfound ⊢
    rw [happroved.label]
    exact admins_record_self hfound

theorem effects_bound {l : Option (ApprovalKey D)} (h : Effects k True l s s')
    (hs : Sound s ∧ Bound g s) :
    Sound s' ∧ Bound (g.record s l) s' := by
  have hsilent : ∀ (g : History D) (s s' : Store D), Effect k True none s s' →
      Sound s ∧ Bound g s → Sound s' ∧ Bound g s' :=
    fun g s s' heffect hs => ⟨heffect.sound hs.1, effect_bound heffect hs.1 hs.2⟩
  cases h with
  | silent h => exact silent_preserve h (hsilent g) hs
  | approving first rest =>
    exact silent_preserve rest (hsilent _) ⟨first.sound hs.1, effect_bound first hs.1 hs.2⟩

theorem step_bound (t : Traced D) (a : Ctx × Action) (ha : a.2 ≠ .restart ∧ keepsAdmins t.world a.2)
    (ht : Sound t.world.inst ∧ Bound t.given t.world.inst) :
    Sound (t.step k a).world.inst ∧ Bound (t.step k a).given (t.step k a).world.inst := by
  refine commit_preserves (p := fun t : Traced D => Sound t.world.inst ∧ Bound t.given t.world.inst)
    ht ?_
  intro t' h
  obtain ⟨w, hw, h⟩ := bind_eq_ok.1 h
  cases h
  exact effects_bound (apply_effects ht.1.short (fun _ => ht.1) ha.1 (fun _ => ha.2) hw) ht

/-- Counted approvals are live, once the action has recorded its own. -/
theorem mem_countedKeys {w : World D} {a : Action} {key : ApprovalKey D}
    (h : key ∈ countedKeys k w a) :
    ∃ inst own, w.inst.getInstitution key.institution = some inst ∧ recordedKey k w a = some own ∧
      (own = key ∨ IsLive w.inst inst key) := by
  unfold countedKeys at h
  split at h
  · cases h
  · rename_i own hown
    split at h
    · cases h
    · rename_i inst hinst
      obtain ⟨signer, hsigner, rfl⟩ := List.mem_map.1 h
      have hself := Store.getInstitution_self hinst
      obtain ⟨hstored, -⟩ := mem_countedSigners hsigner
      rw [recordApproval_get?] at hstored
      refine ⟨inst, own, hself, hown, ?_⟩
      split at hstored
      · rename_i hkey
        left
        rw [← hkey, Registry.id_of_get? hinst]
      · exact .inr ⟨hself, hstored⟩

/-- In every run from genesis in which no role grant takes ADMIN away from its grantee, whatever
message is accepted next: each approval it counts was recorded while the admins were exactly those
in force. -/
theorem counted_bound {w : World D} (hw : Initial w.inst) (g : History D)
    (as : List (Ctx × Action))
    (has : Along (Traced.step k) (fun t a => a.2 ≠ .restart ∧ keepsAdmins t.world a.2) ⟨w, g⟩ as)
    {ctx : Ctx} {a : Action} {w' : World D}
    (h : apply k ctx (run (Traced.step k) ⟨w, g⟩ as).world a = .ok w') :
    let t := run (Traced.step k) ⟨w, g⟩ as
    ∀ key ∈ countedKeys k t.world a, ∃ inst,
      t.world.inst.getInstitution key.institution = some inst ∧
        (t.step k (ctx, a)).given.admins key = t.world.inst.adminSet inst := by
  intro t key hkey
  have hbound : Sound t.world.inst ∧ Bound t.given t.world.inst := by
    have hstart : Bound g w.inst := by
      intro inst key hlive
      have hstored := hlive.stamped
      rw [hw.approval] at hstored
      cases hstored
    exact @run_preserves _ _ _ _
      (fun t : Traced D => Sound t.world.inst ∧ Bound t.given t.world.inst)
      step_bound _ ⟨hw.sound, hstart⟩ _ has
  have hgiven : (t.step k (ctx, a)).given = t.given.record t.world.inst (recordedKey k t.world a) := by
    have hstep : t.step k (ctx, a) = commit t ((apply k ctx t.world a) >>= fun w =>
        pure ⟨w, t.given.record t.world.inst (recordedKey k t.world a)⟩) := rfl
    rw [hstep, h]
    rfl
  obtain ⟨inst, own, hinst, hown, hlive⟩ := mem_countedKeys hkey
  refine ⟨inst, hinst, ?_⟩
  rw [hgiven, hown]
  rcases eq_or_ne own key with rfl | hne
  · exact admins_record_self hinst
  · rw [admins_record_ne fun heq => hne (Option.some.inj heq)]
    exact hbound.2 inst key (hlive.resolve_left hne)

/-! ## Three admins -/

theorem Initial.setRole (h : Initial s) (id a : Bytes) (role : InstitutionRole) :
    Initial (s.setRole id a role) :=
  ⟨h.approvals, h.queue, h.idLen, h.fx⟩

/-- `multisigWorld` with account 4 as a third admin. -/
def threeAdminWorld : World Bytes :=
  { multisigWorld with inst := multisigStore.setRole (ascii "a") [4] .admin }

/-- Clearing the deposit key, signed by the given admin. -/
def clearDepositKey (admin : Bytes) : SensitiveMsg :=
  .depositKey ⟨accAddressString admin, ascii "a", []⟩

/-- Granting VIEWER to account 4, signed by the given admin. -/
def grantViewer (admin : Bytes) : SensitiveMsg :=
  .grant ⟨accAddressString admin, ascii "a", accAddressString [4], .viewer⟩

/-- Whether a sensitive message reached its threshold. -/
def hasExecuted (x : Result (SensitiveResult × Store D)) : Bool :=
  match x with
  | .ok (r, _) => r.executed
  | .error _ => false

/-- The deposit key is cleared on the approvals of two admins. -/
theorem counted_bound_depositKey :
    let t := run (Traced.step textKeeper) ⟨threeAdminWorld, fun _ _ => .unspecified⟩
      [(smallCtx 1000, .sensitive (clearDepositKey [1]))]
    hasExecuted (sensitiveAction textKeeper (clearDepositKey [2]) t.world.inst) = true ∧
      (countedKeys textKeeper t.world (.sensitive (clearDepositKey [2]))).length = 2 ∧
      ∀ key ∈ countedKeys textKeeper t.world (.sensitive (clearDepositKey [2])), ∃ inst,
        t.world.inst.getInstitution key.institution = some inst ∧
          (t.step textKeeper (smallCtx 1000, .sensitive (clearDepositKey [2]))).given.admins key =
            t.world.inst.adminSet inst := by
  intro t
  refine ⟨by decide +kernel, by decide +kernel, ?_⟩
  have haccepted : isOk (apply textKeeper (smallCtx 1000) t.world
      (.sensitive (clearDepositKey [2]))) = true := by decide +kernel
  obtain ⟨w', hw'⟩ := isOk_iff.1 haccepted
  have hrun : Along (Traced.step textKeeper) (fun t a => a.2 ≠ .restart ∧ keepsAdmins t.world a.2)
      ⟨threeAdminWorld, fun _ _ => .unspecified⟩
      [(smallCtx 1000, .sensitive (clearDepositKey [1]))] :=
    ⟨⟨nofun, fun _ _ => trivial⟩, trivial⟩
  exact counted_bound (multisigStore_initial.setRole _ _ _) _ _ hrun hw'

/-- Account 1 approves while 1, 2 and 4 are the admins. Then 1 and 2 make account 4 a
VIEWER, and account 2 approves: the first approval still counts, and the key is cleared. -/
theorem counted_after_demotion :
    let t := run (Traced.step textKeeper) ⟨threeAdminWorld, fun _ _ => .unspecified⟩
      [(smallCtx 1000, .sensitive (clearDepositKey [1])),
        (smallCtx 1001, .sensitive (grantViewer [1])),
        (smallCtx 1002, .sensitive (grantViewer [2]))]
    let last : Ctx × Action := (smallCtx 1003, .sensitive (clearDepositKey [2]))
    Initial threeAdminWorld.inst ∧
      hasExecuted (sensitiveAction textKeeper (clearDepositKey [2]) t.world.inst) = true ∧
      ∃ key ∈ countedKeys textKeeper t.world last.2, ∃ inst,
        t.world.inst.getInstitution key.institution = some inst ∧
          (t.step textKeeper last).given.admins key ≠ t.world.inst.adminSet inst := by
  intro t last
  -- evaluated together, so that the run is computed once
  obtain ⟨hexecuted, hcounted, hgiven, hnow⟩ :
      hasExecuted (sensitiveAction textKeeper (clearDepositKey [2]) t.world.inst) = true ∧
        (⟨ascii "a", (clearDepositKey [2]).contentHash textKeeper, [1]⟩ : ApprovalKey Bytes) ∈
          countedKeys textKeeper t.world last.2 ∧
        (t.step textKeeper last).given
          ⟨ascii "a", (clearDepositKey [2]).contentHash textKeeper, [1]⟩ [4] = .admin ∧
        rolesAt t.world.inst (ascii "a") [4] = .viewer := by decide +kernel
  refine ⟨multisigStore_initial.setRole _ _ _, hexecuted, ?_⟩
  obtain ⟨inst, -, hinst, -, -⟩ := mem_countedKeys hcounted
  refine ⟨_, hcounted, inst, hinst, ?_⟩
  intro hsame
  have hadmin : t.world.inst.effectiveRole inst [4] = .admin := hsame.subset hgiven
  have hroles : rolesAt t.world.inst (ascii "a") [4] = t.world.inst.effectiveRole inst [4] := by
    unfold rolesAt
    rw [hinst]
  rw [← hroles, hnow] at hadmin
  cases hadmin

end PhiChain.App
