import PhiChain.Identity.Uniqueness

/-!
# Identity: the end of the bootstrap phase

The registration that brings the number of identities to the threshold clears the bootstrap
flag. The flag is a field of the parameters, and a change of parameters replaces them as a
whole, so that an authorised update can set it again (`bootstrap_restored`). Runs are
traced: `Traced` keeps beside the world whether a registration has ended the phase.
-/

set_option autoImplicit false

namespace PhiChain.Identity

open Foundations Sdk

variable {k : Keeper} {env : Env} {w w' : World} {a : Action}

/-- A world, and whether the threshold has ended the bootstrap phase. -/
structure Traced where
  world : World
  ended : Bool

/-- A registration clears the flag. -/
def endsBootstrap (w w' : World) : Action → Bool
  | .registerIdentity _ => w.store.params.bootstrapPhase && !w'.store.params.bootstrapPhase
  | _ => false

def tracedStep (k : Keeper) (t : Traced) (tx : Tx) : Traced where
  world := step k t.world tx
  ended := t.ended || endsBootstrap t.world (step k t.world tx) tx.action

/-- The trace does not bear on the run. -/
theorem tracedRun_world (t : Traced) (txs : List Tx) :
    (run (tracedStep k) t txs).world = run (step k) t.world txs :=
  run_view Traced.world (fun _ _ => rfl) t txs

/-- After the end of the phase, no update of the authority sets the flag. -/
def keepsEnded (k : Keeper) (t : Traced) : Action → Bool
  | .updateParams msg => ¬ (t.ended = true ∧ msg.authority = k.authority ∧
      msg.params.bootstrapPhase = true)
  | _ => true

/-- The flag comes back only with an update of the parameters. -/
theorem bootstrapPhase_of_event (hevent : Event k env w a w')
    (hupdate : ∀ msg, a = .updateParams msg → msg.authority = k.authority →
      msg.params.bootstrapPhase = false)
    (h : w.store.params.bootstrapPhase = false) : w'.store.params.bootstrapPhase = false := by
  rcases (summary_of_event hevent).params with hsame | ⟨msg, -, -, hlatched⟩ | ⟨msg, ha, hauth, hset⟩
  · rw [hsame]
    exact h
  · rw [hlatched]
  · rw [hset]
    exact hupdate msg ha hauth

theorem ended_of_tracedStep {t : Traced} {tx : Tx} (hok : keepsEnded k t tx.action = true)
    (h : t.ended = true → t.world.store.params.bootstrapPhase = false) :
    (tracedStep k t tx).ended = true →
      (tracedStep k t tx).world.store.params.bootstrapPhase = false := by
  intro hended
  rcases Bool.or_eq_true_iff.1 hended with hbefore | hnow
  · refine step_preserves (p := fun w => w.store.params.bootstrapPhase = false) (h hbefore)
      fun w' _ hevent => bootstrapPhase_of_event hevent ?_ (h hbefore)
    intro msg ha hauth
    rw [ha] at hok
    have hkept := of_decide_eq_true hok
    exact eq_false_of_ne_true fun hphase => hkept ⟨hbefore, hauth, hphase⟩
  · unfold endsBootstrap at hnow
    split at hnow
    · rw [Bool.and_eq_true, Bool.not_eq_true'] at hnow
      exact hnow.2
    · cases hnow

/-- Once a registration has ended the bootstrap phase it stays ended, in every run in which no
later update of the parameters sets the flag. -/
theorem bootstrap_stays_ended {txs : List Tx}
    (h : Along (tracedStep k) (fun t tx => keepsEnded k t tx.action = true) ⟨w, false⟩ txs) :
    (run (tracedStep k) ⟨w, false⟩ txs).ended = true →
      (run (step k) w txs).store.params.bootstrapPhase = false := by
  rw [← tracedRun_world ⟨w, false⟩ txs]
  refine @run_preserves _ _ (tracedStep k) _
    (fun t => t.ended = true → t.world.store.params.bootstrapPhase = false) ?_ _ ?_ _ h
  · intro t tx hok ht
    exact ended_of_tracedStep hok ht
  · intro hended
    cases hended

/-- Parameters that end the bootstrap phase with the first identity. -/
def shortBootstrap : Params := { smallParams with bootstrapThreshold := 1 }

/-- The first registration ends the phase, and an update keeps it ended. -/
theorem bootstrap_stays_ended_after_update :
    (run (tracedStep smallKeeper) ⟨emptyRegistry ⟨∅, ∅⟩ shortBootstrap, false⟩
      [⟨smallEnv 10, trustIssuer⟩, ⟨smallEnv 10, smallRegister (accAddressString [21]) 1⟩,
        ⟨smallEnv 11, .updateParams ⟨accAddressString [5],
          { shortBootstrap with bootstrapPhase := false }⟩⟩]).ended = true ∧
    (run (step smallKeeper) (emptyRegistry ⟨∅, ∅⟩ shortBootstrap)
      [⟨smallEnv 10, trustIssuer⟩, ⟨smallEnv 10, smallRegister (accAddressString [21]) 1⟩,
        ⟨smallEnv 11, .updateParams ⟨accAddressString [5],
          { shortBootstrap with bootstrapPhase := false }⟩⟩]).store.params.bootstrapPhase = false :=
  ⟨by decide +kernel, bootstrap_stays_ended (by decide +kernel) (by decide +kernel)⟩

/-- The first registration ends the phase; an update of the parameters with the flag set
brings it back. -/
theorem bootstrap_restored :
    (run (tracedStep smallKeeper) ⟨emptyRegistry ⟨∅, ∅⟩ shortBootstrap, false⟩
      [⟨smallEnv 10, trustIssuer⟩, ⟨smallEnv 10, smallRegister (accAddressString [21]) 1⟩]).ended =
        true ∧
    (run (step smallKeeper) (emptyRegistry ⟨∅, ∅⟩ shortBootstrap)
      [⟨smallEnv 10, trustIssuer⟩, ⟨smallEnv 10, smallRegister (accAddressString [21]) 1⟩]
        ).store.params.bootstrapPhase = false ∧
    (run (step smallKeeper) (emptyRegistry ⟨∅, ∅⟩ shortBootstrap)
      [⟨smallEnv 10, trustIssuer⟩, ⟨smallEnv 10, smallRegister (accAddressString [21]) 1⟩,
        ⟨smallEnv 11, .updateParams ⟨accAddressString [5], shortBootstrap⟩⟩]
        ).store.params.bootstrapPhase = true := by
  refine ⟨?_, ?_, ?_⟩
  all_goals decide +kernel

end PhiChain.Identity
