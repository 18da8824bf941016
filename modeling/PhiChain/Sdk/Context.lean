import PhiChain.Sdk.Bank
import PhiChain.Sdk.Math

/-!
# Execution context

What a handler sees besides the stores of the modules under study: block time,
account keeper, and the answers of the identity and governance keepers. The
latter change between transactions under other modules' control, so a context
belongs to a single step and a run may use a different one at every step.
-/

set_option autoImplicit false

namespace PhiChain.Sdk

open Foundations

/-- Governance proposal as fx onboarding reads it: whether it passed, and the fx ids
its `MsgFinalizeFxEntry` messages name. -/
structure GovProposal where
  passed : Bool
  finalizes : List Bytes

/-- Context of one transaction. -/
structure Ctx where
  blockTime : Int
  accounts : Accounts
  bootstrapPhase : Bool
  subjectDID : Bytes → Option Bytes
  proposal : Nat → Option GovProposal

/-- UTC day of the block. -/
def Ctx.dayIndex (ctx : Ctx) : Int := quo ctx.blockTime 86400

end PhiChain.Sdk
