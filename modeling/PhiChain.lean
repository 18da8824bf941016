import PhiChain.Institutions.RedeemLaw
import PhiChain.Institutions.CounterRing
import PhiChain.Institutions.Keys
import PhiChain.Governance.Budget
import PhiChain.Governance.Ballots
import PhiChain.Governance.HeadCount
import PhiChain.Governance.Keys
import PhiChain.Identity.Keys
import PhiChain.Identity.Bootstrap
import PhiChain.Identity.StatusGuard
import PhiChain.Identity.RecoveryIds
import PhiChain.Identity.Quorum
import PhiChain.Identity.Import
import PhiChain.Credentials.PolicyHash
import PhiChain.Credentials.Export
import PhiChain.Disclosure.Issuers
import PhiChain.Disclosure.Reveal
import PhiChain.Voting.Genesis
import PhiChain.Ante.Envelope
import PhiChain.Ante.SigVerify
import PhiChain.App.MintContent
import PhiChain.App.SignedMessages
import PhiChain.App.RedeemFloor
import PhiChain.App.MinimumAge
import PhiChain.App.Removals
import PhiChain.App.AdminCount
import PhiChain.App.Emergency
import PhiChain.App.Onboarding
