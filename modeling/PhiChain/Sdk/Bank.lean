import PhiChain.Foundations.OrdMap
import PhiChain.Foundations.Bytes
import PhiChain.Sdk.Failure
import Mathlib.Data.Prod.Lex
import Mathlib.Algebra.Order.Group.Int

/-!
# Bank keeper

Balances and supplies per denomination, and the bank operations the modules call.
Every operation either moves, mints or burns exactly the coins asked for or fails:
a send refuses what the sender cannot spend beyond its locked coins, and a burn
refuses what exceeds the module account's balance or the supply.

For the solvency argument the supply laws matter: `sendCoins_supply`,
`mintCoins_supply` and `burnCoins_supply`.
-/

set_option autoImplicit false

namespace PhiChain.Sdk

open Foundations

/-- Module accounts of the application. -/
inductive ModuleName where
  | feeCollector
  | distribution
  | bondedPool
  | notBondedPool
  | gov
  | institutions
  | identity
  | phiRevenue
  deriving DecidableEq

/-- Module accounts with the Minter permission. -/
def ModuleName.isMinter : ModuleName → Bool
  | .institutions => true
  | _ => false

/-- Module accounts with the Burner permission. -/
def ModuleName.isBurner : ModuleName → Bool
  | .bondedPool | .notBondedPool | .gov | .institutions => true
  | _ => false

def ModuleName.all : List ModuleName :=
  [.feeCollector, .distribution, .bondedPool, .notBondedPool, .gov, .institutions, .identity,
    .phiRevenue]

/-- What the account keeper tells the bank: module addresses, and the coins a
vesting schedule locks. A module account has no such schedule. -/
structure Accounts where
  moduleAddress : ModuleName → Bytes
  locked : Bytes → Bytes → Int
  locked_nonneg : ∀ addr denom, 0 ≤ locked addr denom
  locked_module : ∀ m denom, locked (moduleAddress m) denom = 0

/-- Accounts without a vesting schedule. -/
def Accounts.unlocked (moduleAddress : ModuleName → Bytes) : Accounts where
  moduleAddress := moduleAddress
  locked _ _ := 0
  locked_nonneg _ _ := le_refl 0
  locked_module _ _ := rfl

def smallAccounts : Accounts :=
  Accounts.unlocked fun
    | .feeCollector => [1]
    | .distribution => [2]
    | .bondedPool => [3]
    | .notBondedPool => [4]
    | .gov => [5]
    | .institutions => [6]
    | .identity => [7]
    | .phiRevenue => [8]

/-- A module account other than the governance account may not be paid directly. -/
def Accounts.blockedAddr (acc : Accounts) (addr : Bytes) : Bool :=
  ModuleName.all.any fun m => m ≠ .gov ∧ acc.moduleAddress m = addr

structure Coin where
  denom : Bytes
  amount : Int
  deriving DecidableEq

abbrev Coins := List Coin

/-- Positive amounts in ascending order of denomination. -/
def Coins.isValid (cs : Coins) : Prop :=
  (∀ c ∈ cs, 0 < c.amount) ∧ cs.Pairwise fun a b => a.denom < b.denom

instance (cs : Coins) : Decidable cs.isValid :=
  inferInstanceAs (Decidable ((∀ c ∈ cs, 0 < c.amount) ∧
    List.Pairwise (fun a b : Coin => a.denom < b.denom) cs))

/-- Amount of a denomination among coins. -/
def Coins.amountOf (cs : Coins) (denom : Bytes) : Int :=
  ((cs.find? fun c => c.denom = denom).map Coin.amount).getD 0

/-- Coins less other coins, without zero amounts. -/
def Coins.sub (cs ds : Coins) : Coins :=
  (cs.map fun c => { c with amount := c.amount - ds.amountOf c.denom }).filter fun c => c.amount ≠ 0

/-- Key of a balance. -/
structure BalanceKey where
  addr : Bytes
  denom : Bytes
  deriving DecidableEq

instance : LinearOrder BalanceKey :=
  LinearOrder.lift' (fun k => toLex (k.addr, k.denom)) (by
    rintro ⟨a, d⟩ ⟨a', d'⟩ h
    obtain ⟨rfl, rfl⟩ := Prod.mk.inj (toLex_inj.1 h)
    rfl)

/-- Balances and supplies; zero amounts are not stored. -/
structure Bank where
  balances : OrdMap BalanceKey Int
  supplies : OrdMap Bytes Int

variable {acc : Accounts} {amt : Coins} {b b' : Bank} {m : ModuleName} {recipient : Bytes}
  {c : Coin}

namespace Bank

def getBalance (b : Bank) (addr denom : Bytes) : Int := b.balances.getD ⟨addr, denom⟩ 0

def getSupply (b : Bank) (denom : Bytes) : Int := b.supplies.getD denom 0

def setBalance (b : Bank) (addr denom : Bytes) (amount : Int) : Bank :=
  { b with balances :=
      if amount = 0 then b.balances.erase ⟨addr, denom⟩ else b.balances.put ⟨addr, denom⟩ amount }

def setSupply (b : Bank) (denom : Bytes) (amount : Int) : Bank :=
  { b with supplies := if amount = 0 then b.supplies.erase denom else b.supplies.put denom amount }

/-- Take coins an account may spend out of its balance. -/
def subUnlockedCoins (acc : Accounts) (addr : Bytes) : Coins → Bank → Result Bank
  | [], b => .ok b
  | c :: rest, b => do
    let balance := b.getBalance addr c.denom
    let locked := acc.locked addr c.denom
    ensure (locked ≤ balance) ⟨.insufficientFunds, "locked amount exceeds account balance funds"⟩
    ensure (c.amount ≤ balance - locked) ⟨.insufficientFunds, "spendable balance is smaller"⟩
    subUnlockedCoins acc addr rest (b.setBalance addr c.denom (balance - c.amount))

def addCoins (addr : Bytes) : Coins → Bank → Bank
  | [], b => b
  | c :: rest, b =>
    addCoins addr rest (b.setBalance addr c.denom (b.getBalance addr c.denom + c.amount))

def sendCoins (acc : Accounts) (fromAddr toAddr : Bytes) (amt : Coins) (b : Bank) :
    Result Bank := do
  ensure amt.isValid ⟨.invalidCoins, ""⟩
  let b ← subUnlockedCoins acc fromAddr amt b
  return addCoins toAddr amt b

def sendCoinsFromModuleToAccount (acc : Accounts) (senderModule : ModuleName) (recipient : Bytes)
    (amt : Coins) (b : Bank) : Result Bank := do
  ensure (acc.blockedAddr recipient = false) ⟨.sdkUnauthorized, "is not allowed to receive funds"⟩
  sendCoins acc (acc.moduleAddress senderModule) recipient amt b

def sendCoinsFromAccountToModule (acc : Accounts) (sender : Bytes) (recipientModule : ModuleName)
    (amt : Coins) (b : Bank) : Result Bank :=
  sendCoins acc sender (acc.moduleAddress recipientModule) amt b

def sendCoinsFromModuleToModule (acc : Accounts) (senderModule recipientModule : ModuleName)
    (amt : Coins) (b : Bank) : Result Bank :=
  sendCoins acc (acc.moduleAddress senderModule) (acc.moduleAddress recipientModule) amt b

def increaseSupply : Coins → Bank → Bank
  | [], b => b
  | c :: rest, b => increaseSupply rest (b.setSupply c.denom (b.getSupply c.denom + c.amount))

/-- A supply never becomes negative: the subtraction panics instead. -/
def decreaseSupply : Coins → Bank → Result Bank
  | [], b => .ok b
  | c :: rest, b => do
    ensure (c.amount ≤ b.getSupply c.denom) ⟨.outOfRange, "negative coin amount"⟩
    decreaseSupply rest (b.setSupply c.denom (b.getSupply c.denom - c.amount))

def mintCoins (acc : Accounts) (m : ModuleName) (amt : Coins) (b : Bank) : Result Bank := do
  ensure (m.isMinter = true)
    ⟨.sdkUnauthorized, "module account does not have permissions to mint tokens"⟩
  ensure amt.isValid ⟨.invalidCoins, ""⟩
  return increaseSupply amt (addCoins (acc.moduleAddress m) amt b)

def burnCoins (acc : Accounts) (m : ModuleName) (amt : Coins) (b : Bank) : Result Bank := do
  ensure (m.isBurner = true)
    ⟨.sdkUnauthorized, "module account does not have permissions to burn tokens"⟩
  ensure amt.isValid ⟨.invalidCoins, ""⟩
  let b ← subUnlockedCoins acc (acc.moduleAddress m) amt b
  decreaseSupply amt b

/-! ## Reading back single writes -/

theorem getSupply_setBalance (b : Bank) (addr denom d : Bytes) (x : Int) :
    (b.setBalance addr denom x).getSupply d = b.getSupply d := rfl

theorem getBalance_setSupply (b : Bank) (denom addr d : Bytes) (x : Int) :
    (b.setSupply denom x).getBalance addr d = b.getBalance addr d := rfl

theorem getSupply_setSupply (b : Bank) (denom d : Bytes) (x : Int) :
    (b.setSupply denom x).getSupply d = if denom = d then x else b.getSupply d := by
  unfold getSupply setSupply OrdMap.getD
  by_cases hx : x = 0
  · simp only [if_pos hx, OrdMap.get?_erase]
    split
    · simp [hx]
    · rfl
  · simp only [if_neg hx, OrdMap.get?_put]
    split
    · rfl
    · rfl

theorem getBalance_setBalance (b : Bank) (addr denom a d : Bytes) (x : Int) :
    (b.setBalance addr denom x).getBalance a d =
      if addr = a ∧ denom = d then x else b.getBalance a d := by
  have hkey : ((⟨addr, denom⟩ : BalanceKey) = ⟨a, d⟩) ↔ (addr = a ∧ denom = d) := by simp
  unfold getBalance setBalance OrdMap.getD
  by_cases hx : x = 0
  · simp only [if_pos hx, OrdMap.get?_erase, hkey]
    split
    · simp [hx]
    · rfl
  · simp only [if_neg hx, OrdMap.get?_put, hkey]
    split
    · rfl
    · rfl

/-! ## Supply laws -/

theorem subUnlockedCoins_supply {addr : Bytes} (h : subUnlockedCoins acc addr amt b = .ok b')
    (d : Bytes) :
    b'.getSupply d = b.getSupply d := by
  induction amt generalizing b with
  | nil =>
    cases h
    rfl
  | cons c rest ih =>
    simp only [subUnlockedCoins, bind_eq_ok, ensure_eq_ok, exists_const] at h
    obtain ⟨-, -, hrest⟩ := h
    rw [ih hrest, getSupply_setBalance]

theorem addCoins_supply (addr : Bytes) (amt : Coins) (b : Bank) (d : Bytes) :
    (addCoins addr amt b).getSupply d = b.getSupply d := by
  induction amt generalizing b with
  | nil => rfl
  | cons c rest ih =>
    simp only [addCoins]
    rw [ih, getSupply_setBalance]

/-- A send changes no supply. -/
theorem sendCoins_supply {fromAddr toAddr : Bytes}
    (h : sendCoins acc fromAddr toAddr amt b = .ok b') (d : Bytes) :
    b'.getSupply d = b.getSupply d := by
  simp only [sendCoins, bind_eq_ok, ensure_eq_ok, exists_const, pure_eq_ok] at h
  obtain ⟨-, b₁, hsub, rfl⟩ := h
  rw [addCoins_supply, subUnlockedCoins_supply hsub]

theorem sendCoinsFromModuleToAccount_supply
    (h : sendCoinsFromModuleToAccount acc m recipient amt b = .ok b')
    (d : Bytes) : b'.getSupply d = b.getSupply d := by
  simp only [sendCoinsFromModuleToAccount, bind_eq_ok, ensure_eq_ok, exists_const] at h
  exact sendCoins_supply h.2 d

theorem amountOf_cons (c : Coin) (rest : Coins) (d : Bytes) :
    Coins.amountOf (c :: rest) d = if c.denom = d then c.amount else Coins.amountOf rest d := by
  unfold Coins.amountOf
  by_cases h : c.denom = d
  · simp [h]
  · simp [h]

theorem amountOf_eq_zero {d : Bytes} (h : ∀ c ∈ amt, c.denom ≠ d) :
    amt.amountOf d = 0 := by
  induction amt with
  | nil => rfl
  | cons c rest ih =>
    rw [amountOf_cons, if_neg (h c List.mem_cons_self)]
    exact ih fun c hc => h c (List.mem_cons_of_mem _ hc)

/-- In valid coins the denomination of the head does not occur again. -/
theorem isValid_cons {rest : Coins} (h : Coins.isValid (c :: rest)) :
    Coins.isValid rest ∧ rest.amountOf c.denom = 0 := by
  obtain ⟨hpos, hord⟩ := h
  obtain ⟨hhead, htail⟩ := List.pairwise_cons.1 hord
  refine ⟨⟨fun c hc => hpos c (List.mem_cons_of_mem _ hc), htail⟩, ?_⟩
  exact amountOf_eq_zero fun e he => ne_of_gt (hhead e he)

theorem amountOf_nonneg (hv : amt.isValid) (d : Bytes) : 0 ≤ amt.amountOf d := by
  induction amt with
  | nil => exact le_refl 0
  | cons c rest ih =>
    rw [amountOf_cons]
    split
    · exact (hv.1 c List.mem_cons_self).le
    · exact ih (isValid_cons hv).1

/-- A coin of valid coins is what they hold of its denomination. -/
theorem amountOf_mem (hv : amt.isValid) (hc : c ∈ amt) :
    amt.amountOf c.denom = c.amount := by
  induction amt with
  | nil => cases hc
  | cons a rest ih =>
    rw [amountOf_cons]
    rcases List.mem_cons.1 hc with rfl | hrest
    · rw [if_pos rfl]
    · have hne : a.denom ≠ c.denom := ne_of_lt ((List.pairwise_cons.1 hv.2).1 c hrest)
      rw [if_neg hne]
      exact ih (isValid_cons hv).1 hrest

/-- Taking a denomination out of valid coins leaves none of it. -/
theorem amountOf_sub_eq_zero {ds : Coins} (hv : amt.isValid) {d : Bytes}
    (hd : ds.amountOf d = amt.amountOf d) : (amt.sub ds).amountOf d = 0 := by
  apply amountOf_eq_zero
  intro c hc hcd
  obtain ⟨hmap, hne⟩ := List.mem_filter.1 hc
  obtain ⟨a, ha, rfl⟩ := List.mem_map.1 hmap
  have hamt := amountOf_mem hv ha
  have had : a.denom = d := hcd
  simp only [had, hd, decide_eq_true_eq] at hne hamt
  exact hne (by omega)

theorem increaseSupply_supply (hv : amt.isValid) (b : Bank) (d : Bytes) :
    (increaseSupply amt b).getSupply d = b.getSupply d + amt.amountOf d := by
  induction amt generalizing b with
  | nil => simp [increaseSupply, Coins.amountOf]
  | cons c rest ih =>
    obtain ⟨hrest, hzero⟩ := isValid_cons hv
    simp only [increaseSupply]
    rw [ih hrest, getSupply_setSupply, amountOf_cons]
    split
    · rename_i hd
      rw [← hd, hzero]
      omega
    · rfl

theorem decreaseSupply_supply (hv : amt.isValid) (h : decreaseSupply amt b = .ok b') (d : Bytes) :
    b'.getSupply d = b.getSupply d - amt.amountOf d := by
  induction amt generalizing b with
  | nil =>
    cases h
    simp [Coins.amountOf]
  | cons c rest ih =>
    obtain ⟨hrest, hzero⟩ := isValid_cons hv
    simp only [decreaseSupply, bind_eq_ok, ensure_eq_ok, exists_const] at h
    obtain ⟨-, h⟩ := h
    rw [ih hrest h, getSupply_setSupply, amountOf_cons]
    split
    · rename_i hd
      rw [← hd, hzero]
      omega
    · rfl

theorem decreaseSupply_le (hv : amt.isValid) (h : decreaseSupply amt b = .ok b') (d : Bytes)
    (hd : 0 < amt.amountOf d) :
    amt.amountOf d ≤ b.getSupply d := by
  induction amt generalizing b with
  | nil => exact absurd hd (by simp [Coins.amountOf])
  | cons c rest ih =>
    obtain ⟨hrest, -⟩ := isValid_cons hv
    simp only [decreaseSupply, bind_eq_ok, ensure_eq_ok, exists_const] at h
    obtain ⟨hle, h⟩ := h
    rw [amountOf_cons] at hd ⊢
    split
    · rename_i heq
      exact heq ▸ hle
    · rename_i hne
      rw [if_neg hne] at hd
      have hstep := ih hrest h hd
      rwa [getSupply_setSupply, if_neg hne] at hstep

/-- A mint raises each supply by exactly the coins minted. -/
theorem mintCoins_supply (h : mintCoins acc m amt b = .ok b') (d : Bytes) :
    b'.getSupply d = b.getSupply d + amt.amountOf d := by
  simp only [mintCoins, bind_eq_ok, ensure_eq_ok, exists_const, pure_eq_ok] at h
  obtain ⟨-, hv, rfl⟩ := h
  rw [increaseSupply_supply hv, addCoins_supply]

/-- A burn lowers each supply by exactly the coins burned. -/
theorem burnCoins_supply (h : burnCoins acc m amt b = .ok b') (d : Bytes) :
    b'.getSupply d = b.getSupply d - amt.amountOf d := by
  simp only [burnCoins, bind_eq_ok, ensure_eq_ok, exists_const] at h
  obtain ⟨-, hv, b₁, hsub, hdec⟩ := h
  rw [decreaseSupply_supply hv hdec, subUnlockedCoins_supply hsub]

/-- A burn never takes more of a denomination than its supply. -/
theorem burnCoins_le_supply (h : burnCoins acc m amt b = .ok b') (d : Bytes)
    (hd : 0 < amt.amountOf d) :
    amt.amountOf d ≤ b.getSupply d := by
  simp only [burnCoins, bind_eq_ok, ensure_eq_ok, exists_const] at h
  obtain ⟨-, hv, b₁, hsub, hdec⟩ := h
  have hle := decreaseSupply_le hv hdec d hd
  rwa [subUnlockedCoins_supply hsub] at hle

/-! ## Successful operations on a single coin -/

/-- No balance is negative. -/
def BalancesNonneg (b : Bank) : Prop := ∀ addr denom, 0 ≤ b.getBalance addr denom

/-- What an account may spend of a denomination. -/
def spendable (acc : Accounts) (b : Bank) (addr denom : Bytes) : Int :=
  b.getBalance addr denom - acc.locked addr denom

theorem isValid_singleton (h : 0 < c.amount) : Coins.isValid [c] :=
  ⟨by simpa using h, List.pairwise_singleton _ _⟩

theorem subUnlockedCoins_single {addr : Bytes} (hpos : 0 < c.amount)
    (h : c.amount ≤ spendable acc b addr c.denom) :
    subUnlockedCoins acc addr [c] b =
      .ok (b.setBalance addr c.denom (b.getBalance addr c.denom - c.amount)) := by
  unfold spendable at h
  simp only [subUnlockedCoins, bind_eq_ok, ensure_eq_ok, exists_const]
  exact ⟨by omega, h, trivial⟩

/-- A send of one coin moves its amount from the sender to the recipient. -/
theorem sendCoins_balance {sender : Bytes} (h : sendCoins acc sender recipient [c] b = .ok b')
    (addr : Bytes) :
    b'.getBalance addr c.denom = b.getBalance addr c.denom -
      (if sender = addr then c.amount else 0) + (if recipient = addr then c.amount else 0) := by
  simp only [sendCoins, subUnlockedCoins, bind_eq_ok, ensure_eq_ok, exists_const, pure_eq_ok] at h
  obtain ⟨-, b₁, ⟨-, -, hsub⟩, rfl⟩ := h
  cases hsub
  simp only [addCoins, getBalance_setBalance, and_true]
  by_cases hr : recipient = addr
  · subst hr
    by_cases hs : sender = recipient
    · subst hs
      simp
    · simp [hs]
  · by_cases hs : sender = addr
    · subst hs
      simp [hr]
    · simp [hr, hs]

/-- Sending a positive amount of spendable coin succeeds. -/
theorem sendCoins_single {sender : Bytes} (recipient : Bytes) (hpos : 0 < c.amount)
    (h : c.amount ≤ spendable acc b sender c.denom) :
    ∃ b', sendCoins acc sender recipient [c] b = .ok b' ∧
      (∀ d, b'.getSupply d = b.getSupply d) ∧
      ∀ addr, b'.getBalance addr c.denom = b.getBalance addr c.denom -
        (if sender = addr then c.amount else 0) + (if recipient = addr then c.amount else 0) := by
  have hsend : sendCoins acc sender recipient [c] b = .ok (addCoins recipient [c]
      (b.setBalance sender c.denom (b.getBalance sender c.denom - c.amount))) := by
    simp only [sendCoins, bind_eq_ok, ensure_eq_ok, exists_const]
    exact ⟨isValid_singleton hpos, _, subUnlockedCoins_single hpos h, rfl⟩
  exact ⟨_, hsend, fun d => sendCoins_supply hsend d, fun addr => sendCoins_balance hsend addr⟩

/-- Burning a positive amount within the module's balance and the supply succeeds. -/
theorem burnCoins_single (hm : m.isBurner = true) (hpos : 0 < c.amount)
    (hbalance : c.amount ≤ b.getBalance (acc.moduleAddress m) c.denom)
    (hsupply : c.amount ≤ b.getSupply c.denom) : ∃ b', burnCoins acc m [c] b = .ok b' := by
  have hspendable : c.amount ≤ spendable acc b (acc.moduleAddress m) c.denom := by
    unfold spendable
    rw [acc.locked_module]
    omega
  simp only [burnCoins, decreaseSupply, bind_eq_ok, ensure_eq_ok, exists_const]
  exact ⟨_, hm, isValid_singleton hpos, _, subUnlockedCoins_single hpos hspendable, hsupply, rfl⟩

end Bank

end PhiChain.Sdk
