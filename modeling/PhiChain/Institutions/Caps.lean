import PhiChain.Institutions.Sweeps

/-!
# Daily cap counters

The caps of a day are kept in five families of counters: mints and redemptions of an
institution, mints and redemptions of an account at an institution, and redemptions of a
subject across institutions. A `Meter` names one counter of them without its day.

The keys are concatenations of fields. Institution ids have at most 255 bytes, so a key gives
back its id, its kind, its day and its account (`counterUserKey_inj`), and what the sweeps
delete is older than the day they run on (`read_pruneStaleCounters`). A mint or a redemption
changes the meters it is charged to and no other (`read_addMintCounters`,
`read_addRedeemCounters`).
-/

set_option autoImplicit false

namespace PhiChain.Institutions

open Foundations Sdk

variable {D : Type} [LinearOrder D]

/-! ## Keys -/

/-- A day since 1970 that has a 64-bit number. -/
def IsDay (day : Int) : Prop := 0 ≤ day ∧ day < 2 ^ 63

variable {day toman uphi : Int} {ctx : Ctx} {inst : Institution} {s s' : Store D}

theorem IsDay.inInt64 (h : IsDay day) : InInt64 day := by
  obtain ⟨hlow, hhigh⟩ := h
  constructor <;> omega

theorem length_i64be (v : Int) : (i64be v).length = 8 := length_bigEndian 8 _

theorem ofI64be_i64be (h : InInt64 day) : ofI64be (i64be day) = day := by
  have hnat : ofBigEndian (i64be day) = (day % 2 ^ 64).toNat := by
    unfold i64be
    rw [ofBigEndian_bigEndian]
    refine Nat.mod_eq_of_lt ?_
    have hwidth : 256 ^ 8 = 18446744073709551616 := by decide
    omega
  obtain ⟨hlow, hhigh⟩ := h
  unfold ofI64be
  rw [hnat]
  split <;> omega

theorem i64be_inj {day' : Int} (h : IsDay day) (h' : IsDay day') (heq : i64be day = i64be day') :
    day = day' := by
  rw [← ofI64be_i64be h.inInt64, heq, ofI64be_i64be h'.inInt64]

section Keys

variable {id id' kind kind' account account' : Bytes} {day' : Int}

theorem counterUserKey_eq (id kind : Bytes) (day : Int) (account : Bytes) :
    counterUserKey id kind day account =
      (0x40 : Byte) :: (bytePrefixed id ++ (bytePrefixed kind ++ (i64be day ++ account))) := by
  unfold counterUserKey counterTotalKey
  rw [List.cons_append, List.append_assoc, List.append_assoc]

theorem counterTotalKey_eq (id kind : Bytes) (day : Int) :
    counterTotalKey id kind day = counterUserKey id kind day [] := (List.append_nil _).symm

/-- The fields of a counter key, the day as its eight bytes. -/
theorem counterUserKey_inj (hid : id.length ≤ maxInstitutionIDLen)
    (hid' : id'.length ≤ maxInstitutionIDLen) (hkind : kind.length < 256)
    (hkind' : kind'.length < 256)
    (h : counterUserKey id kind day account = counterUserKey id' kind' day' account') :
    id = id' ∧ kind = kind' ∧ i64be day = i64be day' ∧ account = account' := by
  rw [counterUserKey_eq, counterUserKey_eq] at h
  have hmax : maxInstitutionIDLen = 255 := rfl
  obtain ⟨hsame, hfields⟩ := bytePrefixed_append_inj (by omega) (by omega) (List.cons.inj h).2
  obtain ⟨hsame', hrest⟩ := bytePrefixed_append_inj hkind hkind' hfields
  obtain ⟨hday, haccount⟩ := List.append_inj hrest (by rw [length_i64be, length_i64be])
  exact ⟨hsame, hsame', hday, haccount⟩

theorem takeByteField_append (hkind : kind.length < 256) (rest : Bytes) :
    takeByteField (bytePrefixed kind ++ rest) = some (kind, rest) := by
  have hlen : (Fin.ofNat 256 kind.length).val = kind.length := Nat.mod_eq_of_lt hkind
  unfold bytePrefixed
  rw [List.cons_append]
  unfold takeByteField
  dsimp only
  rw [hlen, if_pos (by rw [List.length_append]; omega), List.take_left, List.drop_left]

/-- The sweep reads the kind that a key was made of, and the eight bytes of its day. -/
theorem parseCounterKeyDay_fields (hid : id.length ≤ maxInstitutionIDLen)
    (hkind : kind.length < 256) (day : Int) (account : Bytes) :
    parseCounterKeyDay (counterUserKey id kind day account) = some (kind, ofI64be (i64be day)) := by
  have hmax : maxInstitutionIDLen = 255 := rfl
  have htake : (i64be day ++ account).take 8 = i64be day := by
    rw [← length_i64be day]
    exact List.take_left
  rw [counterUserKey_eq]
  unfold parseCounterKeyDay
  dsimp only
  rw [if_pos rfl, takeByteField_append (by omega)]
  simp only [Option.bind_eq_bind, Option.bind_some]
  rw [takeByteField_append hkind]
  simp only [Option.bind_some]
  rw [if_pos (by rw [List.length_append, length_i64be]; omega), htake]

theorem parseCounterKeyDay_key (hid : id.length ≤ maxInstitutionIDLen) (hkind : kind.length < 256)
    (hday : InInt64 day) :
    parseCounterKeyDay (counterUserKey id kind day account) = some (kind, day) := by
  rw [parseCounterKeyDay_fields hid hkind, ofI64be_i64be hday]

/-- The emergency counters are none of those the sweep may delete. -/
theorem isStaleCounter_emergency (hid : id.length ≤ maxInstitutionIDLen) (staleBefore day : Int)
    (account : Bytes) : isStaleCounter staleBefore (counterUserKey id kindEmergency day account) =
      false := by
  have hkind : isPrunableCounterKind kindEmergency = false := by decide
  have hlength : kindEmergency.length < 256 := by decide
  unfold isStaleCounter
  rw [parseCounterKeyDay_fields hid hlength]
  simp [hkind]

theorem redeemSubjectCounterKey_inj {k k' : Byte} {subject subject' : Bytes}
    (h : redeemSubjectCounterKey day k subject = redeemSubjectCounterKey day' k' subject') :
    i64be day = i64be day' ∧ k = k' ∧ subject = subject' := by
  obtain ⟨hday, hrest⟩ := List.append_inj (List.cons.inj h).2 (by rw [length_i64be, length_i64be])
  obtain ⟨rfl, rfl⟩ := List.cons.inj hrest
  exact ⟨hday, rfl, rfl⟩

end Keys

/-! ## Meters -/

/-- One counter of the daily caps, without its day. -/
inductive Meter where
  | mintDaily (institution : Bytes)
  | mintUser (institution account : Bytes)
  | redeemDaily (institution : Bytes)
  | redeemUser (institution account : Bytes)
  | redeemSubject (kind : Byte) (subject : Bytes)
  deriving DecidableEq

/-- An executed mint or redemption; the subject of a redemption is the bucket of its holder. -/
inductive Entry where
  | mint (institution account : Bytes) (toman : Int)
  | redeem (institution account : Bytes) (subject : Byte × Bytes) (toman uphi : Int)

namespace Meter

/-- The counter that is stored for a day. -/
def read (s : Store D) (day : Int) : Meter → Int
  | .mintDaily id => s.getCounter (counterTotalKey id kindMintDaily day)
  | .mintUser id account => s.getCounter (counterUserKey id kindMintUser day account)
  | .redeemDaily id => s.getCounter (counterTotalKey id kindRedeemDaily day)
  | .redeemUser id account => s.getCounter (counterUserKey id kindRedeemUser day account)
  | .redeemSubject kind subject => s.getRedeemSubjectTotal day kind subject

/-- What an entry adds to a meter. -/
def amount : Meter → Entry → Int
  | .mintDaily id, .mint id' _ toman => if id = id' then toman else 0
  | .mintUser id account, .mint id' account' toman =>
    if id = id' ∧ account = account' then toman else 0
  | .redeemDaily id, .redeem id' _ _ toman _ => if id = id' then toman else 0
  | .redeemUser id account, .redeem id' account' _ toman _ =>
    if id = id' ∧ account = account' then toman else 0
  | .redeemSubject kind subject, .redeem _ _ subject' _ uphi =>
    if (kind, subject) = subject' then uphi else 0
  | _, _ => 0

/-- The id is one that an institution may have. -/
def Named : Meter → Prop
  | .mintDaily id => id.length ≤ maxInstitutionIDLen
  | .mintUser id _ => id.length ≤ maxInstitutionIDLen
  | .redeemDaily id => id.length ≤ maxInstitutionIDLen
  | .redeemUser id _ => id.length ≤ maxInstitutionIDLen
  | .redeemSubject _ _ => True

/-- Id, kind and account of a cap counter; the subjects have a keyspace of their own. -/
def fields : Meter → Option (Bytes × Bytes × Bytes)
  | .mintDaily id => some (id, kindMintDaily, [])
  | .mintUser id account => some (id, kindMintUser, account)
  | .redeemDaily id => some (id, kindRedeemDaily, [])
  | .redeemUser id account => some (id, kindRedeemUser, account)
  | .redeemSubject _ _ => none

variable {m : Meter} {id kind account : Bytes} {today amt : Int}

theorem read_of_fields (h : m.fields = some (id, kind, account)) (s : Store D) (day : Int) :
    m.read s day = s.getCounter (counterUserKey id kind day account) := by
  cases m with
  | mintDaily | redeemDaily => cases h; exact congrArg s.getCounter (counterTotalKey_eq _ _ _)
  | mintUser | redeemUser => cases h; rfl
  | redeemSubject => cases h

theorem short_of_fields (hm : m.Named) (h : m.fields = some (id, kind, account)) :
    id.length ≤ maxInstitutionIDLen ∧ kind.length < 256 := by
  cases m with
  | mintDaily | mintUser | redeemDaily | redeemUser => cases h; exact ⟨hm, by decide⟩
  | redeemSubject => cases h

/-- The meters are in two keyspaces. -/
theorem read_of_get? (hcounters : ∀ key, s'.counters.get? key = s.counters.get? key)
    (hsubjects : ∀ key, s'.redeemSubjects.get? key = s.redeemSubjects.get? key) (m : Meter)
    (day : Int) : m.read s' day = m.read s day := by
  cases m with
  | redeemSubject kind subject =>
    unfold read Store.getRedeemSubjectTotal OrdMap.getD
    dsimp only
    rw [hsubjects]
  | _ =>
    unfold read Store.getCounter OrdMap.getD
    dsimp only
    rw [hcounters]

theorem read_congr (hcounters : s'.counters = s.counters)
    (hsubjects : s'.redeemSubjects = s.redeemSubjects) (m : Meter) (day : Int) :
    m.read s' day = m.read s day := by
  refine read_of_get? (fun key => ?_) (fun key => ?_) m day
  · rw [hcounters]
  · rw [hsubjects]

end Meter

theorem getCounter_addCounter (s : Store D) (key key' : Bytes) {amt : Int} (hamt : 0 ≤ amt) :
    (s.addCounter key amt).getCounter key' =
      s.getCounter key' + if key = key' then amt else 0 := by
  have hnonneg := s.getCounter_nonneg key
  unfold Store.addCounter
  by_cases hkey : key = key'
  · subst hkey
    rw [if_pos rfl]
    unfold Store.getCounter OrdMap.getD at hnonneg ⊢
    dsimp only
    rw [OrdMap.get?_put_self, Option.getD_some]
    omega
  · rw [if_neg hkey, Int.add_zero]
    unfold Store.getCounter OrdMap.getD
    dsimp only
    rw [OrdMap.get?_put_ne _ _ hkey]

theorem getRedeemSubjectTotal_add (s : Store D) {today : Int} (hday : IsDay day)
    (htoday : IsDay today) (k k' : Byte) (subject subject' : Bytes) (huphi : 0 ≤ uphi) :
    (s.addRedeemSubjectTotal today k subject uphi).getRedeemSubjectTotal day k' subject' =
      s.getRedeemSubjectTotal day k' subject' +
        if day = today ∧ (k', subject') = (k, subject) then uphi else 0 := by
  have hnonneg : 0 ≤ s.getRedeemSubjectTotal today k subject := Int.natCast_nonneg _
  unfold Store.addRedeemSubjectTotal
  by_cases hsame : day = today ∧ (k', subject') = (k, subject)
  · obtain ⟨rfl, hpair⟩ := hsame
    obtain ⟨rfl, rfl⟩ := Prod.mk.inj hpair
    rw [if_pos ⟨rfl, rfl⟩]
    unfold Store.getRedeemSubjectTotal OrdMap.getD at hnonneg ⊢
    dsimp only
    rw [OrdMap.get?_put_self, Option.getD_some]
    omega
  · rw [if_neg hsame, Int.add_zero]
    have hkey : redeemSubjectCounterKey today k subject ≠ redeemSubjectCounterKey day k' subject' := by
      intro heq
      obtain ⟨hdays, rfl, rfl⟩ := redeemSubjectCounterKey_inj heq
      exact hsame ⟨(i64be_inj htoday hday hdays).symm, rfl⟩
    unfold Store.getRedeemSubjectTotal OrdMap.getD
    dsimp only
    rw [OrdMap.get?_put_ne _ _ hkey]

/-! ## Charges -/

namespace Meter

variable {m : Meter} {id kind account : Bytes} {today amt : Int}

theorem read_addCounter_self (h : m.fields = some (id, kind, account)) (hm : m.Named)
    (hday : IsDay day) (htoday : IsDay today) (hamt : 0 ≤ amt) :
    m.read (s.addCounter (counterUserKey id kind today account) amt) day =
      m.read s day + if day = today then amt else 0 := by
  rw [read_of_fields h, read_of_fields h, getCounter_addCounter _ _ _ hamt]
  congr 1
  by_cases hsame : day = today
  · rw [hsame, if_pos rfl, if_pos rfl]
  · rw [if_neg hsame, if_neg]
    intro hkey
    obtain ⟨hid, hkind⟩ := short_of_fields hm h
    obtain ⟨-, -, hdays, -⟩ := counterUserKey_inj hid hid hkind hkind hkey
    exact hsame (i64be_inj hday htoday hdays.symm)

/-- A counter with another id, kind or account. -/
theorem read_addCounter_other (h : m.fields ≠ some (id, kind, account)) (hm : m.Named)
    (hid : id.length ≤ maxInstitutionIDLen) (hkind : kind.length < 256) (hamt : 0 ≤ amt) :
    m.read (s.addCounter (counterUserKey id kind today account) amt) day = m.read s day := by
  cases hfields : m.fields with
  | none =>
    cases m with
    | redeemSubject kind subject => rfl
    | _ => cases hfields
  | some f =>
    obtain ⟨id', kind', account'⟩ := f
    rw [read_of_fields hfields, read_of_fields hfields, getCounter_addCounter _ _ _ hamt, if_neg,
      Int.add_zero]
    intro hkey
    obtain ⟨hid', hkind'⟩ := short_of_fields hm hfields
    obtain ⟨rfl, rfl, -, rfl⟩ := counterUserKey_inj hid hid' hkind hkind' hkey
    exact h hfields

theorem read_addCounter (hm : m.Named) (hid : id.length ≤ maxInstitutionIDLen)
    (hkind : kind.length < 256) (hday : IsDay day) (htoday : IsDay today) (hamt : 0 ≤ amt) :
    m.read (s.addCounter (counterUserKey id kind today account) amt) day =
      m.read s day + if day = today ∧ m.fields = some (id, kind, account) then amt else 0 := by
  by_cases hfields : m.fields = some (id, kind, account)
  · rw [read_addCounter_self hfields hm hday htoday hamt]
    simp only [hfields, and_true]
  · rw [read_addCounter_other hfields hm hid hkind hamt, if_neg (fun hand => hfields hand.2),
      Int.add_zero]

theorem read_addRedeemSubjectTotal {k : Byte} {subject : Bytes} (hday : IsDay day)
    (htoday : IsDay today) (huphi : 0 ≤ uphi) :
    m.read (s.addRedeemSubjectTotal today k subject uphi) day =
      m.read s day + if day = today ∧ m = .redeemSubject k subject then uphi else 0 := by
  cases m with
  | redeemSubject k' subject' =>
    refine (getRedeemSubjectTotal_add s hday htoday k k' subject subject' huphi).trans ?_
    simp only [Prod.mk.injEq, redeemSubject.injEq]
    rfl
  | _ =>
    simp only [reduceCtorEq, and_false, if_false, Int.add_zero]
    rfl

end Meter

variable {m : Meter}

/-- A mint is charged to its institution and to its recipient there. -/
theorem read_addMintCounters {recipient : Bytes} (hm : m.Named)
    (hid : inst.id.length ≤ maxInstitutionIDLen) (hday : IsDay day) (htoday : IsDay ctx.dayIndex)
    (htoman : 0 ≤ toman) :
    m.read (addMintCounters ctx s inst recipient toman) day =
      m.read s day + if day = ctx.dayIndex then m.amount (.mint inst.id recipient toman) else 0 := by
  have hdaily : kindMintDaily.length < 256 := by decide
  have huser : kindMintUser.length < 256 := by decide
  unfold addMintCounters
  dsimp only
  rw [Meter.read_addCounter hm hid huser hday htoday htoman, counterTotalKey_eq,
    Meter.read_addCounter hm hid hdaily hday htoday htoman, Int.add_assoc]
  congr 1
  by_cases hsame : day = ctx.dayIndex
  · have hkinds : kindMintDaily ≠ kindMintUser := by decide
    have hredeem : kindRedeemDaily ≠ kindMintDaily ∧ kindRedeemDaily ≠ kindMintUser ∧
        kindRedeemUser ≠ kindMintDaily ∧ kindRedeemUser ≠ kindMintUser := by decide
    cases m with
    | mintDaily id => simp [Meter.fields, Meter.amount, hsame, hkinds]
    | mintUser id account => simp [Meter.fields, Meter.amount, hsame, hkinds.symm]
    | redeemDaily | redeemUser => simp [Meter.fields, Meter.amount, hsame, hredeem]
    | redeemSubject kind subject => simp [Meter.fields, Meter.amount]
  · simp [hsame]

/-- A redemption is charged to its institution, to its holder there and to the holder's
subject; the emergency counter is none of the daily ones. -/
theorem read_addRedeemCounters {holder : Bytes} (hm : m.Named)
    (hid : inst.id.length ≤ maxInstitutionIDLen) (hday : IsDay day) (htoday : IsDay ctx.dayIndex)
    (htoman : 0 ≤ toman) (huphi : 0 ≤ uphi) :
    m.read (addRedeemCounters ctx s inst holder toman uphi) day =
      m.read s day + if day = ctx.dayIndex then
        m.amount (.redeem inst.id holder (redeemSubject ctx holder) toman uphi) else 0 := by
  have hdaily : kindRedeemDaily.length < 256 := by decide
  have huser : kindRedeemUser.length < 256 := by decide
  have hemergency : kindEmergency.length < 256 := by decide
  have hnot : ∀ account, m.fields ≠ some (inst.id, kindEmergency, account) := by
    have hkinds : kindMintDaily ≠ kindEmergency ∧ kindMintUser ≠ kindEmergency ∧
        kindRedeemDaily ≠ kindEmergency ∧ kindRedeemUser ≠ kindEmergency := by decide
    intro account
    cases m with
    | redeemSubject kind subject => exact nofun
    | _ => simp [Meter.fields, hkinds]
  have hdrop : m.read (addRedeemCounters ctx s inst holder toman uphi) day =
      m.read (((s.addCounter (counterTotalKey inst.id kindRedeemDaily ctx.dayIndex) toman).addCounter
        (counterUserKey inst.id kindRedeemUser ctx.dayIndex holder) toman).addRedeemSubjectTotal
          ctx.dayIndex (redeemSubject ctx holder).1 (redeemSubject ctx holder).2 uphi) day := by
    unfold addRedeemCounters
    dsimp only
    split
    · exact Meter.read_addCounter_other (hnot holder) hm hid hemergency htoman
    · rfl
  rw [hdrop, Meter.read_addRedeemSubjectTotal hday htoday huphi,
    Meter.read_addCounter hm hid huser hday htoday htoman, counterTotalKey_eq,
    Meter.read_addCounter hm hid hdaily hday htoday htoman, Int.add_assoc, Int.add_assoc]
  congr 1
  by_cases hsame : day = ctx.dayIndex
  · have hkinds : kindRedeemDaily ≠ kindRedeemUser := by decide
    have hmint : kindMintDaily ≠ kindRedeemDaily ∧ kindMintDaily ≠ kindRedeemUser ∧
        kindMintUser ≠ kindRedeemDaily ∧ kindMintUser ≠ kindRedeemUser := by decide
    cases m with
    | mintDaily | mintUser => simp [Meter.fields, Meter.amount, hsame, hmint]
    | redeemDaily id => simp [Meter.fields, Meter.amount, hsame, hkinds]
    | redeemUser id account => simp [Meter.fields, Meter.amount, hsame, hkinds.symm]
    | redeemSubject kind subject => simp [Meter.fields, Meter.amount, hsame, Prod.ext_iff]
  · simp [hsame]

/-! ## Sweeps -/

section Sweeps

variable {staleBefore : Int}

/-- The sweep of the cap counters leaves the days from its bound on. -/
theorem read_pruneCounterPrefix (hm : m.Named) (hday : IsDay day) (hlive : staleBefore ≤ day) :
    m.read (pruneCounterPrefix staleBefore s) day = m.read s day := by
  cases hfields : m.fields with
  | none =>
    cases m with
    | redeemSubject kind subject => rfl
    | _ => cases hfields
  | some f =>
    obtain ⟨id, kind, account⟩ := f
    obtain ⟨hid, hkind⟩ := Meter.short_of_fields hm hfields
    have hkept : isStaleCounter staleBefore (counterUserKey id kind day account) = false := by
      unfold isStaleCounter
      rw [parseCounterKeyDay_key hid hkind hday.inInt64]
      exact decide_eq_false fun hstale => absurd hstale.2 (not_lt.2 hlive)
    rw [Meter.read_of_fields hfields, Meter.read_of_fields hfields]
    unfold Store.getCounter OrdMap.getD pruneCounterPrefix
    dsimp only
    rw [OrdMap.get?_eraseAll_of_not_mem]
    intro hmem
    rw [(List.mem_filter.1 hmem).2] at hkept
    cases hkept

/-- So does the sweep of the redeem subjects, whose keys start with the day. -/
theorem read_pruneRedeemSubjectCounters (hday : IsDay day) (hbound : 0 ≤ staleBefore)
    (hlive : staleBefore ≤ day) :
    m.read (pruneRedeemSubjectCounters staleBefore s) day = m.read s day := by
  cases m with
  | redeemSubject kind subject =>
    have hbytes : (staleBefore % 2 ^ 64).toNat % 256 ^ 8 ≤ (day % 2 ^ 64).toNat % 256 ^ 8 := by
      have hwidth : 256 ^ 8 = 18446744073709551616 := by decide
      obtain ⟨hlow, hhigh⟩ := hday
      omega
    have horder : ¬ redeemSubjectCounterKey day kind subject < (0x80 : Byte) :: i64be staleBefore := by
      intro hless
      rcases List.cons_lt_cons_iff.1 hless with hfirst | ⟨-, hrest⟩
      · exact lt_irrefl _ hfirst
      · exact not_append_lt_bigEndian hbytes _ hrest
    unfold Meter.read Store.getRedeemSubjectTotal OrdMap.getD pruneRedeemSubjectCounters
    dsimp only
    rw [OrdMap.get?_eraseAll_of_not_mem]
    intro hmem
    have hless := (OrdMap.mem_keysWhere.1 (List.mem_of_mem_take hmem)).1
    exact horder (of_decide_eq_true hless)
  | _ => rfl

theorem read_pruneStaleCounters (hm : m.Named) (hday : IsDay day) (hlive : ctx.dayIndex ≤ day) :
    m.read (pruneStaleCounters ctx s) day = m.read s day := by
  unfold pruneStaleCounters
  dsimp only
  split
  · rfl
  · rename_i hpast
    have hretained : ctx.dayIndex - counterRetentionDays ≤ day := by
      unfold counterRetentionDays
      omega
    rw [read_pruneCounterPrefix hm hday hretained,
      read_pruneRedeemSubjectCounters hday (by omega) hretained]

theorem read_beginBlock (hm : m.Named) (hday : IsDay day) (hlive : ctx.dayIndex ≤ day) :
    m.read (beginBlock ctx s) day = m.read s day := by
  obtain ⟨roles, approvals, kycTiers, queue, hframe⟩ := beginBlock_frame ctx s
  rw [hframe]
  exact (Meter.read_congr rfl rfl m day).trans (read_pruneStaleCounters hm hday hlive)

end Sweeps

/-! ## Executed mints and redemptions -/

theorem read_mintStore {msg : MsgInstitutionMint} {plan : MintPlan} (hm : m.Named)
    (hid : plan.inst.id.length ≤ maxInstitutionIDLen) (hday : IsDay day)
    (htoday : IsDay ctx.dayIndex) (htoman : 0 ≤ plan.toman) :
    m.read (mintStore ctx msg plan s) day = m.read s day +
      if day = ctx.dayIndex then m.amount (.mint plan.inst.id plan.recipient plan.toman) else 0 := by
  calc m.read (mintStore ctx msg plan s) day
      = m.read (addMintCounters ctx (s.setInstitution
          { plan.inst with vaultBalance := plan.inst.vaultBalance + plan.toman }) plan.inst
            plan.recipient plan.toman) day := Meter.read_congr rfl rfl m day
    _ = _ := read_addMintCounters hm hid hday htoday htoman
    _ = _ := congrArg (· + _) (Meter.read_congr rfl rfl m day)

theorem read_redeemStore {msg : MsgInstitutionRedeem} {plan : RedeemPlan} {split : RedeemSplit}
    (hm : m.Named) (hid : plan.inst.id.length ≤ maxInstitutionIDLen) (hday : IsDay day)
    (htoday : IsDay ctx.dayIndex) (htoman : 0 ≤ plan.toman) (huphi : 0 ≤ plan.uphi) :
    m.read (redeemStore ctx msg plan split s) day = m.read s day +
      if day = ctx.dayIndex then
        m.amount (.redeem plan.inst.id plan.holder (redeemSubject ctx plan.holder) plan.toman
          plan.uphi) else 0 := by
  calc m.read (redeemStore ctx msg plan split s) day
      = m.read (addRedeemCounters ctx (s.setInstitution
          { plan.inst with vaultBalance := plan.inst.vaultBalance - split.tomanOut }) plan.inst
            plan.holder plan.toman plan.uphi) day := Meter.read_congr rfl rfl m day
    _ = _ := read_addRedeemCounters hm hid hday htoday htoman huphi
    _ = _ := congrArg (· + _) (Meter.read_congr rfl rfl m day)

/-- The counters after a mint are under the caps that were in force before it. -/
structure MintWithin (ctx : Ctx) (s s' : Store D) (inst : Institution) (recipient : Bytes)
    (kycTier : Nat) : Prop where
  ceiling : UnderCap (capInt s.params.mintCeilingDaily)
    ((Meter.mintDaily inst.id).read s' ctx.dayIndex)
  daily : UnderCap (capInt inst.params.caps.mintDaily)
    ((Meter.mintDaily inst.id).read s' ctx.dayIndex)
  perUser : UnderCap (capInt inst.params.caps.mintPerUser)
    ((Meter.mintUser inst.id recipient).read s' ctx.dayIndex)
  kyc : UnderCap (effectiveMintKycDailyLimit s inst recipient kycTier)
    ((Meter.mintUser inst.id recipient).read s' ctx.dayIndex)

/-- The counters after a redemption are under the caps, raised to the floor, that were in force
before it; the daily cap of the institution gives way to a subject that stays within one
floor. -/
structure RedeemWithin (ctx : Ctx) (s s' : Store D) (inst : Institution) (holder : Bytes) : Prop where
  daily : UnderCap (atLeastFloor (capInt inst.params.caps.redeemDaily)
        (capInt s.params.redeemFloorPerTx)) ((Meter.redeemDaily inst.id).read s' ctx.dayIndex) ∨
    (Meter.redeemSubject (redeemSubject ctx holder).1 (redeemSubject ctx holder).2).read s'
      ctx.dayIndex ≤ uphiForToman (capInt s.params.redeemFloorPerTx) s.params.phiToToman
  perUser : UnderCap (atLeastFloor (capInt inst.params.caps.redeemPerUser)
    (capInt s.params.redeemFloorPerTx)) ((Meter.redeemUser inst.id holder).read s' ctx.dayIndex)
  kyc : UnderCap (atLeastFloor (effectiveKycDailyLimit s inst holder)
    (capInt s.params.redeemFloorPerTx)) ((Meter.redeemUser inst.id holder).read s' ctx.dayIndex)
  subject : UnderCap (atLeastFloor (capInt s.params.redeemDailyCapPerDidUphi)
      (uphiForToman (capInt s.params.redeemFloorPerTx) s.params.phiToToman))
    ((Meter.redeemSubject (redeemSubject ctx holder).1 (redeemSubject ctx holder).2).read s'
      ctx.dayIndex)

theorem mintWithin_of_caps {recipient : Bytes} {kycTier : Nat}
    (h : enforceMintCaps ctx s inst recipient toman kycTier = .ok ())
    (hdaily : (Meter.mintDaily inst.id).read s' ctx.dayIndex =
      (Meter.mintDaily inst.id).read s ctx.dayIndex + toman)
    (huser : (Meter.mintUser inst.id recipient).read s' ctx.dayIndex =
      (Meter.mintUser inst.id recipient).read s ctx.dayIndex + toman) :
    MintWithin ctx s s' inst recipient kycTier := by
  simp only [enforceMintCaps, bind_eq_ok, ensure_eq_ok, exists_const] at h
  obtain ⟨-, hceiling, -, hcap, hperUser, hkyc⟩ := h
  constructor
  · rw [hdaily]
    exact hceiling
  · rw [hdaily]
    exact hcap
  · rw [huser]
    exact hperUser
  · rw [huser]
    exact hkyc

theorem redeemWithin_of_caps {holder : Bytes}
    (h : enforceRedeemCaps ctx s inst holder toman uphi = .ok ())
    (hdaily : (Meter.redeemDaily inst.id).read s' ctx.dayIndex =
      (Meter.redeemDaily inst.id).read s ctx.dayIndex + toman)
    (huser : (Meter.redeemUser inst.id holder).read s' ctx.dayIndex =
      (Meter.redeemUser inst.id holder).read s ctx.dayIndex + toman)
    (hsubject : (Meter.redeemSubject (redeemSubject ctx holder).1 (redeemSubject ctx holder).2).read
        s' ctx.dayIndex = subjectTotal ctx s holder + uphi) :
    RedeemWithin ctx s s' inst holder := by
  simp only [enforceRedeemCaps, bind_eq_ok, ensure_eq_ok, exists_const] at h
  obtain ⟨-, ⟨⟩, hcap, hperUser, hkyc, floorUphi, hfloorUphi, hperDid, -⟩ := h
  obtain ⟨-, rfl⟩ := s.params.redeemFloorUphi_ok.1 hfloorUphi
  constructor
  · rw [hdaily, hsubject]
    unfold enforceRedeemDaily at hcap
    split at hcap
    · rename_i hunder
      exact .inl hunder
    · simp only [bind_eq_ok, ensure_eq_ok] at hcap
      obtain ⟨reserved, hreserved, rfl⟩ := hcap
      exact .inr (withinFloorReservation_le hreserved)
  · rw [huser]
    exact hperUser
  · rw [huser]
    exact hkyc
  · rw [hsubject]
    exact hperDid

end PhiChain.Institutions
