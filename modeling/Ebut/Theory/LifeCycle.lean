import Ebut.Theory.Failure
import Ebut.Theory.Honest

/-!
# The Life of an Honest Token

A client mints a master token, refreshes it into a daily token and spends that in any
number of steps, each from the token that the step before finalised. The server accepts
every step exactly when none of its own guards fires, and what the guards look at is a
function of what both sides draw: so are the tokens. After every step the client holds a
signature on its secret, and what it has left and what it has spent are the quota.

## Main definitions

* `SpendEvent`, `spendOnce`, `spendAll`: Spends from the token held.
* `lifeCycle`: The whole run.
* `spentFrom`, `heldTokens`, `masterToken`, `dailyToken`: The tokens of a run.
* `SpendGuards`, `SpendsGuards`, `RefreshGuards`, `LifeCycleGuards`: No guard fires.
* `Conserved`: What holds of a run.

## Theorems

* `spendOnce_ok`, `spendAll_ok`, `lifeCycle_ok`: When the server accepts, and what the client
  then holds.
* `heldTokens_conserved`: Spends keep the tokens valid and the quota.
* `lifeCycle_completes`: A run succeeds unless a guard fires, and conserves the quota.
-/

namespace Ebut

variable {G1 G2 GT R : Type} [AddCommGroup G1] [Module Scalar G1]
  [AddCommGroup G2] [Module Scalar G2] [AddCommGroup GT] [Module Scalar GT]
  [AddCommGroup R] [Module DalekScalar R] [DecidableEq G1] [DecidableEq GT] (sha : Sha2)
  (bls : Blstrs G1 G2 GT) (dalek : Dalek R) (generators : Generators G1 G2)
  (keys : ServerKeys generators) (hCtx x : Scalar)

/-- One spend: its amount, the clocks and the nonce of the server, and all that is drawn. -/
structure SpendEvent where
  amount : UInt32
  nowUnix : UInt64
  currentEpoch : UInt32
  nonce : Bytes 16
  coins : SpendCoins
  eRefund : Scalar
  sPrimeRefund : Scalar

/-- The client proves, the server verifies and signs, the client finalises. -/
def spendOnce (token : HeldToken G1) (ev : SpendEvent) : Except ActError (HeldToken G1) := do
  let (client, proof) ← spendProve generators ev.coins token.sig x token.k token.c token.tIssue
    token.eMax ev.nowUnix ev.amount sha bls dalek ev.nonce keys.pkDaily hCtx
  let response ← verifySpend sha bls dalek proof ev.currentEpoch ev.nowUnix ev.nonce generators
    keys.pkDaily keys hCtx ev.eRefund ev.sPrimeRefund
  return client.finalize response

/-- The tokens held along a sequence of spends, the first one included. -/
def spendAll (token : HeldToken G1) : List SpendEvent → Except ActError (List (HeldToken G1))
  | [] => .ok [token]
  | ev :: evs => do
      let next ← spendOnce sha bls dalek generators keys hCtx x token ev
      let rest ← spendAll next evs
      return token :: rest

/-- What the token held says: a signature on the secret and its own attributes. -/
def DailyValid (token : HeldToken G1) : Prop :=
  Signs keys.skDaily token.sig
    (dailyMessage generators token.sig.s x token.k token.c token.tIssue token.eMax)

/-- The spend is for something, not after the expiry, and in the epoch of the token or the
next. -/
structure EventFits (tIssue : UInt32) (eMax : UInt64) (ev : SpendEvent) : Prop where
  amount_pos : 0 < ev.amount
  before_expiry : ev.nowUnix ≤ eMax
  epoch : ev.currentEpoch = tIssue ∨ ev.currentEpoch.toNat = tIssue.toNat + 1
  beq_complete : RangeComplete dalek ev.coins.beq
  expiry_complete : RangeComplete dalek ev.coins.expiry

section Spends

variable {generators}

/-- The token that a spend leaves: what was drawn for it, and the balance that is left. -/
def spentFrom (token : HeldToken G1) (ev : SpendEvent) : HeldToken G1 :=
  let s := ev.coins.rStar + ev.sPrimeRefund
  let c := token.c - ev.amount
  { sig := signatureOn keys.skDaily ev.eRefund s
      (dailyMessage generators s x ev.coins.kStar c token.tIssue token.eMax)
    k := ev.coins.kStar
    c
    tIssue := token.tIssue
    eMax := token.eMax }

/-- The tokens of a sequence of spends, the first one included. -/
def heldTokens (token : HeldToken G1) : List SpendEvent → List (HeldToken G1)
  | [] => [token]
  | ev :: evs => token :: heldTokens (spentFrom keys x token ev) evs

/-- No guard of a spend fires: the token and what is drawn to show it are not the identity, and
the server does not draw the negative of its key. -/
structure SpendGuards (token : HeldToken G1) (ev : SpendEvent) : Prop where
  shown_ne : token.sig.a ≠ 0
  blinded_ne : ev.coins.blinded generators token.sig.a token.k token.tIssue ≠ 0
  denom_ne : ev.eRefund + keys.skDaily ≠ 0

/-- No guard fires along a sequence of spends. -/
def SpendsGuards (token : HeldToken G1) : List SpendEvent → Prop
  | [] => True
  | ev :: evs => SpendGuards keys token ev ∧ SpendsGuards (spentFrom keys x token ev) evs

end Spends

variable {sha bls dalek generators keys hCtx x}

/-- A spend is accepted exactly when no guard fires, and leaves the next token. -/
theorem spendOnce_ok (hcompress : ∀ p, dalek.decompress (dalek.compress p) = some p)
    {token : HeldToken G1} (hvalid : DailyValid generators keys x token) {ev : SpendEvent}
    (hfits : EventFits dalek token.tIssue token.eMax ev) (hamount : ev.amount ≤ token.c)
    {next : HeldToken G1} : spendOnce sha bls dalek generators keys hCtx x token ev = .ok next ↔
      SpendGuards keys token ev ∧ next = spentFrom keys x token ev := by
  have hpos : ev.amount ≠ 0 := fun hzero => UInt32.lt_irrefl 0 (hzero ▸ hfits.amount_pos)
  rcases spendProve_accepted sha bls hCtx hcompress hfits.beq_complete hfits.expiry_complete
    hvalid ev.nonce hpos hamount hfits.before_expiry with
    ⟨proof, hprove, hs, ht, haPrime, htBbs, hkPrime, haccepts, hproofs⟩
  -- the refund is a signature on the message of the token that the client assembles
  have hmsg : generators.g1 + proof.kPrime + ev.sPrimeRefund • generators.h 0 =
      dailyMessage generators (ev.coins.rStar + ev.sPrimeRefund) x ev.coins.kStar
        (token.c - ev.amount) token.tIssue token.eMax := by
    rw [hkPrime, dailyMessage]
    module
  have hshown : proof.aPrime ≠ 0 ↔ token.sig.a ≠ 0 := by
    rw [haPrime, ne_eq, smul_eq_zero, or_iff_right ev.coins.r1_ne]
  rw [spendOnce, hprove]
  show (verifySpend sha bls dalek proof ev.currentEpoch ev.nowUnix ev.nonce generators
    keys.pkDaily keys hCtx ev.eRefund ev.sPrimeRefund >>= _) = _ ↔ _
  rw [bind_ok]
  constructor
  · rintro ⟨response, hverify, hnext⟩
    rcases (verifySpend_honest (hs ▸ hpos) (ht ▸ hfits.epoch) haccepts hproofs).mp hverify with
      ⟨⟨ha, ht'⟩, hdenom, rfl⟩
    refine ⟨⟨hshown.mp ha, htBbs ▸ ht', hdenom⟩, (Except.ok.inj hnext).symm.trans ?_⟩
    simp only [SpendClient.finalize, spentFrom, signatureOn, hmsg]
  · rintro ⟨hguards, rfl⟩
    refine ⟨_, (verifySpend_honest (hs ▸ hpos) (ht ▸ hfits.epoch) haccepts hproofs).mpr
      ⟨⟨hshown.mpr hguards.shown_ne, htBbs ▸ hguards.blinded_ne⟩, hguards.denom_ne, rfl⟩, ?_⟩
    refine congrArg Except.ok ?_
    simp only [SpendClient.finalize, spentFrom, signatureOn, hmsg]

omit [AddCommGroup GT] [Module Scalar GT] [DecidableEq G1] [DecidableEq GT] in
/-- The token that a spend leaves is valid. -/
theorem spentFrom_valid {token : HeldToken G1} {ev : SpendEvent}
    (hdenom : ev.eRefund + keys.skDaily ≠ 0) :
    DailyValid generators keys x (spentFrom keys x token ev) :=
  signs_signatureOn hdenom _ _

variable (keys x) in
omit [AddCommGroup GT] [Module Scalar GT] [DecidableEq G1] [DecidableEq GT] in
/-- Its balance is what the spend leaves. -/
theorem spentFrom_c {token : HeldToken G1} {ev : SpendEvent} (hamount : ev.amount ≤ token.c) :
    (spentFrom keys x token ev).c.toNat + ev.amount.toNat = token.c.toNat := by
  show (token.c - ev.amount).toNat + ev.amount.toNat = token.c.toNat
  rw [UInt32.toNat_sub_of_le _ _ hamount,
    Nat.sub_add_cancel (UInt32.le_iff_toNat_le.mp hamount)]

/-- What a run of spends from a quota keeps: every token held is valid, with the epoch and the
expiry of the first, and what it has left and what was spent before it are the quota. -/
def Conserved (generators : Generators G1 G2) (keys : ServerKeys generators) (x : Scalar)
    (tIssue : UInt32) (eMax : UInt64) (quota : ℕ) (events : List SpendEvent)
    (tokens : List (HeldToken G1)) : Prop :=
  tokens.length = events.length + 1 ∧ ∀ i token, tokens[i]? = some token →
    DailyValid generators keys x token ∧ token.tIssue = tIssue ∧ token.eMax = eMax ∧
      token.c.toNat + ((events.take i).map fun ev => ev.amount.toNat).sum = quota

/-- Spends within the balance are accepted one after the other exactly when no guard fires. -/
theorem spendAll_ok (hcompress : ∀ p, dalek.decompress (dalek.compress p) = some p)
    {events : List SpendEvent} {token : HeldToken G1} (hvalid : DailyValid generators keys x token)
    (hfits : ∀ ev ∈ events, EventFits dalek token.tIssue token.eMax ev)
    (hsum : (events.map fun ev => ev.amount.toNat).sum ≤ token.c.toNat)
    {tokens : List (HeldToken G1)} :
    spendAll sha bls dalek generators keys hCtx x token events = .ok tokens ↔
      SpendsGuards keys x token events ∧ tokens = heldTokens keys x token events := by
  induction events generalizing token tokens with
  | nil =>
      rw [spendAll, Except.ok.injEq, SpendsGuards, true_and]
      exact eq_comm
  | cons ev events ih =>
      rw [List.map_cons, List.sum_cons] at hsum
      have hamount : ev.amount ≤ token.c := UInt32.le_iff_toNat_le.mpr (by omega)
      have hbalance := spentFrom_c keys x hamount
      have hrest : ∀ ev' ∈ events, EventFits dalek (spentFrom keys x token ev).tIssue
          (spentFrom keys x token ev).eMax ev' :=
        fun ev' hmem => hfits ev' (List.mem_cons_of_mem ev hmem)
      rw [spendAll, bind_ok, SpendsGuards, and_assoc]
      constructor
      · rintro ⟨next, hnext, htokens⟩
        rcases (spendOnce_ok hcompress hvalid (hfits ev List.mem_cons_self) hamount).mp hnext with
          ⟨hguards, rfl⟩
        rcases bind_ok.mp htokens with ⟨rest, hall, hok⟩
        rcases (ih (spentFrom_valid hguards.denom_ne) hrest (by omega)).mp hall with
          ⟨hrestGuards, rfl⟩
        exact ⟨hguards, hrestGuards, (Except.ok.inj hok).symm⟩
      · rintro ⟨hguards, hrestGuards, rfl⟩
        exact ⟨_, (spendOnce_ok hcompress hvalid (hfits ev List.mem_cons_self) hamount).mpr
          ⟨hguards, rfl⟩, bind_ok.mpr ⟨_, (ih (spentFrom_valid hguards.denom_ne) hrest
            (by omega)).mpr ⟨hrestGuards, rfl⟩, rfl⟩⟩

omit [AddCommGroup GT] [Module Scalar GT] [DecidableEq G1] [DecidableEq GT] in
/-- Spends within the balance keep the tokens valid and the quota. -/
theorem heldTokens_conserved {events : List SpendEvent} {token : HeldToken G1}
    (hvalid : DailyValid generators keys x token) (hguards : SpendsGuards keys x token events)
    (hsum : (events.map fun ev => ev.amount.toNat).sum ≤ token.c.toNat) :
    Conserved generators keys x token.tIssue token.eMax token.c.toNat events
      (heldTokens keys x token events) := by
  induction events generalizing token with
  | nil =>
      refine ⟨rfl, fun i held hheld => ?_⟩
      rw [heldTokens, List.getElem?_singleton] at hheld
      by_cases hi : i = 0
      · rw [if_pos hi, Option.some.injEq] at hheld
        rw [← hheld, List.take_nil]
        exact ⟨hvalid, rfl, rfl, rfl⟩
      · rw [if_neg hi] at hheld
        exact absurd hheld (Option.some_ne_none _).symm
  | cons ev events ih =>
      rw [List.map_cons, List.sum_cons] at hsum
      have hamount : ev.amount ≤ token.c := UInt32.le_iff_toNat_le.mpr (by omega)
      have hbalance := spentFrom_c keys x hamount
      rcases ih (spentFrom_valid hguards.1.denom_ne) hguards.2 (by omega) with ⟨hlen, hheld⟩
      refine ⟨by rw [heldTokens, List.length_cons, hlen, List.length_cons], fun i held hi => ?_⟩
      rw [heldTokens] at hi
      -- the first token is the one spent from, the others are those of the rest of the run
      cases i with
      | zero =>
          rw [List.getElem?_cons_zero, Option.some.injEq] at hi
          rw [← hi, List.take_zero]
          exact ⟨hvalid, rfl, rfl, rfl⟩
      | succ i =>
          rw [List.getElem?_cons_succ] at hi
          rcases hheld i held hi with ⟨hheldValid, hheldT, hheldE, hheldSum⟩
          refine ⟨hheldValid, hheldT, hheldE, ?_⟩
          rw [List.take_succ_cons, List.map_cons, List.sum_cons]
          omega

/-- What is drawn for a master token and for its refresh, by the client and the server. -/
structure LifeCycleCoins where
  mint : MasterMintCoins
  eSub : Scalar
  sPrimeSub : Scalar
  refresh : RefreshCoins
  eDaily : Scalar
  sPrimeDaily : Scalar

variable (sha bls dalek generators keys hCtx) in
/-- A master token is minted and refreshed, and the daily token is spent. The run returns the
master token and the daily tokens held. -/
def lifeCycle (coins : LifeCycleCoins) (canonicalX : CanonicalX) (cMax : UInt32) (eMax : UInt64)
    (t : UInt32) (nowUnix : UInt64) (events : List SpendEvent) :
    Except ActError (BbsSignature G1 × List (HeldToken G1)) := do
  let (mintClient, request) := MasterMintClient.beginWithX sha bls coins.mint canonicalX cMax eMax
    generators hCtx
  let (aSub, eSub, sPrimeSub) ← masterMintIssue sha bls request cMax eMax generators keys hCtx
    coins.eSub coins.sPrimeSub
  let master := mintClient.finalize aSub eSub sPrimeSub
  let (client, proof) ← refreshProve generators coins.refresh master mintClient.kSub cMax eMax t
    nowUnix sha bls dalek keys.pkMaster hCtx
  let response ← verifyRefresh sha bls dalek proof t nowUnix generators keys.pkMaster keys hCtx
    coins.eDaily coins.sPrimeDaily
  let (daily, kDaily) := client.finalize response
  let tokens ← spendAll sha bls dalek generators keys hCtx mintClient.kSub
    ⟨daily, kDaily, cMax, t, eMax⟩ events
  return (master, tokens)

section Run

variable (keys) (coins : LifeCycleCoins) (canonicalX : CanonicalX) (cMax : UInt32) (eMax : UInt64)
  (t : UInt32)

/-- The master token of a run. -/
def masterToken : BbsSignature G1 :=
  let s := coins.mint.rSub + coins.sPrimeSub
  signatureOn keys.skMaster coins.eSub s
    (masterMessage generators s canonicalX.toBlsScalar cMax eMax)

/-- The daily token of a run. -/
def dailyToken : HeldToken G1 :=
  let s := coins.refresh.rDaily + coins.sPrimeDaily
  { sig := signatureOn keys.skDaily coins.eDaily s (dailyMessage generators s
      canonicalX.toBlsScalar coins.refresh.kDaily cMax t eMax)
    k := coins.refresh.kDaily
    c := cMax
    tIssue := t
    eMax }

variable (bls)

/-- No guard of a refresh fires: the nullifier, the token and what is drawn to show it are not the
identity, and the server does not draw the negative of its key. -/
structure RefreshGuards (master : BbsSignature G1) : Prop where
  nullifier_ne : canonicalX.toBlsScalar • epochBase bls t ≠ 0
  shown_ne : master.a ≠ 0
  blinded_ne : coins.refresh.blinded generators master.a ≠ 0
  denom_ne : coins.eDaily + keys.skDaily ≠ 0

/-- No guard fires along a whole run. -/
structure LifeCycleGuards (events : List SpendEvent) : Prop where
  mint : coins.eSub + keys.skMaster ≠ 0
  refresh : RefreshGuards bls keys coins canonicalX t (masterToken keys coins canonicalX cMax eMax)
  spends : SpendsGuards keys canonicalX.toBlsScalar (dailyToken keys coins canonicalX cMax eMax t)
    events

end Run

omit [DecidableEq G1] in
theorem masterToken_valid {coins : LifeCycleCoins} {canonicalX : CanonicalX} {cMax : UInt32}
    {eMax : UInt64} (hdenom : coins.eSub + keys.skMaster ≠ 0) :
    Signs keys.skMaster (masterToken keys coins canonicalX cMax eMax) (masterMessage generators
      (masterToken keys coins canonicalX cMax eMax).s canonicalX.toBlsScalar cMax eMax) :=
  signs_signatureOn hdenom _ _

omit [DecidableEq G1] in
theorem dailyToken_valid {coins : LifeCycleCoins} {canonicalX : CanonicalX} {cMax : UInt32}
    {eMax : UInt64} {t : UInt32} (hdenom : coins.eDaily + keys.skDaily ≠ 0) :
    DailyValid generators keys canonicalX.toBlsScalar
      (dailyToken keys coins canonicalX cMax eMax t) :=
  signs_signatureOn hdenom _ _

variable (sha bls hCtx) in
/-- The refresh of a valid master token is proved, and accepted exactly when no guard fires; the
response is then the daily token. -/
theorem refresh_ok (hcompress : ∀ p, dalek.decompress (dalek.compress p) = some p)
    {coins : LifeCycleCoins} (hrange : RangeComplete dalek coins.refresh.beq)
    {canonicalX : CanonicalX} {cMax : UInt32} {eMax : UInt64} {t : UInt32} {nowUnix : UInt64}
    (hnow : nowUnix ≤ eMax) {master : BbsSignature G1} (hvalid : Signs keys.skMaster master
      (masterMessage generators master.s canonicalX.toBlsScalar cMax eMax)) :
    ∃ proof, refreshProve generators coins.refresh master canonicalX.toBlsScalar cMax eMax t nowUnix
        sha bls dalek keys.pkMaster hCtx = .ok (⟨canonicalX.toBlsScalar, cMax, eMax, t,
          coins.refresh.kDaily, coins.refresh.rDaily, coins.refresh.rDelta⟩, proof) ∧
      ∀ response, verifyRefresh sha bls dalek proof t nowUnix generators keys.pkMaster keys hCtx
          coins.eDaily coins.sPrimeDaily = .ok response ↔
        RefreshGuards bls keys coins canonicalX t master ∧
          response = ⟨(dailyToken keys coins canonicalX cMax eMax t).sig.a, coins.eDaily,
            coins.sPrimeDaily⟩ := by
  rcases refreshProve_accepted sha bls hCtx hcompress hrange hvalid t hnow with
    ⟨proof, hprove, hnT, haPrime, htBbs, hkDaily, haccepts, hproofs⟩
  have hmsg : generators.g1 + proof.kDaily + coins.sPrimeDaily • generators.h 0 =
      dailyMessage generators (coins.refresh.rDaily + coins.sPrimeDaily) canonicalX.toBlsScalar
        coins.refresh.kDaily cMax t eMax := by
    rw [hkDaily, dailyMessage]
    module
  have hshown : proof.aPrime ≠ 0 ↔ master.a ≠ 0 := by
    rw [haPrime, ne_eq, smul_eq_zero, or_iff_right coins.refresh.r1_ne]
  refine ⟨proof, hprove, fun response => ?_⟩
  rw [verifyRefresh_honest haccepts hproofs, hshown, hnT, htBbs, hmsg]
  constructor
  · rintro ⟨⟨hnullifier, ha, hblinded⟩, hdenom, rfl⟩
    exact ⟨⟨hnullifier, ha, hblinded, hdenom⟩, rfl⟩
  · rintro ⟨hguards, rfl⟩
    exact ⟨⟨hguards.nullifier_ne, hguards.shown_ne, hguards.blinded_ne⟩, hguards.denom_ne, rfl⟩

/-- A run of an honest client succeeds exactly when no guard fires, and then returns the tokens
that were drawn for it. -/
theorem lifeCycle_ok (hcompress : ∀ p, dalek.decompress (dalek.compress p) = some p)
    {coins : LifeCycleCoins} (hrange : RangeComplete dalek coins.refresh.beq)
    {canonicalX : CanonicalX} {cMax : UInt32} (hcMax : 0 < cMax) {eMax : UInt64} {t : UInt32}
    {nowUnix : UInt64} (hnow : nowUnix ≤ eMax) {events : List SpendEvent}
    (hfits : ∀ ev ∈ events, EventFits dalek t eMax ev)
    (hsum : (events.map fun ev => ev.amount.toNat).sum ≤ cMax.toNat)
    {run : BbsSignature G1 × List (HeldToken G1)} :
    lifeCycle sha bls dalek generators keys hCtx coins canonicalX cMax eMax t nowUnix events =
        .ok run ↔
      LifeCycleGuards bls keys coins canonicalX cMax eMax t events ∧
        run = (masterToken keys coins canonicalX cMax eMax, heldTokens keys canonicalX.toBlsScalar
          (dailyToken keys coins canonicalX cMax eMax t) events) := by
  rw [lifeCycle]
  show (masterMintIssue sha bls (MasterMintClient.beginWithX sha bls coins.mint canonicalX cMax eMax
    generators hCtx).2 cMax eMax generators keys hCtx coins.eSub coins.sPrimeSub >>= _) = _ ↔ _
  rw [bind_ok]
  constructor
  · rintro ⟨issued, hissue, hrun⟩
    rcases (masterMintIssue_honest hcMax).mp hissue with ⟨hmint, rfl⟩
    rcases refresh_ok sha bls hCtx hcompress hrange hnow (masterToken_valid hmint) with
      ⟨proof, hprove, hverify⟩
    rcases bind_ok.mp hrun with ⟨proved, hproved, hrun⟩
    obtain rfl := Except.ok.inj (hproved.symm.trans hprove)
    rcases bind_ok.mp hrun with ⟨response, hresponse, hrun⟩
    rcases (hverify response).mp hresponse with ⟨hrefresh, rfl⟩
    rcases bind_ok.mp hrun with ⟨tokens, hall, hok⟩
    rcases (spendAll_ok hcompress (dailyToken_valid hrefresh.denom_ne) hfits hsum).mp hall with
      ⟨hspends, rfl⟩
    exact ⟨⟨hmint, hrefresh, hspends⟩, (Except.ok.inj hok).symm⟩
  · rintro ⟨⟨hmint, hrefresh, hspends⟩, rfl⟩
    rcases refresh_ok sha bls hCtx hcompress hrange hnow (masterToken_valid hmint) with
      ⟨proof, hprove, hverify⟩
    have hall : spendAll sha bls dalek generators keys hCtx canonicalX.toBlsScalar
        (dailyToken keys coins canonicalX cMax eMax t) events = .ok _ :=
      (spendAll_ok hcompress (dailyToken_valid hrefresh.denom_ne) hfits hsum).mpr
        ⟨hspends, rfl⟩
    exact ⟨_, (masterMintIssue_honest hcMax).mpr ⟨hmint, rfl⟩, bind_ok.mpr ⟨_, hprove,
      bind_ok.mpr ⟨_, (hverify _).mpr ⟨hrefresh, rfl⟩, bind_ok.mpr ⟨_, hall, rfl⟩⟩⟩⟩

variable (sha bls keys hCtx) in
/-- A run of an honest client whose guards do not fire succeeds, and only such a run does. Every
token it finalises is valid: the master token on the secret, the quota and the expiry, the daily
ones as the quota is conserved. -/
theorem lifeCycle_completes (hcompress : ∀ p, dalek.decompress (dalek.compress p) = some p)
    (coins : LifeCycleCoins) (hrange : RangeComplete dalek coins.refresh.beq)
    (canonicalX : CanonicalX) {cMax : UInt32} (hcMax : 0 < cMax) {eMax : UInt64} (t : UInt32)
    {nowUnix : UInt64} (hnow : nowUnix ≤ eMax) {events : List SpendEvent}
    (hfits : ∀ ev ∈ events, EventFits dalek t eMax ev)
    (hsum : (events.map fun ev => ev.amount.toNat).sum ≤ cMax.toNat) :
    (LifeCycleGuards bls keys coins canonicalX cMax eMax t events ↔ ∃ run, lifeCycle sha bls dalek
        generators keys hCtx coins canonicalX cMax eMax t nowUnix events = .ok run) ∧
      ∀ master tokens, lifeCycle sha bls dalek generators keys hCtx coins canonicalX cMax eMax t
          nowUnix events = .ok (master, tokens) →
        Signs keys.skMaster master
            (masterMessage generators master.s canonicalX.toBlsScalar cMax eMax) ∧
          Conserved generators keys canonicalX.toBlsScalar t eMax cMax.toNat events tokens := by
  refine ⟨⟨fun hguards => ⟨_, (lifeCycle_ok hcompress hrange hcMax hnow hfits hsum).mpr
    ⟨hguards, rfl⟩⟩, ?_⟩, fun master tokens hrun => ?_⟩
  · rintro ⟨run, hrun⟩
    exact ((lifeCycle_ok hcompress hrange hcMax hnow hfits hsum).mp hrun).1
  · rcases (lifeCycle_ok hcompress hrange hcMax hnow hfits hsum).mp hrun with ⟨hguards, htokens⟩
    obtain ⟨rfl, rfl⟩ := Prod.mk.inj htokens
    exact ⟨masterToken_valid hguards.mint, heldTokens_conserved
      (dailyToken_valid hguards.refresh.denom_ne) hguards.spends hsum⟩

section Example

theorem scalar_one_ne_zero : (1 : Scalar) ≠ 0 := one_ne_zero

def oneSpendCoins : SpendCoins where
  kStar := 1
  kStar_ne := scalar_one_ne_zero
  rStar := 1
  rBp := 1
  rDelta := 1
  rX := 1
  r1 := 1
  r1_ne := scalar_one_ne_zero
  rhoE := 1
  rhoR1 := 1
  rhoS := 1
  rhoX := 1
  rhoC := 1
  rhoEmax := 1
  rhoU := 1
  rhoV := 1
  rhoW := 1
  rhoRx := 1
  rhoDelta := 1
  beq := oneBeqCoins
  expiry := oneBeqCoins

def oneRefreshCoins : RefreshCoins where
  kDaily := 1
  kDaily_ne := scalar_one_ne_zero
  rDaily := 1
  rDelta := 1
  rX := 1
  r1 := 1
  r1_ne := scalar_one_ne_zero
  rhoE := 1
  rhoR1 := 1
  rhoS := 1
  rhoK := 1
  rhoC := 1
  rhoEMsg := 1
  rhoU := 1
  rhoV := 1
  rhoW := 1
  rhoRx := 1
  beq := oneBeqCoins

/-- The server draws zero for the exponents, so it signs with its key itself. -/
def oneLifeCycleCoins : LifeCycleCoins := ⟨⟨1, 1, 1⟩, 0, 1, oneRefreshCoins, 0, 1⟩

/-- Three and then four of ten units, the second spend in the epoch after. -/
def twoSpends : List SpendEvent :=
  [⟨3, 900, 3, leArray 16 1, oneSpendCoins, 0, 1⟩, ⟨4, 1000, 4, leArray 16 2, oneSpendCoins, 0, 1⟩]

theorem twoSpends_fit : ∀ ev ∈ twoSpends, EventFits lineDalek 3 1000 ev := by
  intro ev hmem
  rcases List.mem_pair.mp hmem with rfl | rfl
  · exact ⟨by decide, by decide, Or.inl rfl, oneBeqCoins_complete, oneBeqCoins_complete⟩
  · exact ⟨by decide, by decide, Or.inr rfl, oneBeqCoins_complete, oneBeqCoins_complete⟩

/-- The keys of the concrete instance are one. -/
theorem signatureOn_one (s : Scalar) (message : UnitSpace) :
    signatureOn 1 0 s message = ⟨message, 0, s⟩ := by
  rw [signatureOn, zero_add, inv_one, one_smul]

/-- A daily token on the secret five that is signed with the drawn exponent zero. -/
def tenthToken (c : UInt32) : HeldToken UnitSpace where
  sig := ⟨dailyMessage unitGenerators (1 + 1) (CanonicalX.toBlsScalar (leArray 31 5)) 1 c 3 1000, 0,
    1 + 1⟩
  k := 1
  c := c
  tIssue := 3
  eMax := 1000

theorem dailyToken_ten : dailyToken unitKeys oneLifeCycleCoins (leArray 31 5) 10 1000 3 =
    tenthToken 10 :=
  congrArg (fun sig => HeldToken.mk sig 1 10 3 1000) (signatureOn_one _ _)

theorem spentFrom_three : spentFrom unitKeys (CanonicalX.toBlsScalar (leArray 31 5))
    (tenthToken 10) ⟨3, 900, 3, leArray 16 1, oneSpendCoins, 0, 1⟩ = tenthToken 7 :=
  congrArg (fun sig => HeldToken.mk sig 1 7 3 1000) (signatureOn_one _ _)

/-- Its first coordinates show that no guard fires. -/
theorem lifeCycleGuards_ten : LifeCycleGuards lineBlstrs unitKeys oneLifeCycleCoins
    (leArray 31 5) 10 1000 3 twoSpends := by
  have hdenom : (0 : Scalar) + 1 ≠ 0 := by
    rw [zero_add]
    exact one_ne_zero
  have hmaster : masterToken unitKeys oneLifeCycleCoins (leArray 31 5) 10 1000 =
      ⟨masterMessage unitGenerators (1 + 1) (CanonicalX.toBlsScalar (leArray 31 5)) 10 1000, 0,
        1 + 1⟩ := signatureOn_one _ _
  refine ⟨hdenom, ⟨?_, ?_, ?_, hdenom⟩, ?_⟩
  · exact fun hzero => absurd (congrFun hzero 7) (by decide +kernel)
  · rw [hmaster]
    exact fun hzero => absurd (congrFun hzero 0) (by decide +kernel)
  · rw [hmaster]
    exact fun hzero => absurd (congrFun hzero 1) (by decide +kernel)
  · rw [dailyToken_ten]
    refine ⟨⟨?_, ?_, hdenom⟩, ?_⟩
    · exact fun hzero => absurd (congrFun hzero 0) (by decide +kernel)
    · exact fun hzero => absurd (congrFun hzero 1) (by decide +kernel)
    · rw [spentFrom_three]
      refine ⟨⟨?_, ?_, hdenom⟩, trivial⟩
      · exact fun hzero => absurd (congrFun hzero 0) (by decide +kernel)
      · exact fun hzero => absurd (congrFun hzero 1) (by decide +kernel)

theorem lifeCycle_completes_ten : ∃ master tokens,
    lifeCycle lineSha lineBlstrs lineDalek unitGenerators unitKeys 7 oneLifeCycleCoins
        (leArray 31 5) 10 1000 3 800 twoSpends = .ok (master, tokens) ∧
      Signs unitKeys.skMaster master (masterMessage unitGenerators master.s
        (CanonicalX.toBlsScalar (leArray 31 5)) 10 1000) ∧
      Conserved unitGenerators unitKeys (CanonicalX.toBlsScalar (leArray 31 5)) 3 1000 10
        twoSpends tokens := by
  rcases lifeCycle_completes lineSha lineBlstrs unitKeys 7 lineDalek_decompress
    oneLifeCycleCoins oneBeqCoins_complete (leArray 31 5) (by decide : (0 : UInt32) < 10) 3
    (by decide : (800 : UInt64) ≤ 1000) twoSpends_fit (by decide) with ⟨hcompletes, hvalid⟩
  rcases hcompletes.mp lifeCycleGuards_ten with ⟨⟨master, tokens⟩, hrun⟩
  exact ⟨master, tokens, hrun, hvalid master tokens hrun⟩

end Example

end Ebut
