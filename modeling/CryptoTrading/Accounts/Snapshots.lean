import Mathlib.Algebra.Order.Field.Rat
import CryptoTrading.Accounts.AccountManager
import CryptoTrading.Lib.Run

/-!
# Account snapshots

A CCXT account response lists every asset of the account with its free amount.
`CCXTAccountBalanceMapper` in `src/exchange/clients/ccxt/ccxt_mapper.py` turns it into
balances, and `AccountManager.reconcile_account_balances` caches them one by one.

The mapper leaves out the assets whose free amount is zero, and the cache is written entry
by entry, so an asset that falls to zero, or that is no longer listed, keeps its last
positive amount.  `snapshots_replace_iff` says that this is the only thing that goes
wrong: a sequence of responses is taken over faithfully exactly when no currency goes from
a positive amount to zero between two of them.
-/

namespace CryptoTrading.Accounts

open CryptoTrading.Lib

/-! ## §1 Responses and their mapping -/

/-- One entry of `info["balances"]`; a missing free amount counts as zero. -/
structure CcxtBalance where
  asset : String
  free : Option ℚ
  deriving DecidableEq

def CcxtBalance.freeBalance (b : CcxtBalance) : ℚ := b.free.getD 0

/-- The loop body of `CCXTAccountBalanceMapper.map`. -/
def CcxtBalance.toAccountBalance (b : CcxtBalance) : Option AccountBalance :=
  if b.freeBalance ≤ 0 then none else some ⟨b.asset, b.freeBalance⟩

/-- `CCXTAccountBalanceMapper.map`. -/
def mapAccountBalance (source : List CcxtBalance) : List AccountBalance :=
  source.filterMap CcxtBalance.toAccountBalance

variable (upper : String → String)

/-- A complete response: every asset once, with a free amount that is not negative. -/
structure AccountResponse where
  balances : List CcxtBalance
  nodup : (balances.map fun b => upper b.asset).Nodup
  nonneg : ∀ b ∈ balances, 0 ≤ b.freeBalance

namespace AccountResponse

def empty : AccountResponse upper := ⟨[], List.nodup_nil, by simp⟩

variable {upper}

/-- The free amount of a currency, zero when it is not listed. -/
def amount (r : AccountResponse upper) (currency : String) : ℚ :=
  ((r.balances.find? fun b => upper b.asset = upper currency).map CcxtBalance.freeBalance).getD 0

theorem amount_nonneg (r : AccountResponse upper) (currency : String) : 0 ≤ r.amount currency := by
  unfold amount
  cases hfind : r.balances.find? fun b => upper b.asset = upper currency with
  | none => simp
  | some b => simpa using r.nonneg b (List.mem_of_find?_eq_some hfind)

/-- A positive amount is mapped to a balance of the currency. -/
theorem mem_map_of_amount_pos {r : AccountResponse upper} {currency : String}
    (h : 0 < r.amount currency) :
    ∃ b ∈ mapAccountBalance r.balances, upper b.currency = upper currency ∧
      b.availableBalance = r.amount currency := by
  unfold amount at h ⊢
  cases hfind : r.balances.find? fun b => upper b.asset = upper currency with
  | none =>
    rw [hfind] at h
    exact absurd h (lt_irrefl 0)
  | some b =>
    rw [hfind] at h
    have hpos : 0 < b.freeBalance := h
    refine ⟨⟨b.asset, b.freeBalance⟩, ?_, ?_, rfl⟩
    · exact List.mem_filterMap.mpr ⟨b, List.mem_of_find?_eq_some hfind,
        by simp [CcxtBalance.toAccountBalance, not_le.mpr hpos]⟩
    · simpa using List.find?_some hfind

/-- The mapped balances are entries with a positive amount. -/
theorem amount_pos_of_mem_map {r : AccountResponse upper} {b : AccountBalance}
    (h : b ∈ mapAccountBalance r.balances) {currency : String}
    (hcurrency : upper b.currency = upper currency) : 0 < r.amount currency := by
  obtain ⟨entry, hmem, hentry⟩ := List.mem_filterMap.mp h
  unfold CcxtBalance.toAccountBalance at hentry
  split at hentry
  · cases hentry
  · rename_i hpos
    obtain rfl := Option.some.inj hentry
    unfold amount
    cases hfind : r.balances.find? fun b => upper b.asset = upper currency with
    | none =>
      have hnone := List.find?_eq_none.mp hfind entry hmem
      exact absurd hcurrency (by simpa using hnone)
    | some found =>
      -- the response lists the currency once
      have hfound : upper found.asset = upper currency := by simpa using List.find?_some hfind
      have hsame : found = entry :=
        List.inj_on_of_nodup_map r.nodup (List.mem_of_find?_eq_some hfind) hmem
          (hfound.trans hcurrency.symm)
      rw [hsame]
      exact not_le.mp hpos

end AccountResponse

/-! ## §2 Processing responses -/

/-- The manager, and the response it has processed last. -/
structure SnapshotState where
  account : AccountManager
  latest : AccountResponse upper

/-- Before the first response. -/
def SnapshotState.initial : SnapshotState upper := ⟨AccountManager.new, AccountResponse.empty upper⟩

/-- What `reconcile_account_balances` does with a response: the new manager and the events it
    publishes. -/
def takeSnapshot (providerName : String) (m : AccountManager) (r : AccountResponse upper)
    (now : ℚ) : AccountManager × List BalanceChangedEvent :=
  m.reconcileAccountBalances upper providerName (mapAccountBalance r.balances) now

def snapshotStep (providerName : String) (s : SnapshotState upper)
    (input : AccountResponse upper × ℚ) : SnapshotState upper :=
  ⟨(takeSnapshot upper providerName s.account input.1 input.2).1, input.1⟩

/-- The cached balance of every currency, and that of the account state, are the amounts of the
    response. -/
def Replaced (providerName : String) (m : AccountManager) (r : AccountResponse upper) : Prop :=
  ∀ currency,
    (m.cachedBalance upper currency providerName).availableBalance = r.amount currency ∧
      (((m.accountStateAt (upper providerName)).getBalance upper currency).map
        (·.available)).getD 0 = r.amount currency

/-- There is an event for every currency whose amount has changed. -/
def Announced (events : List BalanceChangedEvent) (before after : AccountResponse upper) : Prop :=
  ∀ currency, before.amount currency ≠ after.amount currency →
    ∃ event ∈ events, event.currency = upper currency ∧ event.available = after.amount currency

/-- The response replaces the balances, and the changes are published. -/
def SnapshotTaken (providerName : String) (s : SnapshotState upper)
    (input : AccountResponse upper × ℚ) : Prop :=
  let taken := takeSnapshot upper providerName s.account input.1 input.2
  Replaced upper providerName taken.1 input.1 ∧ Announced upper taken.2 s.latest input.1

/-- No currency goes from a positive amount to none. -/
def NothingVanishes (s : SnapshotState upper) (input : AccountResponse upper × ℚ) : Prop :=
  ∀ currency, 0 < s.latest.amount currency → 0 < input.1.amount currency

/-! ## §3 One response -/

variable {upper}

theorem reportOf_takeSnapshot (providerName : String) (m : AccountManager)
    (r : AccountResponse upper) (now : ℚ) (key : String) :
    (takeSnapshot upper providerName m r now).1.reportOf (upper providerName) key =
      (m.cacheBalances upper providerName (mapAccountBalance r.balances) .restReconciliation
        "SNAPSHOT" now).1.reportOf (upper providerName) key := rfl

theorem stateOf_takeSnapshot (providerName : String) (m : AccountManager)
    (r : AccountResponse upper) (now : ℚ) (key : String) :
    (takeSnapshot upper providerName m r now).1.stateOf (upper providerName) key =
      (m.cacheBalances upper providerName (mapAccountBalance r.balances) .restReconciliation
        "SNAPSHOT" now).1.stateOf (upper providerName) key := by
  -- only the time of the reconciliation is written after the loop
  simp [takeSnapshot, AccountManager.reconcileAccountBalances, AccountManager.stateOf,
    AccountManager.accountStateAt, Dict.getD]

variable (upper) in
/-- The cached amount of a currency. -/
def cachedAmount (providerName : String) (m : AccountManager) (currency : String) : ℚ :=
  ((m.reportOf (upper providerName) (upper currency)).map (·.availableBalance)).getD 0

variable (upper) in
/-- The amount of a currency in the account state. -/
def stateAmount (providerName : String) (m : AccountManager) (currency : String) : ℚ :=
  ((m.stateOf (upper providerName) (upper currency)).map (·.available)).getD 0

theorem replaced_iff {providerName : String} {m : AccountManager} {r : AccountResponse upper} :
    Replaced upper providerName m r ↔ ∀ currency,
      cachedAmount upper providerName m currency = r.amount currency ∧
        stateAmount upper providerName m currency = r.amount currency := by
  have hcached : ∀ currency, (m.cachedBalance upper currency providerName).availableBalance =
      cachedAmount upper providerName m currency := by
    intro currency
    unfold AccountManager.cachedBalance cachedAmount AccountManager.reportOf
    cases (m.balancesAt (upper providerName)).get? (upper currency) <;> rfl
  simp only [Replaced, hcached]
  rfl

/-- The mapped balances have different currencies. -/
theorem nodup_mapAccountBalance (hupper : ∀ text, upper (upper text) = upper text)
    (r : AccountResponse upper) :
    ((mapAccountBalance r.balances).map fun b => upper (upper b.currency)).Nodup := by
  have hsub : ((mapAccountBalance r.balances).map fun b => upper (upper b.currency)).Sublist
      (r.balances.map fun b => upper b.asset) := by
    unfold mapAccountBalance
    induction r.balances with
    | nil => simp
    | cons b rest ih =>
      by_cases hle : b.freeBalance ≤ 0
      · rw [List.filterMap_cons_none (by simp [CcxtBalance.toAccountBalance, hle]), List.map_cons]
        exact ih.cons _
      · rw [List.filterMap_cons_some (b := ⟨b.asset, b.freeBalance⟩)
          (by simp [CcxtBalance.toAccountBalance, hle]), List.map_cons, List.map_cons, hupper]
        exact ih.cons_cons _
  exact hsub.nodup r.nodup

/-- A currency with a positive amount arrives. -/
theorem takeSnapshot_of_pos (hupper : ∀ text, upper (upper text) = upper text)
    (providerName : String) (m : AccountManager) {r : AccountResponse upper} (now : ℚ)
    {currency : String} (hpos : 0 < r.amount currency) :
    cachedAmount upper providerName (takeSnapshot upper providerName m r now).1 currency =
        r.amount currency ∧
      stateAmount upper providerName (takeSnapshot upper providerName m r now).1 currency =
        r.amount currency ∧
      (stateAmount upper providerName m currency ≠ r.amount currency →
        ∃ event ∈ (takeSnapshot upper providerName m r now).2,
          event.currency = upper currency ∧ event.available = r.amount currency) := by
  obtain ⟨b, hmem, hcurrency, hamount⟩ := AccountResponse.mem_map_of_amount_pos hpos
  obtain ⟨hreport, hstate, hevent⟩ := AccountManager.arrived_cacheBalances .restReconciliation
    "SNAPSHOT" now m providerName (nodup_mapAccountBalance hupper r) hmem
  rw [hupper, hcurrency, hamount] at hstate hevent
  rw [hcurrency] at hreport
  refine ⟨?_, ?_, ?_⟩
  · rw [cachedAmount, reportOf_takeSnapshot, hreport, ← hamount]
    rfl
  · rw [stateAmount, stateOf_takeSnapshot, hstate]
    rfl
  · intro hne
    refine hevent fun hsome => hne ?_
    rw [stateAmount, hsome]
    rfl

/-- A currency without an amount is not touched. -/
theorem takeSnapshot_of_not_pos (hupper : ∀ text, upper (upper text) = upper text)
    (providerName : String) (m : AccountManager) {r : AccountResponse upper} (now : ℚ)
    {currency : String} (hzero : ¬ 0 < r.amount currency) :
    cachedAmount upper providerName (takeSnapshot upper providerName m r now).1 currency =
        cachedAmount upper providerName m currency ∧
      stateAmount upper providerName (takeSnapshot upper providerName m r now).1 currency =
        stateAmount upper providerName m currency := by
  have hnone : ∀ b ∈ mapAccountBalance r.balances, upper b.currency ≠ upper currency :=
    fun b hmem heq => hzero (AccountResponse.amount_pos_of_mem_map hmem heq)
  have hnone' : ∀ b ∈ mapAccountBalance r.balances, upper (upper b.currency) ≠ upper currency := by
    intro b hmem
    rw [hupper]
    exact hnone b hmem
  refine ⟨?_, ?_⟩
  · rw [cachedAmount, reportOf_takeSnapshot,
      AccountManager.reportOf_cacheBalances_of_notMem _ _ hnone]
    rfl
  · rw [stateAmount, stateOf_takeSnapshot,
      AccountManager.stateOf_cacheBalances_of_notMem _ _ hnone']
    rfl

/-- A response is taken over exactly when nothing vanishes with it. -/
theorem snapshotTaken_iff (hupper : ∀ text, upper (upper text) = upper text)
    (providerName : String) {s : SnapshotState upper}
    (h : Replaced upper providerName s.account s.latest) (input : AccountResponse upper × ℚ) :
    SnapshotTaken upper providerName s input ↔ NothingVanishes upper s input := by
  obtain ⟨r, now⟩ := input
  have hbefore := replaced_iff.mp h
  constructor
  · intro htaken currency hpos
    have hafter : cachedAmount upper providerName
        (takeSnapshot upper providerName s.account r now).1 currency = r.amount currency :=
      (replaced_iff.mp htaken.1 currency).1
    by_contra hzero
    rw [(takeSnapshot_of_not_pos hupper providerName s.account now hzero).1,
      (hbefore currency).1] at hafter
    exact hzero (hafter ▸ hpos)
  · intro hkept
    refine ⟨replaced_iff.mpr ?_, ?_⟩
    · intro currency
      by_cases hpos : 0 < r.amount currency
      · obtain ⟨hcached, hstate, -⟩ := takeSnapshot_of_pos hupper providerName s.account now hpos
        exact ⟨hcached, hstate⟩
      · -- the currency had no amount before either
        obtain ⟨hcached, hstate⟩ :=
          takeSnapshot_of_not_pos hupper providerName s.account now hpos
        have hold : s.latest.amount currency = r.amount currency := by
          have hold := not_lt.mp (mt (hkept currency) hpos)
          rw [le_antisymm hold (s.latest.amount_nonneg currency),
            le_antisymm (not_lt.mp hpos) (r.amount_nonneg currency)]
        rw [hcached, hstate, ← hold]
        exact hbefore currency
    · intro currency hne
      have hpos : 0 < r.amount currency := by
        by_contra hzero
        have hold := not_lt.mp (mt (hkept currency) hzero)
        refine hne ?_
        rw [le_antisymm hold (s.latest.amount_nonneg currency),
          le_antisymm (not_lt.mp hzero) (r.amount_nonneg currency)]
      refine (takeSnapshot_of_pos hupper providerName s.account now hpos).2.2 ?_
      rw [(hbefore currency).2]
      exact hne

/-! ## §4 Sequences of responses -/

theorem replaced_initial (providerName : String) :
    Replaced upper providerName (SnapshotState.initial upper).account
      (SnapshotState.initial upper).latest := fun _ => ⟨rfl, rfl⟩

/-- **Snapshots replace the balances** along a sequence of responses, with an event for every
    change, exactly when no currency goes from a positive amount to zero, or off the list, from one
    response to the next.

    The mapper leaves currencies without an amount out, and the manager writes the currencies that
    it is given and no others. -/
theorem snapshots_replace_iff (hupper : ∀ text, upper (upper text) = upper text)
    (providerName : String) (responses : List (AccountResponse upper × ℚ)) :
    Along (snapshotStep upper providerName) (SnapshotTaken upper providerName)
        (SnapshotState.initial upper) responses ↔
      Along (snapshotStep upper providerName) (NothingVanishes upper)
        (SnapshotState.initial upper) responses := by
  refine along_iff_of_invariant (fun s => Replaced upper providerName s.account s.latest) ?_ ?_
    (replaced_initial providerName) responses
  · intro s input hs
    exact snapshotTaken_iff hupper providerName hs input
  · intro s input hs hkept
    exact ((snapshotTaken_iff hupper providerName hs input).mpr hkept).1

/-- A response with one asset. -/
def btcResponse (free : ℚ) (h : 0 ≤ free) : AccountResponse id :=
  ⟨[⟨"BTC", some free⟩], List.nodup_singleton _, by simpa [CcxtBalance.freeBalance] using h⟩

theorem two_nonneg : (0 : ℚ) ≤ 2 := by norm_num

theorem three_nonneg : (0 : ℚ) ≤ 3 := by norm_num

/-- An amount that goes from 2 to 3 is taken over both times. -/
theorem growing_balance_replaced :
    Along (snapshotStep id "BINANCE") (SnapshotTaken id "BINANCE") (SnapshotState.initial id)
      [(btcResponse 2 two_nonneg, 1), (btcResponse 3 three_nonneg, 2)] := by
  refine (snapshots_replace_iff (fun _ => rfl) "BINANCE" _).mpr ⟨?_, ?_, trivial⟩
  · intro currency hpos
    exact absurd hpos (lt_irrefl 0)
  · intro currency hpos
    have hbtc : "BTC" = currency := by
      by_contra hne
      simp [AccountResponse.amount, btcResponse, snapshotStep, hne] at hpos
    subst hbtc
    decide +kernel

/-- The account had 2 BTC and has none now; cache and account state stay at 2. -/
theorem sold_out_balance_kept :
    ¬ Along (snapshotStep id "BINANCE") (SnapshotTaken id "BINANCE") (SnapshotState.initial id)
      [(btcResponse 2 two_nonneg, 1), (btcResponse 0 Rat.le_refl, 2)] := by
  intro h
  have hcached : cachedAmount id "BINANCE" (takeSnapshot id "BINANCE"
      (takeSnapshot id "BINANCE" AccountManager.new (btcResponse 2 two_nonneg) 1).1
      (btcResponse 0 Rat.le_refl) 2).1 "BTC" = 2 := by decide +kernel
  have hzero := (replaced_iff.mp h.2.1.1 "BTC").1
  have hamount : (btcResponse 0 Rat.le_refl).amount "BTC" = 0 := by decide +kernel
  exact absurd (hcached.symm.trans (hzero.trans hamount)) (by norm_num)

end CryptoTrading.Accounts
