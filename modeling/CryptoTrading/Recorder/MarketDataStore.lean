import CryptoTrading.Api.MarketData
import CryptoTrading.Lib.LargestKeys
import CryptoTrading.Lib.Run
import Mathlib.Data.Finset.Sort
import Mathlib.Data.Int.ConditionallyCompleteOrder

/-!
# The recorder's window on the market

Embeds `src/recorder/market_data_store.py`.  A record is stored under its ticker and its whole
second; then the observations that are too old are pruned, those of all tickers, and the
oldest ones of the ticker while it has too many.

`observations_run` says what is left after any records: of each ticker, in increasing time,
the last value at each of the largest recorded seconds that are not too old for the latest
record of any ticker.  Records may come late and repeatedly; what an eviction has dropped never
has to come back (`largest_filter_insert`).

A maximum age is its `total_seconds`; one that is not a `timedelta` is none.  Left out: the
lock, `size`, `tickers` and `dataset_id`.
-/

namespace CryptoTrading.Recorder

open CryptoTrading.Lib

/-! ## §1 The store -/

/-- The observations of a ticker, by their second. -/
abbrev ByTimestamp := Dict ℤ MarketData

structure MarketDataStore where
  maxAge : Option ℚ
  maxObservations : Option ℕ
  observations : Dict String ByTimestamp
  latestTimestamp : Option ℤ

namespace MarketDataStore

/-- `MarketDataStore.__init__`. -/
def new (maxAge : Option ℚ) (maxObservations : Option ℕ) : MarketDataStore :=
  ⟨maxAge, maxObservations, Dict.empty, none⟩

/-- The body of the loop of `_prune_before_locked`. -/
def pruneTicker (cutoffEpoch : ℚ) (acc : Dict String ByTimestamp × ℕ) (tickerSymbol : String) :
    Dict String ByTimestamp × ℕ :=
  let byTimestamp := acc.1.getD tickerSymbol Dict.empty
  let stale := byTimestamp.keys.filter fun timestamp : ℤ => decide (timestamp < cutoffEpoch)
  let kept := stale.foldl Dict.erase byTimestamp
  let removed := acc.2 + stale.length
  -- a ticker without observations loses its entry
  (if kept.entries.isEmpty then acc.1.erase tickerSymbol else acc.1.set tickerSymbol kept, removed)

/-- `_prune_before_locked`: the observations that are left, and how many were removed. -/
def pruneBeforeLocked (observations : Dict String ByTimestamp) (cutoffEpoch : ℚ) :
    Dict String ByTimestamp × ℕ :=
  observations.keys.foldl (pruneTicker cutoffEpoch) (observations, 0)

/-- `prune`. -/
def prune (store : MarketDataStore) (cutoffEpoch : ℚ) : MarketDataStore × ℕ :=
  let (observations, removed) := pruneBeforeLocked store.observations cutoffEpoch
  ({ store with observations := observations }, removed)

/-- `count_before`. -/
def countBefore (store : MarketDataStore) (cutoffEpoch : ℚ) : ℕ :=
  (store.observations.values.map fun byTimestamp =>
    byTimestamp.keys.countP fun timestamp : ℤ => decide (timestamp < cutoffEpoch)).sum

/-- The eviction of `record`, on the dictionary that it has under the ticker.  A dictionary that
    the pruning has emptied is no longer the ticker's, and has nothing to evict. -/
def evictOldest (maxObservations : Option ℕ) (observations : Dict String ByTimestamp)
    (tickerSymbol : String) : Dict String ByTimestamp :=
  match maxObservations, observations.get? tickerSymbol with
  | some m, some byTimestamp =>
    observations.set tickerSymbol (byTimestamp.evict m byTimestamp.entries.length)
  | _, _ => observations

/-- The later of the latest second so far and a new one. -/
def latestWith (latest : Option ℤ) (timestamp : ℤ) : ℤ :=
  (latest.map (max · timestamp)).getD timestamp

/-- `record`. -/
def record (store : MarketDataStore) (call : String × MarketData) : MarketDataStore :=
  let (tickerSymbol, marketData) := call
  let timestamp := marketData.epoch
  let byTimestamp := (store.observations.getD tickerSymbol Dict.empty).set timestamp marketData
  let stored := store.observations.set tickerSymbol byTimestamp
  let latest := latestWith store.latestTimestamp timestamp
  let pruned := match store.maxAge with
    | some maxAge => (pruneBeforeLocked stored (latest - maxAge)).1
    | none => stored
  { store with
    observations := evictOldest store.maxObservations pruned tickerSymbol
    latestTimestamp := some latest }

/-- `observations`. -/
def observationsOf (store : MarketDataStore) (tickerSymbol : String) : List MarketData :=
  let byTimestamp := store.observations.getD tickerSymbol Dict.empty
  (byTimestamp.keys.insertionSort (· ≤ ·)).filterMap byTimestamp.get?

end MarketDataStore

/-! ## §2 The window over the history -/

/-- The seconds at which a ticker was recorded. -/
def recordedAt (calls : List (String × MarketData)) (tickerSymbol : String) : Finset ℤ :=
  ((calls.filter (·.1 = tickerSymbol)).map fun call => call.2.epoch).toFinset

/-- The last value recorded for a ticker at a second. -/
def lastRecorded (calls : List (String × MarketData)) (tickerSymbol : String) (timestamp : ℤ) :
    Option MarketData :=
  ((calls.filter fun call => call.1 = tickerSymbol ∧ call.2.epoch = timestamp).map
    Prod.snd).getLast?

/-- The latest second recorded for any ticker. -/
def latestRecorded (calls : List (String × MarketData)) : Option ℤ :=
  (calls.map fun call => call.2.epoch).max?

/-- Not older than the latest record, less the maximum age. -/
def NotOlder (maxAge : Option ℚ) (latest : Option ℤ) (timestamp : ℤ) : Prop :=
  ∀ age ∈ maxAge, ∀ last ∈ latest, (last : ℚ) - age ≤ timestamp

instance (maxAge : Option ℚ) (latest : Option ℤ) (timestamp : ℤ) :
    Decidable (NotOlder maxAge latest timestamp) :=
  inferInstanceAs (Decidable (∀ age ∈ maxAge, ∀ last ∈ latest, _))

/-- The largest seconds of a ticker that are not too old. -/
def windowKeys (maxAge : Option ℚ) (maxObservations : Option ℕ)
    (calls : List (String × MarketData)) (tickerSymbol : String) : Finset ℤ :=
  largest maxObservations
    ((recordedAt calls tickerSymbol).filter (NotOlder maxAge (latestRecorded calls)))

/-- The window that the store is to show: the last values at these seconds, in order. -/
def window (maxAge : Option ℚ) (maxObservations : Option ℕ)
    (calls : List (String × MarketData)) (tickerSymbol : String) : List MarketData :=
  ((windowKeys maxAge maxObservations calls tickerSymbol).sort (· ≤ ·)).filterMap
    (lastRecorded calls tickerSymbol)

/-! ## §3 Pruning -/

namespace MarketDataStore

/-- The observations of a ticker; none without an entry. -/
def view (observations : Dict String ByTimestamp) (tickerSymbol : String) : ByTimestamp :=
  observations.getD tickerSymbol Dict.empty

/-- The entries that satisfy a condition on the second. -/
def keep (p : ℤ → Prop) [DecidablePred p] (byTimestamp : ByTimestamp) : ByTimestamp :=
  byTimestamp.filter fun timestamp _ => decide (p timestamp)

/-- How many of them are before the cutoff. -/
def staleCount (cutoffEpoch : ℚ) (byTimestamp : ByTimestamp) : ℕ :=
  byTimestamp.keys.countP fun timestamp : ℤ => decide (timestamp < cutoffEpoch)

theorem view_set (observations : Dict String ByTimestamp) (ticker ticker' : String)
    (byTimestamp : ByTimestamp) :
    view (observations.set ticker byTimestamp) ticker' =
      if ticker' = ticker then byTimestamp else view observations ticker' := by
  unfold view Dict.getD
  rw [Dict.get?_set]
  split <;> rfl

/-- The stale seconds are deleted, and no others. -/
theorem foldl_erase_stale (cutoffEpoch : ℚ) (byTimestamp : ByTimestamp) :
    (byTimestamp.keys.filter fun timestamp : ℤ => decide (timestamp < cutoffEpoch)).foldl
        Dict.erase byTimestamp =
      keep (fun timestamp => ¬ (timestamp : ℚ) < cutoffEpoch) byTimestamp := by
  rw [Dict.foldl_erase]
  refine Dict.filter_congr fun e he => decide_eq_decide.mpr ?_
  have hkey : e.1 ∈ byTimestamp.keys := List.mem_map_of_mem he
  rw [List.mem_filter, decide_eq_true_iff]
  exact not_congr (and_iff_right hkey)

/-- What one ticker's turn does to the observations of each ticker, and to the count. -/
theorem view_pruneTicker (cutoffEpoch : ℚ) (acc : Dict String ByTimestamp × ℕ)
    (ticker ticker' : String) :
    view (pruneTicker cutoffEpoch acc ticker).1 ticker' =
      if ticker' = ticker then
        keep (fun timestamp => ¬ (timestamp : ℚ) < cutoffEpoch) (view acc.1 ticker)
      else view acc.1 ticker' := by
  simp only [pruneTicker, foldl_erase_stale]
  split
  · rename_i hempty
    unfold view Dict.getD
    rw [Dict.get?_erase]
    split
    · exact (Dict.ext_entries (List.isEmpty_iff.mp hempty)).symm
    · rfl
  · exact view_set _ _ _ _

theorem removed_pruneTicker (cutoffEpoch : ℚ) (acc : Dict String ByTimestamp × ℕ)
    (ticker : String) :
    (pruneTicker cutoffEpoch acc ticker).2 =
      acc.2 + staleCount cutoffEpoch (view acc.1 ticker) := by
  simp only [pruneTicker, staleCount, view]
  rw [List.countP_eq_length_filter]

/-- The loop takes each of its tickers once. -/
theorem foldl_pruneTicker (cutoffEpoch : ℚ) {tickers : List String} (hnodup : tickers.Nodup)
    (acc : Dict String ByTimestamp × ℕ) :
    (∀ ticker, view (tickers.foldl (pruneTicker cutoffEpoch) acc).1 ticker =
      if ticker ∈ tickers then
        keep (fun timestamp => ¬ (timestamp : ℚ) < cutoffEpoch) (view acc.1 ticker)
      else view acc.1 ticker) ∧
    (tickers.foldl (pruneTicker cutoffEpoch) acc).2 =
      acc.2 + (tickers.map fun ticker => staleCount cutoffEpoch (view acc.1 ticker)).sum := by
  induction tickers generalizing acc with
  | nil => simp
  | cons first rest ih =>
    obtain ⟨hfirst, hrest⟩ := List.nodup_cons.mp hnodup
    obtain ⟨hview, hremoved⟩ := ih hrest (pruneTicker cutoffEpoch acc first)
    have hothers {ticker : String} (hne : ticker ≠ first) :
        view (pruneTicker cutoffEpoch acc first).1 ticker = view acc.1 ticker := by
      rw [view_pruneTicker, if_neg hne]
    constructor
    · intro ticker
      rw [List.foldl_cons, hview]
      by_cases hticker : ticker = first
      · subst hticker
        rw [if_neg hfirst, view_pruneTicker, if_pos rfl, if_pos List.mem_cons_self]
      · rw [hothers hticker]
        simp [hticker]
    · rw [List.foldl_cons, hremoved, removed_pruneTicker, List.map_cons, List.sum_cons, add_assoc]
      congr 2
      refine congrArg List.sum (List.map_congr_left fun ticker hticker => ?_)
      rw [hothers fun heq => hfirst (heq ▸ hticker)]

/-- Pruning keeps, of every ticker, what is not before the cutoff. -/
theorem view_pruneBeforeLocked (observations : Dict String ByTimestamp) (cutoffEpoch : ℚ)
    (ticker : String) :
    view (pruneBeforeLocked observations cutoffEpoch).1 ticker =
      keep (fun timestamp => ¬ (timestamp : ℚ) < cutoffEpoch) (view observations ticker) := by
  rw [pruneBeforeLocked, (foldl_pruneTicker cutoffEpoch observations.nodup_keys _).1]
  split
  · rfl
  · rename_i hmissing
    have hnone : observations.get? ticker = none :=
      (Dict.get?_eq_none_iff observations ticker).mpr hmissing
    simp [view, Dict.getD, hnone, keep, Dict.filter, Dict.empty]

/-- **What `count_before` counts is what `prune` removes.** -/
theorem countBefore_eq_prune (store : MarketDataStore) (cutoffEpoch : ℚ) :
    store.countBefore cutoffEpoch = (store.prune cutoffEpoch).2 := by
  show _ = (pruneBeforeLocked store.observations cutoffEpoch).2
  rw [pruneBeforeLocked, (foldl_pruneTicker cutoffEpoch store.observations.nodup_keys _).2,
    Nat.zero_add]
  unfold countBefore Dict.values
  show _ = ((store.observations.entries.map Prod.fst).map _).sum
  rw [List.map_map, List.map_map]
  refine congrArg List.sum (List.map_congr_left fun e he => ?_)
  have hget : store.observations.get? e.1 = some e.2 :=
    (Dict.get?_eq_some_iff _ _ _).mpr he
  show staleCount cutoffEpoch e.2 = staleCount cutoffEpoch (view store.observations e.1)
  rw [view, Dict.getD, hget]
  rfl

/-! ## §4 Evicting -/

theorem keep_of_forall {p : ℤ → Prop} [DecidablePred p] {byTimestamp : ByTimestamp}
    (h : ∀ timestamp ∈ byTimestamp.keys, p timestamp) : keep p byTimestamp = byTimestamp := by
  conv_rhs => rw [← Dict.filter_true byTimestamp]
  exact Dict.filter_congr fun e he => decide_eq_true (h e.1 (List.mem_map_of_mem he))

/-- The eviction keeps the largest seconds of the ticker. -/
theorem view_evictOldest (bound : Option ℕ) (observations : Dict String ByTimestamp)
    (ticker ticker' : String) :
    view (evictOldest bound observations ticker) ticker' =
      if ticker' = ticker then
        keep (· ∈ largest bound (view observations ticker).keySet) (view observations ticker)
      else view observations ticker' := by
  cases hget : observations.get? ticker with
  | none =>
    -- a ticker without an entry has nothing to evict
    have hview : view observations ticker = Dict.empty := by simp [view, Dict.getD, hget]
    have hsame : evictOldest bound observations ticker = observations := by
      cases bound <;> simp [evictOldest, hget]
    rw [hsame]
    split
    · rename_i hticker
      rw [hticker, hview]
      exact (keep_of_forall fun timestamp hmem => absurd hmem List.not_mem_nil).symm
    · rfl
  | some byTimestamp =>
    have hview : view observations ticker = byTimestamp := by simp [view, Dict.getD, hget]
    cases bound with
    | none =>
      split
      · rename_i hticker
        rw [hticker, largest_none, keep_of_forall fun timestamp hmem => Dict.mem_keySet.mpr hmem]
        rfl
      · rfl
    | some m =>
      simp only [evictOldest, hget]
      rw [view_set, hview, Dict.evict_eq_filter m le_rfl]
      rfl

/-! ## §5 One record -/

/-- The pruning of `record` keeps what is not too old; without a maximum age that is all. -/
theorem view_pruned (maxAge : Option ℚ) (latest : ℤ) (observations : Dict String ByTimestamp)
    (ticker : String) :
    view (match maxAge with
      | some maxAge => (pruneBeforeLocked observations (latest - maxAge)).1
      | none => observations) ticker =
    keep (NotOlder maxAge (some latest)) (view observations ticker) := by
  cases maxAge with
  | none => exact (keep_of_forall fun _ _ age hnone => by cases hnone).symm
  | some maxAge =>
    simp only
    rw [view_pruneBeforeLocked]
    refine Dict.filter_congr fun e _ => decide_eq_decide.mpr ?_
    simp [NotOlder]

/-- Not too old once a second is recorded as well. -/
abbrev NotOlderThen (store : MarketDataStore) (timestamp : ℤ) : ℤ → Prop :=
  NotOlder store.maxAge (some (latestWith store.latestTimestamp timestamp))

/-- What the ticker of a record has before the eviction. -/
def recorded (store : MarketDataStore) (ticker : String) (data : MarketData) : ByTimestamp :=
  keep (store.NotOlderThen data.epoch) ((view store.observations ticker).set data.epoch data)

/-- What a record leaves of its own ticker. -/
theorem view_record_self (store : MarketDataStore) (ticker : String) (data : MarketData) :
    view (store.record (ticker, data)).observations ticker =
      keep (· ∈ largest store.maxObservations (store.recorded ticker data).keySet)
        (store.recorded ticker data) := by
  simp only [record]
  rw [view_evictOldest, if_pos rfl, view_pruned, view_set, if_pos rfl]
  rfl

/-- The other tickers are only pruned. -/
theorem view_record_of_ne (store : MarketDataStore) {ticker ticker' : String} (data : MarketData)
    (hne : ticker' ≠ ticker) :
    view (store.record (ticker, data)).observations ticker' =
      keep (store.NotOlderThen data.epoch) (view store.observations ticker') := by
  simp only [record]
  rw [view_evictOldest, if_neg hne, view_pruned, view_set, if_neg hne]

end MarketDataStore

/-! ## §6 One more call in the history -/

theorem recordedAt_concat (calls : List (String × MarketData)) (ticker : String)
    (data : MarketData) (ticker' : String) :
    recordedAt (calls ++ [(ticker, data)]) ticker' =
      if ticker' = ticker then insert data.epoch (recordedAt calls ticker')
      else recordedAt calls ticker' := by
  unfold recordedAt
  by_cases hticker : ticker' = ticker
  · subst hticker
    simp [List.filter_append]
  · simp [List.filter_append, hticker, Ne.symm hticker]

theorem lastRecorded_concat (calls : List (String × MarketData)) (ticker : String)
    (data : MarketData) (ticker' : String) (timestamp : ℤ) :
    lastRecorded (calls ++ [(ticker, data)]) ticker' timestamp =
      if ticker' = ticker ∧ timestamp = data.epoch then some data
      else lastRecorded calls ticker' timestamp := by
  unfold lastRecorded
  by_cases hnew : ticker' = ticker ∧ timestamp = data.epoch
  · obtain ⟨rfl, rfl⟩ := hnew
    simp [List.filter_append]
  · have hskip : ¬ (ticker = ticker' ∧ data.epoch = timestamp) :=
      fun h => hnew ⟨h.1.symm, h.2.symm⟩
    simp [List.filter_append, hnew, hskip]

theorem latestRecorded_concat (calls : List (String × MarketData)) (ticker : String)
    (data : MarketData) :
    latestRecorded (calls ++ [(ticker, data)]) =
      some (MarketDataStore.latestWith (latestRecorded calls) data.epoch) := by
  unfold latestRecorded MarketDataStore.latestWith
  rw [List.map_append]
  cases calls with
  | nil => rfl
  | cons first rest =>
    show (_ :: (_ ++ [data.epoch])).max? = _
    rw [List.max?_cons', List.foldl_append]
    rfl

theorem NotOlder.of_lt {maxAge : Option ℚ} {latest : Option ℤ} ⦃x y : ℤ⦄
    (h : NotOlder maxAge latest x) (hlt : x < y) : NotOlder maxAge latest y :=
  fun age hage last hlast => (h age hage last hlast).trans (by exact_mod_cast hlt.le)

/-- The cutoff only rises. -/
theorem NotOlder.of_later {maxAge : Option ℚ} {latest : Option ℤ} {epoch : ℤ} ⦃x : ℤ⦄
    (h : NotOlder maxAge (some (MarketDataStore.latestWith latest epoch)) x) :
    NotOlder maxAge latest x := by
  rintro age hage last ⟨⟩
  have hle : (last : ℚ) ≤ (max last epoch : ℤ) := by exact_mod_cast le_max_left last epoch
  exact (sub_le_sub_right hle age).trans (h age hage _ rfl)

/-! ## §7 The store shows the window -/

namespace MarketDataStore

/-- The store after some calls: at the seconds of the window, the last values. -/
structure Shows (store : MarketDataStore) (maxAge : Option ℚ) (maxObservations : Option ℕ)
    (calls : List (String × MarketData)) : Prop where
  maxAge_eq : store.maxAge = maxAge
  maxObservations_eq : store.maxObservations = maxObservations
  latest_eq : store.latestTimestamp = latestRecorded calls
  keySet_eq : ∀ ticker, (view store.observations ticker).keySet =
    windowKeys maxAge maxObservations calls ticker
  get?_eq : ∀ ticker, ∀ timestamp ∈ (view store.observations ticker).keySet,
    (view store.observations ticker).get? timestamp = lastRecorded calls ticker timestamp

theorem keySet_keep (p : ℤ → Prop) [DecidablePred p] (byTimestamp : ByTimestamp) :
    (keep p byTimestamp).keySet = byTimestamp.keySet.filter p :=
  Dict.keySet_filter byTimestamp p

/-- What is kept keeps its value. -/
theorem get?_keep {p : ℤ → Prop} [DecidablePred p] {byTimestamp : ByTimestamp} {timestamp : ℤ}
    (h : timestamp ∈ (keep p byTimestamp).keySet) :
    (keep p byTimestamp).get? timestamp = byTimestamp.get? timestamp := by
  obtain ⟨data, hdata⟩ := Option.isSome_iff_exists.mp (Dict.mem_keySet_iff.mp h)
  rw [hdata, ((Dict.get?_filter_eq_some _ _ _ _).mp hdata).1]

theorem shows_new (maxAge : Option ℚ) (maxObservations : Option ℕ) :
    (new maxAge maxObservations).Shows maxAge maxObservations [] where
  maxAge_eq := rfl
  maxObservations_eq := rfl
  latest_eq := rfl
  keySet_eq := fun ticker => by simp [new, view, Dict.getD, windowKeys, recordedAt, largest,
    Dict.keySet, Dict.keys, Dict.empty, Dict.get?, Dict.findIn]
  get?_eq := fun ticker timestamp h => by
    simp [new, view, Dict.getD, Dict.keySet, Dict.keys, Dict.empty, Dict.get?, Dict.findIn] at h

/-- What is left of the ticker before and after the eviction. -/
theorem keySet_recorded {store : MarketDataStore} {maxAge : Option ℚ}
    {maxObservations : Option ℕ} {calls : List (String × MarketData)}
    (h : store.Shows maxAge maxObservations calls) (ticker : String) (data : MarketData) :
    (store.recorded ticker data).keySet =
      (insert data.epoch (windowKeys maxAge maxObservations calls ticker)).filter
        (store.NotOlderThen data.epoch) := by
  rw [recorded, keySet_keep, Dict.keySet_set, h.keySet_eq]

/-- The window after one call more, as the store prunes for it. -/
theorem Shows.windowKeys_concat {store : MarketDataStore} {maxAge : Option ℚ}
    {maxObservations : Option ℕ} {calls : List (String × MarketData)}
    (h : store.Shows maxAge maxObservations calls) (ticker : String) (data : MarketData)
    (ticker' : String) :
    windowKeys maxAge maxObservations (calls ++ [(ticker, data)]) ticker' =
      largest maxObservations ((recordedAt (calls ++ [(ticker, data)]) ticker').filter
        (store.NotOlderThen data.epoch)) := by
  rw [windowKeys, latestRecorded_concat, ← h.latest_eq, ← h.maxAge_eq]

/-- **One record keeps the store on the window.** -/
theorem Shows.record {store : MarketDataStore} {maxAge : Option ℚ} {maxObservations : Option ℕ}
    {calls : List (String × MarketData)} (h : store.Shows maxAge maxObservations calls)
    (call : String × MarketData) :
    (store.record call).Shows maxAge maxObservations (calls ++ [call]) := by
  obtain ⟨ticker, data⟩ := call
  have hlater ⦃x : ℤ⦄ (hx : store.NotOlderThen data.epoch x) :
      NotOlder maxAge (latestRecorded calls) x := by
    rw [← h.latest_eq, ← h.maxAge_eq]
    exact hx.of_later
  refine ⟨h.maxAge_eq, h.maxObservations_eq, ?_, fun ticker' => ?_,
    fun ticker' timestamp hmem => ?_⟩
  · rw [latestRecorded_concat, ← h.latest_eq]
    rfl
  · rw [h.windowKeys_concat, recordedAt_concat]
    rcases eq_or_ne ticker' ticker with rfl | hne
    · rw [view_record_self, keySet_keep, Finset.filter_mem_eq_inter,
        Finset.inter_eq_right.mpr (largest_subset _ _), keySet_recorded h, if_pos rfl,
        h.maxObservations_eq]
      exact largest_filter_insert _ NotOlder.of_lt hlater _ _
    · rw [view_record_of_ne _ _ hne, keySet_keep, h.keySet_eq, if_neg hne]
      exact filter_largest_filter _ NotOlder.of_lt hlater _
  · rw [lastRecorded_concat]
    rcases eq_or_ne ticker' ticker with rfl | hne
    · rw [view_record_self] at hmem ⊢
      rw [get?_keep hmem]
      rw [keySet_keep] at hmem
      have hkept : timestamp ∈ (store.recorded ticker' data).keySet := (Finset.mem_filter.mp hmem).1
      rw [recorded, get?_keep hkept, Dict.get?_set]
      by_cases hnew : timestamp = data.epoch
      · rw [if_pos hnew, if_pos ⟨rfl, hnew⟩]
      · rw [if_neg hnew, if_neg fun hboth => hnew hboth.2]
        rw [recorded, keySet_keep, Dict.keySet_set] at hkept
        exact h.get?_eq _ _ (Finset.mem_of_mem_insert_of_ne (Finset.mem_filter.mp hkept).1 hnew)
    · rw [view_record_of_ne _ _ hne] at hmem ⊢
      rw [get?_keep hmem, if_neg fun hboth => hne hboth.1]
      rw [keySet_keep] at hmem
      exact h.get?_eq _ _ (Finset.mem_filter.mp hmem).1

theorem shows_run (maxAge : Option ℚ) (maxObservations : Option ℕ)
    (calls : List (String × MarketData)) :
    (run record (new maxAge maxObservations) calls).Shows maxAge maxObservations calls := by
  induction calls using List.reverseRecOn with
  | nil => exact shows_new maxAge maxObservations
  | append_singleton calls call ih =>
    rw [run_concat]
    exact ih.record call

/-- The keys of a dictionary in increasing order. -/
theorem insertionSort_keys (byTimestamp : ByTimestamp) :
    byTimestamp.keys.insertionSort (· ≤ ·) = byTimestamp.keySet.sort (· ≤ ·) := by
  refine List.Perm.eq_of_pairwise' (List.pairwise_insertionSort _ _) (Finset.pairwise_sort _ _) ?_
  refine (List.perm_insertionSort _ _).trans ?_
  exact List.perm_of_nodup_nodup_toFinset_eq byTimestamp.nodup_keys (Finset.sort_nodup _ _)
    (Finset.sort_toFinset _ _).symm

/-- **After any records, the store shows of every ticker the last values at the largest seconds
    that are not too old, in increasing time; and `count_before` counts what `prune` removes.** -/
theorem observations_run (maxAge : Option ℚ) (maxObservations : Option ℕ)
    (calls : List (String × MarketData)) :
    (∀ ticker, (run record (new maxAge maxObservations) calls).observationsOf ticker =
      window maxAge maxObservations calls ticker) ∧
    ∀ cutoffEpoch, (run record (new maxAge maxObservations) calls).countBefore cutoffEpoch =
      ((run record (new maxAge maxObservations) calls).prune cutoffEpoch).2 := by
  have hshows := shows_run maxAge maxObservations calls
  refine ⟨fun ticker => ?_, countBefore_eq_prune _⟩
  show ((view _ ticker).keys.insertionSort (· ≤ ·)).filterMap (view _ ticker).get? = _
  rw [insertionSort_keys, window, ← hshows.keySet_eq ticker]
  refine List.filterMap_congr fun timestamp hmem => ?_
  exact hshows.get?_eq ticker timestamp (by simpa using hmem)

end MarketDataStore

end CryptoTrading.Recorder
