import CryptoTrading.Lib.Run
import CryptoTrading.Protection.PortfolioRiskManager

/-!
# Cash reservations of a submitted order

`TradingExecutor._submit_buy_order` first opens the order, then reserves its cost, then
publishes the submitted event, on which the risk manager reserves the cost again unless
it is already there.  The order is live as soon as it is opened (a synchronous execution
even finishes it inside `open_order`), so its terminal event may be processed before,
between or after the two reservation steps.

The terminal event releases what it finds at that moment.  `submission_noLeak_iff` says
for each of the three schedules when nothing is left behind.
-/

namespace CryptoTrading.Protection

open CryptoTrading.Lib QuotePortfolio PortfolioRiskManager

/-! ## §1 Submissions and schedules -/

/-- A buy order as `_submit_buy_order` gets it from `open_order`, with its asset. -/
structure BuySubmission where
  asset : Asset
  order : Order
  provider_eq : order.providerName = asset.exchange
  ticker_eq : order.tickerSymbol = asset.tickerSymbol
  action_eq : order.tradeAction = .buy
  fillPrice_eq : order.fillPrice = none

namespace BuySubmission

def cost (sub : BuySubmission) : ℚ := sub.order.price * sub.order.quantity

end BuySubmission

inductive CashStep where
  | reserve (sub : BuySubmission)
  | submitted (sub : BuySubmission)
  | terminal (event : TerminalEvent) (sub : BuySubmission)

/-- A step of the submission, or the terminal event of its order. -/
def cashStep (m : PortfolioRiskManager) : CashStep → PortfolioRiskManager
  | .reserve sub => (m.reserveOrderCash sub.asset sub.order.uuid sub.cost).1
  | .submitted sub => m.onOrderSubmitted sub.order
  | .terminal event sub => m.onTerminalEvent event sub.order.uuid

/-! ## §2 Comparing the books -/

/-- What a portfolio has in cash and reservations. -/
def books (pf : QuotePortfolio) : ℚ × ℚ × Dict String ℚ :=
  (pf.totalCash, pf.reservedCash, pf.openOrders)

theorem books_eq_iff {pf pf' : QuotePortfolio} :
    books pf = books pf' ↔ pf.totalCash = pf'.totalCash ∧ pf.reservedCash = pf'.reservedCash ∧
      pf.openOrders = pf'.openOrders := by
  simp [books]

theorem reservable_congr {pf pf' : QuotePortfolio} (h : books pf = books pf') (amount : ℚ) :
    pf.Reservable amount ↔ pf'.Reservable amount := by
  obtain ⟨htotal, hreserved, -⟩ := books_eq_iff.mp h
  simp only [Reservable, availableCash, htotal, hreserved]

/-- No portfolio holds a reservation for the order. -/
def Fresh (m : PortfolioRiskManager) (orderUuid : String) : Prop :=
  ∀ key, (m.portfolioAt key).openOrders.get? orderUuid = none

/-- The later portfolios extend the earlier ones. -/
def KeysExtend (m m' : PortfolioRiskManager) : Prop :=
  ∃ created, m'.portfolios.keys = m.portfolios.keys ++ created

/-- All books agree; portfolios may have been created. -/
structure SameBooks (m m' : PortfolioRiskManager) : Prop where
  books_eq : ∀ key, books (m'.portfolioAt key) = books (m.portfolioAt key)
  keys : KeysExtend m m'

/-- The books agree up to one reservation for the order. -/
structure ReservedAt (m m' : PortfolioRiskManager) (key : PortfolioKey) (orderUuid : String)
    (amount : ℚ) : Prop where
  books_eq : ∀ key', key' ≠ key → books (m'.portfolioAt key') = books (m.portfolioAt key')
  totalCash_eq : (m'.portfolioAt key).totalCash = (m.portfolioAt key).totalCash
  reservedCash_eq : (m'.portfolioAt key).reservedCash = (m.portfolioAt key).reservedCash + amount
  openOrders_eq :
    (m'.portfolioAt key).openOrders = (m.portfolioAt key).openOrders.set orderUuid amount
  keys : KeysExtend m m'

/-- No portfolio holds the order, and all have the reservations that they had.  Portfolios may have
    been created on the way. -/
def NoLeak (m m' : PortfolioRiskManager) (orderUuid : String) : Prop :=
  Fresh m' orderUuid ∧
    ∀ key, (m'.portfolioAt key).reservedCash = (m.portfolioAt key).reservedCash ∧
      (m'.portfolioAt key).openOrders = (m.portfolioAt key).openOrders

theorem fresh_of_keys {m : PortfolioRiskManager} {orderUuid : String}
    (h : ∀ key ∈ m.portfolios.keys, (m.portfolioAt key).openOrders.get? orderUuid = none) :
    Fresh m orderUuid := by
  intro key
  by_cases hkey : key ∈ m.portfolios.keys
  · exact h key hkey
  · rw [portfolioAt_of_notMem m hkey]
    rfl

theorem KeysExtend.refl (m : PortfolioRiskManager) : KeysExtend m m := ⟨[], by simp⟩

theorem KeysExtend.trans {m₁ m₂ m₃ : PortfolioRiskManager} (h₁ : KeysExtend m₁ m₂)
    (h₂ : KeysExtend m₂ m₃) : KeysExtend m₁ m₃ := by
  obtain ⟨created₁, h₁⟩ := h₁
  obtain ⟨created₂, h₂⟩ := h₂
  exact ⟨created₁ ++ created₂, by rw [h₂, h₁, List.append_assoc]⟩

theorem keysExtend_setPortfolio (m : PortfolioRiskManager) (key : PortfolioKey)
    (pf : QuotePortfolio) : KeysExtend m (m.setPortfolio key pf) := by
  have hkeys := Dict.keys_set m.portfolios key pf
  by_cases hmem : key ∈ m.portfolios.keys
  · rw [if_pos hmem] at hkeys
    exact ⟨[], by rw [List.append_nil]; exact hkeys⟩
  · rw [if_neg hmem] at hkeys
    exact ⟨[key], hkeys⟩

theorem SameBooks.refl (m : PortfolioRiskManager) : SameBooks m m :=
  ⟨fun _ => rfl, KeysExtend.refl m⟩

theorem SameBooks.trans {m₁ m₂ m₃ : PortfolioRiskManager} (h₁ : SameBooks m₁ m₂)
    (h₂ : SameBooks m₂ m₃) : SameBooks m₁ m₃ :=
  ⟨fun key => (h₂.books_eq key).trans (h₁.books_eq key), h₁.keys.trans h₂.keys⟩

theorem SameBooks.fresh {m m' : PortfolioRiskManager} (h : SameBooks m m') {orderUuid : String}
    (hfresh : Fresh m orderUuid) : Fresh m' orderUuid := by
  intro key
  rw [(books_eq_iff.mp (h.books_eq key)).2.2]
  exact hfresh key

theorem SameBooks.noLeak {m m' : PortfolioRiskManager} (h : SameBooks m m') {orderUuid : String}
    (hfresh : Fresh m orderUuid) : NoLeak m m' orderUuid :=
  ⟨h.fresh hfresh, fun key => (books_eq_iff.mp (h.books_eq key)).2⟩

/-- A reservation that is still there is a leak. -/
theorem not_noLeak_of_held {m m' : PortfolioRiskManager} {orderUuid : String} {key : PortfolioKey}
    {amount : ℚ} (h : (m'.portfolioAt key).openOrders.get? orderUuid = some amount) :
    ¬ NoLeak m m' orderUuid := by
  intro hnone
  have hfresh := hnone.1 key
  rw [h] at hfresh
  cases hfresh

/-- A reservation outlasts steps that keep the books. -/
theorem ReservedAt.of_sameBooks {m m₁ m₂ : PortfolioRiskManager} {key : PortfolioKey}
    {orderUuid : String} {amount : ℚ} (h : ReservedAt m m₁ key orderUuid amount)
    (hsame : SameBooks m₁ m₂) : ReservedAt m m₂ key orderUuid amount := by
  obtain ⟨htotal, hreserved, hopen⟩ := books_eq_iff.mp (hsame.books_eq key)
  exact
    { books_eq := fun other hne => (hsame.books_eq other).trans (h.books_eq other hne)
      totalCash_eq := htotal.trans h.totalCash_eq
      reservedCash_eq := hreserved.trans h.reservedCash_eq
      openOrders_eq := hopen.trans h.openOrders_eq
      keys := h.keys.trans hsame.keys }

theorem ReservedAt.held {m m' : PortfolioRiskManager} {key : PortfolioKey} {orderUuid : String}
    {amount : ℚ} (h : ReservedAt m m' key orderUuid amount) :
    (m'.portfolioAt key).openOrders.get? orderUuid = some amount := by
  rw [h.openOrders_eq, Dict.get?_set_self]

/-! ## §3 The three steps -/

/-- Storing a portfolio with the same books is no change. -/
theorem sameBooks_setPortfolio (m : PortfolioRiskManager) (key : PortfolioKey) :
    SameBooks m (m.setPortfolio key (m.portfolioAt key)) := by
  refine ⟨?_, keysExtend_setPortfolio m key _⟩
  intro key'
  by_cases hkey : key' = key
  · subst hkey
    rw [portfolioAt_setPortfolio_self]
  · rw [portfolioAt_setPortfolio_of_ne m _ hkey]

theorem reservedAt_setPortfolio (m : PortfolioRiskManager) (key : PortfolioKey)
    (orderUuid : String) {amount : ℚ} (hpos : 0 < amount) :
    ReservedAt m (m.setPortfolio key ((m.portfolioAt key).withReservation orderUuid amount hpos))
      key orderUuid amount where
  books_eq := fun key' hkey => by rw [portfolioAt_setPortfolio_of_ne m _ hkey]
  totalCash_eq := by
    rw [portfolioAt_setPortfolio_self]
    rfl
  reservedCash_eq := by
    rw [portfolioAt_setPortfolio_self]
    rfl
  openOrders_eq := by
    rw [portfolioAt_setPortfolio_self]
    rfl
  keys := keysExtend_setPortfolio m key _

/-- `reserve_order_cash` reserves what is reservable. -/
theorem reserveOrderCash_spec (m : PortfolioRiskManager) (asset : Asset) (orderUuid : String)
    (amount : ℚ) :
    ((m.portfolioAt asset.portfolioKey).Reservable amount →
      ReservedAt m (m.reserveOrderCash asset orderUuid amount).1 asset.portfolioKey orderUuid
        amount) ∧
    (¬ (m.portfolioAt asset.portfolioKey).Reservable amount →
      SameBooks m (m.reserveOrderCash asset orderUuid amount).1) := by
  refine ⟨?_, ?_⟩
  · intro hres
    have heq : (m.reserveOrderCash asset orderUuid amount).1 =
        m.setPortfolio asset.portfolioKey
          ((m.portfolioAt asset.portfolioKey).withReservation orderUuid amount hres.1) := by
      simp only [reserveOrderCash, reserveCash_of_reservable hres orderUuid]
    rw [heq]
    exact reservedAt_setPortfolio m asset.portfolioKey orderUuid hres.1
  · intro hres
    have heq : (m.reserveOrderCash asset orderUuid amount).1 =
        m.setPortfolio asset.portfolioKey (m.portfolioAt asset.portfolioKey) := by
      simp only [reserveOrderCash, reserveCash_of_not_reservable hres orderUuid]
    rw [heq]
    exact sameBooks_setPortfolio m asset.portfolioKey

/-- The submitted event would reserve the cost at this key. -/
def SubmitsAt (m : PortfolioRiskManager) (sub : BuySubmission) (key : PortfolioKey) : Prop :=
  m.submittedTarget sub.order = some key ∧ (m.portfolioAt key).Reservable sub.cost

theorem submittedCost (sub : BuySubmission) :
    submittedPrice sub.order * sub.order.quantity = sub.cost := by
  unfold submittedPrice BuySubmission.cost
  rw [sub.fillPrice_eq]

/-- The submitted event reserves at its target, unless the order is already there. -/
theorem onOrderSubmitted_reserves {m : PortfolioRiskManager} {sub : BuySubmission}
    {key : PortfolioKey} (hsub : SubmitsAt m sub key)
    (hnone : (m.portfolioAt key).openOrders.get? sub.order.uuid = none) :
    ReservedAt m (m.onOrderSubmitted sub.order) key sub.order.uuid sub.cost := by
  have heq : m.onOrderSubmitted sub.order =
      m.setPortfolio key
        ((m.portfolioAt key).withReservation sub.order.uuid sub.cost hsub.2.1) := by
    simp only [onOrderSubmitted, sub.action_eq, ↓reduceIte, hsub.1, Dict.contains, hnone,
      Option.isSome_none, Bool.false_eq_true, submittedCost,
      reserveCash_of_reservable hsub.2 sub.order.uuid]
  rw [heq]
  exact reservedAt_setPortfolio m key sub.order.uuid hsub.2.1

/-- Otherwise it changes nothing. -/
theorem onOrderSubmitted_sameBooks {m : PortfolioRiskManager} {sub : BuySubmission}
    (h : ∀ key, SubmitsAt m sub key →
      (m.portfolioAt key).openOrders.contains sub.order.uuid = true) :
    SameBooks m (m.onOrderSubmitted sub.order) := by
  simp only [onOrderSubmitted, sub.action_eq, ↓reduceIte, submittedCost]
  cases htarget : m.submittedTarget sub.order with
  | none => exact SameBooks.refl m
  | some key =>
    simp only
    by_cases hheld : (m.portfolioAt key).openOrders.contains sub.order.uuid = true
    · rw [if_pos hheld]
      exact SameBooks.refl m
    · rw [if_neg hheld]
      have hres : ¬ (m.portfolioAt key).Reservable sub.cost := fun hres =>
        hheld (h key ⟨htarget, hres⟩)
      rw [reserveCash_of_not_reservable hres]
      exact sameBooks_setPortfolio m key

/-- The terminal event of an unknown order does nothing. -/
theorem onTerminalEvent_of_fresh {m : PortfolioRiskManager} {orderUuid : String}
    (hfresh : Fresh m orderUuid) (event : TerminalEvent) :
    m.onTerminalEvent event orderUuid = m := by
  have hnone : m.portfolios.keys.find?
      (fun key => decide (0 < ((m.portfolioAt key).releaseCash orderUuid).2)) = none := by
    rw [List.find?_eq_none]
    intro key _
    rw [decide_eq_true_iff, releaseCash_pos_iff, hfresh key]
    simp
  simp only [onTerminalEvent, releaseOrderCashByUuid, hnone]

/-- The terminal event releases the order in one portfolio and touches no other. -/
theorem onTerminalEvent_of_held {m : PortfolioRiskManager} {orderUuid : String}
    {held : PortfolioKey} {amount : ℚ}
    (h : (m.portfolioAt held).openOrders.get? orderUuid = some amount) (event : TerminalEvent) :
    ∃ key, ((m.portfolioAt key).openOrders.get? orderUuid).isSome ∧
      m.onTerminalEvent event orderUuid =
        m.setPortfolio key ((m.portfolioAt key).releaseCash orderUuid).1 := by
  have hmem : held ∈ m.portfolios.keys := by
    by_contra hnot
    rw [portfolioAt_of_notMem m hnot] at h
    cases h
  cases hfind : m.portfolios.keys.find?
      (fun key => decide (0 < ((m.portfolioAt key).releaseCash orderUuid).2)) with
  | none =>
    have hzero := List.find?_eq_none.mp hfind held hmem
    rw [decide_eq_true_iff, releaseCash_pos_iff, h] at hzero
    exact absurd rfl hzero
  | some key =>
    have hpos := List.find?_some hfind
    rw [decide_eq_true_iff, releaseCash_pos_iff] at hpos
    exact ⟨key, hpos, by simp only [onTerminalEvent, releaseOrderCashByUuid, hfind]⟩

/-- The terminal event undoes a single reservation. -/
theorem onTerminalEvent_of_reservedAt {m m' : PortfolioRiskManager} {key : PortfolioKey}
    {orderUuid : String} {amount : ℚ} (hfresh : Fresh m orderUuid)
    (h : ReservedAt m m' key orderUuid amount) (event : TerminalEvent) :
    SameBooks m (m'.onTerminalEvent event orderUuid) := by
  obtain ⟨key', hheld, heq⟩ := onTerminalEvent_of_held h.held event
  -- the order is held nowhere else
  have hkey : key' = key := by
    by_contra hne
    rw [(books_eq_iff.mp (h.books_eq key' hne)).2.2, hfresh key'] at hheld
    cases hheld
  subst hkey
  obtain ⟨-, hopen, hreserved, htotal⟩ := releaseCash_of_some h.held
  rw [heq]
  refine ⟨?_, h.keys.trans (keysExtend_setPortfolio m' key' _)⟩
  intro other
  by_cases hother : other = key'
  · subst hother
    rw [portfolioAt_setPortfolio_self, books_eq_iff, hopen, hreserved, htotal, h.totalCash_eq,
      h.reservedCash_eq, h.openOrders_eq, add_sub_cancel_right,
      Dict.erase_set_of_get?_none _ _ (hfresh other),
      max_eq_right (m.portfolioAt other).reservedCash_nonneg]
    exact ⟨rfl, rfl, rfl⟩
  · rw [portfolioAt_setPortfolio_of_ne m' _ hother]
    exact h.books_eq other hother

/-- When two portfolios hold the order, the terminal event leaves one of them as it is. -/
theorem not_noLeak_of_held_twice {m m' : PortfolioRiskManager} {orderUuid : String}
    {key₁ key₂ : PortfolioKey} {amount₁ amount₂ : ℚ} (hne : key₁ ≠ key₂)
    (h₁ : (m'.portfolioAt key₁).openOrders.get? orderUuid = some amount₁)
    (h₂ : (m'.portfolioAt key₂).openOrders.get? orderUuid = some amount₂)
    (event : TerminalEvent) : ¬ NoLeak m (m'.onTerminalEvent event orderUuid) orderUuid := by
  obtain ⟨released, -, heq⟩ := onTerminalEvent_of_held h₁ event
  rw [heq]
  by_cases hreleased : released = key₂
  · subst hreleased
    rw [← portfolioAt_setPortfolio_of_ne m' _ hne] at h₁
    exact not_noLeak_of_held h₁
  · rw [← portfolioAt_setPortfolio_of_ne m' _ (Ne.symm hreleased)] at h₂
    exact not_noLeak_of_held h₂

/-! ## §4 Stability of the submitted event's target -/

/-- A portfolio that was created later has nothing to reserve. -/
theorem not_reservable_of_created {m m' : PortfolioRiskManager} {key : PortfolioKey}
    (hbooks : books (m'.portfolioAt key) = books (m.portfolioAt key))
    (hnew : key ∉ m.portfolios.keys) (amount : ℚ) : ¬ (m'.portfolioAt key).Reservable amount := by
  rw [reservable_congr hbooks, portfolioAt_of_notMem m hnew]
  exact new_not_reservable key.1 key.2 amount

theorem submittedTarget_of_keysExtend {m m' : PortfolioRiskManager} (h : KeysExtend m m')
    {order : Order} {key : PortfolioKey} (htarget : m.submittedTarget order = some key) :
    m'.submittedTarget order = some key := by
  obtain ⟨created, hkeys⟩ := h
  unfold submittedTarget at htarget ⊢
  simp only [hkeys, List.find?_append, htarget, Option.some_or]

theorem submittedTarget_cases {m m' : PortfolioRiskManager} (h : KeysExtend m m')
    {order : Order} {key : PortfolioKey} (htarget : m'.submittedTarget order = some key) :
    m.submittedTarget order = some key ∨ key ∉ m.portfolios.keys := by
  obtain ⟨created, hkeys⟩ := h
  cases hold : m.submittedTarget order with
  | some key' =>
    left
    rw [← htarget, submittedTarget_of_keysExtend ⟨created, hkeys⟩ hold]
  | none =>
    right
    unfold submittedTarget at htarget hold
    have hmatch := List.find?_some htarget
    intro hmem
    exact absurd hmatch (List.find?_eq_none.mp hold key hmem)

/-- The submitted event reserves in the later manager where it would have in the earlier
    one, as long as the books of that portfolio agree. -/
theorem submitsAt_congr {m m' : PortfolioRiskManager} (hkeys : KeysExtend m m')
    {sub : BuySubmission} {key : PortfolioKey}
    (hbooks : books (m'.portfolioAt key) = books (m.portfolioAt key)) :
    SubmitsAt m' sub key ↔ SubmitsAt m sub key := by
  constructor
  · rintro ⟨htarget, hres⟩
    rcases submittedTarget_cases hkeys htarget with hold | hnew
    · exact ⟨hold, (reservable_congr hbooks _).mp hres⟩
    · exact absurd hres (not_reservable_of_created hbooks hnew _)
  · rintro ⟨htarget, hres⟩
    exact ⟨submittedTarget_of_keysExtend hkeys htarget, (reservable_congr hbooks _).mpr hres⟩

/-- When the books are as at the start, the submitted event leaks if it reserves at all. -/
theorem noLeak_onOrderSubmitted_iff {m m' : PortfolioRiskManager} {sub : BuySubmission}
    (hfresh : Fresh m sub.order.uuid) (h : SameBooks m m') :
    NoLeak m (m'.onOrderSubmitted sub.order) sub.order.uuid ↔ ¬ ∃ key, SubmitsAt m sub key := by
  constructor
  · rintro hnone ⟨key, hsub⟩
    have hsub' : SubmitsAt m' sub key := (submitsAt_congr h.keys (h.books_eq key)).mpr hsub
    have hreserved := onOrderSubmitted_reserves hsub' (h.fresh hfresh key)
    exact not_noLeak_of_held hreserved.held hnone
  · intro hno
    have hsame : SameBooks m' (m'.onOrderSubmitted sub.order) := by
      refine onOrderSubmitted_sameBooks ?_
      intro key hsub
      exact absurd ⟨key, (submitsAt_congr h.keys (h.books_eq key)).mp hsub⟩ hno
    exact (h.trans hsame).noLeak hfresh

/-! ## §5 The three schedules -/

/-- The reservation of `_submit_buy_order` goes through. -/
def Reserves (m : PortfolioRiskManager) (sub : BuySubmission) : Prop :=
  (m.portfolioAt sub.asset.portfolioKey).Reservable sub.cost

/-- When nothing is left of the order, by the place of the terminal event: first, between
    the reservation and the submitted event, or last. -/
def LeakFree (m : PortfolioRiskManager) (sub : BuySubmission) : List CashStep → Prop
  -- whatever is reserved after the event stays
  | .terminal _ _ :: _ => ¬ Reserves m sub ∧ ¬ ∃ key, SubmitsAt m sub key
  -- the first reservation is released, the submitted event must not add one
  | _ :: .terminal _ _ :: _ => ¬ ∃ key, SubmitsAt m sub key
  -- one reservation is released; two in different portfolios are one too many
  | _ => ¬ (Reserves m sub ∧ ∃ key, key ≠ sub.asset.portfolioKey ∧ SubmitsAt m sub key)

variable {m : PortfolioRiskManager} {sub : BuySubmission}

theorem noLeak_terminal_first (hfresh : Fresh m sub.order.uuid) (event : TerminalEvent) :
    NoLeak m (run cashStep m [.terminal event sub, .reserve sub, .submitted sub])
        sub.order.uuid ↔
      ¬ Reserves m sub ∧ ¬ ∃ key, SubmitsAt m sub key := by
  simp only [run_cons, run_nil, cashStep, onTerminalEvent_of_fresh hfresh event]
  have hspec := reserveOrderCash_spec m sub.asset sub.order.uuid sub.cost
  by_cases hres : Reserves m sub
  -- nobody will ever release this reservation: the submitted event finds it or adds another
  · have hreserved := hspec.1 hres
    generalize (m.reserveOrderCash sub.asset sub.order.uuid sub.cost).1 = m₁ at *
    have hleak : ¬ NoLeak m (m₁.onOrderSubmitted sub.order) sub.order.uuid := by
      by_cases hsub : ∃ key, SubmitsAt m₁ sub key ∧
          (m₁.portfolioAt key).openOrders.get? sub.order.uuid = none
      · obtain ⟨key, hsub, hnone⟩ := hsub
        exact not_noLeak_of_held (onOrderSubmitted_reserves hsub hnone).held
      · have hsame : SameBooks m₁ (m₁.onOrderSubmitted sub.order) := by
          refine onOrderSubmitted_sameBooks ?_
          intro key hkey
          by_contra hno
          refine hsub ⟨key, hkey, ?_⟩
          rw [Dict.contains, Bool.not_eq_true, Option.isSome_eq_false_iff,
            Option.isNone_iff_eq_none] at hno
          exact hno
        exact not_noLeak_of_held (hreserved.of_sameBooks hsame).held
    exact ⟨fun h => absurd h hleak, fun h => absurd hres h.1⟩
  · rw [noLeak_onOrderSubmitted_iff hfresh (hspec.2 hres)]
    exact ⟨fun h => ⟨hres, h⟩, fun h => h.2⟩

theorem noLeak_terminal_between (hfresh : Fresh m sub.order.uuid) (event : TerminalEvent) :
    NoLeak m (run cashStep m [.reserve sub, .terminal event sub, .submitted sub])
        sub.order.uuid ↔
      ¬ ∃ key, SubmitsAt m sub key := by
  simp only [run_cons, run_nil, cashStep]
  have hspec := reserveOrderCash_spec m sub.asset sub.order.uuid sub.cost
  -- whether or not the reservation went through, the terminal event restores the books
  have hsame : SameBooks m ((m.reserveOrderCash sub.asset sub.order.uuid sub.cost).1.onTerminalEvent
      event sub.order.uuid) := by
    by_cases hres : Reserves m sub
    · exact onTerminalEvent_of_reservedAt hfresh (hspec.1 hres) event
    -- nothing was reserved, so the event finds nothing
    · have hbooks := hspec.2 hres
      rw [onTerminalEvent_of_fresh (hbooks.fresh hfresh) event]
      exact hbooks
  exact noLeak_onOrderSubmitted_iff hfresh hsame

theorem noLeak_terminal_last (hfresh : Fresh m sub.order.uuid) (event : TerminalEvent) :
    NoLeak m (run cashStep m [.reserve sub, .submitted sub, .terminal event sub])
        sub.order.uuid ↔
      ¬ (Reserves m sub ∧ ∃ key, key ≠ sub.asset.portfolioKey ∧ SubmitsAt m sub key) := by
  simp only [run_cons, run_nil, cashStep]
  -- the case split follows the run: what the first step does, then what the second finds
  have hspec := reserveOrderCash_spec m sub.asset sub.order.uuid sub.cost
  by_cases hres : Reserves m sub
  · have hreserved := hspec.1 hres
    generalize (m.reserveOrderCash sub.asset sub.order.uuid sub.cost).1 = m₁ at *
    by_cases hother : ∃ key, key ≠ sub.asset.portfolioKey ∧ SubmitsAt m sub key
    -- two portfolios hold the order, and the event releases only one of them
    · obtain ⟨key, hne, hsub⟩ := hother
      have hbooks := hreserved.books_eq key hne
      have hsub₁ : SubmitsAt m₁ sub key := (submitsAt_congr hreserved.keys hbooks).mpr hsub
      have hnone : (m₁.portfolioAt key).openOrders.get? sub.order.uuid = none := by
        rw [(books_eq_iff.mp hbooks).2.2]
        exact hfresh key
      have htwice := onOrderSubmitted_reserves hsub₁ hnone
      have hfirst : ((m₁.onOrderSubmitted sub.order).portfolioAt
          sub.asset.portfolioKey).openOrders.get? sub.order.uuid = some sub.cost := by
        rw [(books_eq_iff.mp (htwice.books_eq _ (Ne.symm hne))).2.2]
        exact hreserved.held
      have hleak : ¬ NoLeak m ((m₁.onOrderSubmitted sub.order).onTerminalEvent event
          sub.order.uuid) sub.order.uuid :=
        not_noLeak_of_held_twice (Ne.symm hne) hfirst htwice.held event
      exact ⟨fun h => absurd h hleak, fun h => absurd ⟨hres, key, hne, hsub⟩ h⟩
    -- the submitted event finds the reservation, or has nothing to reserve
    · have hsame : SameBooks m₁ (m₁.onOrderSubmitted sub.order) := by
        refine onOrderSubmitted_sameBooks ?_
        intro key hsub
        by_cases hkey : key = sub.asset.portfolioKey
        · rw [hkey, Dict.contains, hreserved.held]
          rfl
        · have hbooks := hreserved.books_eq key hkey
          exact absurd ⟨key, hkey, (submitsAt_congr hreserved.keys hbooks).mp hsub⟩ hother
      have hstill := hreserved.of_sameBooks hsame
      have hnoLeak := (onTerminalEvent_of_reservedAt hfresh hstill event).noLeak hfresh
      exact ⟨fun _ h => hother h.2, fun _ => hnoLeak⟩
  -- only the submitted event can reserve, and the terminal event undoes that
  · have hbooks := hspec.2 hres
    generalize (m.reserveOrderCash sub.asset sub.order.uuid sub.cost).1 = m₁ at *
    have hnoLeak : NoLeak m ((m₁.onOrderSubmitted sub.order).onTerminalEvent event
        sub.order.uuid) sub.order.uuid := by
      by_cases hsub : ∃ key, SubmitsAt m₁ sub key
      · obtain ⟨key, hsub⟩ := hsub
        have hreserved := onOrderSubmitted_reserves hsub (hbooks.fresh hfresh key)
        have hundone := onTerminalEvent_of_reservedAt (hbooks.fresh hfresh) hreserved event
        exact (hbooks.trans hundone).noLeak hfresh
      · have hsame : SameBooks m₁ (m₁.onOrderSubmitted sub.order) :=
          onOrderSubmitted_sameBooks fun key hkey => absurd ⟨key, hkey⟩ hsub
        have hall := hbooks.trans hsame
        rw [onTerminalEvent_of_fresh (hall.fresh hfresh) event]
        exact hall.noLeak hfresh
    exact ⟨fun _ h => hres h.1, fun _ => hnoLeak⟩

/-- **No leaked reservation.**  For every interleaving of a submission with the terminal
    event of its order, nothing is left reserved exactly when: the event comes last and the
    two reservation steps do not both reserve, in different portfolios; or the event comes
    earlier and the reservation steps after it have nothing to reserve. -/
theorem submission_noLeak_iff (m : PortfolioRiskManager) (sub : BuySubmission)
    (hfresh : Fresh m sub.order.uuid) (event : TerminalEvent) {sched : List CashStep}
    (hsched : Interleaves [.reserve sub, .submitted sub] [.terminal event sub] sched) :
    NoLeak m (run cashStep m sched) sub.order.uuid ↔ LeakFree m sub sched := by
  rcases interleaves_two_one hsched with rfl | rfl | rfl
  · exact noLeak_terminal_first hfresh event
  · exact noLeak_terminal_between hfresh event
  · exact noLeak_terminal_last hfresh event

/-- One asset on one exchange, with cash of 100. -/
def hundredManager : PortfolioRiskManager where
  portfolios := Dict.empty.set ("BINANCE", "USD")
    ((QuotePortfolio.new "BINANCE" "USD").updateCash 100)
  portfolioConfig := PortfolioConfig.default
  explicitDrawdown := none
  explicitConcentration := none

/-- An order for two units at 10. -/
def twentySubmission : BuySubmission where
  asset := ⟨"BTC", "USD", 2, "BINANCE", none, none⟩
  order := Order.new "u1" "BINANCE" "BTC_USD" 10 2 .buy 0
  provider_eq := rfl
  ticker_eq := by decide +kernel
  action_eq := rfl
  fillPrice_eq := rfl

/-- With the fill after the submission, nothing of the order stays reserved. -/
theorem submission_noLeak_iff_fill_last :
    Fresh hundredManager "u1" ∧
      (NoLeak hundredManager
          (run cashStep hundredManager [.reserve twentySubmission, .submitted twentySubmission,
            .terminal .filled twentySubmission]) "u1" ↔
        LeakFree hundredManager twentySubmission [.reserve twentySubmission,
          .submitted twentySubmission, .terminal .filled twentySubmission]) :=
  have hfresh : Fresh hundredManager "u1" := fresh_of_keys (by decide +kernel)
  ⟨hfresh, submission_noLeak_iff hundredManager twentySubmission hfresh .filled
    (.left (.left (.right .nil)))⟩

/-- An order that fills inside `open_order` leaves its whole cost reserved. -/
theorem leak_of_fill_first :
    Interleaves [CashStep.reserve twentySubmission, .submitted twentySubmission]
        [.terminal .filled twentySubmission]
        [.terminal .filled twentySubmission, .reserve twentySubmission,
          .submitted twentySubmission] ∧
      Fresh hundredManager "u1" ∧
      ¬ NoLeak hundredManager
        (run cashStep hundredManager [.terminal .filled twentySubmission,
          .reserve twentySubmission, .submitted twentySubmission]) "u1" := by
  refine ⟨.right (.left (.left .nil)), fresh_of_keys (by decide +kernel), ?_⟩
  have hheld : ((run cashStep hundredManager [.terminal .filled twentySubmission,
      .reserve twentySubmission, .submitted twentySubmission]).portfolioAt
      ("BINANCE", "USD")).openOrders.get? "u1" = some 20 := by decide +kernel
  exact not_noLeak_of_held hheld

end CryptoTrading.Protection
