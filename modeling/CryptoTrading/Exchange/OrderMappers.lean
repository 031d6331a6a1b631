import CryptoTrading.Api.Interfaces

/-!
# Mapping exchange orders

Embeds `CryptoDotComOrdersMapper` in
`src/exchange/clients/cryptodotcom/mappers/cryptodotcom_mappers.py` with the order part of
`cryptodotcom_dto.py`, and `CCXTOrderMapper` in `src/exchange/clients/ccxt/ccxt_mapper.py`.

Both exchanges report the ordered quantity and the executed one.  The mapped order has a
single quantity, and it is the ordered one.  A mapping that raises is `none`: a required
text or number is missing, or the side is not one of the two.  `upper` is the upper-casing
of strings.  Left out: the fields of the reports that no mapper reads.
-/

namespace CryptoTrading.Exchange

/-! ## §1 Statuses -/

/-- `CryptoDotComBaseMapper.from_exchange_status`. -/
def fromExchangeStatus (status : Option String) : Option OrderStatus :=
  match status with
  | some "NEW" => some .pending
  | some "PENDING" => some .pending
  | some "ACTIVE" => some .processing
  | some "CANCELED" => some .cancelled
  | some "REJECTED" => some .cancelled
  | some "EXPIRED" => some .cancelled
  | some "FILLED" => some .completed
  | _ => none

/-- `CCXTBaseMapper._map_status`: whatever is not listed counts as pending. -/
def mapStatus (status : Option String) : OrderStatus :=
  match status with
  | some "open" => .pending
  | some "closed" => .completed
  | some "canceled" => .cancelled
  | some "expired" => .cancelled
  | some "rejected" => .cancelled
  | _ => .pending

/-! ## §2 Crypto.com -/

/-- `OrderDetails`; `cumulativeQuantity` is what has been executed. -/
structure OrderDetails where
  clientOid : Option String
  side : Option String
  quantity : Option ℚ
  limitPrice : Option ℚ
  avgPrice : Option ℚ
  cumulativeQuantity : Option ℚ
  cumulativeFee : Option ℚ
  status : Option String
  instrumentName : Option String
  createTimeNs : Option ℚ
  updateTime : Option ℚ
  deriving DecidableEq

def nanosecondsPerSecond : ℚ := 1000000000

def millisecondsPerSecond : ℚ := 1000

/-- The loop body of `CryptoDotComOrdersMapper.map`. -/
def OrderDetails.toOrder (d : OrderDetails) : Option Order := do
  let uuid ← d.clientOid
  let quantity ← d.quantity
  let tickerSymbol ← d.instrumentName
  let price ← d.limitPrice
  let createTimeNs ← d.createTimeNs
  let status := fromExchangeStatus d.status
  some { Order.new uuid "CRYPTO_DOT_COM" tickerSymbol price quantity
      -- every side that is not a buy counts as a sell
      (if d.side = some "BUY" then .buy else .sell) (createTimeNs / nanosecondsPerSecond) with
    executedTime :=
      match d.updateTime with
      | some time =>
        if status = some .completed ∧ time ≠ 0 then some (time / millisecondsPerSecond) else none
      | none => none
    status := status
    fees := d.cumulativeFee
    fillPrice := d.avgPrice }

/-! ## §3 CCXT -/

/-- A CCXT order.  A missing price, amount or time stamp reads as zero; `filled` is what has
    been executed, and `feeCost` the cost in the fee, if there is one. -/
structure CcxtOrder where
  clientOrderId : Option String
  id : Option String
  symbol : Option String
  side : Option String
  price : ℚ
  amount : ℚ
  filled : Option ℚ
  average : Option ℚ
  feeCost : Option ℚ
  status : Option String
  timestamp : ℚ
  deriving DecidableEq

/-- `TradeAction(side.upper())`. -/
def tradeActionOf (upper : String → String) (side : String) : Option TradeAction :=
  if upper side = "BUY" then some .buy
  else if upper side = "SELL" then some .sell
  else none

/-- `CCXTOrderMapper.map`. -/
def CcxtOrder.toOrder (upper : String → String) (providerName : String) (o : CcxtOrder) :
    Option Order := do
  let uuid ← orElseStr o.clientOrderId o.id
  let tickerSymbol ← o.symbol
  let side ← o.side
  let tradeAction ← tradeActionOf upper side
  let status := mapStatus o.status
  some { Order.new uuid providerName tickerSymbol o.price o.amount tradeAction
      (o.timestamp / millisecondsPerSecond) with
    executedTime :=
      if status = .completed ∧ o.timestamp ≠ 0 then some (o.timestamp / millisecondsPerSecond)
      else none
    status := some status
    fees := o.feeCost
    fillPrice := o.average }

/-! ## §4 Reports of either exchange -/

inductive OrderReport where
  | cryptoDotCom (details : OrderDetails)
  | ccxt (providerName : String) (order : CcxtOrder)
  deriving DecidableEq

namespace OrderReport

/-- The order that the report is mapped to. -/
def toOrder (upper : String → String) : OrderReport → Option Order
  | .cryptoDotCom details => details.toOrder
  | .ccxt providerName order => order.toOrder upper providerName

/-- The quantity executed so far. -/
def executed : OrderReport → ℚ
  | .cryptoDotCom details => details.cumulativeQuantity.getD 0
  | .ccxt _ order => order.filled.getD 0

/-- The status says that the order is done: filled, cancelled, expired or rejected. -/
def isFinal : OrderReport → Bool
  | .cryptoDotCom details => details.status ∈
      [some "FILLED", some "CANCELED", some "EXPIRED", some "REJECTED"]
  | .ccxt _ order => order.status ∈
      [some "closed", some "canceled", some "expired", some "rejected"]

/-- The status says that the order was filled. -/
def isFilled : OrderReport → Bool
  | .cryptoDotCom details => details.status = some "FILLED"
  | .ccxt _ order => order.status = some "closed"

end OrderReport

/-- An order as it was placed. -/
structure PlacedOrder where
  uuid : String
  tickerSymbol : String
  tradeAction : TradeAction
  quantity : ℚ
  quantity_pos : 0 < quantity

/-- The report is about the order, and complete enough to be mapped. -/
def OrderReport.About (upper : String → String) (placed : PlacedOrder) : OrderReport → Prop
  | .cryptoDotCom details =>
    details.clientOid = some placed.uuid ∧ details.instrumentName = some placed.tickerSymbol ∧
      details.side = some (match placed.tradeAction with | .buy => "BUY" | .sell => "SELL") ∧
      details.quantity = some placed.quantity ∧ details.limitPrice.isSome ∧
      details.createTimeNs.isSome
  | .ccxt _ order =>
    orElseStr order.clientOrderId order.id = some placed.uuid ∧
      order.symbol = some placed.tickerSymbol ∧
      (order.side.bind (tradeActionOf upper)) = some placed.tradeAction ∧
      order.amount = placed.quantity

/-! ## §5 What a mapped report says -/

theorem fromExchangeStatus_eq_completed_iff (status : Option String) :
    fromExchangeStatus status = some .completed ↔ status = some "FILLED" := by
  unfold fromExchangeStatus
  split <;> simp_all

theorem mapStatus_eq_completed_iff (status : Option String) :
    mapStatus status = .completed ↔ status = some "closed" := by
  unfold mapStatus
  split <;> simp_all

/-- A report about an order is mapped to an order with its identity and its ordered quantity,
    completed exactly when the exchange says that it was filled. -/
theorem OrderReport.exists_toOrder {upper : String → String} {placed : PlacedOrder}
    {report : OrderReport} (h : report.About upper placed) :
    ∃ order, report.toOrder upper = some order ∧ order.tickerSymbol = placed.tickerSymbol ∧
      order.tradeAction = placed.tradeAction ∧ order.quantity = placed.quantity ∧
      (order.status = some .completed ↔ report.isFilled = true) := by
  cases report with
  | cryptoDotCom details =>
    obtain ⟨huuid, hsymbol, hside, hquantity, hprice, htime⟩ := h
    obtain ⟨price, hprice⟩ := Option.isSome_iff_exists.mp hprice
    obtain ⟨time, htime⟩ := Option.isSome_iff_exists.mp htime
    simp only [toOrder, OrderDetails.toOrder, huuid, hsymbol, hquantity, hprice, htime,
      Option.bind_eq_bind, Option.bind_some]
    refine ⟨_, rfl, rfl, ?_, rfl, ?_⟩
    · cases haction : placed.tradeAction <;> simp [Order.new, hside, haction]
    · simpa [isFilled] using fromExchangeStatus_eq_completed_iff details.status
  | ccxt providerName o =>
    obtain ⟨huuid, hsymbol, hside, hamount⟩ := h
    obtain ⟨side, hgiven, haction⟩ := Option.bind_eq_some_iff.mp hside
    simp only [toOrder, CcxtOrder.toOrder, huuid, hsymbol, hgiven, haction, Option.bind_eq_bind,
      Option.bind_some]
    refine ⟨_, rfl, rfl, rfl, hamount, ?_⟩
    simpa [isFilled] using mapStatus_eq_completed_iff o.status

end CryptoTrading.Exchange
