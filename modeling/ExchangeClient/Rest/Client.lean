import ExchangeClient.Json.Parser
import ExchangeClient.Json.Serializer
import ExchangeClient.Util.Http

/-!
# The REST client: `rest/client.cc`

Each operation makes one call on the session and parses the body of the response.
An order is first written as JSON, which throws when a string is not UTF-8; the
call is then not made.
-/

namespace ExchangeClient

open Decimal

variable {F : Type}

/-- What an operation does: a call on the session, and what becomes of the body of
the response. -/
structure RestExchange (F : Type) where
  call : HttpCall
  result : Bytes → Except ParseError (Json F)

namespace RESTClient

/-! ### Configuration -/

def uri : Bytes := ascii "ftx.com"
def apiKey : Bytes := []
def apiSecret : Bytes := []
def subaccountName : Bytes := []

def httpClient : HTTPSession := .configure uri apiKey apiSecret subaccountName

/-! ### Operations -/

variable (fmt : DoubleFormat F)

def exchange (call : HttpCall) : RestExchange F := ⟨call, Json.parse fmt⟩

def listFutures : RestExchange F := exchange fmt (.get (ascii "futures"))

def listMarkets : RestExchange F := exchange fmt (.get (ascii "markets"))

def getOrderbook (market : Bytes) (depth : Int) : RestExchange F :=
  exchange fmt (.get (ascii "markets/" ++ market ++ ascii "?depth=" ++ decimal depth))

def getTrades (market : Bytes) : RestExchange F :=
  exchange fmt (.get (ascii "markets/" ++ market ++ ascii "/trades"))

def getAccountInfo : RestExchange F := exchange fmt (.get (ascii "account"))

def getOpenOrders : RestExchange F := exchange fmt (.get (ascii "orders"))

/-- The payload of an order. The two overloads give `price` and `type` their values. -/
def orderPayload (market side : Bytes) (price : Json F) (type : Bytes) (size : F)
    (ioc postOnly reduceOnly : Bool) : Json F :=
  .ofInitList [
    .ofInitList [.string (ascii "market"), .string market],
    .ofInitList [.string (ascii "side"), .string side],
    .ofInitList [.string (ascii "price"), price],
    .ofInitList [.string (ascii "type"), .string type],
    .ofInitList [.string (ascii "size"), .numberFloat size],
    .ofInitList [.string (ascii "ioc"), .boolean ioc],
    .ofInitList [.string (ascii "postOnly"), .boolean postOnly],
    .ofInitList [.string (ascii "reduceOnly"), .boolean reduceOnly]]

/-- `place_order` with a price. -/
def placeLimitOrder (market side : Bytes) (price size : F) (ioc postOnly reduceOnly : Bool) :
    Except JsonException (RestExchange F) := do
  let payload := orderPayload market side (.numberFloat price) (ascii "limit") size ioc postOnly
    reduceOnly
  return exchange fmt (.post (ascii "orders") (← payload.dump fmt))

/-- `place_order` without a price. `NULL` in the initializer list is an integer. -/
def placeMarketOrder (market side : Bytes) (size : F) (ioc postOnly reduceOnly : Bool) :
    Except JsonException (RestExchange F) := do
  let payload := orderPayload market side (.numberInteger 0) (ascii "market") size ioc postOnly
    reduceOnly
  return exchange fmt (.post (ascii "orders") (← payload.dump fmt))

def cancelOrder (orderId : Bytes) : RestExchange F :=
  exchange fmt (.delete_ (ascii "orders/" ++ orderId))

def getFills : RestExchange F := exchange fmt (.get (ascii "fills"))

def getBalances : RestExchange F := exchange fmt (.get (ascii "wallet/balances"))

def getDepositAddress (ticker : Bytes) : RestExchange F :=
  exchange fmt (.get (ascii "wallet/deposit_address/" ++ ticker))

end RESTClient

inductive RestCall (F : Type) where
  | listFutures
  | listMarkets
  | getOrderbook (market : Bytes) (depth : Int)
  | getTrades (market : Bytes)
  | getAccountInfo
  | getOpenOrders
  | placeLimitOrder (market side : Bytes) (price size : F) (ioc postOnly reduceOnly : Bool)
  | placeMarketOrder (market side : Bytes) (size : F) (ioc postOnly reduceOnly : Bool)
  | cancelOrder (orderId : Bytes)
  | getFills
  | getBalances
  | getDepositAddress (ticker : Bytes)

def RestCall.exchange (fmt : DoubleFormat F) : RestCall F → Except JsonException (RestExchange F)
  | .listFutures => .ok (RESTClient.listFutures fmt)
  | .listMarkets => .ok (RESTClient.listMarkets fmt)
  | .getOrderbook market depth => .ok (RESTClient.getOrderbook fmt market depth)
  | .getTrades market => .ok (RESTClient.getTrades fmt market)
  | .getAccountInfo => .ok (RESTClient.getAccountInfo fmt)
  | .getOpenOrders => .ok (RESTClient.getOpenOrders fmt)
  | .placeLimitOrder market side price size ioc postOnly reduceOnly =>
      RESTClient.placeLimitOrder fmt market side price size ioc postOnly reduceOnly
  | .placeMarketOrder market side size ioc postOnly reduceOnly =>
      RESTClient.placeMarketOrder fmt market side size ioc postOnly reduceOnly
  | .cancelOrder orderId => .ok (RESTClient.cancelOrder fmt orderId)
  | .getFills => .ok (RESTClient.getFills fmt)
  | .getBalances => .ok (RESTClient.getBalances fmt)
  | .getDepositAddress ticker => .ok (RESTClient.getDepositAddress fmt ticker)

/-! ### The payload of an order -/

section Payload

variable (market side : Bytes) (price : Json F) (type : Bytes) (size : F)
  (ioc postOnly reduceOnly : Bool)

/-- The initializer lists make one object, whose members are in key order. -/
theorem orderPayload_eq :
    RESTClient.orderPayload market side price type size ioc postOnly reduceOnly =
      .object [
        (ascii "ioc", .boolean ioc),
        (ascii "market", .string market),
        (ascii "postOnly", .boolean postOnly),
        (ascii "price", price),
        (ascii "reduceOnly", .boolean reduceOnly),
        (ascii "side", .string side),
        (ascii "size", .numberFloat size),
        (ascii "type", .string type)] := by
  rfl

theorem wellFormed_orderPayload {market side : Bytes} {price : Json F} {type : Bytes}
    (hmarket : Utf8.Valid market) (hside : Utf8.Valid side) (hprice : price.WellFormed fun _ => True)
    (htype : Utf8.Valid type) :
    (RESTClient.orderPayload market side price type size ioc postOnly reduceOnly).WellFormed
      fun _ => True := by
  apply Json.wellFormed_ofInitList
  simp only [List.forall_mem_cons]
  refine ⟨?_, ?_, ?_, ?_, ?_, ?_, ?_, ?_, by simp⟩
  all_goals apply Json.wellFormed_pair (Utf8.valid_of_ascii (by decide))
  all_goals simp only [Json.WellFormed, hmarket, hside, hprice, htype]

end Payload

end ExchangeClient
