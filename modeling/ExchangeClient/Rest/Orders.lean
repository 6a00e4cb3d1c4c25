import ExchangeClient.Json.RoundTrip
import ExchangeClient.Rest.Client

/-!
# What an order says on the wire

The two overloads of `place_order` are one kind of call, an order with or without
a price, and what the call asks for is an object that the posted body should
denote. The body denotes it for limit orders over finite numbers and for no other
order: a market order is posted with the price `0`.
-/

namespace ExchangeClient

variable {F : Type}

/-- The arguments of `place_order`. Only the first overload has a price. -/
structure Order (F : Type) where
  market : Bytes
  side : Bytes
  price : Option F
  size : F
  ioc : Bool
  postOnly : Bool
  reduceOnly : Bool

namespace Order

variable (fmt : DoubleFormat F)

def exchange (order : Order F) : Except JsonException (RestExchange F) :=
  match order.price with
  | some price =>
      RESTClient.placeLimitOrder fmt order.market order.side price order.size order.ioc
        order.postOnly order.reduceOnly
  | none =>
      RESTClient.placeMarketOrder fmt order.market order.side order.size order.ioc order.postOnly
        order.reduceOnly

/-- The object the exchange should read. -/
def document (order : Order F) : Json F :=
  .object [
    (ascii "ioc", .boolean order.ioc),
    (ascii "market", .string order.market),
    (ascii "postOnly", .boolean order.postOnly),
    (ascii "price", match order.price with
      | some price => .numberFloat price
      | none => .null),
    (ascii "reduceOnly", .boolean order.reduceOnly),
    (ascii "side", .string order.side),
    (ascii "size", .numberFloat order.size),
    (ascii "type", .string (match order.price with
      | some _ => ascii "limit"
      | none => ascii "market"))]

/-- Either nothing is posted, or what is posted denotes the order. -/
def Faithful (order : Order F) : Prop :=
  ∀ x, order.exchange fmt = .ok x →
    ∃ body, x.call = .post (ascii "orders") body ∧ Json.parse fmt body = .ok order.document

def Finite (order : Order F) : Prop :=
  fmt.isfinite order.size = true ∧ ∀ price ∈ order.price, fmt.isfinite price = true

/-- A limit order over finite numbers. -/
def FiniteLimit (order : Order F) : Prop :=
  fmt.isfinite order.size = true ∧ ∃ price ∈ order.price, fmt.isfinite price = true

/-- The value `place_order` puts in the place of the price. -/
def priceMember (order : Order F) : Json F :=
  match order.price with
  | some price => .numberFloat price
  | none => .numberInteger 0

def typeMember (order : Order F) : Bytes :=
  match order.price with
  | some _ => ascii "limit"
  | none => ascii "market"

def payload (order : Order F) : Json F :=
  RESTClient.orderPayload order.market order.side order.priceMember order.typeMember order.size
    order.ioc order.postOnly order.reduceOnly

theorem exchange_eq (order : Order F) :
    order.exchange fmt = (do
      return RESTClient.exchange fmt (.post (ascii "orders") (← order.payload.dump fmt))) := by
  unfold exchange payload priceMember typeMember
  cases order.price <;> rfl

theorem wellFormed_payload {order : Order F} (hmarket : Utf8.Valid order.market)
    (hside : Utf8.Valid order.side) : order.payload.WellFormed fun _ => True := by
  have hprice : order.priceMember.WellFormed fun _ => True := by
    unfold priceMember
    split <;> simp [Json.WellFormed]
  have htype : Utf8.Valid order.typeMember := by
    unfold typeMember
    split <;> exact Utf8.valid_of_ascii (by decide)
  exact wellFormed_orderPayload _ _ _ _ hmarket hside hprice htype

variable {fmt}

/-- A posted order denotes its payload as `dump` writes it. -/
theorem faithful_iff_asWritten (h : fmt.RoundTrips) {order : Order F}
    (hmarket : Utf8.Valid order.market) (hside : Utf8.Valid order.side) :
    order.Faithful fmt ↔ order.payload.asWritten fmt = order.document := by
  obtain ⟨text, hdump, hparse⟩ := Json.parse_dump h (wellFormed_payload hmarket hside)
  have hexchange : order.exchange fmt =
      .ok (RESTClient.exchange fmt (.post (ascii "orders") text)) := by
    rw [exchange_eq, hdump]
    rfl
  constructor
  · intro hfaithful
    obtain ⟨body, hcall, hbody⟩ := hfaithful _ hexchange
    obtain rfl : text = body := (HttpCall.post.inj hcall).2
    exact Except.ok.inj (hparse.symm.trans hbody)
  · intro heq x hx
    obtain rfl := Except.ok.inj (hexchange.symm.trans hx)
    exact ⟨text, rfl, heq ▸ hparse⟩

theorem asWritten_payload_iff {order : Order F} :
    order.payload.asWritten fmt = order.document ↔ order.FiniteLimit fmt := by
  obtain ⟨market, side, price, size, ioc, postOnly, reduceOnly⟩ := order
  rw [payload, orderPayload_eq]
  cases price with
  | none =>
      simp [document, FiniteLimit, priceMember, typeMember, Json.asWritten,
        Json.asWrittenMembers]
  | some price =>
      by_cases hprice : fmt.isfinite price = true <;> by_cases hsize : fmt.isfinite size = true <;>
        simp [document, FiniteLimit, priceMember, typeMember, Json.asWritten,
          Json.asWrittenMembers, hprice, hsize]

/-- Order bodies are faithful exactly for limit orders over finite numbers. -/
theorem faithful_iff_finiteLimit (h : fmt.RoundTrips) {order : Order F}
    (hmarket : Utf8.Valid order.market) (hside : Utf8.Valid order.side) :
    order.Faithful fmt ↔ order.FiniteLimit fmt :=
  (faithful_iff_asWritten h hmarket hside).trans asWritten_payload_iff

theorem faithful_iff_finiteLimit_example :
    let order : Order SampleDouble :=
      ⟨ascii "BTC-PERP", ascii "buy", some .ten, .hundredth, false, false, false⟩
    order.Faithful SampleDouble.format ↔ order.FiniteLimit SampleDouble.format :=
  faithful_iff_finiteLimit SampleDouble.roundTrips (Utf8.valid_of_ascii (by decide))
    (Utf8.valid_of_ascii (by decide))

/-- `place_order("BTC-PERP", "buy", 0.01)` posts a price that is not null. -/
theorem market_order_not_faithful :
    let order : Order SampleDouble :=
      ⟨ascii "BTC-PERP", ascii "buy", none, .hundredth, false, false, false⟩
    SampleDouble.format.RoundTrips ∧ Utf8.Valid order.market ∧ Utf8.Valid order.side ∧
      ¬ order.Faithful SampleDouble.format := by
  intro order
  have hmarket : Utf8.Valid order.market := Utf8.valid_of_ascii (by decide)
  have hside : Utf8.Valid order.side := Utf8.valid_of_ascii (by decide)
  refine ⟨SampleDouble.roundTrips, hmarket, hside, ?_⟩
  rw [faithful_iff_asWritten SampleDouble.roundTrips hmarket hside, asWritten_payload_iff]
  rintro ⟨-, price, hprice, -⟩
  cases hprice

end Order

end ExchangeClient
