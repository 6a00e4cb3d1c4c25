import ExchangeClient.Rest.Orders
import ExchangeClient.Util.SignedRequest

/-!
# A signature authorises one call

The signed string has no separators, so it is taken apart from the left: the
timestamp ends at the first byte that is neither a digit nor a minus sign, the
methods are prefix-free words, and the rest determines the operation and its
arguments. In a body, numbers end at a comma and strings at their closing
quotation mark.
-/

namespace ExchangeClient

open Decimal Splitting Serializer

variable {F : Type}

namespace RestCall

variable (fmt : DoubleFormat F)

/-- The string that `authenticate` signs for a call at a timestamp. -/
def signedString (B : Beast) (ts : Int) (c : RestCall F) : Except JsonException Bytes := do
  let x ← c.exchange fmt
  return HTTPSession.signedData ts
    (RESTClient.httpClient.identify (HTTPSession.requestOf B x.call))

/-- The signed string is what is signed. In every session, whatever the clock says and the
signing context holds, the request that is written for the call carries the timestamp and
the digest of the string. -/
def IsSigned (H : EvpSha256) (B : Beast) (c : RestCall F) : Prop :=
  ∀ (session : HTTPSession) (env : Surroundings) (ctx : Encoding.HmacCtx H),
    session.apiSecret.length < 2 ^ 31 → env.connection = none →
    ∃ x data sent, c.exchange fmt = .ok x ∧ c.signedString fmt B env.ts = .ok data ∧
      (session.perform (B := B) env ctx x.call).written = some sent ∧
      sent.values (ascii "FTX-TS") = [decimal env.ts] ∧
      sent.values (ascii "FTX-SIGN") = [Hex.encode (H.hmac session.apiSecret data)]

/-- Orders are about UTF-8 strings and finite numbers. -/
def Admissible : RestCall F → Prop
  | .placeLimitOrder market side price size _ _ _ =>
      Utf8.Valid market ∧ Utf8.Valid side ∧ fmt.isfinite price = true ∧ fmt.isfinite size = true
  | .placeMarketOrder market side size _ _ _ =>
      Utf8.Valid market ∧ Utf8.Valid side ∧ fmt.isfinite size = true
  | _ => True

end RestCall

/-! ### Timestamp and method -/

def HttpCall.signedPart (call : HttpCall) : Bytes :=
  call.verb.toBytes ++ (ascii "/api/" ++ (call.target ++ call.payload))

theorem signedData_requestOf (B : Beast) (session : HTTPSession) (ts : Int) (call : HttpCall) :
    HTTPSession.signedData ts (session.identify (HTTPSession.requestOf B call)) =
      decimal ts ++ call.signedPart := by
  have h : (HTTPSession.requestOf B call).Unsigned call := HTTPSession.unsigned_requestOf call
  rw [HTTPSession.signedData_eq, HttpCall.signedPart]
  simp only [HTTPSession.identify, Request.set_method, Request.set_target, Request.set_body,
    h.method, h.target, h.body, List.append_assoc]

/-- What is signed depends on the call alone, not on the session. -/
theorem signedString_eq {fmt : DoubleFormat F} {c : RestCall F} {x : RestExchange F}
    (hexchange : c.exchange fmt = .ok x) (B : Beast) (session : HTTPSession) (ts : Int) :
    c.signedString fmt B ts =
      .ok (HTTPSession.signedData ts (session.identify (HTTPSession.requestOf B x.call))) := by
  rw [RestCall.signedString, hexchange, signedData_requestOf,
    ← signedData_requestOf B RESTClient.httpClient]
  rfl

theorem isSigned_of_exchange {fmt : DoubleFormat F} {c : RestCall F} {x : RestExchange F}
    (hexchange : c.exchange fmt = .ok x) (H : EvpSha256) (B : Beast) : c.IsSigned fmt H B := by
  intro session env ctx hsecret hconnection
  obtain ⟨sent, hwritten, hts, hsign⟩ :=
    session.perform_signs (B := B) hsecret env hconnection ctx x.call
  refine ⟨x, _, sent, hexchange, signedString_eq hexchange B session env.ts, hwritten, hts, ?_⟩
  rw [hsign, HTTPSession.signature, HTTPSession.signedData_eq]

theorem prefixFree_toBytes : PrefixFree Verb.toBytes := by
  intro left right
  cases left <;> cases right <;> decide

theorem stopsAt_signedPart (call : HttpCall) :
    StopsAt (fun b => b = 0x2D ∨ isDigit b = true) call.signedPart := by
  rw [HttpCall.signedPart]
  cases call.verb <;> simp [Verb.toBytes, ascii, isDigit]

/-- The signed string determines the timestamp, the method and the rest. -/
theorem signedPart_append_inj {ts ts' : Int} {call call' : HttpCall}
    (h : decimal ts ++ call.signedPart = decimal ts' ++ call'.signedPart) :
    ts = ts' ∧ call.verb = call'.verb ∧
      call.target ++ call.payload = call'.target ++ call'.payload := by
  obtain ⟨hts, hpart⟩ := decimal_append_inj (stopsAt_signedPart call) (stopsAt_signedPart call') h
  obtain ⟨hverb, hrest⟩ := prefixFree_toBytes.append_inj hpart
  exact ⟨hts, hverb, List.append_cancel_left hrest⟩

/-! ### Targets -/

/-- A depth at the end of a target is not read as `/trades`. -/
theorem append_depth_ne_trades (left right : Bytes) (depth : Int) :
    left ++ decimal depth ≠ right ++ ascii "/trades" := by
  intro h
  have hlast := congrArg List.getLast? h
  rw [List.getLast?_append_of_ne_nil _ (decimal_ne_nil depth),
    List.getLast?_append_of_ne_nil _ (by decide)] at hlast
  have hmem : (0x73 : UInt8) ∈ decimal depth := List.mem_of_getLast? (hlast.trans rfl)
  exact absurd (mem_decimal hmem) (by decide)

theorem append_depth_inj {market market' : Bytes} {depth depth' : Int}
    (h : market ++ ascii "?depth=" ++ decimal depth =
      market' ++ ascii "?depth=" ++ decimal depth') :
    market = market' ∧ depth = depth' := by
  have hnotMem : ∀ i : Int, (0x3D : UInt8) ∉ decimal i := fun i hi =>
    absurd (mem_decimal hi) (by decide)
  have hsplit : ∀ (left right : Bytes), left ++ ascii "?depth=" ++ right =
      (left ++ ascii "?depth") ++ 0x3D :: right := fun left right => by
    simp [ascii]
  rw [hsplit, hsplit] at h
  -- a market may contain an equals sign, a depth may not: the last one counts
  obtain ⟨hmarket, hdepth⟩ := append_cons_inj_of_notMem_right (hnotMem _) (hnotMem _) h
  exact ⟨List.append_cancel_right hmarket, decimal_injective hdepth⟩

/-- The targets of the operations that read. -/
def RestCall.getTarget : RestCall F → Option Bytes
  | .listFutures => some (ascii "futures")
  | .listMarkets => some (ascii "markets")
  | .getOrderbook market depth =>
      some (ascii "markets/" ++ market ++ ascii "?depth=" ++ decimal depth)
  | .getTrades market => some (ascii "markets/" ++ market ++ ascii "/trades")
  | .getAccountInfo => some (ascii "account")
  | .getOpenOrders => some (ascii "orders")
  | .getFills => some (ascii "fills")
  | .getBalances => some (ascii "wallet/balances")
  | .getDepositAddress ticker => some (ascii "wallet/deposit_address/" ++ ticker)
  | .placeLimitOrder .. | .placeMarketOrder .. | .cancelOrder _ => none

theorem RestCall.getTarget_inj {c c' : RestCall F} (h : c.getTarget.isSome)
    (heq : c.getTarget = c'.getTarget) : c = c' := by
  cases c <;> cases c' <;> try first
    | rfl
    | (simp only [getTarget, Option.isSome_none, Bool.false_eq_true] at h; done)
    | (simp [getTarget, ascii] at heq; done)
  case getOrderbook.getOrderbook market depth market' depth' =>
      simp only [getTarget, Option.some.injEq, List.append_assoc] at heq
      obtain ⟨hmarket, hdepth⟩ := append_depth_inj (by
        simpa only [List.append_assoc] using List.append_cancel_left heq)
      rw [hmarket, hdepth]
  case getOrderbook.getTrades market depth market' =>
      exact absurd (Option.some.inj heq) (append_depth_ne_trades _ _ depth)
  case getTrades.getOrderbook market market' depth =>
      exact absurd (Option.some.inj heq).symm (append_depth_ne_trades _ _ depth)
  case getTrades.getTrades market market' =>
      have h := List.append_cancel_right (Option.some.inj heq)
      rw [List.append_cancel_left h]
  case getDepositAddress.getDepositAddress ticker ticker' =>
      rw [List.append_cancel_left (Option.some.inj heq)]

/-! ### Bodies -/

def boolText (b : Bool) : Bytes := if b then ascii "true" else ascii "false"

theorem prefixFree_boolText : PrefixFree boolText := by
  intro left right
  cases left <;> cases right <;> decide

/-- The text of an order: three flags, three string literals and two numbers. -/
def orderText (ioc : Bool) (market : Bytes) (postOnly : Bool) (price : Bytes) (reduceOnly : Bool)
    (side size type : Bytes) : Bytes :=
  ascii "\x7b\"ioc\":" ++ (boolText ioc ++
    (ascii ",\"market\":\"" ++ (market ++ 0x22 ::
      (ascii ",\"postOnly\":" ++ (boolText postOnly ++
        (ascii ",\"price\":" ++ (price ++ 0x2C ::
          (ascii "\"reduceOnly\":" ++ (boolText reduceOnly ++
            (ascii ",\"side\":\"" ++ (side ++ 0x22 ::
              (ascii ",\"size\":" ++ (size ++ 0x2C ::
                (ascii "\"type\":\"" ++ (type ++ ascii "\"\x7d")))))))))))))))

/-- The text of an order determines all its parts. -/
theorem orderText_inj {ioc ioc' postOnly postOnly' reduceOnly reduceOnly' : Bool}
    {market market' side side' m m' s s' price price' size size' type type' : Bytes}
    (hm : Escaped m market) (hm' : Escaped m' market') (hs : Escaped s side)
    (hs' : Escaped s' side') (hprice : 0x2C ∉ price) (hprice' : 0x2C ∉ price')
    (hsize : 0x2C ∉ size) (hsize' : 0x2C ∉ size')
    (h : orderText ioc m postOnly price reduceOnly s size type =
      orderText ioc' m' postOnly' price' reduceOnly' s' size' type') :
    ioc = ioc' ∧ market = market' ∧ postOnly = postOnly' ∧ price = price' ∧
      reduceOnly = reduceOnly' ∧ side = side' ∧ size = size' ∧ type = type' := by
  -- from the left, part by part; each ends in its own way
  obtain ⟨hioc, h⟩ := prefixFree_boolText.append_inj (List.append_cancel_left h)
  obtain ⟨hmarket, h⟩ := escaped_append_inj hm hm' (List.append_cancel_left h)
  obtain ⟨hpost, h⟩ := prefixFree_boolText.append_inj (List.append_cancel_left h)
  obtain ⟨hprices, h⟩ :=
    append_cons_inj_of_notMem_left hprice hprice' (List.append_cancel_left h)
  obtain ⟨hreduce, h⟩ := prefixFree_boolText.append_inj (List.append_cancel_left h)
  obtain ⟨hside, h⟩ := escaped_append_inj hs hs' (List.append_cancel_left h)
  obtain ⟨hsizes, h⟩ := append_cons_inj_of_notMem_left hsize hsize' (List.append_cancel_left h)
  have htype := List.append_cancel_right (List.append_cancel_left h)
  exact ⟨hioc, hmarket, hpost, hprices, hreduce, hside, hsizes, htype⟩

section Dump

variable {fmt : DoubleFormat F}

/-- `dump` writes a payload as such a text. -/
theorem dump_orderPayload {market side m s price type : Bytes} {priceValue : Json F} {size : F}
    (hm : dumpEscaped market false = .ok m) (hs : dumpEscaped side false = .ok s)
    (hprice : priceValue.dump fmt = .ok price) (htype : dumpEscaped type false = .ok type)
    (hsize : fmt.isfinite size = true) (ioc postOnly reduceOnly : Bool) :
    (RESTClient.orderPayload market side priceValue type size ioc postOnly reduceOnly).dump fmt =
      .ok (orderText ioc m postOnly price reduceOnly s (fmt.toChars size) type) := by
  have hkey : ∀ key ∈ [ascii "ioc", ascii "market", ascii "postOnly", ascii "price",
      ascii "reduceOnly", ascii "side", ascii "size", ascii "type"],
      Json.dumpString key = .ok (0x22 :: key ++ [0x22]) := by
    simp only [List.forall_mem_cons]
    refine ⟨rfl, rfl, rfl, rfl, rfl, rfl, rfl, rfl, by simp⟩
  simp only [List.forall_mem_cons] at hkey
  have hstring : ∀ {value out : Bytes}, dumpEscaped value false = .ok out →
      Json.dumpString value = .ok (0x22 :: out ++ [0x22]) := fun h => by
    rw [Json.dumpString, h]
    rfl
  rw [orderPayload_eq]
  simp only [Json.dump, Json.dumpMembers, hkey, hstring hm, hstring hs, hstring htype, hprice,
    DoubleFormat.dumpFloat, if_pos hsize]
  simp [orderText, boolText, ascii, bind, Except.bind, pure, Except.pure]

end Dump

namespace Order

variable {fmt : DoubleFormat F}

def priceToken (fmt : DoubleFormat F) (order : Order F) : Bytes :=
  match order.price with
  | some price => fmt.toChars price
  | none => dumpInteger 0

theorem dump_priceMember {order : Order F} (h : order.Finite fmt) :
    order.priceMember.dump fmt = .ok (order.priceToken fmt) := by
  unfold priceMember priceToken
  cases hprice : order.price with
  | none => rfl
  | some price =>
      rw [Json.dump, DoubleFormat.dumpFloat, if_pos (h.2 price hprice)]
      rfl

theorem comma_notMem_priceToken (hfmt : fmt.DistinctTokens) {order : Order F}
    (h : order.Finite fmt) : 0x2C ∉ order.priceToken fmt := by
  unfold priceToken
  split
  · next price hprice => exact (hfmt.separatorFree price (h.2 price hprice)).1
  · exact (by decide : (0x2C : UInt8) ∉ dumpInteger 0)

theorem dump_payload {order : Order F} (hmarket : Utf8.Valid order.market)
    (hside : Utf8.Valid order.side) (h : order.Finite fmt) :
    ∃ m s, Escaped m order.market ∧ Escaped s order.side ∧
      order.payload.dump fmt =
        .ok (orderText order.ioc m order.postOnly (order.priceToken fmt) order.reduceOnly s
          (fmt.toChars order.size) order.typeMember) := by
  obtain ⟨m, hm, hdumpm⟩ := dumpEscaped_valid hmarket
  obtain ⟨s, hs, hdumps⟩ := dumpEscaped_valid hside
  have htype : dumpEscaped order.typeMember false = .ok order.typeMember := by
    unfold typeMember
    cases order.price <;> rfl
  exact ⟨m, s, hm, hs,
    dump_orderPayload hdumpm hdumps (dump_priceMember h) htype h.1 _ _ _⟩

theorem price_inj (hfmt : fmt.DistinctTokens) {order order' : Order F} (h : order.Finite fmt)
    (h' : order'.Finite fmt) (htype : order.typeMember = order'.typeMember)
    (htoken : order.priceToken fmt = order'.priceToken fmt) : order.price = order'.price := by
  have hwords : ascii "limit" ≠ ascii "market" := by decide
  unfold typeMember at htype
  unfold priceToken at htoken
  rcases hprice : order.price with _ | price <;> rcases hprice' : order'.price with _ | price' <;>
    simp only [hprice, hprice'] at htype htoken
  · rfl
  · exact absurd htype.symm hwords
  · exact absurd htype hwords
  · rw [hfmt.injective price price' (h.2 price hprice) (h'.2 price' hprice') htoken]

theorem dump_inj (hfmt : fmt.DistinctTokens) {order order' : Order F}
    (hmarket : Utf8.Valid order.market) (hside : Utf8.Valid order.side) (h : order.Finite fmt)
    (hmarket' : Utf8.Valid order'.market) (hside' : Utf8.Valid order'.side)
    (h' : order'.Finite fmt) {body : Bytes} (hbody : order.payload.dump fmt = .ok body)
    (hbody' : order'.payload.dump fmt = .ok body) : order = order' := by
  obtain ⟨m, s, hm, hs, hdump⟩ := dump_payload hmarket hside h
  obtain ⟨m', s', hm', hs', hdump'⟩ := dump_payload hmarket' hside' h'
  have htext := Except.ok.inj ((hdump.symm.trans hbody).trans (hbody'.symm.trans hdump'))
  obtain ⟨hioc, hmarkets, hpost, hprice, hreduce, hsides, hsize, htype⟩ :=
    orderText_inj hm hm' hs hs' (comma_notMem_priceToken hfmt h) (comma_notMem_priceToken hfmt h')
      (hfmt.separatorFree _ h.1).1 (hfmt.separatorFree _ h'.1).1 htext
  have hprices := price_inj hfmt h h' htype hprice
  have hsizes := hfmt.injective _ _ h.1 h'.1 hsize
  cases order
  cases order'
  simp_all

end Order

/-! ### All calls -/

namespace RestCall

variable {fmt : DoubleFormat F}

def ofOrder (order : Order F) : RestCall F :=
  match order.price with
  | some price => .placeLimitOrder order.market order.side price order.size order.ioc
      order.postOnly order.reduceOnly
  | none => .placeMarketOrder order.market order.side order.size order.ioc order.postOnly
      order.reduceOnly

theorem exchange_ofOrder (order : Order F) :
    (ofOrder order).exchange fmt = order.exchange fmt := by
  unfold ofOrder Order.exchange
  cases order.price <;> rfl

/-- What an admissible call makes the session do. -/
inductive Sends (fmt : DoubleFormat F) : RestCall F → HttpCall → Prop
  | get {c : RestCall F} {target : Bytes} : c.getTarget = some target → Sends fmt c (.get target)
  | post {order : Order F} {body : Bytes} :
      Utf8.Valid order.market → Utf8.Valid order.side → order.Finite fmt →
      order.payload.dump fmt = .ok body → Sends fmt (ofOrder order) (.post (ascii "orders") body)
  | delete_ (orderId : Bytes) :
      Sends fmt (.cancelOrder orderId) (.delete_ (ascii "orders/" ++ orderId))

theorem sends_ofOrder (order : Order F) (hmarket : Utf8.Valid order.market)
    (hside : Utf8.Valid order.side) (h : order.Finite fmt) :
    ∃ call, (ofOrder order).exchange fmt = .ok (RESTClient.exchange fmt call) ∧
      Sends fmt (ofOrder order) call := by
  obtain ⟨m, s, -, -, hdump⟩ := Order.dump_payload hmarket hside h
  refine ⟨_, ?_, .post hmarket hside h hdump⟩
  rw [exchange_ofOrder, Order.exchange_eq, hdump]
  rfl

theorem exchange_sends {c : RestCall F} (h : c.Admissible fmt) :
    ∃ call, c.exchange fmt = .ok (RESTClient.exchange fmt call) ∧ Sends fmt c call := by
  cases c with
  | placeLimitOrder market side price size ioc postOnly reduceOnly =>
      obtain ⟨hmarket, hside, hprice, hsize⟩ := h
      exact sends_ofOrder ⟨market, side, some price, size, ioc, postOnly, reduceOnly⟩ hmarket hside
        ⟨hsize, by simpa using hprice⟩
  | placeMarketOrder market side size ioc postOnly reduceOnly =>
      obtain ⟨hmarket, hside, hsize⟩ := h
      exact sends_ofOrder ⟨market, side, none, size, ioc, postOnly, reduceOnly⟩ hmarket hside
        ⟨hsize, by simp⟩
  | cancelOrder orderId => exact ⟨_, rfl, .delete_ orderId⟩
  | _ => exact ⟨_, rfl, .get rfl⟩

/-- Two calls that send the same method, target and body are the same call. -/
theorem Sends.inj (hfmt : fmt.DistinctTokens) {c c' : RestCall F} {call call' : HttpCall}
    (h : Sends fmt c call) (h' : Sends fmt c' call') (hverb : call.verb = call'.verb)
    (htext : call.target ++ call.payload = call'.target ++ call'.payload) : c = c' := by
  cases h with
  | get htarget =>
      cases h' with
      | get htarget' =>
          simp only [HttpCall.target, HttpCall.payload, List.append_nil] at htext
          exact getTarget_inj (by rw [htarget]; rfl) (by rw [htarget, htarget', htext])
      | post | delete_ => cases hverb
  | post hmarket hside hfinite hbody =>
      cases h' with
      | post hmarket' hside' hfinite' hbody' =>
          have hbodies := List.append_cancel_left htext
          simp only [HttpCall.payload] at hbodies
          rw [Order.dump_inj hfmt hmarket hside hfinite hmarket' hside' hfinite' hbody
            (hbodies ▸ hbody')]
      | get | delete_ => cases hverb
  | delete_ orderId =>
      cases h' with
      | delete_ orderId' =>
          simp only [HttpCall.target, HttpCall.payload, List.append_nil] at htext
          rw [List.append_cancel_left htext]
      | get | post => cases hverb

/-- A signature authorises exactly one call: what `authenticate` signs for a call is its
signed string, and that string determines the timestamp, the operation and all
arguments. -/
theorem signed_string_determines_call (hfmt : fmt.DistinctTokens) (H : EvpSha256) (B : Beast) :
    (∀ c : RestCall F, c.Admissible fmt → c.IsSigned fmt H B) ∧
      ∀ (ts ts' : Int) (c c' : RestCall F), c.Admissible fmt → c'.Admissible fmt →
        c.signedString fmt B ts = c'.signedString fmt B ts' → ts = ts' ∧ c = c' := by
  constructor
  · intro c h
    obtain ⟨call, hexchange, -⟩ := exchange_sends h
    exact isSigned_of_exchange hexchange H B
  · intro ts ts' c c' h h' heq
    obtain ⟨call, hexchange, hsends⟩ := exchange_sends h
    obtain ⟨call', hexchange', hsends'⟩ := exchange_sends h'
    rw [signedString_eq hexchange B RESTClient.httpClient, signedData_requestOf,
      signedString_eq hexchange' B RESTClient.httpClient, signedData_requestOf] at heq
    obtain ⟨hts, hverb, htext⟩ := signedPart_append_inj (Except.ok.inj heq)
    exact ⟨hts, hsends.inj hfmt hsends' hverb htext⟩

/-- For an order and a session of a sample configuration. -/
theorem signed_string_determines_call_example :
    let order : RestCall SampleDouble :=
      .placeLimitOrder (ascii "BTC-PERP") (ascii "buy") .ten .hundredth false false false
    let session := HTTPSession.configure (ascii "ftx.com") (ascii "key") (ascii "secret") []
    let env : Surroundings := ⟨1588591511721, fun _ => 0, none, .ok (ascii "\x7b\x7d")⟩
    (∃ x data sent, order.exchange SampleDouble.format = .ok x ∧
      order.signedString SampleDouble.format .reference 1588591511721 = .ok data ∧
      (session.perform (B := .reference) env (.init evpSha256) x.call).written = some sent ∧
      sent.values (ascii "FTX-TS") = [decimal 1588591511721] ∧
      sent.values (ascii "FTX-SIGN") = [Hex.encode (evpSha256.hmac session.apiSecret data)]) ∧
    ((1588591511721 : Int) = 1588591511721 ∧ order = order) :=
  have hadmissible : RestCall.Admissible SampleDouble.format
      (.placeLimitOrder (ascii "BTC-PERP") (ascii "buy") .ten .hundredth false false false) :=
    ⟨Utf8.valid_of_ascii (by decide), Utf8.valid_of_ascii (by decide), by decide, by decide⟩
  have hall := signed_string_determines_call SampleDouble.distinctTokens evpSha256 .reference
  ⟨hall.1 _ hadmissible _ ⟨1588591511721, fun _ => 0, none, .ok (ascii "\x7b\x7d")⟩
      (.init evpSha256) (by decide) rfl,
    hall.2 _ _ _ _ hadmissible hadmissible rfl⟩

end RestCall

end ExchangeClient
