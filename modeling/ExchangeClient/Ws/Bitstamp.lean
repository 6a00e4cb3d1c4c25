import ExchangeClient.Ws.Subscriber

/-!
# The Bitstamp client: `ws/bitstamp_client.cc`

A subscription is one string, the kind of channel followed by the currency pair
with nothing in between. `on_open` also prints every message, which throws for a
string that is not UTF-8, before anything is sent.

`bitstamp::WSClient` leaves `subscribe_fills` and `subscribe_trades` of `IWSClient`
pure, so no object of it can be made, although `bitstamp_ws_test.cc` makes one. What is
said of the client here is said of the methods it has: it holds of an object of any class
that adds the two and leaves the others alone, as long as the two are not called.
-/

namespace ExchangeClient.Bitstamp

variable {F : Type}

structure WSClient where
  subscriptions : List Bytes

namespace WSClient

def addSubscription (lead currencyPair : Bytes) (client : WSClient) : WSClient :=
  { client with subscriptions := client.subscriptions ++ [lead ++ currencyPair] }

def subscribeTicker (currencyPair : Bytes) : WSClient → WSClient :=
  addSubscription (ascii "live_trades_") currencyPair

def subscribeOrders (currencyPair : Bytes) : WSClient → WSClient :=
  addSubscription (ascii "live_orders_") currencyPair

def subscribeOrderbook (currencyPair : Bytes) : WSClient → WSClient :=
  addSubscription (ascii "order_book_") currencyPair

def subscribeDetailOrderbook (currencyPair : Bytes) : WSClient → WSClient :=
  addSubscription (ascii "detail_order_book_") currencyPair

def subscribeFullOrderbook (currencyPair : Bytes) : WSClient → WSClient :=
  addSubscription (ascii "diff_order_book_") currencyPair

def subscribeMessage (channel : Bytes) : Json F :=
  .ofInitList [
    .ofInitList [.string (ascii "event"), .string (ascii "bts:subscribe")],
    .ofInitList [.string (ascii "data"),
      .ofInitList [.ofInitList [.string (ascii "channel"), .string channel]]]]

/-- The loop of `on_open`: a message is printed, then kept. -/
def messages (fmt : DoubleFormat F) : List Bytes → Except Fault (List (Json F))
  | [] => .ok []
  | channel :: channels =>
      let msg : Json F := subscribeMessage channel
      match msg.dump fmt with
      | .error exception => .error (.thrown exception)
      | .ok _ => (messages fmt channels).map (msg :: ·)

def onOpen (fmt : DoubleFormat F) (client : WSClient) : Except Fault (List (Json F)) :=
  messages fmt client.subscriptions

end WSClient

/-! ### Reading a subscription -/

inductive Kind where
  | ticker
  | orders
  | orderbook
  | detailOrderbook
  | fullOrderbook
deriving DecidableEq, Repr

def Kind.all : List Kind := [.ticker, .orders, .orderbook, .detailOrderbook, .fullOrderbook]

/-- What a channel of a kind starts with. -/
def Kind.lead : Kind → Bytes
  | .ticker => ascii "live_trades_"
  | .orders => ascii "live_orders_"
  | .orderbook => ascii "order_book_"
  | .detailOrderbook => ascii "detail_order_book_"
  | .fullOrderbook => ascii "diff_order_book_"

/-- No kind of channel starts with another, though one of them ends with another. -/
theorem prefixFree_lead : Splitting.PrefixFree Kind.lead := by
  intro left right
  cases left <;> cases right <;> decide

def decodeSubscription (message : Json F) : Option (Kind × Bytes) := do
  guard (message.stringMember (ascii "event") = some (ascii "bts:subscribe"))
  let channel ← (← message.member (ascii "data")).stringMember (ascii "channel")
  Splitting.readWord Kind.lead Kind.all channel

def WSClient.subscribe : Kind × Bytes → WSClient → WSClient
  | (.ticker, currencyPair) => WSClient.subscribeTicker currencyPair
  | (.orders, currencyPair) => WSClient.subscribeOrders currencyPair
  | (.orderbook, currencyPair) => WSClient.subscribeOrderbook currencyPair
  | (.detailOrderbook, currencyPair) => WSClient.subscribeDetailOrderbook currencyPair
  | (.fullOrderbook, currencyPair) => WSClient.subscribeFullOrderbook currencyPair

/-- The client as `util::WS` sees it. -/
def subscriber (fmt : DoubleFormat F) : Subscriber F Kind Unit WSClient where
  subscribe := WSClient.subscribe
  onOpen client _ := client.onOpen fmt
  decode := decodeSubscription

variable {fmt : DoubleFormat F}

theorem subscribe_eq (call : Kind × Bytes) (client : WSClient) :
    client.subscribe call = client.addSubscription call.1.lead call.2 := by
  obtain ⟨kind, currencyPair⟩ := call
  cases kind <;> rfl

theorem record_eq (client : WSClient) (calls : List (Kind × Bytes)) :
    (subscriber fmt).record client calls =
      { client with
        subscriptions := client.subscriptions ++ calls.map fun call => call.1.lead ++ call.2 } := by
  induction calls generalizing client with
  | nil =>
      simp only [List.map_nil, List.append_nil]
      rfl
  | cons call calls ih =>
      change (subscriber fmt).record (client.subscribe call) calls = _
      rw [ih, subscribe_eq]
      simp [WSClient.addSubscription]

theorem decode_subscribeMessage (call : Kind × Bytes) :
    decodeSubscription (WSClient.subscribeMessage (call.1.lead ++ call.2) : Json F) =
      some call := by
  have hread : Splitting.readWord Kind.lead Kind.all (call.1.lead ++ call.2) = some call := by
    apply Splitting.readWord_append prefixFree_lead
    cases call.1 <;> decide
  exact hread

theorem wellFormed_subscribeMessage {currencyPair : Bytes} (h : Utf8.Valid currencyPair)
    (kind : Kind) :
    (WSClient.subscribeMessage (kind.lead ++ currencyPair) : Json F).WellFormed fun _ => False := by
  have hlead : Utf8.Valid kind.lead := by
    apply Utf8.valid_of_ascii
    cases kind <;> decide
  apply Json.wellFormed_ofInitList
  simp only [List.forall_mem_cons]
  refine ⟨?_, ?_, by simp⟩
  · apply Json.wellFormed_pair (Utf8.valid_of_ascii (by decide))
    rw [Json.WellFormed]
    exact Utf8.valid_of_ascii (by decide)
  · apply Json.wellFormed_pair (Utf8.valid_of_ascii (by decide))
    apply Json.wellFormed_ofInitList
    simp only [List.mem_singleton, forall_eq]
    apply Json.wellFormed_pair (Utf8.valid_of_ascii (by decide))
    rw [Json.WellFormed]
    exact hlead.append h

/-! ### What is announced -/

theorem messages_eq {channels : List Bytes}
    (h : ∀ channel ∈ channels,
      (WSClient.subscribeMessage channel : Json F).WellFormed fun _ => False) :
    WSClient.messages fmt channels = .ok (channels.map WSClient.subscribeMessage) := by
  induction channels with
  | nil => rfl
  | cons channel channels ih =>
      rw [List.forall_mem_cons] at h
      obtain ⟨text, hdump, -⟩ := Json.parse_dump_of_noFloats fmt h.1
      simp only [WSClient.messages, hdump, ih h.2]
      rfl

theorem announces (client : WSClient) (hempty : client.subscriptions = []) :
    (subscriber fmt).Announces client fun _ => [] where
  onOpen calls env hcalls := by
    refine ⟨calls.map fun call => WSClient.subscribeMessage (call.1.lead ++ call.2), ?_, ?_, ?_⟩
    · rw [record_eq, hempty, List.nil_append, List.nil_append]
      change WSClient.messages fmt (calls.map fun call => call.1.lead ++ call.2) = _
      rw [messages_eq, List.map_map]
      · rfl
      · intro channel hchannel
        obtain ⟨call, hcall, rfl⟩ := List.mem_map.mp hchannel
        exact wellFormed_subscribeMessage (hcalls call hcall) call.1
    · intro message hmessage
      obtain ⟨call, hcall, rfl⟩ := List.mem_map.mp hmessage
      exact wellFormed_subscribeMessage (hcalls call hcall) call.1
    · rw [List.map_map]
      apply List.map_congr_left
      intro call _
      exact decode_subscribeMessage call
  wellFormed env message hmessage := absurd hmessage List.not_mem_nil
  silent env message hmessage := absurd hmessage List.not_mem_nil

end ExchangeClient.Bitstamp
