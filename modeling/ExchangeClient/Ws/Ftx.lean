import ExchangeClient.Util.Encoding
import ExchangeClient.Ws.Subscriber

/-!
# The FTX client: `ws/ftx_client.cc`

`on_open` returns a login message, if there are credentials, and one message for
each subscription. The login is built in two stages, of which the second is a
`push_back` on the finished message.
-/

namespace ExchangeClient.Ftx

open Decimal Encoding

variable {F : Type}

structure WSClient where
  apiKey : Bytes
  apiSecret : Bytes
  subaccountName : Bytes
  subscriptions : List (Bytes × Bytes)

/-- What `on_open` finds: the clock, whose reading is a `long`, the stack under
`signed_msg` and the signing context. -/
structure SigningEnv (H : EvpSha256) where
  ts : Int
  signedMsg : Buffer 64
  ctx : HmacCtx H
  long_ts : -2 ^ 63 ≤ ts ∧ ts < 2 ^ 63

namespace WSClient

/-- The client as it is made: the credentials are literals. -/
def new : WSClient where
  apiKey := ascii "r9FdmN_A-3qJ9njAhU0hJmOj8LeYiYrPJv_X8kz8"
  apiSecret := ascii "qjhKWD9K2e78iYO-EYy8NI8kpY3S8z1lpkud7TEj"
  subaccountName := []
  subscriptions := []

/-! ### Subscriptions -/

def addSubscription (market channel : Bytes) (client : WSClient) : WSClient :=
  { client with subscriptions := client.subscriptions ++ [(market, channel)] }

def subscribeOrders (market : Bytes) : WSClient → WSClient := addSubscription market (ascii "orders")

def subscribeOrderbook (market : Bytes) : WSClient → WSClient :=
  addSubscription market (ascii "orderbook")

def subscribeFills (market : Bytes) : WSClient → WSClient := addSubscription market (ascii "fills")

def subscribeTrades (market : Bytes) : WSClient → WSClient := addSubscription market (ascii "trades")

def subscribeTicker (market : Bytes) : WSClient → WSClient := addSubscription market (ascii "ticker")

/-! ### `on_open` -/

def loginMessage (apiKey sign : Bytes) (ts : Int) : Json F :=
  .ofInitList [
    .ofInitList [.string (ascii "op"), .string (ascii "login")],
    .ofInitList [.string (ascii "args"),
      .ofInitList [
        .ofInitList [.string (ascii "key"), .string apiKey],
        .ofInitList [.string (ascii "sign"), .string sign],
        .ofInitList [.string (ascii "time"), .numberInteger ts]]]]

/-- The subaccount is pushed back on the message. -/
def addSubaccount (client : WSClient) (msg : Json F) : Except JsonException (Json F) :=
  if client.subaccountName = [] then .ok msg
  else msg.pushBack [.string (ascii "subaccount"), .string client.subaccountName]

def subscribeMessage : Bytes × Bytes → Json F
  | (market, channel) =>
      .ofInitList [
        .ofInitList [.string (ascii "op"), .string (ascii "subscribe")],
        .ofInitList [.string (ascii "channel"), .string channel],
        .ofInitList [.string (ascii "market"), .string market]]

def hasCredentials (client : WSClient) : Bool :=
  !(client.apiKey.isEmpty || client.apiSecret.isEmpty)

variable {H : EvpSha256}

/-- The first part of `on_open`, and the signing context it leaves. -/
def login (client : WSClient) (env : SigningEnv H) :
    Except Fault (List (Json F)) × HmacCtx H :=
  if client.hasCredentials then
    let data := decimal env.ts ++ ascii "websocket_login"
    let hmacced := hmac env.ctx env.signedMsg client.apiSecret data digestLen
    let msgs :=
      match stringToHex hmacced.1 32 with
      | none => .error .outOfBounds
      | some sign =>
          match client.addSubaccount (loginMessage client.apiKey sign env.ts) with
          | .error exception => .error (.thrown exception)
          | .ok msg => .ok [msg]
    (msgs, hmacced.2)
  else (.ok [], env.ctx)

def onOpen (client : WSClient) (env : SigningEnv H) :
    Except Fault (List (Json F)) × HmacCtx H :=
  let login : Except Fault (List (Json F)) × HmacCtx H := client.login env
  (login.1.map (· ++ client.subscriptions.map subscribeMessage), login.2)

/-! ### The login -/

def loginData (ts : Int) : Bytes := decimal ts ++ ascii "websocket_login"

/-- Under any secret the digest has the 32 bytes that are turned into text. -/
theorem stringToHex_hmac (client : WSClient) (env : SigningEnv H) :
    ∃ digest : Bytes,
      stringToHex (hmac env.ctx env.signedMsg client.apiSecret (loginData env.ts) digestLen).1 32 =
        some (Hex.encode digest) ∧
      (client.apiSecret.length < 2 ^ 31 → digest = H.hmac client.apiSecret (loginData env.ts)) := by
  have hlen := length_hmac_fst env.ctx env.signedMsg client.apiSecret (loginData env.ts) digestLen
  have hcount : (digestLen : Nat) = 32 := rfl
  rw [hcount] at hlen
  refine ⟨_, ?_, fun hsecret => hmac_eq env.ctx env.signedMsg hsecret (loginData env.ts)⟩
  rw [stringToHex_eq (Nat.le_of_eq hlen.symm), List.take_of_length_le (Nat.le_of_eq hlen)]

/-- The login message as it leaves `on_open`: the members `args` and `op`, and behind
them the subaccount, if there is one. -/
def sentLogin (client : WSClient) (ts : Int) (sign : Bytes) : Json F :=
  .object ([
    (ascii "args", .object [
      (ascii "key", .string client.apiKey),
      (ascii "sign", .string sign),
      (ascii "time", .numberInteger ts)]),
    (ascii "op", .string (ascii "login"))] ++
    if client.subaccountName = [] then []
    else [(ascii "subaccount", .string client.subaccountName)])

theorem addSubaccount_loginMessage (client : WSClient) (ts : Int) (sign : Bytes) :
    client.addSubaccount (loginMessage client.apiKey sign ts : Json F) =
      .ok (client.sentLogin ts sign) := by
  unfold addSubaccount sentLogin
  by_cases h : client.subaccountName = []
  · simp only [if_pos h]
    rfl
  · simp only [if_neg h]
    rfl

theorem login_eq (client : WSClient) (env : SigningEnv H) (h : client.hasCredentials = true) :
    ∃ digest : Bytes,
      (client.login env).1 = .ok [(client.sentLogin env.ts (Hex.encode digest) : Json F)] ∧
      (client.apiSecret.length < 2 ^ 31 → digest = H.hmac client.apiSecret (loginData env.ts)) := by
  obtain ⟨digest, hhex, hdigest⟩ := stringToHex_hmac client env
  refine ⟨digest, ?_, hdigest⟩
  unfold loginData at hhex
  simp only [login, if_pos h, hhex, addSubaccount_loginMessage]

theorem valid_hex (digest : Bytes) : Utf8.Valid (Hex.encode digest) := by
  apply Utf8.valid_of_ascii
  rw [List.all_eq_true]
  intro c hc
  have hrange : ∀ c : UInt8, Hex.IsDigit c → decide (c ≤ 0x7F) = true :=
    forall_uint8 (by decide +kernel)
  exact hrange c (Hex.isDigit_of_mem_encode hc)

theorem wellFormed_loginMessage {apiKey : Bytes} (hkey : Utf8.Valid apiKey) {ts : Int}
    (hts : -2 ^ 63 ≤ ts ∧ ts < 2 ^ 63) (digest : Bytes) :
    (loginMessage apiKey (Hex.encode digest) ts : Json F).WellFormed fun _ => False := by
  have hlong : -2 ^ 63 ≤ ts ∧ ts < 2 ^ 64 := by omega
  apply Json.wellFormed_ofInitList
  simp only [List.forall_mem_cons]
  refine ⟨?_, ?_, by simp⟩
  · apply Json.wellFormed_pair (Utf8.valid_of_ascii (by decide))
    rw [Json.WellFormed]
    exact Utf8.valid_of_ascii (by decide)
  · apply Json.wellFormed_pair (Utf8.valid_of_ascii (by decide))
    apply Json.wellFormed_ofInitList
    simp only [List.forall_mem_cons]
    refine ⟨?_, ?_, ?_, by simp⟩
    all_goals apply Json.wellFormed_pair (Utf8.valid_of_ascii (by decide))
    all_goals simp only [Json.WellFormed, hkey, valid_hex, hlong, and_self]

theorem wellFormed_sentLogin {client : WSClient} (hkey : Utf8.Valid client.apiKey)
    (hsub : Utf8.Valid client.subaccountName) {ts : Int} (hts : -2 ^ 63 ≤ ts ∧ ts < 2 ^ 63)
    (digest : Bytes) :
    (client.sentLogin ts (Hex.encode digest) : Json F).WellFormed fun _ => False := by
  have hlogin := wellFormed_loginMessage (F := F) hkey hts digest
  have hsent := addSubaccount_loginMessage (F := F) client ts (Hex.encode digest)
  unfold addSubaccount at hsent
  split at hsent
  · rwa [← Except.ok.inj hsent]
  · apply Json.wellFormed_pushBack hlogin _ hsent
    simp only [List.forall_mem_cons, Json.WellFormed, hsub, true_and]
    exact ⟨Utf8.valid_of_ascii (by decide), by simp⟩

end WSClient

/-! ### Reading a subscription -/

inductive Kind where
  | orders
  | orderbook
  | fills
  | trades
  | ticker
deriving DecidableEq, Repr

def Kind.all : List Kind := [.orders, .orderbook, .fills, .trades, .ticker]

/-- The channel that the messages of a kind name. -/
def Kind.channel : Kind → Bytes
  | .orders => ascii "orders"
  | .orderbook => ascii "orderbook"
  | .fills => ascii "fills"
  | .trades => ascii "trades"
  | .ticker => ascii "ticker"

def decodeSubscription (message : Json F) : Option (Kind × Bytes) := do
  guard (message.stringMember (ascii "op") = some (ascii "subscribe"))
  let channel ← message.stringMember (ascii "channel")
  let market ← message.stringMember (ascii "market")
  let kind ← Kind.all.find? fun kind => kind.channel = channel
  return (kind, market)

def WSClient.subscribe : Kind × Bytes → WSClient → WSClient
  | (.orders, market) => WSClient.subscribeOrders market
  | (.orderbook, market) => WSClient.subscribeOrderbook market
  | (.fills, market) => WSClient.subscribeFills market
  | (.trades, market) => WSClient.subscribeTrades market
  | (.ticker, market) => WSClient.subscribeTicker market

/-- The client as `util::WS` sees it. -/
def subscriber (H : EvpSha256) (F : Type) : Subscriber F Kind (SigningEnv H) WSClient where
  subscribe := WSClient.subscribe
  onOpen client env := (client.onOpen env).1
  decode := decodeSubscription

variable {H : EvpSha256}

theorem subscribe_eq (call : Kind × Bytes) (client : WSClient) :
    client.subscribe call = client.addSubscription call.2 call.1.channel := by
  obtain ⟨kind, market⟩ := call
  cases kind <;> rfl

theorem record_eq (client : WSClient) (calls : List (Kind × Bytes)) :
    (subscriber H F).record client calls =
      { client with
        subscriptions := client.subscriptions ++
          calls.map fun call => (call.2, call.1.channel) } := by
  induction calls generalizing client with
  | nil =>
      simp only [List.map_nil, List.append_nil]
      rfl
  | cons call calls ih =>
      change (subscriber H F).record (client.subscribe call) calls = _
      rw [ih, subscribe_eq]
      simp [WSClient.addSubscription]

theorem decode_subscribeMessage (call : Kind × Bytes) :
    decodeSubscription (WSClient.subscribeMessage (call.2, call.1.channel) : Json F) =
      some call := by
  obtain ⟨kind, market⟩ := call
  cases kind <;> rfl

theorem decode_sentLogin (client : WSClient) (ts : Int) (sign : Bytes) :
    decodeSubscription (client.sentLogin ts sign : Json F) = none := by
  unfold WSClient.sentLogin
  split <;> rfl

theorem wellFormed_subscribeMessage {market : Bytes} (hmarket : Utf8.Valid market) (kind : Kind) :
    (WSClient.subscribeMessage (market, kind.channel) : Json F).WellFormed fun _ => False := by
  have hchannel : Utf8.Valid kind.channel := by
    apply Utf8.valid_of_ascii
    cases kind <;> decide
  apply Json.wellFormed_ofInitList
  simp only [List.forall_mem_cons]
  refine ⟨?_, ?_, ?_, by simp⟩
  · apply Json.wellFormed_pair (Utf8.valid_of_ascii (by decide))
    rw [Json.WellFormed]
    exact Utf8.valid_of_ascii (by decide)
  · exact Json.wellFormed_pair (Utf8.valid_of_ascii (by decide)) (by rwa [Json.WellFormed])
  · exact Json.wellFormed_pair (Utf8.valid_of_ascii (by decide)) (by rwa [Json.WellFormed])

/-! ### What is announced -/

/-- The credentials can be written as JSON, if they are used. -/
def WSClient.WritableCredentials (client : WSClient) : Prop :=
  client.hasCredentials = true →
    Utf8.Valid client.apiKey ∧ Utf8.Valid client.subaccountName

theorem WSClient.writableCredentials_new : WSClient.new.WritableCredentials :=
  fun _ => ⟨Utf8.valid_of_ascii (by decide), .nil⟩

def introduction (client : WSClient) (env : SigningEnv H) : List (Json F) :=
  match (client.login env).1 with
  | .ok msgs => msgs
  | .error _ => []

def isLogin (message : Json F) : Bool :=
  message.stringMember (ascii "op") = some (ascii "login")

/-- One login if there are credentials, nothing otherwise. -/
theorem introduction_cases (client : WSClient) (hcredentials : client.WritableCredentials)
    (env : SigningEnv H) :
    (client.login env).1 = .ok (introduction client env : List (Json F)) ∧
      ((client.hasCredentials = false ∧ (introduction client env : List (Json F)) = []) ∨
        (client.hasCredentials = true ∧ ∃ message : Json F, introduction client env = [message] ∧
          message.WellFormed (fun _ => False) ∧ isLogin message = true ∧
          decodeSubscription message = none)) := by
  cases hhas : client.hasCredentials with
  | false =>
      have hlogin : (client.login env).1 = .ok ([] : List (Json F)) := by
        simp [WSClient.login, hhas]
      refine ⟨?_, Or.inl ⟨rfl, ?_⟩⟩ <;> simp only [introduction, hlogin]
  | true =>
      obtain ⟨digest, hlogin, -⟩ := WSClient.login_eq (F := F) client env hhas
      obtain ⟨hkey, hsub⟩ := hcredentials hhas
      have hintro : (introduction client env : List (Json F)) =
          [client.sentLogin env.ts (Hex.encode digest)] := by
        simp only [introduction, hlogin]
      refine ⟨by rw [hlogin, hintro], Or.inr ⟨rfl, _, hintro, ?_, ?_, ?_⟩⟩
      · exact WSClient.wellFormed_sentLogin hkey hsub env.long_ts digest
      · unfold WSClient.sentLogin
        split <;> rfl
      · exact decode_sentLogin client env.ts _

/-- The client announces what it has recorded, whatever it had recorded before. -/
theorem announces (client : WSClient) (hcredentials : client.WritableCredentials)
    (hempty : client.subscriptions = []) :
    (subscriber H F).Announces client (introduction client) where
  onOpen calls env hcalls := by
    refine ⟨calls.map fun call => WSClient.subscribeMessage (call.2, call.1.channel), ?_, ?_, ?_⟩
    · rw [record_eq, hempty, List.nil_append]
      have hlogin := (introduction_cases (F := F) client hcredentials env).1
      change (Except.map _ (client.login env).1 : Except Fault (List (Json F))) = _
      rw [hlogin]
      simp only [Except.map, List.map_map]
      rfl
    · intro message hmessage
      obtain ⟨call, hcall, rfl⟩ := List.mem_map.mp hmessage
      exact wellFormed_subscribeMessage (hcalls call hcall) call.1
    · rw [List.map_map]
      apply List.map_congr_left
      intro call _
      exact decode_subscribeMessage call
  wellFormed env message hmessage := by
    rcases (introduction_cases client hcredentials env).2 with ⟨-, hnil⟩ | ⟨-, only, hone, hwf, -⟩
    · rw [hnil] at hmessage
      cases hmessage
    · rw [hone, List.mem_singleton] at hmessage
      rwa [hmessage]
  silent env message hmessage := by
    rcases (introduction_cases client hcredentials env).2 with
      ⟨-, hnil⟩ | ⟨-, only, hone, -, -, hsilent⟩
    · rw [hnil] at hmessage
      cases hmessage
    · rw [hone, List.mem_singleton] at hmessage
      rw [hmessage]
      exact hsilent

end ExchangeClient.Ftx
