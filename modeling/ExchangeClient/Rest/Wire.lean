import ExchangeClient.Lib.HttpHead
import ExchangeClient.Rest.Client
import ExchangeClient.Util.SignedRequest

/-!
# Path arguments on the wire

Four operations paste an argument into the path of their target, and the target is
written as it is. Whoever reads the request by the grammar finds the argument in its
place exactly if every byte of it stands for itself in a path: nothing in the client
encodes it.
-/

namespace ExchangeClient

open Decimal HttpHead

variable {F : Type} {H : EvpSha256} {B : Beast}

/-! ### The head of a request -/

namespace Request

def httpVersion (req : Request B) : Bytes :=
  ascii "HTTP/" ++ decimalNat (req.version / 10) ++ 0x2E :: decimalNat (req.version % 10)

/-- What `http::write` sends before the body. -/
def head (req : Request B) : Bytes :=
  HttpHead.write req.methodString req.target req.httpVersion (B.entries req.fields)

/-- A request of version 1.1 whose fields are read as they are set. -/
structure Plain (req : Request B) : Prop where
  version : req.version = 11
  fields : ∀ field ∈ B.entries req.fields, IsField field

theorem Plain.set {req : Request B} (h : req.Plain) (name : Bytes) {value : Bytes}
    (hname : IsFieldName name) (hvalue : IsFieldValue value) : (req.set name value).Plain where
  version := h.version
  fields := by
    intro field hfield
    change field ∈ B.entries (B.set name value req.fields) at hfield
    rw [B.entries_set, List.mem_append, List.mem_singleton] at hfield
    rcases hfield with hold | rfl
    · exact h.fields field (List.mem_filter.mp hold).1
    · exact ⟨hname, hvalue⟩

theorem plain_new (method : Verb) (target : Bytes) : (Request.new B method target 11).Plain where
  version := rfl
  fields := by
    intro field hfield
    change field ∈ B.entries B.empty at hfield
    rw [B.entries_empty] at hfield
    cases hfield

theorem httpVersion_of_plain {req : Request B} (h : req.Plain) :
    req.httpVersion = HttpHead.version11 := by
  unfold httpVersion
  rw [h.version]
  decide

end Request

/-! ### Fields that are read as they are set -/

/-- There is no white space and no control character. -/
def Visible (value : Bytes) : Prop := ∀ b ∈ value, (isFieldByte b && !isOws b) = true

theorem Visible.isFieldValue {value : Bytes} (h : Visible value) : IsFieldValue value := by
  constructor
  · rw [List.all_eq_true]
    intro b hb
    exact (Bool.and_eq_true_iff.mp (h b hb)).1
  · apply trim_eq_self
    rw [List.all_eq_true]
    intro b hb
    exact (Bool.and_eq_true_iff.mp (h b hb)).2

theorem visible_decimal (i : Int) : Visible (decimal i) := by
  have hdigit : ∀ b : UInt8, Decimal.isDigit b = true → (isFieldByte b && !isOws b) = true :=
    forall_uint8 (by decide +kernel)
  intro b hb
  rcases mem_decimal hb with rfl | hb
  · decide
  · exact hdigit b hb

theorem visible_decimalNat (n : Nat) : Visible (decimalNat n) := by
  have h := visible_decimal n
  rwa [decimal, if_neg (by omega), Int.natAbs_natCast] at h

theorem visible_hex (data : Bytes) : Visible (Hex.encode data) := by
  have hdigit : ∀ b : UInt8, Hex.IsDigit b → (isFieldByte b && !isOws b) = true :=
    forall_uint8 (by decide +kernel)
  intro b hb
  exact hdigit b (Hex.isDigit_of_mem_encode hb)

theorem visible_versionString (B : Beast) : Visible B.versionString := by
  have hname : (ascii "Boost.Beast/").all (fun b => isFieldByte b && !isOws b) = true := by decide
  intro b hb
  rcases List.mem_append.mp hb with hb | hb
  · exact List.all_eq_true.mp hname b hb
  · exact visible_decimalNat B.version b hb

namespace HTTPSession

/-- The configuration can be written in header fields. -/
structure PlainConfiguration (session : HTTPSession) : Prop where
  uri : IsFieldValue (cStr session.uri)
  apiKey : IsFieldValue session.apiKey
  subaccountName : IsFieldValue session.subaccountName
  apiSecret : session.apiSecret.length < 2 ^ 31

theorem plain_requestOf {call : HttpCall} (hcall : call.verb ≠ .post) :
    (requestOf B call).Plain := by
  cases call with
  | get target => exact Request.plain_new _ _
  | delete_ target => exact Request.plain_new _ _
  | post target payload => exact absurd rfl hcall

variable {session : HTTPSession}

theorem PlainConfiguration.identify (h : session.PlainConfiguration) {req : Request B}
    (hreq : req.Plain) : (session.identify req).Plain := by
  unfold HTTPSession.identify
  have hhost := hreq.set (ascii "Host") ⟨by decide, by decide⟩ h.uri
  exact hhost.set _ ⟨by decide, by decide⟩ (visible_versionString B).isFieldValue

theorem PlainConfiguration.credentials (h : session.PlainConfiguration) (ts : Int)
    {req : Request B} (hreq : req.Plain) : (session.credentials H ts req).Plain := by
  have hkey := hreq.set (ascii "FTX-KEY") ⟨by decide, by decide⟩ h.apiKey
  have hts := hkey.set (ascii "FTX-TS") ⟨by decide, by decide⟩
    (visible_decimal ts).isFieldValue
  have hsign := hts.set (ascii "FTX-SIGN") ⟨by decide, by decide⟩
    (visible_hex (H.hmac session.apiSecret
      (decimal ts ++ req.method.toBytes ++ req.target ++ req.body))).isFieldValue
  unfold HTTPSession.credentials
  split
  · exact hsign
  · exact hsign.set _ ⟨by decide, by decide⟩ h.subaccountName

theorem PlainConfiguration.perform (h : session.PlainConfiguration) (env : Surroundings)
    (ctx : Encoding.HmacCtx H) {call : HttpCall} (hcall : call.verb ≠ .post) :
    ∀ sent ∈ (session.perform (B := B) env ctx call).written, sent.Plain := by
  have hplain := h.credentials (H := H) env.ts (h.identify (plain_requestOf (B := B) hcall))
  rw [perform_eq_request]
  rcases hconnection : env.connection with _ | error
  · simp only [request, hconnection, authenticate_eq session h.apiSecret, Option.map_some,
      Option.mem_some_iff, forall_eq']
    split
    · exact hplain.set _ ⟨by decide, by decide⟩ ⟨by decide, by decide⟩
    · exact hplain
  · simp [request, hconnection]

end HTTPSession

/-! ### Operations with an argument in the path -/

inductive PathOperation where
  | getOrderbook (depth : Int)
  | getTrades
  | cancelOrder
  | getDepositAddress

namespace PathOperation

def exchange (fmt : DoubleFormat F) : PathOperation → Bytes → RestExchange F
  | .getOrderbook depth, market => RESTClient.getOrderbook fmt market depth
  | .getTrades, market => RESTClient.getTrades fmt market
  | .cancelOrder, orderId => RESTClient.cancelOrder fmt orderId
  | .getDepositAddress, ticker => RESTClient.getDepositAddress fmt ticker

def verb : PathOperation → Verb
  | .cancelOrder => .delete_
  | _ => .get

/-- What stands before the argument. -/
def lead : PathOperation → Bytes
  | .getOrderbook _ | .getTrades => ascii "markets/"
  | .cancelOrder => ascii "orders/"
  | .getDepositAddress => ascii "wallet/deposit_address/"

/-- What stands behind the argument. -/
def tail : PathOperation → Bytes
  | .getTrades => ascii "/trades"
  | _ => []

def query : PathOperation → Option Bytes
  | .getOrderbook depth => some (ascii "depth=" ++ decimal depth)
  | _ => none

def path (op : PathOperation) (argument : Bytes) : Bytes :=
  ascii "/api/" ++ op.lead ++ argument ++ op.tail

/-- The head is read as one request with the method, the path and the query of the
operation and the fields that the client set. -/
def StaysInPlace (op : PathOperation) (argument : Bytes) (req : Request B) : Prop :=
  HttpHead.read req.head =
    some (⟨op.verb.toBytes, op.path argument, op.query, B.entries req.fields⟩, [])

theorem call_exchange (fmt : DoubleFormat F) (op : PathOperation) (argument : Bytes) :
    (op.exchange fmt argument).call.verb = op.verb ∧
      ascii "/api/" ++ (op.exchange fmt argument).call.target =
        op.path argument ++ writeQuery op.query := by
  cases op with
  | getOrderbook depth =>
      constructor
      · rfl
      · simp only [path, lead, tail, query, writeQuery, exchange, RESTClient.getOrderbook,
          RESTClient.exchange, HttpCall.target, List.append_assoc, List.nil_append]
        rfl
  | getTrades | cancelOrder | getDepositAddress =>
      constructor
      · rfl
      · simp [path, lead, tail, query, writeQuery, exchange, RESTClient.getTrades,
          RESTClient.cancelOrder, RESTClient.getDepositAddress, RESTClient.exchange,
          HttpCall.target]

theorem isQuery (op : PathOperation) : IsQuery op.query := by
  have hdigit : ∀ b : UInt8, Decimal.isDigit b = true → (isTailByte b && b != 0x23) = true :=
    forall_uint8 (by decide +kernel)
  have hname : (ascii "depth=").all (fun b => isTailByte b && b != 0x23) = true := by decide
  intro text htext
  cases op with
  | getOrderbook depth =>
      obtain rfl := Option.some.inj htext
      rw [List.all_append, Bool.and_eq_true, List.all_eq_true (l := decimal depth)]
      refine ⟨hname, ?_⟩
      intro b hb
      rcases mem_decimal hb with rfl | hb
      · decide
      · exact hdigit b hb
  | getTrades | cancelOrder | getDepositAddress => cases htext

theorem all_path (op : PathOperation) (argument : Bytes) :
    (op.path argument).all isPathByte = argument.all isPathByte := by
  have hlead : (ascii "/api/" ++ op.lead).all isPathByte = true := by cases op <;> rfl
  have htail : op.tail.all isPathByte = true := by cases op <;> rfl
  rw [path, List.all_append, List.all_append, hlead, htail, Bool.true_and, Bool.and_true]

theorem staysInPlace_iff (fmt : DoubleFormat F) {session : HTTPSession}
    (h : session.PlainConfiguration) (op : PathOperation) (argument : Bytes) {env : Surroundings}
    (hconnection : env.connection = none) (ctx : Encoding.HmacCtx H) :
    (∃ req ∈ (session.perform (B := B) env ctx (op.exchange fmt argument).call).written,
      op.StaysInPlace argument req) ↔ argument.all isPathByte = true := by
  obtain ⟨hwritten, hverifies⟩ := session.perform_verifies (B := B) h.apiSecret env ctx
    (op.exchange fmt argument).call
  obtain ⟨req, hreq⟩ := Option.isSome_iff_exists.mp (hwritten hconnection)
  have hsent := hverifies req hreq
  obtain ⟨hverb, htarget⟩ := call_exchange fmt op argument
  have hpost : (op.exchange fmt argument).call.verb ≠ .post := by
    rw [hverb]
    cases op <;> simp [verb]
  have hplain := h.perform env ctx hpost req hreq
  have hhead : req.head = HttpHead.write op.verb.toBytes (op.path argument ++ writeQuery op.query)
      HttpHead.version11 (B.entries req.fields) := by
    rw [Request.head, Request.methodString_eq, hsent.method, hsent.target,
      Request.httpVersion_of_plain hplain, hverb, htarget]
  have hmethod : IsFieldName op.verb.toBytes := by
    cases op.verb <;> exact ⟨by decide, by decide⟩
  have hread : op.StaysInPlace argument req ↔ argument.all isPathByte = true := by
    rw [StaysInPlace, hhead, read_write_iff hmethod rfl op.isQuery hplain.fields, all_path]
  rw [hreq, ← hread]
  simp

/-- The argument stays in its place if and only if every byte of it stands for itself in
a path. Nothing else is encoded. -/
theorem stays_in_place_iff (H : EvpSha256) (B : Beast) (fmt : DoubleFormat F)
    (session : HTTPSession) (hsession : session.PlainConfiguration) (op : PathOperation)
    (argument : Bytes) (env : Surroundings) (hconnection : env.connection = none)
    (ctx : Encoding.HmacCtx H) :
    (∃ req ∈ (session.perform (B := B) env ctx (op.exchange fmt argument).call).written,
      op.StaysInPlace argument req) ↔ ∀ b ∈ argument, isPathByte b = true := by
  rw [← List.all_eq_true]
  exact staysInPlace_iff fmt hsession op argument hconnection ctx

end PathOperation

theorem RESTClient.plainConfiguration_httpClient : RESTClient.httpClient.PlainConfiguration where
  uri := ⟨by decide, by decide⟩
  apiKey := ⟨rfl, rfl⟩
  subaccountName := ⟨rfl, rfl⟩
  apiSecret := by decide

namespace PathOperation

theorem stays_in_place_iff_example :
    let env : Surroundings := ⟨1588591511721, fun _ => 0, none, .ok []⟩
    (∃ req ∈ (RESTClient.httpClient.perform (B := .reference) env (.init evpSha256)
        (PathOperation.getTrades.exchange SampleDouble.format (ascii "BTC/USD")).call).written,
      PathOperation.getTrades.StaysInPlace (ascii "BTC/USD") req) ↔
        ∀ b ∈ ascii "BTC/USD", isPathByte b = true :=
  stays_in_place_iff evpSha256 .reference SampleDouble.format RESTClient.httpClient
    RESTClient.plainConfiguration_httpClient .getTrades (ascii "BTC/USD")
    ⟨1588591511721, fun _ => 0, none, .ok []⟩ rfl (.init evpSha256)

/-- The path of this request ends at the question mark of the market. -/
theorem question_mark_ends_path :
    let env : Surroundings := ⟨1588591511721, fun _ => 0, none, .ok []⟩
    ¬ ∃ req ∈ (RESTClient.httpClient.perform (B := .reference) env (.init evpSha256)
        (PathOperation.getTrades.exchange SampleDouble.format (ascii "BTC?USD")).call).written,
      PathOperation.getTrades.StaysInPlace (ascii "BTC?USD") req := by
  intro env hstays
  have hall := (staysInPlace_iff SampleDouble.format RESTClient.plainConfiguration_httpClient
    .getTrades (ascii "BTC?USD") rfl (.init evpSha256)).mp hstays
  exact absurd hall (by decide)

end PathOperation

end ExchangeClient
