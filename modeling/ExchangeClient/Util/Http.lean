import ExchangeClient.Util.Encoding

/-!
# Requests: `util/HTTP.cc`

`HTTPSession` builds a request, signs it and hands it to `http::write`. Boost.Beast
is a parameter: the container of the header fields, with what its documentation
says about `set` and `prepare_payload`, the names of the methods and the text it
writes for an integer. The connection is given by its outcome, and the signing
context is passed from one call to the next.
-/

namespace ExchangeClient

open Decimal

/-! ### Header fields -/

def toLower (c : UInt8) : UInt8 := if 0x41 ≤ c ∧ c ≤ 0x5A then c + 0x20 else c

/-- `iequals`, by which field names are compared. -/
def iequals (left right : Bytes) : Bool := decide (left.map toLower = right.map toLower)

/-- `http::verb`. -/
inductive Verb where
  | get
  | post
  | delete_
deriving DecidableEq, Repr

/-- The name of a method in a request line. -/
def Verb.toBytes : Verb → Bytes
  | .get => ascii "GET"
  | .post => ascii "POST"
  | .delete_ => ascii "DELETE"

/-- The names of the fields that say how a body is framed. -/
def isFraming (name : Bytes) : Bool :=
  iequals name (ascii "Content-Length") || iequals name (ascii "Transfer-Encoding")

/-- What the client uses of Boost.Beast. `entries` are the header fields of a message
in the order in which they are written. -/
structure Beast where
  Fields : Type
  empty : Fields
  set : Bytes → Bytes → Fields → Fields
  entries : Fields → List (Bytes × Bytes)
  methodString : Verb → Bytes
  -- the fields it leaves, for a method and a body
  preparePayload : Verb → Bytes → Fields → Fields
  ofInteger : Int → Bytes
  version : Nat
  entries_empty : entries empty = []
  -- "removes any values with matching field names, then inserts the new field value"
  entries_set : ∀ name value fields, entries (set name value fields) =
    (entries fields).filter (fun field => !iequals field.1 name) ++ [(name, value)]
  methodString_eq : ∀ verb, methodString verb = verb.toBytes
  -- "adjust the Content-Length and Transfer-Encoding field values"
  entries_preparePayload : ∀ verb body fields,
    (entries (preparePayload verb body fields)).filter (fun field => !isFraming field.1) =
      (entries fields).filter (fun field => !isFraming field.1)
  ofInteger_eq : ∀ i, ofInteger i = decimal i

namespace Beast

def versionString (B : Beast) : Bytes := ascii "Boost.Beast/" ++ decimalNat B.version

def reference : Beast where
  Fields := List (Bytes × Bytes)
  empty := []
  set name value fields := fields.filter (fun field => !iequals field.1 name) ++ [(name, value)]
  entries fields := fields
  methodString := Verb.toBytes
  preparePayload verb body fields :=
    let others := fields.filter fun field => !isFraming field.1
    if 0 < body.length ∨ verb = .post then
      others ++ [(ascii "Content-Length", decimalNat body.length)]
    else others
  ofInteger := decimal
  version := 277
  entries_empty := rfl
  entries_set _ _ _ := rfl
  methodString_eq _ := rfl
  entries_preparePayload verb body fields := by
    have hframing : isFraming (ascii "Content-Length") = true := rfl
    split <;> simp [hframing]
  ofInteger_eq _ := rfl

variable (B : Beast)

def values (fields : B.Fields) (name : Bytes) : List Bytes :=
  ((B.entries fields).filter fun field => iequals field.1 name).map Prod.snd

@[simp] theorem values_empty (name : Bytes) : B.values B.empty name = [] := by
  rw [values, B.entries_empty]
  rfl

/-- The new value is the only one of its name, and no other name is touched. -/
@[simp] theorem values_set (name value other : Bytes) (fields : B.Fields) :
    B.values (B.set name value fields) other =
      if iequals name other then [value] else B.values fields other := by
  have hrest : ((B.entries fields).filter fun field => !iequals field.1 name).filter
      (fun field => iequals field.1 other) =
        if iequals name other then []
        else (B.entries fields).filter fun field => iequals field.1 other := by
    rw [List.filter_filter]
    by_cases h : iequals name other = true
    · rw [if_pos h, List.filter_eq_nil_iff]
      intro field _
      simp only [iequals, decide_eq_true_eq] at h ⊢
      simp [h]
    · rw [if_neg h]
      refine List.filter_congr fun field _ => ?_
      simp only [iequals, decide_eq_true_eq] at h ⊢
      by_cases hfield : field.1.map toLower = other.map toLower
      · simp [hfield, Ne.symm h]
      · simp [hfield]
  rw [values, B.entries_set, List.filter_append, hrest, values]
  by_cases h : iequals name other = true
  · simp [h]
  · simp [h]

/-- The fields that say nothing about the body are not touched. -/
theorem values_preparePayload (verb : Verb) (body : Bytes) (fields : B.Fields) {name : Bytes}
    (hname : isFraming name = false) :
    B.values (B.preparePayload verb body fields) name = B.values fields name := by
  have hother : ∀ field : Bytes × Bytes, iequals field.1 name = true →
      isFraming field.1 = false := by
    intro field hfield
    simp only [iequals, decide_eq_true_eq] at hfield
    simp only [isFraming, iequals, hfield] at hname ⊢
    exact hname
  have hread : ∀ entries : List (Bytes × Bytes),
      (entries.filter fun field => !isFraming field.1).filter (fun field => iequals field.1 name) =
        entries.filter fun field => iequals field.1 name := by
    intro entries
    rw [List.filter_filter]
    refine List.filter_congr fun field _ => ?_
    cases hfield : iequals field.1 name with
    | false => rfl
    | true => simp [hother field hfield]
  rw [values, ← hread, B.entries_preparePayload, hread, values]

end Beast

/-! ### Requests -/

/-- `http::request<http::string_body>`. -/
structure Request (B : Beast) where
  method : Verb
  target : Bytes
  version : Nat
  fields : B.Fields
  body : Bytes

namespace Request

variable {B : Beast}

def new (B : Beast) (method : Verb) (target : Bytes) (version : Nat) : Request B :=
  { method, target, version, fields := B.empty, body := [] }

def set (req : Request B) (name value : Bytes) : Request B :=
  { req with fields := B.set name value req.fields }

def values (req : Request B) (name : Bytes) : List Bytes := B.values req.fields name

@[simp] theorem values_set (req : Request B) (name value other : Bytes) :
    (req.set name value).values other = if iequals name other then [value] else req.values other :=
  B.values_set name value other req.fields

theorem values_set_of_ne (req : Request B) {name other : Bytes} (value : Bytes)
    (hname : iequals name other = false) : (req.set name value).values other = req.values other := by
  rw [values_set, hname]
  rfl

@[simp] theorem set_method (req : Request B) (name value : Bytes) :
    (req.set name value).method = req.method := rfl

@[simp] theorem set_target (req : Request B) (name value : Bytes) :
    (req.set name value).target = req.target := rfl

@[simp] theorem set_body (req : Request B) (name value : Bytes) :
    (req.set name value).body = req.body := rfl

/-- `prepare_payload`. -/
def preparePayload (req : Request B) : Request B :=
  { req with fields := B.preparePayload req.method req.body req.fields }

def methodString (req : Request B) : Bytes := B.methodString req.method

@[simp] theorem methodString_eq (req : Request B) : req.methodString = req.method.toBytes :=
  B.methodString_eq req.method

end Request

/-! ### `HTTPSession` -/

structure HTTPSession where
  uri : Bytes
  apiKey : Bytes
  apiSecret : Bytes
  subaccountName : Bytes

/-- A call on a session. -/
inductive HttpCall where
  | get (target : Bytes)
  | post (target payload : Bytes)
  | delete_ (target : Bytes)
deriving DecidableEq, Repr

namespace HttpCall

def verb : HttpCall → Verb
  | .get _ => .get
  | .post _ _ => .post
  | .delete_ _ => .delete_

def target : HttpCall → Bytes
  | .get target | .post target _ | .delete_ target => target

def payload : HttpCall → Bytes
  | .post _ payload => payload
  | .get _ | .delete_ _ => []

end HttpCall

/-- The steps that come before anything is written. -/
inductive ConnectError where
  | sniHostname
  | resolve
  | connect
  | handshake
deriving DecidableEq, Repr

/-- The steps of an exchange on a connection. -/
inductive ExchangeError where
  | write
  | read
deriving DecidableEq, Repr

inductive NetError where
  | connecting (error : ConnectError)
  | exchanging (error : ExchangeError)
deriving DecidableEq, Repr

/-- What a call finds: the clock, the stack under `signed_msg`, how far the connection
gets before anything is written, and what comes back. -/
structure Surroundings where
  ts : Int
  signedMsg : Encoding.Buffer 64
  connection : Option ConnectError
  response : Except ExchangeError Bytes

/-- The request that was handed to `http::write`, if any, the body of the response or
the exception, and the signing context. -/
structure Outcome (H : EvpSha256) (B : Beast) where
  written : Option (Request B)
  response : Except NetError Bytes
  ctx : Encoding.HmacCtx H

namespace HTTPSession

variable {H : EvpSha256} {B : Beast}

def configure (uri apiKey apiSecret subaccountName : Bytes) : HTTPSession :=
  { uri, apiKey, apiSecret, subaccountName }

def endpoint (target : Bytes) : Bytes := ascii "/api/" ++ target

/-- The request of `get`. -/
def getRequest (B : Beast) (target : Bytes) : Request B := .new B .get (endpoint target) 11

/-- The request of `post`. -/
def postRequest (B : Beast) (target payload : Bytes) : Request B :=
  let req := Request.new B .post (endpoint target) 11
  { req with body := payload }.preparePayload

/-- The request of `delete_`. -/
def deleteRequest (B : Beast) (target : Bytes) : Request B := .new B .delete_ (endpoint target) 11

/-- The string that `authenticate` signs. -/
def signedData (ts : Int) (req : Request B) : Bytes :=
  let data := decimal ts ++ req.methodString ++ req.target
  if req.body = [] then data else data ++ req.body

/-- `authenticate`. There is no request if `string_to_hex` reads past the digest. -/
def authenticate (session : HTTPSession) (ts : Int) (signedMsg : Encoding.Buffer 64)
    (ctx : Encoding.HmacCtx H) (req : Request B) : Option (Request B) × Encoding.HmacCtx H :=
  let result :=
    Encoding.hmac ctx signedMsg session.apiSecret (signedData ts req) Encoding.digestLen
  (do
    let sign ← Encoding.stringToHex result.1 32
    let req := req.set (ascii "FTX-KEY") session.apiKey
    let req := req.set (ascii "FTX-TS") (B.ofInteger ts)
    let req := req.set (ascii "FTX-SIGN") sign
    return if session.subaccountName = [] then req
      else req.set (ascii "FTX-SUBACCOUNT") session.subaccountName,
    result.2)

/-- The fields that `request` sets before it connects. -/
def identify (session : HTTPSession) (req : Request B) : Request B :=
  (req.set (ascii "Host") (cStr session.uri)).set (ascii "User-Agent") B.versionString

def request (session : HTTPSession) (env : Surroundings) (ctx : Encoding.HmacCtx H)
    (req : Request B) : Outcome H B :=
  let req := session.identify req
  match env.connection with
  | some error => ⟨none, .error (.connecting error), ctx⟩
  | none =>
      let result := session.authenticate env.ts env.signedMsg ctx req
      let written := result.1.map fun req =>
        if req.method = .post then req.set (ascii "Content-Type") (ascii "application/json")
        else req
      ⟨written, env.response.mapError .exchanging, result.2⟩

def get (session : HTTPSession) (env : Surroundings) (ctx : Encoding.HmacCtx H)
    (target : Bytes) : Outcome H B :=
  session.request env ctx (getRequest B target)

def post (session : HTTPSession) (env : Surroundings) (ctx : Encoding.HmacCtx H)
    (target payload : Bytes) : Outcome H B :=
  session.request env ctx (postRequest B target payload)

def delete_ (session : HTTPSession) (env : Surroundings) (ctx : Encoding.HmacCtx H)
    (target : Bytes) : Outcome H B :=
  session.request env ctx (deleteRequest B target)

def perform (session : HTTPSession) (env : Surroundings) (ctx : Encoding.HmacCtx H) :
    HttpCall → Outcome H B
  | .get target => session.get env ctx target
  | .post target payload => session.post env ctx target payload
  | .delete_ target => session.delete_ env ctx target

def performAll (session : HTTPSession) (ctx : Encoding.HmacCtx H) :
    List (HttpCall × Surroundings) → List (Outcome H B)
  | [] => []
  | (call, env) :: calls =>
      let outcome := session.perform env ctx call
      outcome :: performAll session outcome.ctx calls

end HTTPSession

end ExchangeClient
