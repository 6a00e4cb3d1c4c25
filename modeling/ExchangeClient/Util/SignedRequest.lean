import ExchangeClient.Util.Http

/-!
# What the exchange can verify

The exchange has nothing but the message: it takes the timestamp from the header
field that carries it, recomputes the signature over that text, the method, the
target and the body, and compares. Every request that is written passes, in every
run of a session.
-/

namespace ExchangeClient

open Decimal

variable {H : EvpSha256} {B : Beast}

/-- A request that verifies: it is the call that was made, signed by the session. -/
structure Request.Verifies (H : EvpSha256) (session : HTTPSession) (call : HttpCall)
    (req : Request B) : Prop where
  method : req.method = call.verb
  target : req.target = ascii "/api/" ++ call.target
  body : req.body = call.payload
  key : req.values (ascii "FTX-KEY") = [session.apiKey]
  subaccount : req.values (ascii "FTX-SUBACCOUNT") =
    if session.subaccountName = [] then [] else [session.subaccountName]
  sign : ∃ ts sign, req.values (ascii "FTX-TS") = [ts] ∧ req.values (ascii "FTX-SIGN") = [sign] ∧
    sign = Hex.encode
      (H.hmac session.apiSecret (ts ++ req.method.toBytes ++ req.target ++ req.body)) ∧
    sign.length = 64 ∧ ∀ c ∈ sign, Hex.IsDigit c

namespace HTTPSession

theorem signedData_eq (ts : Int) (req : Request B) :
    signedData ts req = decimal ts ++ req.method.toBytes ++ req.target ++ req.body := by
  unfold signedData
  rw [Request.methodString_eq]
  by_cases h : req.body = [] <;> simp [h]

/-- The signature, as the documentation of the exchange describes it. -/
def signature (H : EvpSha256) (session : HTTPSession) (ts : Int) (req : Request B) : Bytes :=
  Hex.encode (H.hmac session.apiSecret
    (decimal ts ++ req.method.toBytes ++ req.target ++ req.body))

theorem length_signature (session : HTTPSession) (ts : Int) (req : Request B) :
    (session.signature H ts req).length = 64 := by
  rw [signature, Hex.length_encode, H.length_hmac, H.digestSize_eq]

/-- The header fields that carry the credentials. -/
def credentials (H : EvpSha256) (session : HTTPSession) (ts : Int) (req : Request B) : Request B :=
  let keyed := ((req.set (ascii "FTX-KEY") session.apiKey).set (ascii "FTX-TS") (decimal ts)).set
    (ascii "FTX-SIGN") (session.signature H ts req)
  if session.subaccountName = [] then keyed
  else keyed.set (ascii "FTX-SUBACCOUNT") session.subaccountName

/-- `authenticate` adds the credentials, whatever context and stack it finds. -/
theorem authenticate_eq (session : HTTPSession) (hsecret : session.apiSecret.length < 2 ^ 31)
    (ts : Int) (signedMsg : Encoding.Buffer 64) (ctx : Encoding.HmacCtx H) (req : Request B) :
    (session.authenticate ts signedMsg ctx req).1 = some (session.credentials H ts req) := by
  have hlen : (H.hmac session.apiSecret (signedData ts req)).length = 32 := by
    rw [H.length_hmac, H.digestSize_eq]
  have hhex := Encoding.stringToHex_eq (Nat.le_of_eq hlen.symm)
  have htake := List.take_length (l := H.hmac session.apiSecret (signedData ts req))
  rw [hlen] at htake
  rw [htake, signedData_eq] at hhex
  simp only [authenticate, Encoding.hmac_eq ctx signedMsg hsecret, credentials, signature,
    B.ofInteger_eq, signedData_eq, Option.bind_eq_bind, Option.bind_some, hhex]
  rfl

end HTTPSession

def credentialNames : List Bytes :=
  [ascii "FTX-KEY", ascii "FTX-TS", ascii "FTX-SIGN", ascii "FTX-SUBACCOUNT"]

/-- Another header field may be set at any time. -/
theorem Request.Verifies.set {session : HTTPSession} {call : HttpCall} {req : Request B}
    (h : req.Verifies H session call) {name : Bytes}
    (hname : ∀ credential ∈ credentialNames, iequals name credential = false) (value : Bytes) :
    (req.set name value).Verifies H session call := by
  simp only [credentialNames, List.forall_mem_cons] at hname
  obtain ⟨hkey, hts, hsign, hsub, -⟩ := hname
  exact {
    method := h.method
    target := h.target
    body := h.body
    key := (req.values_set_of_ne value hkey).trans h.key
    subaccount := (req.values_set_of_ne value hsub).trans h.subaccount
    sign := by
      rw [req.values_set_of_ne value hts, req.values_set_of_ne value hsign]
      exact h.sign }

/-- A request that says what the call says and names no subaccount yet. -/
structure Request.Unsigned (call : HttpCall) (req : Request B) : Prop where
  method : req.method = call.verb
  target : req.target = ascii "/api/" ++ call.target
  body : req.body = call.payload
  subaccount : req.values (ascii "FTX-SUBACCOUNT") = []

theorem Request.Unsigned.set {call : HttpCall} {req : Request B} (h : req.Unsigned call)
    {name : Bytes} (hname : iequals name (ascii "FTX-SUBACCOUNT") = false) (value : Bytes) :
    (req.set name value).Unsigned call where
  method := h.method
  target := h.target
  body := h.body
  subaccount := (req.values_set_of_ne value hname).trans h.subaccount

theorem Request.Unsigned.preparePayload {call : HttpCall} {req : Request B}
    (h : req.Unsigned call) : req.preparePayload.Unsigned call where
  method := h.method
  target := h.target
  body := h.body
  subaccount :=
    (B.values_preparePayload req.method req.body req.fields (by decide)).trans h.subaccount

namespace HTTPSession

theorem credentials_message (session : HTTPSession) (ts : Int) (req : Request B) :
    (session.credentials H ts req).method = req.method ∧
      (session.credentials H ts req).target = req.target ∧
      (session.credentials H ts req).body = req.body := by
  unfold credentials
  split
  · exact ⟨rfl, rfl, rfl⟩
  · exact ⟨rfl, rfl, rfl⟩

theorem values_credentials (session : HTTPSession) (ts : Int) (req : Request B) :
    (session.credentials H ts req).values (ascii "FTX-KEY") = [session.apiKey] ∧
      (session.credentials H ts req).values (ascii "FTX-TS") = [decimal ts] ∧
      (session.credentials H ts req).values (ascii "FTX-SIGN") =
        [session.signature H ts req] := by
  unfold credentials
  split
  · refine ⟨?_, ?_, ?_⟩ <;> simp +decide only [Request.values_set, if_true, if_false]
  · refine ⟨?_, ?_, ?_⟩ <;> simp +decide only [Request.values_set, if_true, if_false]

theorem values_credentials_subaccount (session : HTTPSession) (ts : Int) {req : Request B}
    (h : req.values (ascii "FTX-SUBACCOUNT") = []) :
    (session.credentials H ts req).values (ascii "FTX-SUBACCOUNT") =
      if session.subaccountName = [] then [] else [session.subaccountName] := by
  unfold credentials
  by_cases hsub : session.subaccountName = []
  · simp +decide only [Request.values_set, if_false, h, hsub, if_true]
  · simp +decide only [Request.values_set, if_true, if_neg hsub]

theorem verifies_credentials (session : HTTPSession) (ts : Int) {call : HttpCall}
    {req : Request B} (h : req.Unsigned call) :
    (session.credentials H ts req).Verifies H session call := by
  obtain ⟨hmethod, htarget, hbody⟩ := session.credentials_message (H := H) ts req
  obtain ⟨hkey, hts, hsign⟩ := session.values_credentials (H := H) ts req
  exact {
    method := hmethod.trans h.method
    target := htarget.trans h.target
    body := hbody.trans h.body
    key := hkey
    subaccount := session.values_credentials_subaccount ts h.subaccount
    sign := by
      refine ⟨_, _, hts, hsign, ?_, session.length_signature ts req,
        fun c hc => Hex.isDigit_of_mem_encode hc⟩
      rw [hmethod, htarget, hbody, signature] }

/-- With a connection, what is written is the request with its credentials. -/
theorem written_request (session : HTTPSession) (hsecret : session.apiSecret.length < 2 ^ 31)
    {env : Surroundings} (hconnection : env.connection = none) (ctx : Encoding.HmacCtx H)
    (req : Request B) :
    (session.request env ctx req).written =
      let signed := session.credentials H env.ts (session.identify req)
      some (if signed.method = .post then
        signed.set (ascii "Content-Type") (ascii "application/json") else signed) := by
  simp only [request, hconnection, authenticate_eq session hsecret, Option.map_some]

/-- `request`: as soon as there is a connection, a request that verifies is written. -/
theorem request_verifies (session : HTTPSession) (hsecret : session.apiSecret.length < 2 ^ 31)
    (env : Surroundings) (ctx : Encoding.HmacCtx H) {call : HttpCall} {req : Request B}
    (h : req.Unsigned call) :
    (env.connection = none → (session.request env ctx req).written.isSome) ∧
      ∀ sent ∈ (session.request env ctx req).written, sent.Verifies H session call := by
  have hunsigned : (session.identify req).Unsigned call :=
    (h.set (by decide) _).set (by decide) _
  have hverifies := session.verifies_credentials (H := H) env.ts hunsigned
  constructor
  · intro hconnection
    rw [session.written_request hsecret hconnection]
    rfl
  · intro sent hsent
    rcases hconnection : env.connection with _ | error
    · rw [session.written_request hsecret hconnection] at hsent
      obtain rfl := Option.mem_some_iff.mp hsent
      split
      · exact hverifies.set (by decide) _
      · exact hverifies
    · simp [request, hconnection] at hsent

def requestOf (B : Beast) : HttpCall → Request B
  | .get target => getRequest B target
  | .post target payload => postRequest B target payload
  | .delete_ target => deleteRequest B target

theorem perform_eq_request (session : HTTPSession) (env : Surroundings)
    (ctx : Encoding.HmacCtx H) (call : HttpCall) :
    session.perform env ctx call = session.request env ctx (requestOf B call) := by
  cases call <;> rfl

/-- What `perform` writes carries the timestamp and the signature of the request. -/
theorem perform_signs (session : HTTPSession) (hsecret : session.apiSecret.length < 2 ^ 31)
    (env : Surroundings) (hconnection : env.connection = none) (ctx : Encoding.HmacCtx H)
    (call : HttpCall) :
    ∃ sent, (session.perform (B := B) env ctx call).written = some sent ∧
      sent.values (ascii "FTX-TS") = [decimal env.ts] ∧
      sent.values (ascii "FTX-SIGN") =
        [session.signature H env.ts (session.identify (requestOf B call))] := by
  have hcredentials := session.values_credentials (H := H) env.ts
    (session.identify (requestOf B call))
  rw [perform_eq_request, session.written_request hsecret hconnection]
  refine ⟨_, rfl, ?_⟩
  split
  · rw [Request.values_set_of_ne _ _ (by decide), Request.values_set_of_ne _ _ (by decide)]
    exact hcredentials.2
  · exact hcredentials.2

theorem unsigned_requestOf (call : HttpCall) : (requestOf B call).Unsigned call := by
  cases call with
  | get target | delete_ target => exact ⟨rfl, rfl, rfl, B.values_empty _⟩
  | post target payload =>
      have hnew : Request.Unsigned (.post target payload)
          { Request.new B .post (endpoint target) 11 with body := payload } :=
        ⟨rfl, rfl, rfl, B.values_empty _⟩
      exact hnew.preparePayload

theorem perform_verifies (session : HTTPSession) (hsecret : session.apiSecret.length < 2 ^ 31)
    (env : Surroundings) (ctx : Encoding.HmacCtx H) (call : HttpCall) :
    (env.connection = none → (session.perform (B := B) env ctx call).written.isSome) ∧
      ∀ sent ∈ (session.perform (B := B) env ctx call).written,
        sent.Verifies H session call := by
  rw [perform_eq_request]
  exact session.request_verifies hsecret env ctx (unsigned_requestOf call)

/-- Every request that leaves the client verifies: in every sequence of calls, each
call that gets a connection writes one request, and what is written is the call,
signed. -/
theorem every_request_verifies (H : EvpSha256) (B : Beast) (session : HTTPSession)
    (hsecret : session.apiSecret.length < 2 ^ 31) (calls : List (HttpCall × Surroundings)) :
    ∀ ctx : Encoding.HmacCtx H,
      List.Forall₂ (fun call (outcome : Outcome H B) =>
        (call.2.connection = none → outcome.written.isSome) ∧
          ∀ sent ∈ outcome.written, sent.Verifies H session call.1)
        calls (session.performAll ctx calls) := by
  induction calls with
  | nil => exact fun _ => .nil
  | cons call calls ih =>
      intro ctx
      exact .cons (session.perform_verifies hsecret call.2 ctx call.1) (ih _)

theorem every_request_verifies_example :
    let session := configure (ascii "ftx.com") (ascii "key") (ascii "secret") (ascii "sub")
    let env : Surroundings := ⟨1588591511721, fun _ => 0, none, .ok (ascii "\x7b\x7d")⟩
    let calls := [(.post (ascii "orders") (ascii "\x7b\x7d"), env), (.get (ascii "markets"), env)]
    List.Forall₂ (fun call (outcome : Outcome evpSha256 Beast.reference) =>
      (call.2.connection = none → outcome.written.isSome) ∧
        ∀ sent ∈ outcome.written, sent.Verifies evpSha256 session call.1)
      calls (session.performAll (.init evpSha256) calls) :=
  every_request_verifies evpSha256 .reference _ (by decide) _ _

end HTTPSession

end ExchangeClient
