import ExchangeClient.Ws.Ftx

/-!
# The login frame

The exchange reads the parameters of a login inside `args`. All of them are there
unless the account has a subaccount: that one member is pushed back on the message
around `args`, where the exchange does not look for it.
-/

namespace ExchangeClient.Ftx

open Decimal Encoding

variable {F : Type} {H : EvpSha256} {fmt : DoubleFormat F}

/-- A login that the exchange can verify: every parameter is in `args`, and nothing
stands beside `args` and `op`. -/
def CompleteLogin (H : EvpSha256) (client : WSClient) (ts : Int) (document : Json F) : Prop :=
  ∃ args : Json F,
    document = .object [(ascii "args", args), (ascii "op", .string (ascii "login"))] ∧
      args.member (ascii "key") = some (.string client.apiKey) ∧
      args.member (ascii "time") = some (.numberInteger ts) ∧
      args.member (ascii "sign") =
        some (.string (Hex.encode
          (H.hmac client.apiSecret (decimal ts ++ ascii "websocket_login")))) ∧
      args.member (ascii "subaccount") =
        if client.subaccountName = [] then none else some (.string client.subaccountName)

/-- The first message of `on_open`, once dumped and parsed, is a complete login. -/
def OpensWithCompleteLogin (fmt : DoubleFormat F) (client : WSClient) (env : SigningEnv H) : Prop :=
  ∃ (msg : Json F) (msgs : List (Json F)) (frame : Bytes) (document : Json F),
    (client.onOpen env).1 = .ok (msg :: msgs) ∧ msg.dump fmt = .ok frame ∧
      Json.parse fmt frame = .ok document ∧ CompleteLogin H client env.ts document

/-- With credentials the first message is the login, and it survives the wire. -/
theorem onOpen_login (fmt : DoubleFormat F) (client : WSClient) (env : SigningEnv H)
    (hhas : client.hasCredentials = true) (hkey : Utf8.Valid client.apiKey)
    (hsecret : client.apiSecret.length < 2 ^ 31) (hsub : Utf8.Valid client.subaccountName) :
    ∃ (msgs : List (Json F)) (frame : Bytes),
      (client.onOpen env).1 = .ok (client.sentLogin env.ts
          (Hex.encode (H.hmac client.apiSecret (WSClient.loginData env.ts))) :: msgs) ∧
        (client.sentLogin env.ts
          (Hex.encode (H.hmac client.apiSecret (WSClient.loginData env.ts)))).dump fmt =
            .ok frame ∧
        Json.parse fmt frame = .ok (client.sentLogin env.ts
          (Hex.encode (H.hmac client.apiSecret (WSClient.loginData env.ts)))) := by
  obtain ⟨digest, hlogin, hdigest⟩ := WSClient.login_eq (F := F) client env hhas
  obtain rfl := hdigest hsecret
  have hwf := WSClient.wellFormed_sentLogin (F := F) hkey hsub env.long_ts
    (H.hmac client.apiSecret (WSClient.loginData env.ts))
  obtain ⟨frame, hdump, hparse⟩ := Json.parse_dump_of_noFloats fmt hwf
  refine ⟨client.subscriptions.map WSClient.subscribeMessage, frame, ?_, hdump, hparse⟩
  change Except.map _ (client.login env).1 = _
  rw [hlogin]
  rfl

/-- What is sent is complete exactly without a subaccount. -/
theorem completeLogin_sentLogin (client : WSClient) (ts : Int) :
    CompleteLogin H client ts (client.sentLogin ts
      (Hex.encode (H.hmac client.apiSecret (WSClient.loginData ts))) : Json F) ↔
        client.subaccountName = [] := by
  constructor
  · intro hcomplete
    by_contra hsub
    obtain ⟨args, hdocument, -⟩ := hcomplete
    simp only [WSClient.sentLogin, if_neg hsub] at hdocument
    injection hdocument with hmembers
    cases congrArg List.length hmembers
  · intro hsub
    simp only [WSClient.sentLogin, if_pos hsub]
    refine ⟨_, rfl, rfl, rfl, rfl, ?_⟩
    rw [if_pos hsub]
    rfl

theorem opensWithCompleteLogin_iff (fmt : DoubleFormat F) (client : WSClient) (env : SigningEnv H)
    (hhas : client.hasCredentials = true) (hkey : Utf8.Valid client.apiKey)
    (hsecret : client.apiSecret.length < 2 ^ 31) (hsub : Utf8.Valid client.subaccountName) :
    OpensWithCompleteLogin fmt client env ↔
      CompleteLogin H client env.ts (client.sentLogin env.ts
        (Hex.encode (H.hmac client.apiSecret (WSClient.loginData env.ts))) : Json F) := by
  obtain ⟨msgs, frame, hopen, hdump, hparse⟩ := onOpen_login fmt client env hhas hkey hsecret hsub
  constructor
  · rintro ⟨msg, msgs', frame', document, hopen', hdump', hparse', hcomplete⟩
    rw [hopen] at hopen'
    obtain ⟨rfl, -⟩ := List.cons.inj (Except.ok.inj hopen')
    rw [hdump] at hdump'
    obtain rfl := Except.ok.inj hdump'
    rw [hparse] at hparse'
    rwa [← Except.ok.inj hparse'] at hcomplete
  · intro hcomplete
    exact ⟨_, msgs, frame, _, hopen, hdump, hparse, hcomplete⟩

/-- The login is complete if and only if there is no subaccount. -/
theorem login_complete_iff (fmt : DoubleFormat F) (client : WSClient) (env : SigningEnv H)
    (hkey : Utf8.Valid client.apiKey) (hkeySet : client.apiKey ≠ [])
    (hsecretSet : client.apiSecret ≠ []) (hsecret : client.apiSecret.length < 2 ^ 31)
    (hsub : Utf8.Valid client.subaccountName) :
    OpensWithCompleteLogin fmt client env ↔ client.subaccountName = [] := by
  have hhas : client.hasCredentials = true := by
    simp [WSClient.hasCredentials, hkeySet, hsecretSet]
  rw [opensWithCompleteLogin_iff fmt client env hhas hkey hsecret hsub]
  exact completeLogin_sentLogin client env.ts

def sampleEnv (H : EvpSha256) : SigningEnv H :=
  ⟨1588591511721, fun _ => 0, .init H, by decide⟩

theorem login_complete_iff_example :
    OpensWithCompleteLogin SampleDouble.format ⟨ascii "key", ascii "secret", [], []⟩
      (sampleEnv evpSha256) ↔ ([] : Bytes) = [] :=
  login_complete_iff SampleDouble.format ⟨ascii "key", ascii "secret", [], []⟩
    (sampleEnv evpSha256) (Utf8.valid_of_ascii (by decide)) (by decide) (by decide) (by decide)
    .nil

/-- The subaccount of this login stands beside `args`. -/
theorem subaccount_outside_args :
    ¬ OpensWithCompleteLogin SampleDouble.format
      ⟨ascii "key", ascii "secret", ascii "main", []⟩ (sampleEnv evpSha256) := by
  have hvalid : Utf8.Valid (ascii "key") ∧ Utf8.Valid (ascii "main") :=
    ⟨Utf8.valid_of_ascii (by decide), Utf8.valid_of_ascii (by decide)⟩
  rw [opensWithCompleteLogin_iff SampleDouble.format _ _ rfl hvalid.1 (by decide) hvalid.2,
    completeLogin_sentLogin]
  decide

end ExchangeClient.Ftx
