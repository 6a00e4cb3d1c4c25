import ExchangeClient.Ws.Bitstamp
import ExchangeClient.Ws.Ftx

/-!
# The open frames encode the subscription history

A history is any sequence of calls and of runs of the open handler. Every run of
the handler sends what was recorded before it, so its frames are decoded to the
calls made so far. The step lemma is about one run; the induction is over the
history, with the calls made so far as the invariant.
-/

namespace ExchangeClient

variable {F κ ε σ : Type}

/-- What happens to a client over time. -/
inductive Action (κ ε : Type) where
  | subscribe (call : κ × Bytes)
  | opened (env : ε)

namespace Action

def calls : List (Action κ ε) → List (κ × Bytes)
  | [] => []
  | .subscribe call :: actions => call :: calls actions
  | .opened _ :: actions => calls actions

/-- For every run of the open handler, the calls made before it. -/
def pasts (past : List (κ × Bytes)) : List (Action κ ε) → List (List (κ × Bytes))
  | [] => []
  | .subscribe call :: actions => pasts (past ++ [call]) actions
  | .opened _ :: actions => past :: pasts past actions

end Action

namespace Subscriber

variable (S : Subscriber F κ ε σ) (fmt : DoubleFormat F)

/-- For every run of the open handler, the frames it sends and how it fails. -/
def runs (client : σ) : List (Action κ ε) → List (List Bytes × Option Fault)
  | [] => []
  | .subscribe call :: actions => runs (S.subscribe call client) actions
  | .opened env :: actions => WS.openHandler fmt (S.onOpen client env) :: runs client actions

/-- In every history, every run of the open handler sends some first frames with the
property `P` and then one frame for each call made before, in order. -/
def EncodesHistory (P : List Bytes → Prop) (client : σ) : Prop :=
  ∀ actions : List (Action κ ε), ValidCalls (Action.calls actions) →
    List.Forall₂ (fun past outcome => ∃ first frames, outcome = (first ++ frames, none) ∧
        P first ∧ frames.map (S.decodeFrame fmt) = past.map some)
      (Action.pasts [] actions) (S.runs fmt client actions)

variable {S fmt}

theorem Announces.encodesHistory {client : σ} {introduction : ε → List (Json F)}
    (h : S.Announces client introduction) {P : List Bytes → Prop}
    (hfirst : ∀ env first, Denotes fmt first (introduction env) → P first) :
    S.EncodesHistory fmt P client := by
  have hrun : ∀ (actions : List (Action κ ε)) (past : List (κ × Bytes)),
      ValidCalls past → ValidCalls (Action.calls actions) →
      List.Forall₂ (fun past outcome => ∃ first frames, outcome = (first ++ frames, none) ∧
          P first ∧ frames.map (S.decodeFrame fmt) = past.map some)
        (Action.pasts past actions) (S.runs fmt (S.record client past) actions) := by
    intro actions
    -- `past` is what the client has recorded when the rest of the history begins
    induction actions with
    | nil =>
        intro past _ _
        exact .nil
    | cons action actions ih =>
        intro past hpast hcalls
        cases action with
        | subscribe call =>
            simp only [Action.calls, ValidCalls, List.forall_mem_cons] at hcalls
            have hone : ValidCalls [call] := by
              simpa [ValidCalls] using hcalls.1
            have hnext := ih (past ++ [call]) (hpast.append hone) hcalls.2
            rwa [record_append] at hnext
        | opened env =>
            obtain ⟨first, frames, hopen, hintroduction, hframes⟩ := h.openHandler fmt hpast env
            exact .cons ⟨first, frames, hopen, hfirst env first hintroduction, hframes⟩
              (ih past hpast hcalls)
  intro actions hcalls
  apply hrun actions [] _ hcalls
  intro call hcall
  cases hcall

end Subscriber

/-! ### Both clients -/

variable {H : EvpSha256} {fmt : DoubleFormat F}

/-- The login frame, if there are credentials. -/
def Ftx.OneLogin (fmt : DoubleFormat F) (client : Ftx.WSClient) (first : List Bytes) : Prop :=
  first.length = (if client.hasCredentials then 1 else 0) ∧
    ∀ frame ∈ first, ∃ message, Json.parse fmt frame = .ok message ∧ Ftx.isLogin message = true

theorem Ftx.oneLogin_of_denotes (client : Ftx.WSClient)
    (hcredentials : client.WritableCredentials) (env : Ftx.SigningEnv H) (first : List Bytes)
    (h : Subscriber.Denotes fmt first (Ftx.introduction client env)) :
    Ftx.OneLogin fmt client first := by
  rcases (Ftx.introduction_cases client hcredentials env).2 with
    ⟨hhas, hnil⟩ | ⟨hhas, message, hone, -, hlogin, -⟩
  · rw [hnil] at h
    cases h
    simp [OneLogin, hhas]
  · rw [hone] at h
    cases h with
    | cons hparse hrest =>
        cases hrest
        refine ⟨by simp [hhas], ?_⟩
        intro frame hframe
        rw [List.mem_singleton] at hframe
        exact ⟨message, hframe ▸ hparse, hlogin⟩

theorem message_eq_of_dump_eq {message message' : Json F}
    (h : message.WellFormed fun _ => False) (h' : message'.WellFormed fun _ => False)
    (heq : message.dump fmt = message'.dump fmt) : message = message' := by
  obtain ⟨text, hdump, hparse⟩ := Json.parse_dump_of_noFloats fmt h
  obtain ⟨text', hdump', hparse'⟩ := Json.parse_dump_of_noFloats fmt h'
  rw [hdump, hdump'] at heq
  obtain rfl := Except.ok.inj heq
  exact Except.ok.inj (hparse.symm.trans hparse')

theorem Ftx.call_eq_of_frame_eq {call call' : Ftx.Kind × Bytes} (h : Utf8.Valid call.2)
    (h' : Utf8.Valid call'.2)
    (heq : (Ftx.WSClient.subscribeMessage (call.2, call.1.channel) : Json F).dump fmt =
      (Ftx.WSClient.subscribeMessage (call'.2, call'.1.channel)).dump fmt) : call = call' := by
  have hmessage := message_eq_of_dump_eq (Ftx.wellFormed_subscribeMessage h call.1)
    (Ftx.wellFormed_subscribeMessage h' call'.1) heq
  have hdecode := congrArg Ftx.decodeSubscription hmessage
  rw [Ftx.decode_subscribeMessage, Ftx.decode_subscribeMessage] at hdecode
  exact Option.some.inj hdecode

theorem Bitstamp.call_eq_of_frame_eq {call call' : Bitstamp.Kind × Bytes} (h : Utf8.Valid call.2)
    (h' : Utf8.Valid call'.2)
    (heq : (Bitstamp.WSClient.subscribeMessage (call.1.lead ++ call.2) : Json F).dump fmt =
      (Bitstamp.WSClient.subscribeMessage (call'.1.lead ++ call'.2)).dump fmt) : call = call' := by
  have hmessage := message_eq_of_dump_eq (Bitstamp.wellFormed_subscribeMessage h call.1)
    (Bitstamp.wellFormed_subscribeMessage h' call'.1) heq
  have hdecode := congrArg Bitstamp.decodeSubscription hmessage
  rw [Bitstamp.decode_subscribeMessage, Bitstamp.decode_subscribeMessage] at hdecode
  exact Option.some.inj hdecode

/-- The frames of every run of the open handler decode to the calls made before it, and
a frame determines the call it was sent for. -/
theorem open_frames_encode_history (H : EvpSha256) (fmt : DoubleFormat F)
    (ftx : Ftx.WSClient) (hcredentials : ftx.WritableCredentials) (hftx : ftx.subscriptions = [])
    (bitstamp : Bitstamp.WSClient) (hbitstamp : bitstamp.subscriptions = []) :
    (Ftx.subscriber H F).EncodesHistory fmt (Ftx.OneLogin fmt ftx) ftx ∧
      (Bitstamp.subscriber fmt).EncodesHistory fmt (· = []) bitstamp ∧
      (∀ call call' : Ftx.Kind × Bytes, Utf8.Valid call.2 → Utf8.Valid call'.2 →
        (Ftx.WSClient.subscribeMessage (call.2, call.1.channel) : Json F).dump fmt =
          (Ftx.WSClient.subscribeMessage (call'.2, call'.1.channel)).dump fmt → call = call') ∧
      (∀ call call' : Bitstamp.Kind × Bytes, Utf8.Valid call.2 → Utf8.Valid call'.2 →
        (Bitstamp.WSClient.subscribeMessage (call.1.lead ++ call.2) : Json F).dump fmt =
          (Bitstamp.WSClient.subscribeMessage (call'.1.lead ++ call'.2)).dump fmt →
        call = call') := by
  refine ⟨?_, ?_, fun _ _ h h' heq => Ftx.call_eq_of_frame_eq h h' heq,
    fun _ _ h h' heq => Bitstamp.call_eq_of_frame_eq h h' heq⟩
  · apply (Ftx.announces ftx hcredentials hftx).encodesHistory
    intro env first hfirst
    exact Ftx.oneLogin_of_denotes ftx hcredentials env first hfirst
  · apply (Bitstamp.announces bitstamp hbitstamp).encodesHistory
    intro env first hfirst
    cases hfirst
    rfl

theorem open_frames_encode_history_example :
    let ftx : Ftx.WSClient := ⟨ascii "key", ascii "secret", [], []⟩
    (Ftx.subscriber evpSha256 SampleDouble).EncodesHistory SampleDouble.format
        (Ftx.OneLogin SampleDouble.format ftx) ftx ∧
      (Bitstamp.subscriber SampleDouble.format).EncodesHistory SampleDouble.format (· = []) ⟨[]⟩ ∧
      (∀ call call' : Ftx.Kind × Bytes, Utf8.Valid call.2 → Utf8.Valid call'.2 →
        (Ftx.WSClient.subscribeMessage (call.2, call.1.channel) : Json SampleDouble).dump
            SampleDouble.format =
          (Ftx.WSClient.subscribeMessage (call'.2, call'.1.channel)).dump SampleDouble.format →
        call = call') ∧
      (∀ call call' : Bitstamp.Kind × Bytes, Utf8.Valid call.2 → Utf8.Valid call'.2 →
        (Bitstamp.WSClient.subscribeMessage (call.1.lead ++ call.2) : Json SampleDouble).dump
            SampleDouble.format =
          (Bitstamp.WSClient.subscribeMessage (call'.1.lead ++ call'.2)).dump SampleDouble.format →
        call = call') :=
  open_frames_encode_history evpSha256 SampleDouble.format ⟨ascii "key", ascii "secret", [], []⟩
    (fun _ => ⟨Utf8.valid_of_ascii (by decide), .nil⟩) rfl ⟨[]⟩ rfl

end ExchangeClient
