import ExchangeClient.Util.Ws

/-!
# A client that announces its subscriptions

What the two WebSocket clients have in common, as far as `util::WS` is concerned:
calls that record a subscription, and a callback that turns everything recorded
into messages when a connection opens. A client does its job when the messages
are one for each call, in the order of the calls, each of which can be read back,
behind an introduction in which no subscription can be read.
-/

namespace ExchangeClient

variable {F κ ε σ : Type}

/-- A client with calls of kinds `κ`, surroundings `ε` of `on_open` and objects `σ`: its
calls, its `on_open`, and how the other side reads a message. -/
structure Subscriber (F κ ε σ : Type) where
  subscribe : κ × Bytes → σ → σ
  onOpen : σ → ε → Except Fault (List (Json F))
  decode : Json F → Option (κ × Bytes)

namespace Subscriber

variable (S : Subscriber F κ ε σ)

/-- The client after a sequence of calls. -/
def record (client : σ) (calls : List (κ × Bytes)) : σ :=
  calls.foldl (fun client call => S.subscribe call client) client

/-- The subscription in a frame. -/
def decodeFrame (fmt : DoubleFormat F) (frame : Bytes) : Option (κ × Bytes) :=
  match Json.parse fmt frame with
  | .ok message => S.decode message
  | .error _ => none

def ValidCalls (calls : List (κ × Bytes)) : Prop := ∀ call ∈ calls, Utf8.Valid call.2

/-- From `client` on, the messages are an introduction and then the calls. -/
structure Announces (client : σ) (introduction : ε → List (Json F)) : Prop where
  onOpen : ∀ calls env, ValidCalls calls → ∃ messages : List (Json F),
    S.onOpen (S.record client calls) env = .ok (introduction env ++ messages) ∧
      (∀ message ∈ messages, message.WellFormed fun _ => False) ∧
      messages.map S.decode = calls.map some
  wellFormed : ∀ env, ∀ message ∈ introduction env, message.WellFormed fun _ => False
  silent : ∀ env, ∀ message ∈ introduction env, S.decode message = none

variable {S}

theorem record_append (client : σ) (calls more : List (κ × Bytes)) :
    S.record client (calls ++ more) = S.record (S.record client calls) more := by
  simp only [record, List.foldl_append]

theorem ValidCalls.append {calls more : List (κ × Bytes)} (h : ValidCalls calls)
    (hmore : ValidCalls more) : ValidCalls (calls ++ more) := by
  intro call hcall
  rcases List.mem_append.mp hcall with hin | hin
  · exact h call hin
  · exact hmore call hin

def Denotes (fmt : DoubleFormat F) (frames : List Bytes) (messages : List (Json F)) : Prop :=
  List.Forall₂ (fun frame message => Json.parse fmt frame = .ok message) frames messages

theorem Denotes.map_decodeFrame {fmt : DoubleFormat F} {frames : List Bytes}
    {messages : List (Json F)} (h : Denotes fmt frames messages) :
    frames.map (S.decodeFrame fmt) = messages.map S.decode := by
  induction h with
  | nil => rfl
  | cons hparse _ ih => simp only [List.map_cons, ih, decodeFrame, hparse]

/-- The open handler sends frames for the introduction, then one frame for each call. -/
theorem Announces.openHandler (fmt : DoubleFormat F) {client : σ}
    {introduction : ε → List (Json F)} (h : S.Announces client introduction)
    {calls : List (κ × Bytes)} (hcalls : ValidCalls calls) (env : ε) :
    ∃ first frames, WS.openHandler fmt (S.onOpen (S.record client calls) env) =
        (first ++ frames, none) ∧
      Denotes fmt first (introduction env) ∧ frames.map (S.decodeFrame fmt) = calls.map some := by
  obtain ⟨messages, hopen, hmessages, hdecode⟩ := h.onOpen calls env hcalls
  have hall : ∀ message ∈ introduction env ++ messages, message.WellFormed fun _ => False := by
    intro message hmem
    rcases List.mem_append.mp hmem with hin | hin
    · exact h.wellFormed env message hin
    · exact hmessages message hin
  obtain ⟨sent, hsend, hframes⟩ := WS.sendAll_wellFormed fmt hall
  have hdenotes : Denotes fmt sent (introduction env ++ messages) := by
    apply hframes.flip.imp
    intro frame message hframe
    exact hframe.2
  have hfirst := List.forall₂_take_append _ _ _ hdenotes
  have hrest := List.forall₂_drop_append _ _ _ hdenotes
  refine ⟨sent.take (introduction env).length, sent.drop (introduction env).length, ?_, hfirst, ?_⟩
  · rw [hopen, List.take_append_drop]
    exact hsend
  · rw [Denotes.map_decodeFrame hrest, hdecode]

end Subscriber

end ExchangeClient
