import ExchangeClient.Json.RoundTrip

/-!
# The WebSocket handlers: `util/WS.cc`

The open handler writes what `on_open_cb` returns, one text frame for each value.
The message handler makes a JSON value of the payload and passes it to
`on_message_cb`. An exception in the first leaves the handler after the frames
already sent.
-/

namespace ExchangeClient

variable {F : Type}

/-- How a handler can fail: with an exception of the library, or by reading outside
of a buffer. -/
inductive Fault where
  | thrown (exception : JsonException)
  | outOfBounds
deriving DecidableEq, Repr

namespace WS

variable (fmt : DoubleFormat F)

/-- The loop of the open handler: the frames that are sent, and the exception that
ends it, if any. -/
def sendAll : List (Json F) → List Bytes × Option Fault
  | [] => ([], none)
  | subscription :: subscriptions =>
      match subscription.dump fmt with
      | .error exception => ([], some (.thrown exception))
      | .ok frame =>
          let (frames, fault) := sendAll subscriptions
          (frame :: frames, fault)

def openHandler : Except Fault (List (Json F)) → List Bytes × Option Fault
  | .error fault => ([], some fault)
  | .ok subscriptions => sendAll fmt subscriptions

/-- The message handler. A `json` made of a `const char*` is a string. -/
def messageHandler {σ : Type} (onMessageCb : Json F → σ → σ) (payload : Bytes) : σ → σ :=
  onMessageCb (.string (cStr payload))

/-- Well-formed values are all sent, in order. -/
theorem sendAll_wellFormed {values : List (Json F)}
    (hvalues : ∀ value ∈ values, value.WellFormed fun _ => False) :
    ∃ frames, sendAll fmt values = (frames, none) ∧
      List.Forall₂ (fun value frame => value.dump fmt = .ok frame ∧
        Json.parse fmt frame = .ok value) values frames := by
  induction values with
  | nil => exact ⟨[], rfl, .nil⟩
  | cons value values ih =>
      rw [List.forall_mem_cons] at hvalues
      obtain ⟨frames, hsend, hframes⟩ := ih hvalues.2
      obtain ⟨frame, hdump, hparse⟩ := Json.parse_dump_of_noFloats fmt hvalues.1
      refine ⟨frame :: frames, ?_, .cons ⟨hdump, hparse⟩ hframes⟩
      simp only [sendAll, hdump, hsend]

end WS

/-! ### What is delivered -/

/-- The arguments of the calls of `on_message_cb`, in order. -/
def WS.deliveries (payload : Bytes) : List (Json F) :=
  messageHandler (fun j log => log ++ [j]) payload []

theorem length_cStr_append {lead : Bytes} (rest : Bytes) (h : (0 : UInt8) ∉ lead) :
    lead.length ≤ (cStr (lead ++ rest)).length := by
  induction lead with
  | nil => exact Nat.zero_le _
  | cons b lead ih =>
      rw [List.mem_cons, not_or] at h
      rw [List.cons_append, cStr, List.takeWhile_cons, if_pos (by simpa using Ne.symm h.1)]
      exact Nat.succ_le_succ (ih h.2)

theorem cStr_ne_of_parse_string (fmt : DoubleFormat F) {payload s : Bytes}
    (h : Json.parse fmt payload = .ok (.string s)) : cStr payload ≠ s := by
  intro heq
  obtain ⟨lead, read, rest, hpayload, hlead, hread, hlen⟩ := Json.string_document_shape fmt h
  -- the payload has its two quotation marks on top of the string it denotes, before any
  -- null byte
  have hnotMem : (0 : UInt8) ∉ lead ++ 0x22 :: (read ++ [0x22]) := by simp [hlead, hread]
  have hshape : payload = (lead ++ 0x22 :: (read ++ [0x22])) ++ rest := by simp [hpayload]
  have hlong := length_cStr_append rest hnotMem
  rw [← hshape, heq] at hlong
  simp only [List.length_append, List.length_cons] at hlong
  omega

/-- What is delivered is never what the payload denotes: the payload is not parsed. -/
theorem delivered_ne_denoted (fmt : DoubleFormat F) {payload : Bytes} {v : Json F}
    (h : Json.parse fmt payload = .ok v) : WS.deliveries payload ≠ [v] := by
  intro heq
  have hv : Json.string (cStr payload) = v := (List.cons.inj heq).1
  subst hv
  exact cStr_ne_of_parse_string fmt h rfl

theorem delivered_ne_denoted_example :
    WS.deliveries (ascii "\x7b\"a\":[true]\x7d") ≠
      [(.object [(ascii "a", .array [.boolean true])] : Json SampleDouble)] :=
  delivered_ne_denoted SampleDouble.format (by rfl)

/-- The payload `{"event":"trade"}` arrives as a string. -/
theorem object_delivered_as_string :
    Json.parse SampleDouble.format (ascii "\x7b\"event\":\"trade\"\x7d") =
        .ok (.object [(ascii "event", .string (ascii "trade"))]) ∧
      WS.deliveries (ascii "\x7b\"event\":\"trade\"\x7d") ≠
        [(.object [(ascii "event", .string (ascii "trade"))] : Json SampleDouble)] := by
  constructor
  · rfl
  · intro h
    cases h

end ExchangeClient
