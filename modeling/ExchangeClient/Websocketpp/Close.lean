import ExchangeClient.Websocketpp.Hybi13

/-!
# Close codes and error codes

`close.hpp`: the codes of a close frame, and how the code and the reason are read from
its payload. The error codes of the library with their texts, some of which become the
reason of a close frame.
-/

namespace ExchangeClient.Websocketpp

/-! ### Error codes -/

/-- The library errors that the client's side of a connection can meet. -/
inductive LibraryError where
  | general
  | invalidState
  | badCloseCode
  | reservedCloseCode
  | invalidCloseCode
  | invalidUtf8
  | openHandshakeTimeout
  | closeHandshakeTimeout
  | extensionNegFailed
deriving DecidableEq, Repr

/-- The transport errors. -/
inductive TransportError where
  | general
  | passThrough
  | invalidNumBytes
  | doubleRead
  | operationAborted
  | operationNotSupported
  | eof
  | tlsShortRead
  | timeout
  | actionAfterShutdown
  | tlsError
deriving DecidableEq, Repr

/-- A `lib::error_code` that is an error. -/
inductive ErrorCode where
  | library (e : LibraryError)
  | processor (e : ProcessorError)
  | transport (e : TransportError)
deriving DecidableEq, Repr

def LibraryError.message : LibraryError → Bytes
  | general => ascii "Generic error"
  | invalidState => ascii "invalid state"
  | badCloseCode => ascii "Unable to extract close code"
  | reservedCloseCode => ascii "Extracted close code is in a reserved range"
  | invalidCloseCode => ascii "Extracted close code is in an invalid range"
  | invalidUtf8 => ascii "Invalid UTF-8"
  | openHandshakeTimeout => ascii "The opening handshake timed out"
  | closeHandshakeTimeout => ascii "The closing handshake timed out"
  | extensionNegFailed => ascii "Extension negotiation failed"

def ProcessorError.message : ProcessorError → Bytes
  | general => ascii "Generic processor error"
  | protocolViolation => ascii "Generic protocol violation"
  | messageTooBig => ascii "A message was too large"
  | invalidPayload => ascii "A payload contained invalid data"
  | invalidOpcode => ascii "invalid opcode"
  | controlTooBig => ascii "Control messages are limited to fewer than 125 characters"
  | invalidRsvBit => ascii "Invalid use of reserved bits"
  | fragmentedControl => ascii "Control messages cannot be fragmented"
  | invalidContinuation => ascii "Invalid message continuation"
  | maskingRequired => ascii "Clients may not send unmasked frames"
  | maskingForbidden => ascii "Servers may not send masked frames"
  | nonMinimalEncoding => ascii "Payload length was not minimally encoded"
  | invalidUtf8 => ascii "Invalid UTF8 encoding"
  | invalidHttpStatus => ascii "Invalid HTTP status."
  | missingRequiredHeader => ascii "A required HTTP header is missing"
  | reservedCloseCode => ascii "Reserved close code used"
  | invalidCloseCode => ascii "Invalid close code used"
  | reasonRequiresCode => ascii "Using a close reason requires a valid close code"
  | extensionParseError => ascii "Error parsing extension header"

/-- The text of `double_read` is missing from the source's table. -/
def TransportError.message : TransportError → Bytes
  | general => ascii "Generic transport policy error"
  | passThrough => ascii "Underlying Transport Error"
  | invalidNumBytes =>
      ascii "async_read_at_least call requested more bytes than buffer can store"
  | doubleRead => ascii "Unknown"
  | operationAborted => ascii "The operation was aborted"
  | operationNotSupported => ascii "The operation is not supported by this transport"
  | eof => ascii "End of File"
  | tlsShortRead => ascii "TLS Short Read"
  | timeout => ascii "Timer Expired"
  | actionAfterShutdown => ascii "A transport action was requested after shutdown"
  | tlsError => ascii "Generic TLS related error"

def ErrorCode.message : ErrorCode → Bytes
  | library e => e.message
  | processor e => e.message
  | transport e => e.message

/-! ### Close codes -/

namespace Close

abbrev Status := UInt16

def blank : Status := 0
def normal : Status := 1000
def protocolError : Status := 1002
def noStatus : Status := 1005
def abnormalClose : Status := 1006
def invalidPayload : Status := 1007
def policyViolation : Status := 1008
def messageTooBig : Status := 1009
def internalEndpointError : Status := 1011
def tlsHandshake : Status := 1015
def rsvStart : Status := 1016
def rsvEnd : Status := 2999
def invalidLow : Status := 999
def invalidHigh : Status := 5000

def reserved (code : Status) : Bool :=
  (code ≥ rsvStart && code ≤ rsvEnd) || code = 1004

def invalid (code : Status) : Bool :=
  code ≤ invalidLow || code ≥ invalidHigh || code = noStatus || code = abnormalClose ||
    code = tlsHandshake

/-- The codes after which the connection is dropped without waiting for an answer. -/
def terminal (code : Status) : Bool :=
  code = protocolError || code = invalidPayload || code = policyViolation ||
    code = messageTooBig || code = internalEndpointError

/-- `extract_code`: the code, and the error that is noted. -/
def extractCode (payload : Bytes) : Status × Option LibraryError :=
  match payload with
  | [] => (noStatus, none)
  | [_] => (protocolError, some .badCloseCode)
  | c0 :: c1 :: _ =>
      let code := ntohs (UInt16.ofNat (LittleEndian.value [c0, c1]))
      let ec := if invalid code then some .invalidCloseCode else none
      let ec := if reserved code then some .reservedCloseCode else ec
      (code, ec)

/-- `extract_reason`. -/
def extractReason (payload : Bytes) : Bytes × Option LibraryError :=
  let reason := if payload.length > 2 then payload.drop 2 else []
  (reason, if Validator.validate reason then none else some .invalidUtf8)

end Close

/-- `processor::error::to_ws`, for an error of the processor. -/
def ProcessorError.toWs : ProcessorError → Close.Status
  | protocolViolation => Close.protocolError
  | controlTooBig => Close.protocolError
  | invalidOpcode => Close.protocolError
  | invalidRsvBit => Close.protocolError
  | fragmentedControl => Close.protocolError
  | invalidContinuation => Close.protocolError
  | maskingRequired => Close.protocolError
  | maskingForbidden => Close.protocolError
  | reservedCloseCode => Close.protocolError
  | invalidCloseCode => Close.protocolError
  | invalidPayload => Close.invalidPayload
  | invalidUtf8 => Close.invalidPayload
  | messageTooBig => Close.messageTooBig
  | _ => Close.internalEndpointError

/-! ### What a close frame can carry -/

theorem Validator.validate_iff {s : Bytes} : Validator.validate s = true ↔ Utf8.Valid s := by
  rw [Validator.validate]
  by_cases hdecode : (fresh.decode s).2 = true
  · simp only [if_pos hdecode]
    exact decode_fresh_complete hdecode
  · simp only [if_neg hdecode, Bool.false_eq_true, false_iff]
    intro hvalid
    exact hdecode (decode_fresh_iff.mpr ⟨[], by rwa [List.append_nil]⟩)

theorem Close.valid_of_extractCode {c0 c1 : UInt8} {reason : Bytes}
    (h : ¬ (extractCode (c0 :: c1 :: reason)).2.isSome = true) :
    reserved (extractCode (c0 :: c1 :: reason)).1 = false ∧
      invalid (extractCode (c0 :: c1 :: reason)).1 = false := by
  simp only [extractCode] at h ⊢
  constructor
  · by_contra hreserved
    rw [if_pos (Bool.eq_true_of_not_eq_false hreserved)] at h
    exact h rfl
  · by_contra hinvalid
    rw [if_pos (Bool.eq_true_of_not_eq_false hinvalid)] at h
    apply h
    split <;> rfl

/-- An error of the processor is told to the peer with a code that may be sent and that
ends the connection, and with a reason that fits. -/
theorem ProcessorError.toWs_spec (e : ProcessorError) :
    Close.reserved e.toWs = false ∧ Close.invalid e.toWs = false ∧
      Close.terminal e.toWs = true ∧ e.message.length ≤ 123 ∧ Utf8.Valid e.message := by
  have hall : Close.reserved e.toWs = false ∧ Close.invalid e.toWs = false ∧
      Close.terminal e.toWs = true ∧ e.message.length ≤ 123 ∧
      e.message.all (· ≤ 0x7F) = true := by
    cases e <;> decide
  obtain ⟨hreserved, hinvalid, hterminal, hlength, hascii⟩ := hall
  exact ⟨hreserved, hinvalid, hterminal, hlength, Utf8.valid_of_ascii hascii⟩

end ExchangeClient.Websocketpp
