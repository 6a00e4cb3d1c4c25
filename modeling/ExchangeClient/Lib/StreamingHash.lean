import ExchangeClient.Lib.Bytes

/-!
# Streaming hash functions and HMAC

A hash function as a machine that is restarted, fed piece by piece and asked for
its digest. After the digest has been taken, or before the first restart, the
state may be anything; the interface only promises what a state that has been
restarted and fed gives back. HMAC is built over the function that the machine
computes.
-/

namespace ExchangeClient

/-- A hash function that reads its input in pieces. `Absorbed s m` says that `s` has
been restarted and then fed the pieces of `m`. -/
structure StreamingHash where
  State : Type
  cleared : State
  init : State → State
  update : State → Bytes → State
  final : State → Bytes × State
  blockSize : Nat
  digestSize : Nat
  digest : Bytes → Bytes
  Absorbed : State → Bytes → Prop
  absorbed_init : ∀ s, Absorbed (init s) []
  absorbed_update : ∀ {s m} (piece : Bytes), Absorbed s m → Absorbed (update s piece) (m ++ piece)
  final_of_absorbed : ∀ {s m}, Absorbed s m → (final s).1 = digest m
  length_digest : ∀ m, (digest m).length = digestSize

namespace StreamingHash

variable (H : StreamingHash)

theorem final_update_init (s : H.State) (piece : Bytes) :
    (H.final (H.update (H.init s) piece)).1 = H.digest piece :=
  H.final_of_absorbed (by simpa using H.absorbed_update piece (H.absorbed_init s))

/-- The key as it enters the two passes: hashed if it is longer than a block, then
filled up with zeros. -/
def hmacKey (key : Bytes) : Bytes :=
  let short := if H.blockSize < key.length then H.digest key else key
  short ++ List.replicate (H.blockSize - short.length) 0

def hmac (key text : Bytes) : Bytes :=
  let ipad := (H.hmacKey key).map (0x36 ^^^ ·)
  let opad := (H.hmacKey key).map (0x5C ^^^ ·)
  H.digest (opad ++ H.digest (ipad ++ text))

@[simp] theorem length_hmac (key text : Bytes) : (H.hmac key text).length = H.digestSize :=
  H.length_digest _

end StreamingHash

end ExchangeClient
