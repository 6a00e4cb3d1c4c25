import ExchangeClient.Lib.Footprint
import ExchangeClient.Lib.Hex
import ExchangeClient.Lib.Sha256

/-!
# Signing: `util/Encoding.h`

`hmac` keeps one `HMAC_CTX` for the whole process. The context is explicit here,
with the functions of OpenSSL 1.0 that work on it, so that what one call leaves
behind is what the next call finds. SHA-256 is a streaming hash; nothing is
assumed of its state before it is restarted.

`string_to_hex` is a loop that fills a buffer of blanks. What it writes and what it
touches are both proved about the loop with a record of its accesses.
-/

namespace ExchangeClient

structure EvpSha256 extends StreamingHash where
  blockSize_eq : blockSize = 64
  digestSize_eq : digestSize = 32

def evpSha256 : EvpSha256 where
  toStreamingHash := Sha256.streaming
  blockSize_eq := rfl
  digestSize_eq := rfl

namespace Encoding

/-! ### Buffers -/

abbrev Buffer (size : Nat) := Fin size → UInt8

def memcpy {size : Nat} (buffer : Buffer size) (bytes : Bytes) : Buffer size :=
  fun i => bytes.getD i (buffer i)

def clearFrom {size : Nat} (start : Nat) (buffer : Buffer size) : Buffer size :=
  fun i => if start ≤ i then 0 else buffer i

theorem take_ofFn_memcpy {size : Nat} (buffer : Buffer size) {bytes : Bytes}
    (h : bytes.length ≤ size) : (List.ofFn (memcpy buffer bytes)).take bytes.length = bytes := by
  refine List.ext_getElem (by simpa using h) fun i hi hi' => ?_
  simp [memcpy, List.getD_eq_getElem?_getD, hi']

/-- A key in a cleared buffer, seen through a mask and a window that covers it. -/
theorem take_mask_memcpy {size count : Nat} (buffer : Buffer size) {bytes : Bytes} (mask : UInt8)
    (h : bytes.length ≤ count) (hcount : count ≤ size) :
    (List.ofFn fun i => mask ^^^ clearFrom bytes.length (memcpy buffer bytes) i).take count =
      (bytes ++ List.replicate (count - bytes.length) 0).map (mask ^^^ ·) := by
  refine List.ext_getElem (by simp; omega) fun i hi hi' => ?_
  by_cases hin : i < bytes.length
  · have hnot : ¬ bytes.length ≤ i := by omega
    simp [clearFrom, memcpy, List.getD_eq_getElem?_getD, hin, hnot, List.getElem_append_left]
  · have hge : bytes.length ≤ i := by omega
    simp [clearFrom, hge, List.getElem_append_right]

/-! ### `HMAC_CTX` -/

/-- The digests a context can be set to. -/
inductive EvpMd where
  | sha256
deriving DecidableEq, Repr

abbrev hmacMaxMdCblock : Nat := 128

structure HmacCtx (H : EvpSha256) where
  md : Option EvpMd
  mdCtx : H.State
  iCtx : H.State
  oCtx : H.State
  keyLength : Nat
  key : Buffer hmacMaxMdCblock

variable {H : EvpSha256}

/-- `HMAC_CTX_init`, on an object with static storage. -/
def HmacCtx.init (H : EvpSha256) : HmacCtx H where
  md := none
  mdCtx := H.cleared
  iCtx := H.cleared
  oCtx := H.cleared
  keyLength := 0
  key _ := 0

/-- The key block of `HMAC_Init_ex`: the digest of a key that is longer than a
block, the key itself otherwise, and zeros after it. -/
def HmacCtx.loadKey (ctx : HmacCtx H) (key : Bytes) (len : Int) : Option (HmacCtx H) :=
  if H.blockSize < len then
    let result := H.final (H.update (H.init ctx.mdCtx) (key.take len.toNat))
    some { ctx with
      mdCtx := result.2
      keyLength := result.1.length
      key := clearFrom result.1.length (memcpy ctx.key result.1) }
  else if len < 0 ∨ hmacMaxMdCblock < len then none
  else some { ctx with
    keyLength := len.toNat
    key := clearFrom len.toNat (memcpy ctx.key (key.take len.toNat)) }

/-- `pad`: the first block of the key block under a mask. -/
def HmacCtx.pad (ctx : HmacCtx H) (mask : UInt8) : Bytes :=
  (List.ofFn fun i => mask ^^^ ctx.key i).take H.blockSize

/-- The part of `HMAC_Init_ex` under `if (reset)`. -/
def HmacCtx.reset (ctx : HmacCtx H) : HmacCtx H :=
  { ctx with
    iCtx := H.update (H.init ctx.iCtx) (ctx.pad 0x36)
    oCtx := H.update (H.init ctx.oCtx) (ctx.pad 0x5C) }

/-- `EVP_MD_CTX_copy_ex(&ctx->md_ctx, &ctx->i_ctx)`. -/
def HmacCtx.start (ctx : HmacCtx H) : HmacCtx H := { ctx with mdCtx := ctx.iCtx }

/-- `HMAC_Init_ex`: whether it succeeds, and the context. -/
def hmacInitEx (ctx : HmacCtx H) (key : Option Bytes) (len : Int) (md : Option EvpMd) :
    Bool × HmacCtx H :=
  -- changing the digest needs a key
  if md ≠ none ∧ md ≠ ctx.md ∧ (key = none ∨ len < 0) then (false, ctx)
  else
    match md.or ctx.md with
    | none => (false, ctx)
    | some chosen =>
        let ctx := { ctx with md := some chosen }
        match key with
        | none => if md = none then (true, ctx.start) else (true, ctx.reset.start)
        | some key =>
            match ctx.loadKey key len with
            | none => (false, ctx)
            | some ctx => (true, ctx.reset.start)

def hmacUpdate (ctx : HmacCtx H) (data : Bytes) : Bool × HmacCtx H :=
  match ctx.md with
  | none => (false, ctx)
  | some _ => (true, { ctx with mdCtx := H.update ctx.mdCtx data })

/-- `HMAC_Final`: the digest, and the context, which is left as the two passes left it. -/
def hmacFinal (ctx : HmacCtx H) : Option Bytes × HmacCtx H :=
  match ctx.md with
  | none => (none, ctx)
  | some _ =>
      let inner := H.final ctx.mdCtx
      let outer := H.final (H.update ctx.oCtx inner.1)
      (some outer.1, { ctx with mdCtx := outer.2 })

/-! ### `hmac` -/

/-- The conversion of a size to `int`. -/
def toInt (size : Nat) : Int := Int.bmod size (2 ^ 32)

theorem toInt_of_lt {size : Nat} (h : size < 2 ^ 31) : toInt size = size :=
  Int.bmod_eq_of_le_mul_two (by omega) (by omega)

/-- `hmac`, with what is on the stack where `signed_msg` lies. No more than that buffer
may be asked for. -/
def hmac (ctx : HmacCtx H) (signedMsg : Buffer 64) (secret msg : Bytes) (signedLen : Fin 65) :
    Bytes × HmacCtx H :=
  let ctx := (hmacInitEx ctx (some secret) (toInt secret.length) (some .sha256)).2
  let ctx := (hmacUpdate ctx msg).2
  let result := hmacFinal ctx
  let signedMsg := memcpy signedMsg (result.1.getD [])
  ((List.ofFn signedMsg).take signedLen, result.2)

/-- What every caller asks for, the length of a SHA-256 digest. -/
def digestLen : Fin 65 := 32

/-- The context is set up for `secret`: both passes have absorbed their block. -/
structure HmacCtx.Ready (ctx : HmacCtx H) (secret text : Bytes) : Prop where
  md : ctx.md = some .sha256
  inner : H.Absorbed ctx.mdCtx ((H.hmacKey secret).map (0x36 ^^^ ·) ++ text)
  outer : H.Absorbed ctx.oCtx ((H.hmacKey secret).map (0x5C ^^^ ·))

/-- The key block holds the HMAC key, whatever was in it before. -/
theorem HmacCtx.loadKey_spec (ctx : HmacCtx H) (secret : Bytes) :
    ∃ ctx', ctx.loadKey secret secret.length = some ctx' ∧ ctx'.md = ctx.md ∧
      ∀ mask, ctx'.pad mask = (H.hmacKey secret).map (mask ^^^ ·) := by
  have hblock := H.blockSize_eq
  have hsize := H.digestSize_eq
  have hwindow : H.blockSize ≤ hmacMaxMdCblock := hblock ▸ (by decide : 64 ≤ 128)
  unfold loadKey
  by_cases hlong : H.blockSize < secret.length
  · have hdigest : (H.final (H.update (H.init ctx.mdCtx)
        (secret.take (secret.length : Int).toNat))).1 = H.digest secret := by
      rw [H.final_update_init, Int.toNat_natCast, List.take_length]
    have hshort : (H.digest secret).length ≤ H.blockSize := by
      rw [H.length_digest]
      omega
    refine ⟨_, if_pos (by exact_mod_cast hlong), rfl, fun mask => ?_⟩
    simp only [pad, hdigest, take_mask_memcpy ctx.key mask hshort hwindow,
      StreamingHash.hmacKey, if_pos hlong]
  · have hrange : ¬ ((secret.length : Int) < 0 ∨ (hmacMaxMdCblock : Int) < secret.length) := by
      omega
    have hshort : secret.length ≤ H.blockSize := by omega
    refine ⟨_, (if_neg (by exact_mod_cast hlong)).trans (if_neg hrange), rfl, fun mask => ?_⟩
    simp only [pad, Int.toNat_natCast, List.take_length,
      take_mask_memcpy ctx.key mask hshort hwindow, StreamingHash.hmacKey, if_neg hlong]

/-- With a key and a digest, `HMAC_Init_ex` succeeds and forgets the context. -/
theorem hmacInitEx_ready (ctx : HmacCtx H) (secret : Bytes) :
    (hmacInitEx ctx (some secret) secret.length (some .sha256)).2.Ready secret [] := by
  obtain ⟨loaded, hload, hmd, hpad⟩ :=
    { ctx with md := some .sha256 : HmacCtx H }.loadKey_spec secret
  have hkey : ¬ ((some EvpMd.sha256 ≠ none) ∧ some .sha256 ≠ ctx.md ∧
      (some secret = none ∨ (secret.length : Int) < 0)) := by
    rintro ⟨-, -, h | h⟩
    · cases h
    · omega
  have hresult : hmacInitEx ctx (some secret) secret.length (some .sha256) =
      (true, loaded.reset.start) := by
    simp only [hmacInitEx, if_neg hkey, Option.some_or, hload]
  rw [hresult]
  -- both states are initialised anew, so what the context held before does not matter
  refine ⟨hmd, ?_, ?_⟩
  · rw [← hpad, List.append_nil]
    exact H.absorbed_update (m := []) _ (H.absorbed_init _)
  · rw [← hpad]
    exact H.absorbed_update (m := []) _ (H.absorbed_init _)

theorem hmacUpdate_ready {ctx : HmacCtx H} {secret : Bytes} (h : ctx.Ready secret [])
    (msg : Bytes) : (hmacUpdate ctx msg).2.Ready secret msg := by
  have hinner := h.inner
  rw [List.append_nil] at hinner
  simp only [hmacUpdate, h.md]
  exact ⟨rfl, H.absorbed_update msg hinner, h.outer⟩

theorem hmacFinal_ready {ctx : HmacCtx H} {secret msg : Bytes} (h : ctx.Ready secret msg) :
    (hmacFinal ctx).1 = some (H.hmac secret msg) := by
  simp only [hmacFinal, h.md, H.final_of_absorbed h.inner]
  rw [H.final_of_absorbed (H.absorbed_update _ h.outer), StreamingHash.hmac]

/-- One call computes HMAC, from any context and over any stack. -/
theorem hmac_eq (ctx : HmacCtx H) (signedMsg : Buffer 64) {secret : Bytes}
    (hsecret : secret.length < 2 ^ 31) (msg : Bytes) :
    (hmac ctx signedMsg secret msg digestLen).1 = H.hmac secret msg := by
  have hready := hmacUpdate_ready (hmacInitEx_ready ctx secret) msg
  have hlen : (H.hmac secret msg).length = 32 := by rw [H.length_hmac, H.digestSize_eq]
  have htake := take_ofFn_memcpy signedMsg (by omega : (H.hmac secret msg).length ≤ 64)
  rw [hlen] at htake
  have hcount : (digestLen : Nat) = 32 := rfl
  simp only [hmac, toInt_of_lt hsecret, hmacFinal_ready hready, Option.getD_some, hcount, htake]

theorem length_hmac_fst (ctx : HmacCtx H) (signedMsg : Buffer 64) (secret msg : Bytes)
    (signedLen : Fin 65) : (hmac ctx signedMsg secret msg signedLen).1.length = signedLen := by
  have hlen : (signedLen : Nat) ≤ 64 := Nat.le_of_lt_succ signedLen.isLt
  simp only [hmac, List.length_take, List.length_ofFn]
  exact Nat.min_eq_left hlen

/-! ### Calls in sequence -/

structure HmacCall where
  secret : Bytes
  msg : Bytes
  signedMsg : Buffer 64

def hmacCalls (ctx : HmacCtx H) : List HmacCall → List Bytes
  | [] => []
  | call :: calls =>
      let result := hmac ctx call.signedMsg call.secret call.msg digestLen
      result.1 :: hmacCalls result.2 calls

theorem hmacCalls_eq {calls : List HmacCall} (h : ∀ call ∈ calls, call.secret.length < 2 ^ 31) :
    ∀ ctx : HmacCtx H,
      hmacCalls ctx calls = calls.map fun call => H.hmac call.secret call.msg := by
  induction calls with
  | nil => intro ctx; rfl
  | cons call calls ih =>
      intro ctx
      rw [hmacCalls, hmac_eq ctx call.signedMsg (h call List.mem_cons_self),
        ih (fun c hc => h c (List.mem_cons_of_mem _ hc)), List.map_cons]

/-- The shared context leaks nothing: every call of a sequence returns the 32 bytes
of HMAC-SHA256 under its own secret. -/
theorem hmac_shared_context_pure (H : EvpSha256) (calls : List HmacCall)
    (h : ∀ call ∈ calls, call.secret.length < 2 ^ 31) :
    hmacCalls (HmacCtx.init H) calls =
        calls.map (fun call => H.hmac call.secret call.msg) ∧
      ∀ call ∈ calls, (H.hmac call.secret call.msg).length = 32 :=
  ⟨hmacCalls_eq h (HmacCtx.init H), fun call _ => by rw [H.length_hmac, H.digestSize_eq]⟩

theorem hmac_shared_context_pure_example :
    let calls : List HmacCall :=
      [⟨List.replicate 65 0x6B, ascii "a", fun _ => 0⟩, ⟨[], [0, 1], fun _ => 0xFF⟩]
    hmacCalls (HmacCtx.init evpSha256) calls =
        calls.map (fun call => evpSha256.hmac call.secret call.msg) ∧
      ∀ call ∈ calls, (evpSha256.hmac call.secret call.msg).length = 32 :=
  hmac_shared_context_pure evpSha256 _ (by decide)

/-! ### `string_to_hex` -/

def hexmap : Bytes := ascii "0123456789abcdef"

def writeAt (s : Bytes) (i : Nat) (c : UInt8) : Option Bytes :=
  if i < s.length then some (s.set i c) else none

/-- The body of the loop. Reading outside `data` or `hexmap` gives nothing. -/
def stringToHexStep (data s : Bytes) (i : Nat) : Option Bytes := do
  let high ← hexmap[(((← data[i]?) &&& 0xF0) >>> 4).toNat]?
  let s ← writeAt s (2 * i) high
  let low ← hexmap[((← data[i]?) &&& 0x0F).toNat]?
  writeAt s (2 * i + 1) low

def stringToHex (data : Bytes) (len : Nat) : Option Bytes :=
  (List.range len).foldlM (stringToHexStep data) (List.replicate (len * 2) 0x20)

/-! ### What the loop touches -/

open Footprint

inductive HexAccess where
  | readData (i : Nat)
  | readHexmap (i : Nat)
  | write (i : Nat)
deriving DecidableEq, Repr

/-- The body of the loop, with a record of its accesses. -/
def tracedStringToHexStep (data s : Bytes) (i : Nat) : Traced HexAccess Bytes := do
  let readData (i : Nat) := touch (.readData i) data[i]?
  let readHexmap (i : Nat) := touch (.readHexmap i) hexmap[i]?
  let write (s : Bytes) (i : Nat) (c : UInt8) := touch (.write i) (writeAt s i c)
  let high ← readHexmap (((← readData i) &&& 0xF0) >>> 4).toNat
  let s ← write s (2 * i) high
  let low ← readHexmap ((← readData i) &&& 0x0F).toNat
  write s (2 * i + 1) low

/-- No object has `2 ^ 63` bytes, so neither `len * 2` nor an index wraps around. -/
def tracedStringToHex (data : Bytes) (len : Nat) : Traced HexAccess Bytes :=
  (List.range len).foldlM (tracedStringToHexStep data) (List.replicate (len * 2) 0x20)

theorem value_tracedStringToHexStep (data s : Bytes) (i : Nat) :
    value (tracedStringToHexStep data s i) = stringToHexStep data s i := by
  simp only [tracedStringToHexStep, stringToHexStep, value_bind, value_touch, Option.bind_eq_bind]

/-- Without the record it is the loop itself. -/
theorem value_tracedStringToHex (data : Bytes) (len : Nat) :
    value (tracedStringToHex data len) = stringToHex data len := by
  simp only [tracedStringToHex, stringToHex, value_foldlM, value_tracedStringToHexStep]

/-- The accesses of round `i`, in which the byte `b` is read. -/
def roundAccesses (b : UInt8) (i : Nat) : List HexAccess :=
  [.readData i, .readHexmap ((b &&& 0xF0) >>> 4).toNat, .write (2 * i),
    .readData i, .readHexmap (b &&& 0x0F).toNat, .write (2 * i + 1)]

def loopAccesses (data : Bytes) (n : Nat) : List HexAccess :=
  (List.range n).flatMap fun i => roundAccesses (data.getD i 0) i

theorem loopAccesses_succ (data : Bytes) (n : Nat) :
    loopAccesses data (n + 1) = loopAccesses data n ++ roundAccesses (data.getD n 0) n := by
  rw [loopAccesses, List.range_succ, List.flatMap_append, List.flatMap_singleton]
  rfl

/-! ### What the loop writes -/

theorem writeAt_append (left right : Bytes) (c d : UInt8) :
    writeAt (left ++ c :: right) left.length d = some (left ++ d :: right) := by
  rw [writeAt, if_pos (by simp)]
  simp

theorem hexmap_get (b : UInt8) :
    hexmap[((b &&& 0xF0) >>> 4).toNat]? = some (Hex.digit (b.toNat / 16)) ∧
      hexmap[(b &&& 0x0F).toNat]? = some (Hex.digit (b.toNat % 16)) :=
  forall_uint8 (P := fun b => hexmap[((b &&& 0xF0) >>> 4).toNat]? =
      some (Hex.digit (b.toNat / 16)) ∧
    hexmap[(b &&& 0x0F).toNat]? = some (Hex.digit (b.toNat % 16))) (by decide +kernel) b

/-- The buffer after `i` rounds: the text of the bytes read, then blanks. -/
def hexBuffer (data : Bytes) (len i : Nat) : Bytes :=
  Hex.encode (data.take i) ++ List.replicate (2 * (len - i)) 0x20

/-- The two writes of a round replace the first two blanks. -/
theorem writeAt_hexBuffer {data : Bytes} {len i : Nat} {b : UInt8} (hi : i < len)
    (hdata : data[i]? = some b) :
    ∃ s, writeAt (hexBuffer data len i) (2 * i) (Hex.digit (b.toNat / 16)) = some s ∧
      writeAt s (2 * i + 1) (Hex.digit (b.toNat % 16)) = some (hexBuffer data len (i + 1)) := by
  have hbound : i < data.length := (List.getElem?_eq_some_iff.mp hdata).1
  have htext : (Hex.encode (data.take i)).length = 2 * i := by
    rw [Hex.length_encode, List.length_take]
    omega
  have hblanks : List.replicate (2 * (len - i)) (0x20 : UInt8) =
      0x20 :: 0x20 :: List.replicate (2 * (len - (i + 1))) 0x20 := by
    rw [show 2 * (len - i) = 2 * (len - (i + 1)) + 1 + 1 by omega]
    rfl
  have hnext : Hex.encode (data.take (i + 1)) =
      Hex.encode (data.take i) ++ [Hex.digit (b.toNat / 16), Hex.digit (b.toNat % 16)] := by
    rw [List.take_add_one, hdata, Option.toList_some, Hex.encode_append]
    rfl
  have hfirst := writeAt_append (Hex.encode (data.take i))
    (0x20 :: List.replicate (2 * (len - (i + 1))) 0x20) 0x20 (Hex.digit (b.toNat / 16))
  have hsecond := writeAt_append
    (Hex.encode (data.take i) ++ [Hex.digit (b.toNat / 16)])
    (List.replicate (2 * (len - (i + 1))) 0x20) 0x20 (Hex.digit (b.toNat % 16))
  rw [htext] at hfirst
  rw [List.length_append, htext, List.length_singleton] at hsecond
  unfold hexBuffer
  rw [hblanks, hnext]
  refine ⟨_, hfirst, ?_⟩
  simpa using hsecond

/-- One round: the next byte is read twice and its two digits are written. -/
theorem touches_step {data : Bytes} {len i : Nat} (hi : i < len) (hlen : len ≤ data.length) :
    Touches (tracedStringToHexStep data (hexBuffer data len i) i) (hexBuffer data len (i + 1))
      (roundAccesses (data.getD i 0) i) := by
  have hdata : data[i]? = some (data.getD i 0) := by
    rw [List.getD_eq_getElem?_getD, List.getElem?_eq_getElem (by omega)]
    rfl
  obtain ⟨hhigh, hlow⟩ := hexmap_get (data.getD i 0)
  obtain ⟨s, hfirst, hsecond⟩ := writeAt_hexBuffer hi hdata
  exact (touches_touch _ hdata).bind <| (touches_touch _ hhigh).bind <|
    (touches_touch _ hfirst).bind <| (touches_touch _ hdata).bind <|
    (touches_touch _ hlow).bind (touches_touch _ hsecond)

theorem touches_stringToHex {data : Bytes} {len : Nat} (hlen : len ≤ data.length) :
    Touches (tracedStringToHex data len) (Hex.encode (data.take len)) (loopAccesses data len) := by
  have hstart : List.replicate (len * 2) (0x20 : UInt8) = hexBuffer data len 0 := by
    simp [hexBuffer, Nat.mul_comm]
  have hend : hexBuffer data len len = Hex.encode (data.take len) := by
    simp [hexBuffer]
  rw [tracedStringToHex, hstart, ← hend]
  apply touches_range
  intro i hi
  exact touches_step hi hlen

/-- The loop writes the hexadecimal text of the first `len` bytes. -/
theorem stringToHex_eq {data : Bytes} {len : Nat} (hlen : len ≤ data.length) :
    stringToHex data len = some (Hex.encode (data.take len)) := by
  rw [← value_tracedStringToHex]
  exact (touches_stringToHex hlen).value_eq

/-! ### Exactness -/

theorem readData_lt {data : Bytes} {n i : Nat} (h : .readData i ∈ loopAccesses data n) :
    i < n := by
  obtain ⟨j, hj, hmem⟩ := List.mem_flatMap.mp h
  obtain rfl : i = j := by simpa [roundAccesses] using hmem
  exact List.mem_range.mp hj

theorem readHexmap_le {data : Bytes} {n i : Nat} (h : .readHexmap i ∈ loopAccesses data n) :
    i ≤ 15 := by
  obtain ⟨j, -, hmem⟩ := List.mem_flatMap.mp h
  obtain ⟨hhigh, hlow⟩ := hexmap_get (data.getD j 0)
  have hsize : hexmap.length = 16 := rfl
  have hindex : i = (((data.getD j 0) &&& 0xF0) >>> 4).toNat ∨
      i = ((data.getD j 0) &&& 0x0F).toNat := by
    simpa [roundAccesses] using hmem
  -- a lookup that gives a digit is inside of the table
  rcases hindex with rfl | rfl
  · have hlt := (List.getElem?_eq_some_iff.mp hhigh).1
    omega
  · have hlt := (List.getElem?_eq_some_iff.mp hlow).1
    omega

theorem count_write (data : Bytes) (n i : Nat) :
    (loopAccesses data n).count (.write i) = if i < 2 * n then 1 else 0 := by
  induction n with
  | zero => rfl
  | succ n ih =>
      have hround : (roundAccesses (data.getD n 0) n).count (.write i) =
          (if 2 * n + 1 = i then 1 else 0) + (if 2 * n = i then 1 else 0) := by
        simp [roundAccesses, List.count_cons]
      rw [loopAccesses_succ, List.count_append, ih, hround]
      split_ifs <;> omega

/-- A run of the loop over `data` that has touched the right places, each index of the
result once, and left the text of `data` in it. -/
structure ExactRun (data text : Bytes) (accesses : List HexAccess) : Prop where
  reads : ∀ i, .readData i ∈ accesses → i < data.length
  lookups : ∀ i, .readHexmap i ∈ accesses → i ≤ 15
  writes : ∀ i, accesses.count (.write i) = if i < 2 * data.length then 1 else 0
  length : text.length = 2 * data.length
  digits : ∀ c ∈ text, Hex.IsDigit c
  decodes : Hex.decode text = some data

theorem exactRun_loopAccesses (data behind : Bytes) :
    ExactRun data (Hex.encode data) (loopAccesses (data ++ behind) data.length) where
  reads _ := readData_lt
  lookups _ := readHexmap_le
  writes := count_write _ _
  length := Hex.length_encode data
  digits _ := Hex.isDigit_of_mem_encode
  decodes := Hex.decode_encode data

theorem stringToHex_self (data : Bytes) :
    stringToHex data data.length = some (Hex.encode data) := by
  rw [stringToHex_eq (Nat.le_refl _), List.take_length]

/-- The text is exact, whatever stands behind the bytes, and decoding and encoding undo
each other; so distinct digests have distinct signatures. -/
theorem string_to_hex_exact_and_reversible :
    (∀ data behind : Bytes, ∃ text accesses,
        Touches (tracedStringToHex (data ++ behind) data.length) text accesses ∧
          stringToHex (data ++ behind) data.length = some text ∧ ExactRun data text accesses) ∧
      (∀ text : Bytes, Even text.length → (∀ c ∈ text, Hex.IsDigit c) →
        ∃ data, Hex.decode text = some data ∧ stringToHex data data.length = some text) ∧
      Function.Injective fun digest : Bytes => stringToHex digest digest.length := by
  refine ⟨?_, ?_, ?_⟩
  · intro data behind
    have hlen : data.length ≤ (data ++ behind).length := by simp
    have htouches := touches_stringToHex hlen
    rw [List.take_left] at htouches
    have hvalue := htouches.value_eq
    rw [value_tracedStringToHex] at hvalue
    exact ⟨_, _, htouches, hvalue, exactRun_loopAccesses data behind⟩
  · intro text heven hdigits
    obtain ⟨data, hdecode, hencode⟩ := Hex.encode_of_decode heven hdigits
    refine ⟨data, hdecode, ?_⟩
    rw [stringToHex_self, hencode]
  · intro digest digest' h
    simp only [stringToHex_self, Option.some.injEq] at h
    exact Hex.encode_injective h

theorem string_to_hex_exact_and_reversible_example :
    ∃ data, Hex.decode (ascii "00c0ff") = some data ∧
      stringToHex data data.length = some (ascii "00c0ff") :=
  string_to_hex_exact_and_reversible.2.1 (ascii "00c0ff") (by decide)
    (by simp [ascii, Hex.IsDigit])

end Encoding

end ExchangeClient
