import ExchangeClient.Websocketpp.Frame

/-!
# Masking payloads

The four loops of `frame.hpp` that mask and unmask: by bytes or by words, over a
whole payload or over one piece after the other with a key that is shifted in
between. All of them combine the payload with the same key stream, the masking key
repeated for ever.
-/

namespace ExchangeClient.Websocketpp

open LittleEndian Keystream

/-! ### The loops -/

/-- `prepare_masking_key` on a machine with words of eight bytes. -/
def prepareMaskingKey (key : MaskingKey) : UInt64 :=
  let lowBits := key.i.toUInt64
  let highBits := key.i.toUInt64
  highBits <<< 32 ||| lowBits

/-- `circshift_prepared_key` on a little-endian machine, for `offset < 8`. -/
def circshiftPreparedKey (preparedKey : UInt64) (offset : Nat) : UInt64 :=
  if offset = 0 then preparedKey
  else
    let temp := preparedKey <<< UInt64.ofNat ((8 - offset) * 8)
    preparedKey >>> UInt64.ofNat (offset * 8) ||| temp

/-- The loop of `byte_mask` at `keyIndex`. -/
def byteMaskLoop (key : MaskingKey) : Nat → Bytes → Bytes
  | _, [] => []
  | keyIndex, b :: rest =>
      (b ^^^ key.c.getD keyIndex 0) :: byteMaskLoop key ((keyIndex + 1) % 4) rest

def byteMask (data : Bytes) (key : MaskingKey) (keyOffset : Nat) : Bytes :=
  byteMaskLoop key (keyOffset % 4) data

/-- The first `n` words of the data, each combined with the prepared key. -/
def maskWords (preparedKey : UInt64) : Nat → Bytes → Bytes
  | 0, _ => []
  | n + 1, data =>
      bytes 8 (value (data.take 8) ^^^ preparedKey.toNat) ++ maskWords preparedKey n (data.drop 8)

def wordMaskExact (data : Bytes) (key : MaskingKey) : Bytes :=
  let preparedKey := prepareMaskingKey key
  let n := data.length / 8
  maskWords preparedKey n data ++
    (data.drop (n * 8)).mapIdx fun j b => b ^^^ key.c.getD ((n * 8 + j) % 4) 0

/-- The masked data and the key for the data that follows. -/
def wordMaskCirc (data : Bytes) (preparedKey : UInt64) : Bytes × UInt64 :=
  let n := data.length / 8
  let l := data.length - n * 8
  let byteKey := bytes 8 preparedKey.toNat
  (maskWords preparedKey n data ++
      (data.drop (data.length - l)).mapIdx fun j b => b ^^^ byteKey.getD j 0,
    circshiftPreparedKey preparedKey l)

/-- The masked data and the key for the data that follows. The key of the loop is the
lower half of the prepared one. -/
def byteMaskCirc (data : Bytes) (preparedKey : UInt64) : Bytes × UInt64 :=
  let key : MaskingKey := ⟨preparedKey.toUInt32⟩
  (data.mapIdx fun j b => b ^^^ key.c.getD (j % 4) 0,
    circshiftPreparedKey preparedKey (data.length % 4))

/-! ### Prepared keys -/

/-- The key stream of a masking key from an offset on. -/
def keyStream (key : MaskingKey) (offset : Nat) (i : Nat) : UInt8 :=
  key.c.getD ((i + offset) % 4) 0

/-- `Prepared key offset k`: the word `k` holds the key stream from `offset` on. -/
def Prepared (key : MaskingKey) (offset : Nat) (k : UInt64) : Prop :=
  bytes 8 k.toNat = (List.range 8).map (keyStream key offset)

theorem keyStream_add_four (key : MaskingKey) (offset : Nat) :
    keyStream key (offset + 4) = keyStream key offset := by
  funext i
  rw [keyStream, keyStream, ← Nat.add_assoc, Nat.add_mod_right]

theorem keyStream_mod (key : MaskingKey) (offset : Nat) :
    keyStream key (offset % 4) = keyStream key offset := by
  funext i
  rw [keyStream, keyStream, Nat.add_mod_mod]

theorem keyStream_shift (key : MaskingKey) (offset n : Nat) :
    (fun i => keyStream key offset (i + n)) = keyStream key (offset + n) := by
  funext i
  rw [keyStream, keyStream, Nat.add_assoc, Nat.add_comm n offset]

theorem prepared_prepareMaskingKey (key : MaskingKey) :
    Prepared key 0 (prepareMaskingKey key) := by
  have hlt := key.i.toNat_lt
  have hvalue : (prepareMaskingKey key).toNat = key.i.toNat + key.i.toNat * 256 ^ 4 := by
    rw [prepareMaskingKey, UInt64.toNat_or, UInt64.toNat_shiftLeft, UInt32.toNat_toUInt64]
    have hshift : key.i.toNat <<< ((32 : UInt64).toNat % 64) % 2 ^ 64 = key.i.toNat <<< 32 := by
      rw [show (32 : UInt64).toNat % 64 = 32 from rfl, Nat.shiftLeft_eq, Nat.mod_eq_of_lt]
      omega
    rw [hshift, ← Nat.shiftLeft_add_eq_or_of_lt hlt, Nat.shiftLeft_eq]
    omega
  have hrow : bytes 8 (prepareMaskingKey key).toNat = key.c ++ key.c := by
    rw [hvalue, show 8 = 4 + 4 from rfl, bytes_add, ← bytes_mod, Nat.add_mul_mod_self_right,
      bytes_mod, Nat.add_mul_div_right _ _ (by decide), Nat.div_eq_of_lt (by exact hlt),
      Nat.zero_add, MaskingKey.c]
  rw [Prepared, hrow]
  obtain ⟨a, b, c, d, hkey⟩ : ∃ a b c d, key.c = [a, b, c, d] := ⟨_, _, _, _, rfl⟩
  simp [keyStream, hkey, List.range, List.range.loop]

theorem toNat_circshiftPreparedKey (k : UInt64) {o : Nat} (hpos : 0 < o) (ho : o < 8) :
    (circshiftPreparedKey k o).toNat = k.toNat / 256 ^ o + k.toNat % 256 ^ o * 256 ^ (8 - o) := by
  have hpow : ∀ n, 2 ^ (n * 8) = 256 ^ n := fun n => by
    rw [Nat.mul_comm, pow_mul]
    rfl
  have hlow : (k >>> UInt64.ofNat (o * 8)).toNat = k.toNat / 256 ^ o := by
    rw [UInt64.toNat_shiftRight, UInt64.toNat_ofNat', Nat.mod_eq_of_lt (by omega : o * 8 < 2 ^ 64),
      Nat.mod_eq_of_lt (by omega : o * 8 < 64), Nat.shiftRight_eq_div_pow, hpow]
  have hhigh : (k <<< UInt64.ofNat ((8 - o) * 8)).toNat = k.toNat % 256 ^ o * 256 ^ (8 - o) := by
    rw [UInt64.toNat_shiftLeft, UInt64.toNat_ofNat',
      Nat.mod_eq_of_lt (by omega : (8 - o) * 8 < 2 ^ 64),
      Nat.mod_eq_of_lt (by omega : (8 - o) * 8 < 64), Nat.shiftLeft_eq, hpow]
    have hword : 2 ^ 64 = 256 ^ o * 256 ^ (8 - o) := by
      rw [← pow_add, Nat.add_sub_cancel' ho.le]
      rfl
    rw [hword, Nat.mul_mod_mul_right]
  have hlt : k.toNat / 256 ^ o < 2 ^ ((8 - o) * 8) := by
    rw [hpow]
    refine Nat.div_lt_of_lt_mul ?_
    rw [← pow_add, Nat.add_sub_cancel' ho.le]
    exact k.toNat_lt
  rw [circshiftPreparedKey, if_neg (Nat.ne_of_gt hpos), UInt64.toNat_or, hlow, hhigh, ← hpow (8 - o),
    ← Nat.shiftLeft_eq, Nat.lor_comm, ← Nat.shiftLeft_add_eq_or_of_lt hlt, Nat.add_comm]

/-- Shifting a prepared key by some bytes moves it on by as many in the key stream. -/
theorem Prepared.circshift {key : MaskingKey} {offset : Nat} {k : UInt64}
    (hk : Prepared key offset k) {o : Nat} (ho : o < 8) :
    Prepared key (offset + o) (circshiftPreparedKey k o) := by
  rcases Nat.eq_zero_or_pos o with rfl | hpos
  · exact hk
  · rw [Prepared, toNat_circshiftPreparedKey k hpos ho, bytes_rotate ho.le (by exact k.toNat_lt),
      hk]
    apply List.ext_getElem
    · simp
      omega
    · intro i hi hi'
      simp only [List.length_map, List.length_range] at hi'
      rw [List.getElem_append]
      split
      · simp [keyStream, Nat.add_comm, Nat.add_left_comm]
      · next hge =>
          have hwrap : (i - (8 - o) + offset) % 4 = (i + (offset + o)) % 4 := by
            simp at hge
            omega
          simp [keyStream, hwrap]

theorem Prepared.congr {key : MaskingKey} {offset offset' : Nat} {k : UInt64}
    (hk : Prepared key offset k) (h : offset % 4 = offset' % 4) : Prepared key offset' k := by
  rw [Prepared, hk, ← keyStream_mod, h, keyStream_mod]

/-! ### Every loop applies the key stream -/

theorem byteMaskLoop_eq (key : MaskingKey) (data : Bytes) (keyIndex : Nat) :
    byteMaskLoop key (keyIndex % 4) data = mask (keyStream key keyIndex) data := by
  induction data generalizing keyIndex with
  | nil => rfl
  | cons b data ih =>
      have hnext : (keyIndex % 4 + 1) % 4 = (keyIndex + 1) % 4 := by omega
      rw [byteMaskLoop, hnext, ih, mask_cons, keyStream_shift]
      simp [keyStream]

theorem byteMask_eq (data : Bytes) (key : MaskingKey) (offset : Nat) :
    byteMask data key offset = mask (keyStream key offset) data :=
  byteMaskLoop_eq key data offset

theorem maskWords_eq {key : MaskingKey} {offset : Nat} {k : UInt64} (hk : Prepared key offset k) :
    ∀ {n : Nat} {data : Bytes}, n * 8 ≤ data.length →
      maskWords k n data = mask (keyStream key offset) (data.take (n * 8)) := by
  intro n
  induction n with
  | zero => intro data _; simp [maskWords]
  | succ n ih =>
      intro data hlen
      have hword : (data.take 8).length = 8 := by
        rw [List.length_take]
        omega
      have hfirst : bytes 8 (value (data.take 8) ^^^ k.toNat) =
          mask (keyStream key offset) (data.take 8) := by
        rw [bytes_xor, hk, mask_zipWith, hword]
        congr 1
        conv_rhs => rw [← bytes_value (data.take 8), hword]
      have hrest : (data.drop 8).length = data.length - 8 := List.length_drop
      rw [maskWords, hfirst, ih (by omega), show (n + 1) * 8 = 8 + n * 8 by omega, List.take_add,
        mask_append, hword, keyStream_shift, show offset + 8 = offset + 4 + 4 from rfl,
        keyStream_add_four, keyStream_add_four]

theorem mapIdx_eq_mask {key : MaskingKey} {offset : Nat} {stream : Nat → UInt8} {data : Bytes}
    (h : ∀ i, i < data.length → stream i = keyStream key offset i) :
    (data.mapIdx fun i b => b ^^^ stream i) = mask (keyStream key offset) data :=
  mask_congr h

theorem mask_words_append {key : MaskingKey} {offset n : Nat} {data : Bytes}
    (hn : n * 8 ≤ data.length) :
    mask (keyStream key offset) (data.take (n * 8)) ++
      mask (keyStream key offset) (data.drop (n * 8)) = mask (keyStream key offset) data := by
  have hshift : keyStream key (offset + n * 8) = keyStream key offset := by
    rw [← keyStream_mod, Nat.add_mod, show n * 8 % 4 = 0 by omega, Nat.add_zero, Nat.mod_mod,
      keyStream_mod]
  conv_rhs =>
    rw [← List.take_append_drop (n * 8) data, mask_append, List.length_take_of_le hn,
      keyStream_shift, hshift]

theorem wordMaskExact_eq (data : Bytes) (key : MaskingKey) :
    wordMaskExact data key = mask (keyStream key 0) data := by
  have hn : data.length / 8 * 8 ≤ data.length := Nat.div_mul_le_self _ _
  have htail : ∀ i, key.c.getD ((data.length / 8 * 8 + i) % 4) 0 = keyStream key 0 i := by
    intro i
    rw [keyStream]
    congr 1
    omega
  rw [wordMaskExact, maskWords_eq (prepared_prepareMaskingKey key) hn,
    mapIdx_eq_mask fun i _ => htail i, mask_words_append hn]

/-- The bytes of a prepared key, read as a part of the key stream. -/
theorem Prepared.getD {key : MaskingKey} {offset : Nat} {k : UInt64} (hk : Prepared key offset k)
    {i : Nat} (hi : i < 8) : (bytes 8 k.toNat).getD i 0 = keyStream key offset i := by
  rw [hk]
  simp [hi]

theorem toUInt32_c (k : UInt64) : MaskingKey.c ⟨k.toUInt32⟩ = (bytes 8 k.toNat).take 4 := by
  rw [MaskingKey.c, UInt64.toNat_toUInt32, show 8 = 4 + 4 from rfl, bytes_add,
    List.take_left' (length_bytes 4 _)]
  exact bytes_mod 4 k.toNat

/-- The loop over one piece applies the key stream from the piece's offset on, and the
key it returns is prepared for the piece that follows. -/
theorem byteMaskCirc_eq {key : MaskingKey} {offset : Nat} {k : UInt64}
    (hk : Prepared key offset k) (data : Bytes) :
    (byteMaskCirc data k).1 = mask (keyStream key offset) data ∧
      Prepared key (offset + data.length) (byteMaskCirc data k).2 := by
  refine ⟨mapIdx_eq_mask fun i _ => ?_, (hk.circshift (by omega)).congr (by omega)⟩
  have hi : i % 4 < 8 := by omega
  rw [toUInt32_c, List.getD_eq_getElem?_getD, List.getElem?_take_of_lt (by omega),
    ← List.getD_eq_getElem?_getD, hk.getD hi, keyStream, keyStream]
  congr 1
  omega

theorem wordMaskCirc_eq {key : MaskingKey} {offset : Nat} {k : UInt64}
    (hk : Prepared key offset k) (data : Bytes) :
    (wordMaskCirc data k).1 = mask (keyStream key offset) data ∧
      Prepared key (offset + data.length) (wordMaskCirc data k).2 := by
  have hn : data.length / 8 * 8 ≤ data.length := Nat.div_mul_le_self _ _
  have hl : data.length - (data.length - data.length / 8 * 8) = data.length / 8 * 8 := by omega
  refine ⟨?_, (hk.circshift (by omega)).congr (by omega)⟩
  have htail : ∀ i, i < (data.drop (data.length / 8 * 8)).length →
      (bytes 8 k.toNat).getD i 0 = keyStream key offset i := by
    intro i hi
    rw [List.length_drop] at hi
    exact hk.getD (by omega)
  simp only [wordMaskCirc, maskWords_eq hk hn, hl]
  rw [mapIdx_eq_mask htail, mask_words_append hn]

/-! ### One piece after the other -/

/-- Pieces masked one after the other, each by words or by bytes, with the key that the
piece before has left. -/
def maskPieces (preparedKey : UInt64) : List (Bool × Bytes) → Bytes
  | [] => []
  | (words, data) :: pieces =>
      let masked :=
        if words then wordMaskCirc data preparedKey else byteMaskCirc data preparedKey
      masked.1 ++ maskPieces masked.2 pieces

theorem maskPieces_eq {key : MaskingKey} {pieces : List (Bool × Bytes)} :
    ∀ {offset : Nat} {k : UInt64}, Prepared key offset k →
      maskPieces k pieces = mask (keyStream key offset) (pieces.flatMap Prod.snd) := by
  induction pieces with
  | nil => exact fun _ => rfl
  | cons piece pieces ih =>
      intro offset k hk
      obtain ⟨words, data⟩ := piece
      have hpiece : ∀ masked : Bytes × UInt64, masked.1 = mask (keyStream key offset) data ∧
          Prepared key (offset + data.length) masked.2 →
          masked.1 ++ maskPieces masked.2 pieces =
            mask (keyStream key offset) (data ++ pieces.flatMap Prod.snd) := by
        rintro masked ⟨hmasked, hnext⟩
        rw [hmasked, ih hnext, mask_append, keyStream_shift]
      cases words with
      | true => exact hpiece _ (wordMaskCirc_eq hk data)
      | false => exact hpiece _ (byteMaskCirc_eq hk data)

/-- The four loops agree: whatever the pieces and whichever loop each of them goes through,
the bytes are those of the whole payload masked at once, by words or by bytes. -/
theorem masking_loops_agree (key : MaskingKey) (pieces : List (Bool × Bytes)) :
    maskPieces (prepareMaskingKey key) pieces = byteMask (pieces.flatMap Prod.snd) key 0 ∧
      wordMaskExact (pieces.flatMap Prod.snd) key = byteMask (pieces.flatMap Prod.snd) key 0 := by
  constructor
  · rw [maskPieces_eq (prepared_prepareMaskingKey key), byteMask_eq]
  · rw [wordMaskExact_eq, byteMask_eq]

end ExchangeClient.Websocketpp
