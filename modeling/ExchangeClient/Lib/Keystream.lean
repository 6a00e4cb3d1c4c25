import ExchangeClient.Lib.Bytes

/-!
# Masking with a key stream

Data combined byte by byte with a stream of key bytes. Masking twice gives the
data back, and a part of the data is masked with the part of the stream that
begins where the part begins.
-/

namespace ExchangeClient.Keystream

def mask (stream : Nat → UInt8) (data : Bytes) : Bytes :=
  data.mapIdx fun i b => b ^^^ stream i

@[simp] theorem mask_nil (stream : Nat → UInt8) : mask stream [] = [] := rfl

@[simp] theorem length_mask (stream : Nat → UInt8) (data : Bytes) :
    (mask stream data).length = data.length := by
  simp [mask]

theorem mask_cons (stream : Nat → UInt8) (b : UInt8) (data : Bytes) :
    mask stream (b :: data) = (b ^^^ stream 0) :: mask (fun i => stream (i + 1)) data := by
  simp [mask]

theorem mask_append (stream : Nat → UInt8) (data more : Bytes) :
    mask stream (data ++ more) =
      mask stream data ++ mask (fun i => stream (i + data.length)) more := by
  simp [mask, List.mapIdx_append]

@[simp] theorem mask_mask (stream : Nat → UInt8) (data : Bytes) :
    mask stream (mask stream data) = data := by
  apply List.ext_getElem
  · simp
  · intro i _ _
    simp only [mask, List.getElem_mapIdx, UInt8.xor_assoc, UInt8.xor_self, UInt8.xor_zero]

theorem mask_congr {stream stream' : Nat → UInt8} {data : Bytes}
    (h : ∀ i, i < data.length → stream i = stream' i) : mask stream data = mask stream' data := by
  apply List.ext_getElem
  · simp
  · intro i hi _
    rw [length_mask] at hi
    simp [mask, h i hi]

theorem mask_zipWith (stream : Nat → UInt8) (data : Bytes) :
    mask stream data =
      List.zipWith (· ^^^ ·) data ((List.range data.length).map stream) := by
  apply List.ext_getElem <;> simp [mask]

end ExchangeClient.Keystream
