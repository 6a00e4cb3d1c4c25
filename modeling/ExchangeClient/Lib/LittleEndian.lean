import Mathlib.Data.Nat.Bitwise
import ExchangeClient.Lib.Bytes

/-!
# Words in memory

The bytes of a machine word, least significant first, and the word that a row of
bytes stands for. Shifting a word around by whole bytes rotates the row, and the
exclusive or of two words is taken byte by byte.
-/

namespace ExchangeClient.LittleEndian

/-- The lowest `width` bytes of a number. -/
def bytes : Nat → Nat → Bytes
  | 0, _ => []
  | width + 1, v => UInt8.ofNat v :: bytes width (v / 256)

def value : Bytes → Nat
  | [] => 0
  | b :: row => b.toNat + 256 * value row

@[simp] theorem length_bytes (width v : Nat) : (bytes width v).length = width := by
  induction width generalizing v with
  | zero => rfl
  | succ width ih => simp [bytes, ih]

theorem value_lt (row : Bytes) : value row < 256 ^ row.length := by
  induction row with
  | nil => simp [value]
  | cons b row ih =>
      have hb := b.toNat_lt
      simp only [value, List.length_cons, pow_succ]
      omega

theorem value_bytes {width v : Nat} (hv : v < 256 ^ width) : value (bytes width v) = v := by
  induction width generalizing v with
  | zero => simp at hv; simp [bytes, value, hv]
  | succ width ih =>
      have hdiv : v / 256 < 256 ^ width := by
        rw [pow_succ] at hv
        exact Nat.div_lt_of_lt_mul (by omega)
      simp only [bytes, value, ih hdiv, UInt8.toNat_ofNat']
      omega

@[simp] theorem bytes_value (row : Bytes) : bytes row.length (value row) = row := by
  induction row with
  | nil => rfl
  | cons b row ih =>
      have hb := b.toNat_lt
      have hlow : UInt8.ofNat (b.toNat + 256 * value row) = b := by
        apply UInt8.toNat_inj.mp
        rw [UInt8.toNat_ofNat']
        omega
      have hhigh : (b.toNat + 256 * value row) / 256 = value row := by omega
      simp only [List.length_cons, value, bytes, hlow, hhigh, ih]

/-- A number is the part below some byte followed by the part from it on. -/
theorem bytes_add (m n v : Nat) : bytes (m + n) v = bytes m v ++ bytes n (v / 256 ^ m) := by
  induction m generalizing v with
  | zero => simp [bytes]
  | succ m ih =>
      rw [Nat.succ_add, bytes, bytes, ih, List.cons_append, Nat.div_div_eq_div_mul, pow_succ,
        Nat.mul_comm 256]

theorem bytes_mod (width v : Nat) : bytes width (v % 256 ^ width) = bytes width v := by
  induction width generalizing v with
  | zero => rfl
  | succ width ih =>
      have hlow : UInt8.ofNat (v % 256 ^ (width + 1)) = UInt8.ofNat v := by
        apply UInt8.toNat_inj.mp
        simp only [UInt8.toNat_ofNat']
        exact Nat.mod_mod_of_dvd v (Dvd.intro_left (256 ^ width) (pow_succ 256 width).symm)
      have hhigh : v % 256 ^ (width + 1) / 256 = v / 256 % 256 ^ width := by
        rw [pow_succ, Nat.mul_comm, Nat.mod_mul_right_div_self]
      rw [bytes, bytes, hlow, hhigh, ih]

/-- The bytes of a word after moving its lowest `k` bytes to the top. -/
theorem bytes_rotate {width k v : Nat} (hk : k ≤ width) (hv : v < 256 ^ width) :
    bytes width (v / 256 ^ k + v % 256 ^ k * 256 ^ (width - k)) =
      (bytes width v).drop k ++ (bytes width v).take k := by
  obtain ⟨n, rfl⟩ := Nat.exists_eq_add_of_le hk
  have hdiv : v / 256 ^ k < 256 ^ n := Nat.div_lt_of_lt_mul (by rwa [← pow_add])
  have hsplit := bytes_add k n v
  rw [hsplit, List.drop_left' (length_bytes k v), List.take_left' (length_bytes k v),
    Nat.add_sub_cancel_left, Nat.add_comm k n, bytes_add n k]
  congr 1
  · rw [← bytes_mod, Nat.add_mul_mod_self_right, bytes_mod]
  · rw [Nat.add_mul_div_right _ _ (by positivity), Nat.div_eq_of_lt hdiv, Nat.zero_add, bytes_mod]

theorem bytes_xor (width v w : Nat) :
    bytes width (v ^^^ w) = List.zipWith (· ^^^ ·) (bytes width v) (bytes width w) := by
  induction width generalizing v w with
  | zero => rfl
  | succ width ih =>
      have hlow : UInt8.ofNat (v ^^^ w) = UInt8.ofNat v ^^^ UInt8.ofNat w := by
        apply UInt8.toNat_inj.mp
        simp only [UInt8.toNat_xor, UInt8.toNat_ofNat']
        exact Nat.xor_mod_two_pow (n := 8)
      have hhigh : (v ^^^ w) / 256 = v / 256 ^^^ w / 256 := Nat.xor_div_two_pow (n := 8)
      simp only [bytes, List.zipWith_cons_cons, hlow, hhigh, ih]

end ExchangeClient.LittleEndian
