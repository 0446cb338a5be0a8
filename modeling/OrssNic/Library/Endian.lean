import Mathlib

/-!
# Numbers as bytes

The little-endian and the big-endian byte strings of a number of a given
width, and the byte swap that takes the one reading to the other.
-/

namespace CEndian

def leBytes : ℕ → ℕ → List UInt8
  | 0, _ => []
  | k + 1, n => UInt8.ofNat (n % 256) :: leBytes k (n / 256)

def leValue : List UInt8 → ℕ
  | [] => 0
  | b :: bytes => b.toNat + 256 * leValue bytes

def beBytes (k n : ℕ) : List UInt8 := (leBytes k n).reverse

def beValue (bytes : List UInt8) : ℕ := leValue bytes.reverse

/-- The number whose `k` bytes are those of `n` in the opposite order. -/
def bswap (k n : ℕ) : ℕ := leValue (beBytes k n)

@[simp] theorem leBytes_length (k n : ℕ) : (leBytes k n).length = k := by
  induction k generalizing n with
  | zero => rfl
  | succ k ih => simp [leBytes, ih]

@[simp] theorem beBytes_length (k n : ℕ) : (beBytes k n).length = k := by
  simp [beBytes]

theorem leBytes_add (j k n : ℕ) : leBytes (j + k) n = leBytes j n ++ leBytes k (n / 256 ^ j) := by
  induction j generalizing n with
  | zero => simp [leBytes]
  | succ j ih =>
    rw [Nat.succ_add, leBytes, ih, leBytes, List.cons_append, Nat.div_div_eq_div_mul, pow_succ,
      mul_comm (256 ^ j)]

theorem beBytes_add (j k n : ℕ) : beBytes (j + k) n = beBytes k (n / 256 ^ j) ++ beBytes j n := by
  rw [beBytes, leBytes_add, List.reverse_append, beBytes, beBytes]

theorem leBytes_mod (k n : ℕ) : leBytes k (n % 256 ^ k) = leBytes k n := by
  induction k generalizing n with
  | zero => rfl
  | succ k ih =>
    have hlow : n % 256 ^ (k + 1) % 256 = n % 256 := by
      rw [pow_succ, Nat.mod_mul_left_mod]
    have hhigh : n % 256 ^ (k + 1) / 256 = n / 256 % 256 ^ k := by
      rw [pow_succ, mul_comm, Nat.mod_mul_right_div_self]
    rw [leBytes, leBytes, hlow, hhigh, ih]

theorem beBytes_mod (k n : ℕ) : beBytes k (n % 256 ^ k) = beBytes k n := by
  rw [beBytes, leBytes_mod, beBytes]

theorem leValue_append (bytes bytes' : List UInt8) :
    leValue (bytes ++ bytes') = leValue bytes + 256 ^ bytes.length * leValue bytes' := by
  induction bytes with
  | nil => simp [leValue]
  | cons b bytes ih =>
    rw [List.cons_append, leValue, ih, leValue, List.length_cons, pow_succ]
    ring

theorem leValue_lt (bytes : List UInt8) : leValue bytes < 256 ^ bytes.length := by
  induction bytes with
  | nil => simp [leValue]
  | cons b bytes ih =>
    have hb := b.toNat_lt
    rw [leValue, List.length_cons, pow_succ]
    omega

theorem leValue_leBytes {k n : ℕ} (h : n < 256 ^ k) : leValue (leBytes k n) = n := by
  induction k generalizing n with
  | zero =>
    rw [pow_zero] at h
    simp only [leBytes, leValue]
    omega
  | succ k ih =>
    have hdiv : n / 256 < 256 ^ k := by
      rw [pow_succ] at h
      omega
    have hbyte : (UInt8.ofNat (n % 256)).toNat = n % 256 := by
      simp
    rw [leBytes, leValue, ih hdiv, hbyte]
    omega

theorem leBytes_leValue (bytes : List UInt8) : leBytes bytes.length (leValue bytes) = bytes := by
  induction bytes with
  | nil => rfl
  | cons b bytes ih =>
    have hb := b.toNat_lt
    have hmod : (b.toNat + 256 * leValue bytes) % 256 = b.toNat := by omega
    have hdiv : (b.toNat + 256 * leValue bytes) / 256 = leValue bytes := by omega
    rw [List.length_cons, leValue, leBytes, hmod, hdiv, ih, UInt8.ofNat_toNat]

theorem beValue_beBytes {k n : ℕ} (h : n < 256 ^ k) : beValue (beBytes k n) = n := by
  rw [beValue, beBytes, List.reverse_reverse, leValue_leBytes h]

theorem beBytes_beValue (bytes : List UInt8) : beBytes bytes.length (beValue bytes) = bytes := by
  have h := leBytes_leValue bytes.reverse
  rw [List.length_reverse] at h
  rw [beBytes, beValue, h, List.reverse_reverse]

theorem beValue_lt (bytes : List UInt8) : beValue bytes < 256 ^ bytes.length := by
  have h := leValue_lt bytes.reverse
  rwa [List.length_reverse] at h

theorem bswap_lt (k n : ℕ) : bswap k n < 256 ^ k := by
  have h := leValue_lt (beBytes k n)
  rwa [beBytes_length] at h

/-- Swapping what was read in the one order gives what the other order reads. -/
theorem bswap_leValue (bytes : List UInt8) :
    bswap bytes.length (leValue bytes) = beValue bytes := by
  rw [bswap, beBytes, leBytes_leValue, beValue]

theorem bswap_bswap {k n : ℕ} (h : n < 256 ^ k) : bswap k (bswap k n) = n := by
  have hback := leBytes_leValue (beBytes k n)
  rw [beBytes_length] at hback
  rw [bswap, beBytes, bswap, hback, beBytes, List.reverse_reverse, leValue_leBytes h]

theorem bswap_leValue_beBytes {k n : ℕ} (h : n < 256 ^ k) :
    bswap k (leValue (beBytes k n)) = n := by
  have hswap := bswap_leValue (beBytes k n)
  rwa [beBytes_length, beValue_beBytes h] at hswap

end CEndian
