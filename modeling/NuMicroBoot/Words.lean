import Mathlib.Algebra.Group.Nat.Defs
import Mathlib.Tactic.Common
import Mathlib.Data.Nat.Basic

/-!
Unsigned 32-bit arithmetic read over the natural numbers, and numbers as
little-endian bytes.
-/

namespace NuMicroBoot.Words

/-! ### Clearing low bits -/

/-- Clearing the bits of a mask of low ones rounds down to a multiple of a power of two. -/
theorem toNat_clear_low (v m : UInt32) {k : Nat} (mask : m.toNat = 2 ^ k - 1) :
    (v &&& ~~~m).toNat = 2 ^ k * (v.toNat / 2 ^ k) := by
  have bound := v.toNat_lt
  have small := m.toNat_lt
  apply Nat.eq_of_testBit_eq
  intro i
  rw [UInt32.toNat_and,UInt32.toNat_not,Nat.testBit_and,Nat.testBit_two_pow_mul,Nat.testBit_div_two_pow,mask]
  have shape : UInt32.size - 1 - (2 ^ k - 1) = 2 ^ 32 - ((2 ^ k - 1) + 1) := by simp [UInt32.size]
  rw [shape,Nat.testBit_two_pow_sub_succ (by omega),Nat.testBit_two_pow_sub_one]
  by_cases low : i < k
  · simp [low,Nat.not_le.mpr low]
  · have high : k ≤ i := by omega
    simp only [low,high,Nat.sub_add_cancel,decide_true,decide_false,Bool.not_false,Bool.and_true,
      Bool.true_and,Bool.and_eq_left_iff_imp,decide_eq_true_eq]
    intro set
    by_contra large
    have clear : v.toNat.testBit i = false :=
      Nat.testBit_lt_two_pow (lt_of_lt_of_le bound (Nat.pow_le_pow_right (by decide) (by omega)))
    simp [clear] at set

/-! ### Fields of a register -/

theorem or_and (x y m : UInt32) : (x ||| y) &&& m = x &&& m ||| y &&& m := by
  apply UInt32.toBitVec_inj.mp
  simp only [UInt32.toBitVec_and,UInt32.toBitVec_or]
  exact BitVec.and_or_distrib_right
theorem byte_or_and (x y m : UInt8) : (x ||| y) &&& m = x &&& m ||| y &&& m := by
  apply UInt8.toBitVec_inj.mp
  simp only [UInt8.toBitVec_and,UInt8.toBitVec_or]
  exact BitVec.and_or_distrib_right

/-- A field that is cleared before a value is put in has the bits of the value. -/
theorem field_written {r clear v m : UInt32} (inside : m &&& clear = m) : (r &&& ~~~clear ||| v) &&& m = v &&& m := by
  have gone : ~~~clear &&& m = 0 := by
    rw [← inside,UInt32.and_comm m,← UInt32.and_assoc,UInt32.not_and_self,UInt32.zero_and]
  rw [or_and,UInt32.and_assoc,gone,UInt32.and_zero,UInt32.zero_or]

theorem and_or_left (m x : UInt32) : m &&& (m ||| x) = m := by
  apply UInt32.toBitVec_inj.mp
  simp only [UInt32.toBitVec_and,UInt32.toBitVec_or]
  ext i
  simp only [BitVec.getElem_and,BitVec.getElem_or,Bool.and_eq_left_iff_imp,Bool.or_eq_true]
  exact .inl
theorem and_or_right (m x : UInt32) : m &&& (x ||| m) = m := by
  rw [UInt32.or_comm,and_or_left]

/-- A bit that has just been set. -/
theorem bit_set {m : UInt32} (bit : m ≠ 0) (v : UInt32) : (v ||| m) &&& m ≠ 0 := by
  rwa [UInt32.and_comm,and_or_right]

/-! ### Arithmetic without overflow -/

theorem toNat_add_of_lt {a b : UInt32} (fits : a.toNat + b.toNat < 2 ^ 32) : (a + b).toNat = a.toNat + b.toNat := by
  rw [UInt32.toNat_add,Nat.mod_eq_of_lt fits]
theorem toNat_sub_of_le {a b : UInt32} (le : b.toNat ≤ a.toNat) : (a - b).toNat = a.toNat - b.toNat := by
  have := a.toNat_lt
  have := b.toNat_lt
  rw [UInt32.toNat_sub]
  omega
theorem toNat_mul_of_lt {a b : UInt32} (fits : a.toNat * b.toNat < 2 ^ 32) : (a * b).toNat = a.toNat * b.toNat := by
  rw [UInt32.toNat_mul,Nat.mod_eq_of_lt fits]

theorem eq_iff_toNat {a b : UInt32} : a = b ↔ a.toNat = b.toNat := UInt32.toNat_inj.symm
theorem ne_iff_toNat {a b : UInt32} : a ≠ b ↔ a.toNat ≠ b.toNat := not_congr eq_iff_toNat
theorem ne_zero_iff {a : UInt32} : a ≠ 0 ↔ a.toNat ≠ 0 := ne_iff_toNat

/-- A count below 2^31 is not negative as a signed number. -/
theorem toInt32_nonneg {n : UInt32} (small : n.toNat < 2 ^ 31) : ¬ n.toInt32 < 0 := by
  have value : n.toInt32.toInt = n.toNat := BitVec.toInt_eq_toNat_of_lt (x := n.toBitVec) (by
    show 2 * n.toNat < 2 ^ 32
    omega)
  rw [Int32.lt_iff_toInt_lt,value]
  simp

/-- The low byte of a word, masked or not. -/
theorem low_byte (v : UInt32) : (v &&& 0xFF).toUInt8.toNat = v.toNat % 256 := by
  rw [UInt32.toNat_toUInt8,UInt32.toNat_and]
  exact (congrArg (· % 256) (Nat.and_two_pow_sub_one_eq_mod v.toNat 8)).trans (Nat.mod_mod _ _)
theorem mask_byte (v : UInt32) : (v &&& 0xFF).toUInt8 = v.toUInt8 :=
  UInt8.toNat_inj.mp ((low_byte v).trans (UInt32.toNat_toUInt8 v).symm)

/-- The low and the high word of a double word, cut out with masks. -/
theorem low_word (d : UInt64) : (d &&& 0xFFFFFFFF).toUInt32.toNat = d.toNat % 2 ^ 32 := by
  rw [UInt64.toNat_toUInt32,UInt64.toNat_and]
  exact (congrArg (· % 2 ^ 32) (Nat.and_two_pow_sub_one_eq_mod d.toNat 32)).trans (Nat.mod_mod _ _)
theorem high_word (d : UInt64) : ((d &&& 0xFFFFFFFF00000000) >>> 32).toUInt32.toNat = d.toNat / 2 ^ 32 := by
  have bound := d.toNat_lt
  have shifted : ((d &&& 0xFFFFFFFF00000000) >>> 32).toNat = d.toNat / 2 ^ 32 := by
    have mask : (0xFFFFFFFF00000000 : Nat) / 2 ^ 32 = 2 ^ 32 - 1 := by decide
    rw [UInt64.toNat_shiftRight,UInt64.toNat_and]
    show (d.toNat &&& 0xFFFFFFFF00000000) >>> 32 = _
    rw [Nat.shiftRight_and_distrib,Nat.shiftRight_eq_div_pow,Nat.shiftRight_eq_div_pow,mask,Nat.and_two_pow_sub_one_eq_mod]
    omega
  rw [UInt64.toNat_toUInt32,shifted]
  omega

/-! ### Little-endian bytes -/

/-- The number with the first `n` bytes, lowest first. -/
def leNat : Nat → (Nat → UInt8) → Nat
  | 0, _ => 0
  | n + 1, b => (b 0).toNat + 256 * leNat n fun k => b (k + 1)
/-- Byte `k` of a number. -/
def byteAt (w k : Nat) : UInt8 := UInt8.ofNat (w / 256 ^ k)

theorem leNat_lt (n : Nat) (b : Nat → UInt8) : leNat n b < 256 ^ n := by
  induction n generalizing b with
  | zero => simp [leNat]
  | succ n ih =>
    have tail := ih fun k => b (k + 1)
    have head := (b 0).toNat_lt
    rw [leNat,Nat.pow_succ]
    omega

theorem byteAt_leNat {n k : Nat} (inside : k < n) (b : Nat → UInt8) : byteAt (leNat n b) k = b k := by
  induction n generalizing k b with
  | zero => omega
  | succ n ih =>
    have head := (b 0).toNat_lt
    cases k with
    | zero =>
      apply UInt8.toNat_inj.mp
      simp only [byteAt,leNat,UInt8.toNat_ofNat']
      omega
    | succ k =>
      have tail := ih (k := k) (by omega) fun k => b (k + 1)
      rw [← tail]
      have shifted : leNat (n + 1) b / 256 ^ (k + 1) = (leNat n fun k => b (k + 1)) / 256 ^ k := by
        rw [Nat.pow_succ',← Nat.div_div_eq_div_mul,leNat]
        congr 1
        omega
      rw [byteAt,byteAt,shifted]

theorem byteAt_mod (w : Nat) {n k : Nat} (inside : k < n) : byteAt (w % 256 ^ n) k = byteAt w k := by
  apply UInt8.toNat_inj.mp
  obtain ⟨m,rfl⟩ := Nat.exists_eq_add_of_lt inside
  have split : 256 ^ (k + m + 1) = 256 ^ k * 256 ^ (m + 1) := by rw [Nat.add_assoc,Nat.pow_add]
  simp only [byteAt,UInt8.toNat_ofNat']
  rw [split,Nat.mod_mul_right_div_self,Nat.mod_mod_of_dvd]
  exact ⟨256 ^ m,(Nat.pow_succ').trans rfl⟩
theorem byteAt_div (w n k : Nat) : byteAt (w / 256 ^ n) k = byteAt w (n + k) := by
  rw [byteAt,byteAt,Nat.div_div_eq_div_mul,Nat.pow_add]

theorem leNat_congr {n : Nat} {b b' : Nat → UInt8} (same : ∀ k < n, b k = b' k) : leNat n b = leNat n b' := by
  induction n generalizing b b' with
  | zero => rfl
  | succ n ih => rw [leNat,leNat,same 0 (Nat.succ_pos n),ih fun k less => same (k + 1) (Nat.succ_lt_succ less)]

theorem leNat_byteAt (n w : Nat) : leNat n (byteAt w) = w % 256 ^ n := by
  induction n generalizing w with
  | zero => rw [leNat,Nat.pow_zero,Nat.mod_one]
  | succ n ih =>
    have shifted : (fun k => byteAt w (k + 1)) = byteAt (w / 256) := funext fun k => by
      rw [byteAt,byteAt,Nat.div_div_eq_div_mul,Nat.pow_succ']
    rw [leNat,shifted,ih,Nat.pow_succ',Nat.mod_mul,byteAt,UInt8.toNat_ofNat',Nat.pow_zero,Nat.div_one]

end NuMicroBoot.Words
