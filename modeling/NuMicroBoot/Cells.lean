import Mathlib.Algebra.Group.Nat.Defs
import Mathlib.Tactic.Common

/-!
Cells of memory as functions of the address, and what block operations do to
them: copying, combining with data cell by cell, and filling with one value.
-/

namespace NuMicroBoot.Cells
variable {β : Type}

/-- `n` cells of `src` from `q` on, copied to `dst` from `p` on. -/
def copy (dst : Nat → β) (p : Nat) (src : Nat → β) (q n : Nat) : Nat → β :=
  fun k => if p ≤ k ∧ k < p + n then src (q + (k - p)) else dst k
/-- The `n` cells from `p` on combined with the data. -/
def combine (op : β → β → β) (M : Nat → β) (p : Nat) (data : Nat → β) (n : Nat) : Nat → β :=
  fun k => if p ≤ k ∧ k < p + n then op (M k) (data (k - p)) else M k
/-- The `n` cells from `p` on set to one value. -/
def fill (v : β) (M : Nat → β) (p n : Nat) : Nat → β :=
  fun k => if p ≤ k ∧ k < p + n then v else M k
/-- Two memories with the same cells outside `n` cells from `p` on. -/
def SameOutside (p n : Nat) (M M' : Nat → β) : Prop := ∀ k, ¬ (p ≤ k ∧ k < p + n) → M' k = M k

/-! ### Copying -/

@[simp] theorem copy_zero (dst : Nat → β) (p : Nat) (src : Nat → β) (q : Nat) : copy dst p src q 0 = dst := by
  funext k
  simp only [copy]
  rw [if_neg (by omega)]

theorem copy_append (dst : Nat → β) (p : Nat) (src : Nat → β) (q n m : Nat) :
    copy (copy dst p src q n) (p + n) src (q + n) m = copy dst p src q (n + m) := by
  funext k
  simp only [copy]
  by_cases second : p + n ≤ k ∧ k < p + n + m
  · rw [if_pos second,if_pos (by omega)]
    congr 1
    omega
  · rw [if_neg second]
    by_cases first : p ≤ k ∧ k < p + n
    · rw [if_pos first,if_pos (by omega)]
    · rw [if_neg first,if_neg (by omega)]

theorem copy_congr {dst : Nat → β} {p q q' n : Nat} {src src' : Nat → β}
    (same : ∀ k < n, src (q + k) = src' (q' + k)) : copy dst p src q n = copy dst p src' q' n := by
  funext k
  simp only [copy]
  by_cases inside : p ≤ k ∧ k < p + n
  · rw [if_pos inside,if_pos inside,same (k - p) (by omega)]
  · rw [if_neg inside,if_neg inside]

/-! ### Combining -/

@[simp] theorem combine_zero (op : β → β → β) (M : Nat → β) (p : Nat) (data : Nat → β) :
    combine op M p data 0 = M := by
  funext k
  simp only [combine]
  rw [if_neg (by omega)]

theorem combine_append (op : β → β → β) (M : Nat → β) (p : Nat) (data : Nat → β) (n m : Nat) :
    combine op (combine op M p data n) (p + n) (fun k => data (n + k)) m = combine op M p data (n + m) := by
  funext k
  simp only [combine]
  by_cases second : p + n ≤ k ∧ k < p + n + m
  · rw [if_pos second,if_neg (by omega),if_pos (by omega)]
    congr 2
    omega
  · rw [if_neg second]
    by_cases first : p ≤ k ∧ k < p + n
    · rw [if_pos first,if_pos (by omega)]
    · rw [if_neg first,if_neg (by omega)]

theorem combine_congr {op : β → β → β} {M : Nat → β} {p n : Nat} {data data' : Nat → β}
    (same : ∀ k < n, data k = data' k) : combine op M p data n = combine op M p data' n := by
  funext k
  simp only [combine]
  by_cases inside : p ≤ k ∧ k < p + n
  · rw [if_pos inside,if_pos inside,same (k - p) (by omega)]
  · rw [if_neg inside,if_neg inside]

theorem combine_outside (op : β → β → β) (M : Nat → β) (p : Nat) (data : Nat → β) (n : Nat) :
    SameOutside p n M (combine op M p data n) := fun _ outside => if_neg outside

/-- Combining in two places that share no cell, in either order. -/
theorem combine_comm {op : β → β → β} (M : Nat → β) {p n q m : Nat} (data data' : Nat → β)
    (disjoint : ∀ k, p ≤ k ∧ k < p + n → ¬ (q ≤ k ∧ k < q + m)) :
    combine op (combine op M p data n) q data' m = combine op (combine op M q data' m) p data n := by
  funext k
  simp only [combine]
  by_cases first : p ≤ k ∧ k < p + n
  · have other := disjoint k first
    rw [if_pos first,if_pos first,if_neg other,if_neg other]
  · rw [if_neg first,if_neg first]

/-- Combining again from a first part of the same data changes nothing. -/
theorem combine_again {op : β → β → β} [Std.Associative op] [Std.IdempotentOp op] (M : Nat → β) (p : Nat)
    (data : Nat → β) {j n : Nat} (part : j ≤ n) :
    combine op (combine op M p data j) p data n = combine op M p data n := by
  have assoc : ∀ a b c, op (op a b) c = op a (op b c) := Std.Associative.assoc
  have idem : ∀ a, op a a = a := Std.IdempotentOp.idempotent
  funext k
  simp only [combine]
  by_cases inside : p ≤ k ∧ k < p + n
  · rw [if_pos inside,if_pos inside]
    by_cases first : p ≤ k ∧ k < p + j
    · rw [if_pos first,assoc,idem]
    · rw [if_neg first]
  · rw [if_neg inside,if_neg inside,if_neg (by omega)]

/-- Where the data around a part of the cells is what the cells hold, only that part counts. -/
theorem combine_padded {op : β → β → β} [Std.IdempotentOp op] {M : Nat → β} {p s len n : Nat} {data : Nat → β}
    (same : ∀ k < n, k < s ∨ s + len ≤ k → data k = M (p + k)) :
    combine op M p data n = combine op M (p + s) (fun k => data (s + k)) (min len (n - s)) := by
  have idem : ∀ a, op a a = a := Std.IdempotentOp.idempotent
  funext k
  simp only [combine]
  by_cases part : p + s ≤ k ∧ k < p + s + min len (n - s)
  · rw [if_pos (by omega),if_pos part]
    congr 2
    omega
  · rw [if_neg part]
    by_cases around : p ≤ k ∧ k < p + n
    · have place : p + (k - p) = k := by omega
      rw [if_pos around,same (k - p) (by omega) (by omega),place,idem]
    · rw [if_neg around]

/-- Combining in a window that starts at `b`. -/
theorem combine_shift {op : β → β → β} {M N : Nat → β} {b k : Nat} (p : Nat) (data : Nat → β) (n : Nat)
    (same : M (b + k) = N k) : combine op M (b + p) data n (b + k) = combine op N p data n k := by
  simp only [combine]
  by_cases inside : p ≤ k ∧ k < p + n
  · rw [if_pos (by omega),if_pos inside,same,Nat.add_sub_add_left]
  · rw [if_neg (by omega),if_neg inside,same]

/-! ### Filling -/

@[simp] theorem fill_zero (v : β) (M : Nat → β) (p : Nat) : fill v M p 0 = M := by
  funext k
  simp only [fill]
  rw [if_neg (by omega)]

/-- Filling from inside a filled part, or right after it, to beyond its end. -/
theorem fill_extend (v : β) (M : Nat → β) (p : Nat) {n j m : Nat} (low : n ≤ j) (high : j ≤ n + m) :
    fill v (fill v M p j) (p + n) m = fill v M p (n + m) := by
  funext k
  simp only [fill]
  by_cases second : p + n ≤ k ∧ k < p + n + m
  · rw [if_pos second,if_pos (by omega)]
  · rw [if_neg second]
    by_cases first : p ≤ k ∧ k < p + j
    · rw [if_pos first,if_pos (by omega)]
    · rw [if_neg first,if_neg (by omega)]

theorem fill_append (v : β) (M : Nat → β) (p n m : Nat) : fill v (fill v M p n) (p + n) m = fill v M p (n + m) :=
  fill_extend v M p (Nat.le_refl n) (Nat.le_add_right n m)

/-- Filling from the end. -/
theorem fill_prepend (v : β) (M : Nat → β) (p n m : Nat) : fill v (fill v M (p + n) m) p n = fill v M p (n + m) := by
  funext k
  simp only [fill]
  by_cases first : p ≤ k ∧ k < p + n
  · rw [if_pos first,if_pos (by omega)]
  · rw [if_neg first]
    by_cases second : p + n ≤ k ∧ k < p + n + m
    · rw [if_pos second,if_pos (by omega)]
    · rw [if_neg second,if_neg (by omega)]

theorem fill_outside (v : β) (M : Nat → β) (p n : Nat) : SameOutside p n M (fill v M p n) :=
  fun _ outside => if_neg outside

theorem fill_again (v : β) (M : Nat → β) (p : Nat) {j n : Nat} (part : j ≤ n) :
    fill v (fill v M p j) p n = fill v M p n := by
  funext k
  simp only [fill]
  by_cases inside : p ≤ k ∧ k < p + n
  · rw [if_pos inside,if_pos inside]
  · rw [if_neg inside,if_neg inside,if_neg (by omega)]

theorem fill_shift {v : β} {M N : Nat → β} {b k : Nat} (p n : Nat) (same : M (b + k) = N k) :
    fill v M (b + p) n (b + k) = fill v N p n k := by
  simp only [fill]
  by_cases inside : p ≤ k ∧ k < p + n
  · rw [if_pos (by omega),if_pos inside]
  · rw [if_neg (by omega),if_neg inside,same]

/-! ### Unchanged cells -/

theorem sameOutside_refl (p n : Nat) (M : Nat → β) : SameOutside p n M M := fun _ _ => rfl
theorem sameOutside_wider {p n q m : Nat} {M M' : Nat → β} (same : SameOutside p n M M') (low : q ≤ p)
    (high : p + n ≤ q + m) : SameOutside q m M M' :=
  fun k outside => same k (by omega)

end NuMicroBoot.Cells
