import NuMicroBoot.Restart

/-!
A write to the internal flash leaves the bytes around its range alone at every
moment, also those that share a program unit with its first or last byte.
-/

namespace NuMicroBoot.Neighbours
open NuMicroBoot.Calls NuMicroBoot.Calls.Prog NuMicroBoot.Cells NuMicroBoot.Words NuMicroBoot.Driver NuMicroBoot.Nvmc
open NuMicroBoot.FlashMap NuMicroBoot.AreaPlans NuMicroBoot.WritePlans NuMicroBoot.Restart

variable {bsp : Bsp}

/-- A first part of a range. -/
theorem combine_part {M : Content} {data : Buffer} {p j n : Nat} (part : j ≤ n) :
    SameOutside p n M (combine (· &&& ·) M p data j) :=
  sameOutside_wider (combine_outside _ M p data j) (Nat.le_refl p) (Nat.add_le_add_left part p)

/-- Wherever a write stands, after any number of steps and whichever of them have failed: every byte outside its range
    is as before. Where the range leaves the area no program step is made at all. -/
theorem neighbours_kept [Bootutil] (a : InternalArea bsp) (off len : UInt32) (src : Buffer) {M M' : Content}
    {t : List (Event interface)} {q : Prog interface Int32}
    (exec : Exec (Clean bsp) (flash_area_write a.area off src len) M t q M') :
    (∀ p, ¬ (a.fa_off.toNat + off.toNat ≤ p ∧ p < a.fa_off.toNat + off.toNat + len.toNat) → M' p = M p) ∧
    (a.fa_size.toNat < off.toNat + len.toNat → ∀ e ∈ t, ∀ addr dword, e.call ≠ .NVT_NVMC_Program addr dword) := by
  by_cases fits : off.toNat + len.toNat ≤ a.fa_size.toNat
  · constructor
    · obtain ⟨j,part,rfl⟩ := exec_write a fits exec
      exact combine_part part
    · intro outside
      omega
  · rw [flash_area_write_rejects a fits] at exec
    obtain ⟨rfl,_,rfl⟩ := exec_ret exec
    constructor
    · intro p _
      rfl
    · intro _ e member
      simp at member

/-- A write of four bytes over the border of two program units: after its four reads the first unit is programmed, and
    programming the second fails. -/
theorem neighbours_kept_border : ∃ (t : List (Event interface)) (M' : Content), t.length = 6 ∧
    (∀ p, ¬ (primary.fa_off.toNat + (6 : UInt32).toNat ≤ p ∧
      p < primary.fa_off.toNat + (6 : UInt32).toNat + (4 : UInt32).toNat) → M' p = 0xFF) ∧
    (primary.fa_size.toNat < (6 : UInt32).toNat + (4 : UInt32).toNat →
      ∀ e ∈ t, ∀ addr dword, e.call ≠ .NVT_NVMC_Program addr dword) :=
  ⟨_,_,rfl,@neighbours_kept _ bootutil primary 6 4 (fun _ => 5) (fun _ => 0xFF) _ _ (.ret (-1))
    (.step (.done _ _) (.step (.done _ _) (.step (.done _ _) (.step (.done _ _) (.step (.done _ _)
      (.step (.failed _ _ NVT_NVMC_TIMEOUT rfl) (.stop _ _)))))))⟩

end NuMicroBoot.Neighbours
