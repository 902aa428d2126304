import NuMicroBoot.AreaRuns

/-!
Two writes to byte ranges that share no byte, one after the other. The ranges may
meet inside a program unit: the padding that the second write reads back is what
the first one left there.
-/

namespace NuMicroBoot.Commuting
open NuMicroBoot.Calls NuMicroBoot.Calls.Prog NuMicroBoot.Cells NuMicroBoot.Driver NuMicroBoot.Nvmc
open NuMicroBoot.FlashMap NuMicroBoot.AreaPlans NuMicroBoot.WritePlans NuMicroBoot.AreaRuns

variable {bsp : Bsp}

/-- A write inside its area. -/
structure Write (bsp : Bsp) where
  area : InternalArea bsp
  off : UInt32
  src : Buffer
  len : UInt32
  fits : off.toNat + len.toNat ≤ area.fa_size.toNat

/-- The first byte of its range, and the bytes of it. -/
def Write.start (w : Write bsp) : Nat := w.area.fa_off.toNat + w.off.toNat
def Write.Holds (w : Write bsp) (p : Nat) : Prop := w.start ≤ p ∧ p < w.start + w.len.toNat

def Write.perform [Bootutil] (w : Write bsp) : Prog interface Int32 := flash_area_write w.area.area w.off w.src w.len

/-- One write after the other; returns what they return. -/
def inOrder [Bootutil] (first second : Write bsp) : Prog interface (Int32 × Int32) := do
  let rc ← first.perform
  let rc' ← second.perform
  .ret (rc,rc')

/-- The content that a write leaves. It does not depend on the padding. -/
def Write.leaves (w : Write bsp) (M : Content) : Content :=
  combine (· &&& ·) M w.start (written w.off.toNat w.len.toNat w.src) w.len.toNat

theorem run_perform [Bootutil] (w : Write bsp) (M : Content) : w.perform.run (machine bsp) M = some (0,w.leaves M) :=
  run_write w.area w.fits w.src M

theorem run_inOrder [Bootutil] (first second : Write bsp) (M : Content) :
    (inOrder first second).run (machine bsp) M = some ((0,0),second.leaves (first.leaves M)) := by
  rw [inOrder,run_bind_of_eq (run_perform first M),run_bind_of_eq (run_perform second _)]
  rfl

theorem leaves_outside (w : Write bsp) (M : Content) {p : Nat} (outside : ¬ w.Holds p) : w.leaves M p = M p :=
  combine_outside _ _ _ _ _ p outside

section
variable {first second : Write bsp} (disjoint : ∀ p, first.Holds p → ¬ second.Holds p)
include disjoint

theorem leaves_comm (M : Content) : second.leaves (first.leaves M) = first.leaves (second.leaves M) :=
  combine_comm M _ _ disjoint

/-- Both orders return 0 twice and leave one content: in each range what its write alone leaves there, and elsewhere
    what was there. -/
theorem disjoint_writes_commute [Bootutil] (M : Content) : ∃ M₁ M₂ M',
    first.perform.run (machine bsp) M = some (0,M₁) ∧ second.perform.run (machine bsp) M = some (0,M₂) ∧
    (inOrder first second).run (machine bsp) M = some ((0,0),M') ∧
    (inOrder second first).run (machine bsp) M = some ((0,0),M') ∧
    (∀ p, first.Holds p → M' p = M₁ p) ∧ (∀ p, second.Holds p → M' p = M₂ p) ∧
    ∀ p, ¬ first.Holds p → ¬ second.Holds p → M' p = M p := by
  have same := leaves_comm disjoint M
  refine ⟨_,_,_,run_perform first M,run_perform second M,run_inOrder first second M,?_,?_,?_,?_⟩
  · rw [same]
    exact run_inOrder second first M
  · intro p holds
    exact leaves_outside second _ (disjoint p holds)
  · intro p holds
    rw [same]
    exact leaves_outside first _ fun other => disjoint p other holds
  · intro p outside outside'
    rw [leaves_outside second _ outside',leaves_outside first _ outside]

end

/-! ### Two writes that meet inside a program unit -/

def lower : Write board := ⟨primary,1,fun k => UInt8.ofNat (k + 1),11,by decide⟩
def upper : Write board := ⟨primary,12,fun k => UInt8.ofNat (k + 100),7,by decide⟩

theorem lower_upper_commute : ∃ M₁ M₂ M',
    (@Write.perform _ bootutil lower).run (machine board) (fun _ => 0xFF) = some (0,M₁) ∧
    (@Write.perform _ bootutil upper).run (machine board) (fun _ => 0xFF) = some (0,M₂) ∧
    (@inOrder _ bootutil lower upper).run (machine board) (fun _ => 0xFF) = some ((0,0),M') ∧
    (@inOrder _ bootutil upper lower).run (machine board) (fun _ => 0xFF) = some ((0,0),M') ∧
    (∀ p, lower.Holds p → M' p = M₁ p) ∧ (∀ p, upper.Holds p → M' p = M₂ p) ∧
    ∀ p, ¬ lower.Holds p → ¬ upper.Holds p → M' p = 0xFF := by
  refine @disjoint_writes_commute _ lower upper ?_ bootutil fun _ => 0xFF
  have low : lower.start + lower.len.toNat = upper.start := by decide
  rintro p ⟨_,below⟩ ⟨above,_⟩
  omega

end NuMicroBoot.Commuting
