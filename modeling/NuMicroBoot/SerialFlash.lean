import NuMicroBoot.ExternalReads

/-!
What the serial flash functions are for, as an abstract device: memory that is
read in runs of bytes and erased in sectors of 4 KiB, and that must be waited
for after an erase. The drivers of `Driver_FLASH2` are judged over it.
-/

namespace NuMicroBoot.SerialFlash
open NuMicroBoot.Calls NuMicroBoot.Calls.Prog NuMicroBoot.Cells NuMicroBoot.Words NuMicroBoot.Driver
open NuMicroBoot.ExternalDriver NuMicroBoot.ExternalBounds NuMicroBoot.ExternalReads

/-! ### The device -/

/-- The memory, and whether an erase may still be going on in it. -/
structure Flash where
  memory : Nat → UInt8
  busy : Bool

/-- The start of the sector that holds an address. -/
def sectorStart (a : Nat) : Nat := 4096 * (a / 4096)

def Flash.erased (f : Flash) (a : Nat) (busy : Bool) : Flash := ⟨fill 0xFF f.memory (sectorStart a) 4096,busy⟩

/-- The functions of a serial flash with 24-bit addresses. `waits` tells whether an erase function waits for its
    end itself, `timesOut` whether waiting may be given up. No state is left where a function is used in a way that
    is not explained here: on a busy chip, beyond the addresses, or to program. -/
def Serial (waits : Bool) (timesOut : Prop) : Device interface (Option Flash)
  | .NVT_Read addr len, some f, a, t =>
    if f.busy = false ∧ addr.toNat + len.toNat ≤ 2 ^ 24 then
      a.1 = 0 ∧ (∀ k < len.toNat, a.2 k = f.memory (addr.toNat + k)) ∧ t = some f
    else t = none
  | .NVT_Erase addr, some f, a, t =>
    if f.busy = false ∧ addr.toNat < 2 ^ 24 then a = (0 : Int32) ∧ t = some (f.erased addr.toNat !waits) else t = none
  | .NVT_WaitReady, some f, a, t =>
    a = (0 : Int32) ∧ t = some ⟨f.memory,false⟩ ∨ timesOut ∧ a < (0 : Int32) ∧ t = some f
  | _, _, _, t => t = none

/-- A state is left. -/
def Left (t : Option Flash) : Prop := t ≠ none

section
variable {waits : Bool} {timesOut : Prop} {α : Type} {Q : α → Option Flash → Prop} {f : Flash}

/-- An idle chip delivers what it is asked for. -/
theorem serves_idle (idle : f.busy = false) : Serves (Serial waits timesOut) Left (some f) f.memory (2 ^ 24) := by
  refine ⟨Option.some_ne_none f,fun addr len a t inside answered => ?_⟩
  exact (if_pos (And.intro idle inside)).mp answered

theorem wp_erase {addr : UInt32} {next : Int32 → Prog interface α} (idle : f.busy = false) (inside : addr.toNat < 2 ^ 24)
    (rest : (next 0).Wp (Serial waits timesOut) Left Q (some (f.erased addr.toNat !waits))) :
    (NVT_Erase addr >>= next).Wp (Serial waits timesOut) Left Q (some f) := by
  refine ⟨Option.some_ne_none f,fun a t answered => ?_⟩
  obtain ⟨rfl,rfl⟩ := (if_pos (And.intro idle inside)).mp answered
  exact rest

theorem wp_wait {next : Int32 → Prog interface α} (ready : (next 0).Wp (Serial waits timesOut) Left Q (some ⟨f.memory,false⟩))
    (late : ∀ rc < 0, timesOut → (next rc).Wp (Serial waits timesOut) Left Q (some f)) :
    (NVT_WaitReady >>= next).Wp (Serial waits timesOut) Left Q (some f) := by
  refine ⟨Option.some_ne_none f,fun a t answered => ?_⟩
  rcases answered with ⟨rfl,rfl⟩ | ⟨given,negative,rfl⟩
  · exact ready
  · exact late a negative given

/-! ### Erasing -/

/-- An erase sets the sector of its address, and succeeds unless waiting is given up. -/
theorem eraseSectorOn_wp {dev : arm_flash_dev_t} {addr : UInt32} (valid : is_range_valid_internal dev addr = 0)
    (base : dev.memory_base = 0) (idle : f.busy = false) (inside : addr.toNat < 2 ^ 24) :
    (eraseSectorOn dev addr).Wp (Serial false timesOut) Left
      (fun rc t => rc = ARM_DRIVER_OK ∧ t = some (f.erased addr.toNat false) ∨
        timesOut ∧ rc = ARM_DRIVER_ERROR ∧ t = some (f.erased addr.toNat true)) (some f) := by
  have start : addr - dev.memory_base = addr := by rw [base,UInt32.sub_zero]
  simp only [eraseSectorOn,valid,ne_eq,not_true_eq_false,if_false,start]
  refine wp_erase idle inside ?_
  rw [if_neg (by decide)]
  refine wp_wait ?_ fun rc negative late => ?_
  · rw [if_neg (by decide)]
    exact ⟨Option.some_ne_none _,.inl ⟨rfl,rfl⟩⟩
  · rw [if_pos negative]
    exact ⟨Option.some_ne_none _,.inr ⟨late,rfl,rfl⟩⟩

/-- The SPIM driver erases the 4 KiB around the address, whatever sector size it tells. -/
theorem eraseSector_SPIM_wp {addr : UInt32} (valid : addr.toNat ≤ SPIM_DMM_SIZE.toNat) (idle : f.busy = false)
    (inside : addr.toNat < 2 ^ 24) : (ARM_Flash_EraseSector_SPIM addr).Wp (Serial true timesOut) Left
      (fun rc t => rc = ARM_DRIVER_OK ∧ t = some (f.erased addr.toNat false)) (some f) := by
  have through := mt (spim_erase_check_iff addr).mp (not_not.mpr valid)
  rw [ARM_Flash_EraseSector_SPIM,if_neg through,show addr - NVT_NVSPIM_MEMORY_BASE = addr from UInt32.sub_zero _]
  refine wp_erase idle inside ?_
  rw [if_neg (by decide)]
  exact ⟨Option.some_ne_none _,rfl,rfl⟩

end
end NuMicroBoot.SerialFlash
