import NuMicroBoot.Calls
import NuMicroBoot.Cells
import NuMicroBoot.Words

/-!
The flash driver interface of `Driver_Flash.h`, and what all drivers of
`Driver_Flash.c` share: the device records and the range and alignment checks.
-/

namespace NuMicroBoot.Driver
open NuMicroBoot.Calls NuMicroBoot.Words

abbrev ARM_DRIVER_OK : Int32 := 0
abbrev ARM_DRIVER_ERROR : Int32 := -1
abbrev ARM_DRIVER_ERROR_PARAMETER : Int32 := -5

/-- A buffer, by byte index. A pointer into it is the buffer and an index. -/
abbrev Buffer := Nat → UInt8

structure ARM_FLASH_INFO where
  /-- NULL stands for uniform sectors, otherwise the start and end of each sector. -/
  sector_info : Option (List (UInt32 × UInt32))
  sector_count : UInt32
  sector_size : UInt32
  page_size : UInt32
  program_unit : UInt32
  erased_value : UInt8

structure ARM_FLASH_CAPABILITIES where
  event_ready : UInt32
  data_width : UInt32
  erase_chip : UInt32

/-- The functions of a driver that the flash map calls. `ReadData` takes the
    destination as buffer and index and returns the buffer as it leaves it. -/
structure ARM_DRIVER_FLASH (I : Interface) where
  GetCapabilities : ARM_FLASH_CAPABILITIES
  ReadData : (addr : UInt32) → (data : Buffer) → (p : Nat) → (cnt : UInt32) → Prog I (Int32 × Buffer)
  ProgramData : (addr : UInt32) → (data : Buffer) → (p : Nat) → (cnt : UInt32) → Prog I Int32
  EraseSector : (addr : UInt32) → Prog I Int32
  GetInfo : ARM_FLASH_INFO

/-- The driver with every call carried out by a program over another interface. -/
def ARM_DRIVER_FLASH.translate {I J : Interface} (impl : (c : I.Call) → Prog J (I.Answer c)) (driver : ARM_DRIVER_FLASH I) :
    ARM_DRIVER_FLASH J where
  GetCapabilities := driver.GetCapabilities
  ReadData addr data p cnt := (driver.ReadData addr data p cnt).translate impl
  ProgramData addr data p cnt := (driver.ProgramData addr data p cnt).translate impl
  EraseSector addr := (driver.EraseSector addr).translate impl
  GetInfo := driver.GetInfo

structure arm_flash_dev_t where
  memory_base : UInt32
  data : ARM_FLASH_INFO

/-- `sizeof` of the data item for each value of `data_width`. -/
def data_width_byte (data_width : UInt32) : UInt32 := [1,2,4].getD data_width.toNat 0

def DriverCapabilities : ARM_FLASH_CAPABILITIES where
  event_ready := 0
  data_width := 2
  erase_chip := 1

def is_write_aligned (flash_dev : arm_flash_dev_t) (param : UInt32) : Int32 :=
  if param % flash_dev.data.program_unit ≠ 0 then -1 else 0

def is_sector_aligned (flash_dev : arm_flash_dev_t) (offset : UInt32) : Int32 :=
  if offset % flash_dev.data.sector_size ≠ 0 then -1 else 0

def is_range_valid_internal (dev : arm_flash_dev_t) (addr : UInt32) : Int32 :=
  let flash_size := dev.data.sector_count * dev.data.sector_size
  if addr - dev.memory_base ≥ flash_size then -1 else 0

@[simp] theorem data_width_byte_driver : data_width_byte DriverCapabilities.data_width = 4 := rfl

/-! ### The checks over the natural numbers -/

/-- The size of a device in bytes. -/
def arm_flash_dev_t.size (dev : arm_flash_dev_t) : Nat := dev.data.sector_count.toNat * dev.data.sector_size.toNat

/-- A range of `n` bytes from `a` on lies inside the device. -/
def arm_flash_dev_t.Inside (dev : arm_flash_dev_t) (a n : Nat) : Prop :=
  dev.memory_base.toNat ≤ a ∧ a + n ≤ dev.memory_base.toNat + dev.size

theorem is_write_aligned_iff (dev : arm_flash_dev_t) (param : UInt32) :
    is_write_aligned dev param = 0 ↔ param.toNat % dev.data.program_unit.toNat = 0 := by
  unfold is_write_aligned
  have same : param % dev.data.program_unit = 0 ↔ param.toNat % dev.data.program_unit.toNat = 0 := by
    rw [eq_iff_toNat,UInt32.toNat_mod,UInt32.toNat_zero]
  by_cases aligned : param % dev.data.program_unit = 0
  · simp [aligned,same.mp aligned]
  · simp [aligned,mt same.mpr aligned]

theorem is_sector_aligned_iff (dev : arm_flash_dev_t) (offset : UInt32) :
    is_sector_aligned dev offset = 0 ↔ offset.toNat % dev.data.sector_size.toNat = 0 := by
  unfold is_sector_aligned
  have same : offset % dev.data.sector_size = 0 ↔ offset.toNat % dev.data.sector_size.toNat = 0 := by
    rw [eq_iff_toNat,UInt32.toNat_mod,UInt32.toNat_zero]
  by_cases aligned : offset % dev.data.sector_size = 0
  · simp [aligned,same.mp aligned]
  · simp [aligned,mt same.mpr aligned]

/-- The range check on one address, where the device ends below 2^32 or at it. -/
theorem is_range_valid_iff {dev : arm_flash_dev_t} (fits : dev.memory_base.toNat + dev.size ≤ 2 ^ 32)
    (addr : UInt32) :
    is_range_valid_internal dev addr = 0 ↔ dev.size < 2 ^ 32 ∧ dev.memory_base.toNat ≤ addr.toNat ∧
      addr.toNat < dev.memory_base.toNat + dev.size := by
  unfold is_range_valid_internal
  have base := dev.memory_base.toNat_lt
  have bound := addr.toNat_lt
  simp only [ge_iff_le,UInt32.le_iff_toNat_le,UInt32.toNat_sub,UInt32.toNat_mul]
  change (if dev.size % 2 ^ 32 ≤ _ then (-1 : Int32) else 0) = 0 ↔ _
  constructor
  · intro valid
    by_cases outside : dev.size % 2 ^ 32 ≤ (2 ^ 32 - dev.memory_base.toNat + addr.toNat) % 2 ^ 32
    · rw [if_pos outside] at valid
      exact absurd valid (by decide)
    · omega
  · rintro ⟨_,above,below⟩
    rw [if_neg (by omega)]

theorem check_cases (failed : Prop) [Decidable failed] :
    (if failed then (-1 : Int32) else 0) = 0 ∨ (if failed then (-1 : Int32) else 0) = -1 := by
  by_cases f : failed <;> simp [f]
theorem is_range_valid_cases (dev : arm_flash_dev_t) (addr : UInt32) :
    is_range_valid_internal dev addr = 0 ∨ is_range_valid_internal dev addr = -1 := check_cases _
theorem is_sector_aligned_cases (dev : arm_flash_dev_t) (offset : UInt32) :
    is_sector_aligned dev offset = 0 ∨ is_sector_aligned dev offset = -1 := check_cases _
theorem is_write_aligned_cases (dev : arm_flash_dev_t) (param : UInt32) :
    is_write_aligned dev param = 0 ∨ is_write_aligned dev param = -1 := check_cases _

/-- Checks joined by `|=` pass when all of them pass. -/
theorem or_checks_eq_zero {a b : Int32} (ha : a = 0 ∨ a = -1) (hb : b = 0 ∨ b = -1) :
    a ||| b = 0 ↔ a = 0 ∧ b = 0 := by
  rcases ha with rfl | rfl <;> rcases hb with rfl | rfl <;> decide
theorem or_checks_cases {a b : Int32} (ha : a = 0 ∨ a = -1) (hb : b = 0 ∨ b = -1) : a ||| b = 0 ∨ a ||| b = -1 := by
  rcases ha with rfl | rfl <;> rcases hb with rfl | rfl <;> decide

end NuMicroBoot.Driver
