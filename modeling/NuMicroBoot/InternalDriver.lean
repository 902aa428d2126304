import NuMicroBoot.Driver
import NuMicroBoot.Nvmc

/-!
The drivers of the internal flash in `Driver_Flash.c`: `Driver_FLASH0` for the
APROM and `Driver_FLASH1` for the LDROM.
-/

namespace NuMicroBoot.InternalDriver
open NuMicroBoot.Calls NuMicroBoot.Cells NuMicroBoot.Words NuMicroBoot.Driver NuMicroBoot.Nvmc

variable (bsp : Bsp)

/-! ### Device records -/

def ARM_FLASH0_DEV_DATA : ARM_FLASH_INFO where
  sector_info := none
  sector_count := NVT_NVMC_APROM_SECTOR_COUNT bsp
  sector_size := NVT_NVMC_SECTOR_SIZE bsp
  page_size := NVT_NVMC_SECTOR_SIZE bsp
  program_unit := NVT_NVMC_PROGRAM_UNIT bsp
  erased_value := 0xFF

def FLASH0_DEV : arm_flash_dev_t where
  memory_base := NVT_NVMC_APROM_MEMORY_BASE bsp
  data := ARM_FLASH0_DEV_DATA bsp

def ARM_FLASH1_DEV_DATA : ARM_FLASH_INFO where
  sector_info := none
  sector_count := NVT_NVMC_LDROM_SECTOR_COUNT bsp
  sector_size := NVT_NVMC_SECTOR_SIZE bsp
  page_size := NVT_NVMC_SECTOR_SIZE bsp
  program_unit := NVT_NVMC_PROGRAM_UNIT bsp
  erased_value := 0xFF

def FLASH1_DEV : arm_flash_dev_t where
  memory_base := NVT_NVMC_LDROM_MEMORY_BASE bsp
  data := ARM_FLASH1_DEV_DATA bsp

/-! ### Erasing -/

def ARM_Flash_EraseSector_Internal (addr : UInt32) : Prog interface Int32 := do
  let status ← NVT_NVMC_Erase addr
  if status ≠ NVT_NVMC_OK then .ret ARM_DRIVER_ERROR else .ret ARM_DRIVER_OK

/-- `ARM_Flash_EraseSector_APROM` and `_LDROM` on their device. -/
def eraseSectorOn (dev : arm_flash_dev_t) (addr : UInt32) : Prog interface Int32 := do
  let rc := is_range_valid_internal dev addr ||| is_sector_aligned dev addr
  if rc ≠ 0 then .ret ARM_DRIVER_ERROR_PARAMETER else
    let status ← ARM_Flash_EraseSector_Internal addr
    if status ≠ ARM_DRIVER_OK then .ret ARM_DRIVER_ERROR else .ret ARM_DRIVER_OK

def ARM_Flash_EraseSector_APROM (addr : UInt32) : Prog interface Int32 := eraseSectorOn (FLASH0_DEV bsp) addr
def ARM_Flash_EraseSector_LDROM (addr : UInt32) : Prog interface Int32 := eraseSectorOn (FLASH1_DEV bsp) addr

/-! ### Reading -/

/-- The loop of `ARM_Flash_ReadData_Internal`; `dest` is an index into the buffer. -/
def readLoop : (rounds : Nat) → (dest : Nat) → (addr remain : UInt32) → (data : Buffer) →
    Prog interface (Int32 × Buffer)
  | 0, _, _, _, _ => .spin
  | rounds + 1, dest, addr, remain, data =>
    if remain > 0 then do
      let (status,r_data) ← NVT_NVMC_Read addr
      if status ≠ NVT_NVMC_OK then .ret (ARM_DRIVER_ERROR,data)
      else if remain > 4 then
        readLoop rounds (dest + 4) (addr + 4) (remain - 4) (copy data dest (wordBytes r_data) 0 4)
      else .ret (ARM_DRIVER_OK,copy data dest (wordBytes r_data) 0 remain.toNat)
    else .ret (ARM_DRIVER_OK,data)

/-- Every round of the loop takes at least one byte off `remain`, so `sz + 1` rounds are enough. -/
def ARM_Flash_ReadData_Internal (start_addr : UInt32) (data : Buffer) (p : Nat) (sz : UInt32) :
    Prog interface (Int32 × Buffer) :=
  readLoop (sz.toNat + 1) p start_addr sz data

/-- `ARM_Flash_ReadData_APROM` and `_LDROM` on their device. -/
def readDataOn (dev : arm_flash_dev_t) (addr : UInt32) (data : Buffer) (p : Nat) (cnt : UInt32) :
    Prog interface (Int32 × Buffer) := do
  let sz := cnt * data_width_byte DriverCapabilities.data_width
  let rc := is_range_valid_internal dev (addr + sz - 1)
  if rc ≠ 0 then .ret (ARM_DRIVER_ERROR_PARAMETER,data) else
    let (status,data) ← ARM_Flash_ReadData_Internal addr data p sz
    if status ≠ ARM_DRIVER_OK then .ret (ARM_DRIVER_ERROR,data) else .ret (cnt.toInt32,data)

def ARM_Flash_ReadData_APROM (addr : UInt32) (data : Buffer) (p : Nat) (cnt : UInt32) :
    Prog interface (Int32 × Buffer) := readDataOn (FLASH0_DEV bsp) addr data p cnt
def ARM_Flash_ReadData_LDROM (addr : UInt32) (data : Buffer) (p : Nat) (cnt : UInt32) :
    Prog interface (Int32 × Buffer) := readDataOn (FLASH1_DEV bsp) addr data p cnt

/-! ### Programming -/

/-- `memcpy` of `n` bytes to the start of the double word, the rest of it stays. -/
def loadBytes (dword : UInt64) (data : Buffer) (p n : Nat) : UInt64 :=
  UInt64.ofNat (leNat 8 (copy (dwordBytes dword) 0 data p n))

/-- The loop of `ARM_Flash_ProgramData_Internal`; `dword` is the local copy of the last round. -/
def programLoop (addr : UInt32) (data : Buffer) (p : Nat) (sz prog_unit : UInt32) :
    (rounds : Nat) → (dst_offst src_offst : UInt32) → (dword : UInt64) → Prog interface Int32
  | 0, _, _, _ => .spin
  | rounds + 1, dst_offst, src_offst, dword =>
    if dst_offst < sz then do
      let dword := loadBytes dword data (p + src_offst.toNat) prog_unit.toNat
      let status ← NVT_NVMC_Program (addr + dst_offst) dword
      if status ≠ NVT_NVMC_OK then .ret ARM_DRIVER_ERROR
      else programLoop addr data p sz prog_unit rounds (dst_offst + prog_unit) (src_offst + prog_unit) dword
    else .ret ARM_DRIVER_OK

/-- `sz` is a multiple of the unit wherever it is called, so `dst_offst` reaches it without
    wrapping and `sz + 1` rounds are enough. -/
def ARM_Flash_ProgramData_Internal (addr : UInt32) (data : Buffer) (p : Nat) (sz prog_unit : UInt32) :
    Prog interface Int32 :=
  programLoop addr data p sz prog_unit (sz.toNat + 1) 0 0 bsp.garbage

/-- `ARM_Flash_ProgramData_APROM` and `_LDROM` on their device. -/
def programDataOn (dev : arm_flash_dev_t) (addr : UInt32) (data : Buffer) (p : Nat) (cnt : UInt32) :
    Prog interface Int32 := do
  let sz := cnt * data_width_byte DriverCapabilities.data_width
  let rc := is_range_valid_internal dev (addr + sz - 1) ||| is_write_aligned dev addr ||| is_write_aligned dev sz
  if rc ≠ 0 then .ret ARM_DRIVER_ERROR_PARAMETER else
    let status ← ARM_Flash_ProgramData_Internal bsp addr data p sz dev.data.program_unit
    if status ≠ ARM_DRIVER_OK then .ret ARM_DRIVER_ERROR else .ret cnt.toInt32

def ARM_Flash_ProgramData_APROM (addr : UInt32) (data : Buffer) (p : Nat) (cnt : UInt32) : Prog interface Int32 :=
  programDataOn bsp (FLASH0_DEV bsp) addr data p cnt
def ARM_Flash_ProgramData_LDROM (addr : UInt32) (data : Buffer) (p : Nat) (cnt : UInt32) : Prog interface Int32 :=
  programDataOn bsp (FLASH1_DEV bsp) addr data p cnt

/-! ### Drivers -/

def Driver_FLASH0 : ARM_DRIVER_FLASH interface where
  GetCapabilities := DriverCapabilities
  ReadData := ARM_Flash_ReadData_APROM bsp
  ProgramData := ARM_Flash_ProgramData_APROM bsp
  EraseSector := ARM_Flash_EraseSector_APROM bsp
  GetInfo := (FLASH0_DEV bsp).data

def Driver_FLASH1 : ARM_DRIVER_FLASH interface where
  GetCapabilities := DriverCapabilities
  ReadData := ARM_Flash_ReadData_LDROM bsp
  ProgramData := ARM_Flash_ProgramData_LDROM bsp
  EraseSector := ARM_Flash_EraseSector_LDROM bsp
  GetInfo := (FLASH1_DEV bsp).data

end NuMicroBoot.InternalDriver
