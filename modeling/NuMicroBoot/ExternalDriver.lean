import NuMicroBoot.Driver

/-!
The three variants of `Driver_FLASH2` in `Driver_Flash.c` for the external flash
of the M460: standard SPI, QSPI and SPIM. The serial flash functions they call
(`spi_drv.c`, `qspi_drv.c`, `spim_drv.c`) are the calls of the interface here.
-/

namespace NuMicroBoot.ExternalDriver
open NuMicroBoot.Calls NuMicroBoot.Cells NuMicroBoot.Driver

/-! ### Calls -/

/-- `NVT_NVSPI_*`, `NVT_NVQSPI_*` or `NVT_NVSPIM_*`. `buf` is a pointer into a buffer. -/
inductive Call
  | NVT_Read (addr len : UInt32)
  | NVT_Program (addr len : UInt32) (buf : Buffer) (p : Nat)
  | NVT_Erase (addr : UInt32)
  | NVT_WaitReady

/-- A read answers its status and the bytes stored from `*data` on, the others a status. -/
abbrev Answer : Call → Type
  | .NVT_Read _ _ => Int32 × Buffer
  | .NVT_Program _ _ _ _ => Int32
  | .NVT_Erase _ => Int32
  | .NVT_WaitReady => Int32

abbrev interface : Interface := ⟨Call,Answer⟩

abbrev NVT_Read (addr len : UInt32) : Prog interface (Int32 × Buffer) := .call (.NVT_Read addr len) .ret
abbrev NVT_Program (addr len : UInt32) (buf : Buffer) (p : Nat) : Prog interface Int32 :=
  .call (.NVT_Program addr len buf p) .ret
abbrev NVT_Erase (addr : UInt32) : Prog interface Int32 := .call (.NVT_Erase addr) .ret
abbrev NVT_WaitReady : Prog interface Int32 := .call .NVT_WaitReady .ret

/-! ### Device records -/

def NVT_NVSPI_SECTOR_SIZE : UInt32 := 4096
def NVT_NVSPI_SECTOR_COUNT : UInt32 := 0x00400000 / NVT_NVSPI_SECTOR_SIZE
def NVT_NVSPI_PAGE_SIZE : UInt32 := 256
def NVT_NVSPI_PROGRAM_UNIT : UInt32 := 4
def NVT_NVSPI_MEMORY_BASE : UInt32 := 0

def NVT_NVQSPI_SECTOR_SIZE : UInt32 := 4096
def NVT_NVQSPI_SECTOR_COUNT : UInt32 := 0x02000000 / NVT_NVQSPI_SECTOR_SIZE
def NVT_NVQSPI_PAGE_SIZE : UInt32 := 256
def NVT_NVQSPI_PROGRAM_UNIT : UInt32 := 4
def NVT_NVQSPI_MEMORY_BASE : UInt32 := 0

def NVT_NVSPIM_SECTOR_SIZE : UInt32 := 256
def NVT_NVSPIM_SECTOR_COUNT : UInt32 := 0x02000000 / NVT_NVSPIM_SECTOR_SIZE
def NVT_NVSPIM_PAGE_SIZE : UInt32 := 256
def NVT_NVSPIM_PROGRAM_UNIT : UInt32 := 4
def NVT_NVSPIM_MEMORY_BASE : UInt32 := 0

/-- `ARM_FLASH2_DEV` with `USE_SPI`, `USE_QSPI` and `USE_SPIM`. -/
def SPI_DEV : arm_flash_dev_t where
  memory_base := NVT_NVSPI_MEMORY_BASE
  data :=
    { sector_info := none, sector_count := NVT_NVSPI_SECTOR_COUNT, sector_size := NVT_NVSPI_SECTOR_SIZE
      page_size := NVT_NVSPI_PAGE_SIZE, program_unit := NVT_NVSPI_PROGRAM_UNIT, erased_value := 0xFF }
def QSPI_DEV : arm_flash_dev_t where
  memory_base := NVT_NVQSPI_MEMORY_BASE
  data :=
    { sector_info := none, sector_count := NVT_NVQSPI_SECTOR_COUNT, sector_size := NVT_NVQSPI_SECTOR_SIZE
      page_size := NVT_NVQSPI_PAGE_SIZE, program_unit := NVT_NVQSPI_PROGRAM_UNIT, erased_value := 0xFF }
def SPIM_DEV : arm_flash_dev_t where
  memory_base := NVT_NVSPIM_MEMORY_BASE
  data :=
    { sector_info := none, sector_count := NVT_NVSPIM_SECTOR_COUNT, sector_size := NVT_NVSPIM_SECTOR_SIZE
      page_size := NVT_NVSPIM_PAGE_SIZE, program_unit := NVT_NVSPIM_PROGRAM_UNIT, erased_value := 0xFF }

/-! ### Standard SPI and QSPI -/

/-- The chunk loop of `ARM_Flash_ReadData_SPI` and `_QSPI`; `data` is an index into the buffer. -/
def readChunks (page_size : UInt32) :
    (rounds : Nat) → (addr : UInt32) → (buffer : Buffer) → (data : Nat) → (sz : UInt32) → Prog interface (Int32 × Buffer)
  | 0, _, _, _, _ => .spin
  | rounds + 1, addr, buffer, data, sz =>
    if sz ≠ 0 then do
      let u32Len := if sz > page_size then page_size else sz
      let (r,bytes) ← NVT_Read addr u32Len
      let buffer := copy buffer data bytes 0 u32Len.toNat
      if r ≠ 0 then .ret (ARM_DRIVER_ERROR,buffer)
      else readChunks page_size rounds (addr + u32Len) buffer (data + u32Len.toNat) (sz - u32Len)
    else .ret (ARM_DRIVER_OK,buffer)

/-- `ARM_Flash_ReadData_SPI` and `_QSPI` on their device. Every round takes at least one byte off `sz`. -/
def readDataOn (dev : arm_flash_dev_t) (addr : UInt32) (data : Buffer) (p : Nat) (cnt : UInt32) :
    Prog interface (Int32 × Buffer) :=
  let sz := cnt * data_width_byte DriverCapabilities.data_width
  let r := is_range_valid_internal dev addr
  if r ≠ 0 then .ret (ARM_DRIVER_ERROR_PARAMETER,data)
  else readChunks dev.data.page_size (sz.toNat + 1) (addr - dev.memory_base) data p sz

def programChunks (page_size : UInt32) :
    (rounds : Nat) → (addr : UInt32) → (buffer : Buffer) → (data : Nat) → (sz : UInt32) → Prog interface Int32
  | 0, _, _, _, _ => .spin
  | rounds + 1, addr, buffer, data, sz =>
    if sz ≠ 0 then do
      let u32Len := if sz > page_size then page_size else sz
      let r ← NVT_Program addr u32Len buffer data
      if r ≠ 0 then .ret ARM_DRIVER_ERROR else
        let r ← NVT_WaitReady
        if r < 0 then .ret ARM_DRIVER_ERROR
        else programChunks page_size rounds (addr + u32Len) buffer (data + u32Len.toNat) (sz - u32Len)
    else .ret ARM_DRIVER_OK

/-- `ARM_Flash_ProgramData_SPI` and `_QSPI` on their device. -/
def programDataOn (dev : arm_flash_dev_t) (addr : UInt32) (data : Buffer) (p : Nat) (cnt : UInt32) :
    Prog interface Int32 :=
  let sz := cnt * data_width_byte DriverCapabilities.data_width
  let r := is_range_valid_internal dev addr
  if r ≠ 0 then .ret ARM_DRIVER_ERROR_PARAMETER
  else programChunks dev.data.page_size (sz.toNat + 1) (addr - dev.memory_base) data p sz

/-- `ARM_Flash_EraseSector_SPI` and `_QSPI` on their device. -/
def eraseSectorOn (dev : arm_flash_dev_t) (addr : UInt32) : Prog interface Int32 := do
  let r := is_range_valid_internal dev addr
  if r ≠ 0 then .ret ARM_DRIVER_ERROR_PARAMETER else
    let r ← NVT_Erase (addr - dev.memory_base)
    if r ≠ 0 then .ret ARM_DRIVER_ERROR else
      let r ← NVT_WaitReady
      if r < 0 then .ret ARM_DRIVER_ERROR else .ret ARM_DRIVER_OK

def ARM_Flash_ReadData_SPI := readDataOn SPI_DEV
def ARM_Flash_ProgramData_SPI := programDataOn SPI_DEV
def ARM_Flash_EraseSector_SPI := eraseSectorOn SPI_DEV
def ARM_Flash_ReadData_QSPI := readDataOn QSPI_DEV
def ARM_Flash_ProgramData_QSPI := programDataOn QSPI_DEV
def ARM_Flash_EraseSector_QSPI := eraseSectorOn QSPI_DEV

/-! ### SPIM -/

/-- The window of the SPIM controller, a constant of the board support package. It is the size of
    the device. -/
def SPIM_DMM_SIZE : UInt32 := 0x02000000

/-- The chunk loop of `ARM_Flash_ReadData_SPIM`, which takes no notice of the status of a read. -/
def readChunks_SPIM :
    (rounds : Nat) → (addr : UInt32) → (buffer : Buffer) → (data : Nat) → (sz : UInt32) → Prog interface (Int32 × Buffer)
  | 0, _, _, _, _ => .spin
  | rounds + 1, addr, buffer, data, sz =>
    if sz ≠ 0 then do
      let u32Len := if sz > NVT_NVSPIM_PAGE_SIZE then NVT_NVSPIM_PAGE_SIZE else sz
      let (_,bytes) ← NVT_Read addr u32Len
      readChunks_SPIM rounds (addr + u32Len) (copy buffer data bytes 0 u32Len.toNat) (data + u32Len.toNat) (sz - u32Len)
    else .ret (ARM_DRIVER_OK,buffer)

def ARM_Flash_ReadData_SPIM (addr : UInt32) (data : Buffer) (p : Nat) (cnt : UInt32) : Prog interface (Int32 × Buffer) :=
  let sz := cnt * data_width_byte DriverCapabilities.data_width
  if addr < NVT_NVSPIM_MEMORY_BASE ∨ addr + sz > NVT_NVSPIM_MEMORY_BASE + SPIM_DMM_SIZE then
    .ret (ARM_DRIVER_ERROR_PARAMETER,data)
  else readChunks_SPIM (sz.toNat + 1) (addr - NVT_NVSPIM_MEMORY_BASE) data p sz

def programChunks_SPIM :
    (rounds : Nat) → (addr : UInt32) → (buffer : Buffer) → (data : Nat) → (sz : UInt32) → Prog interface Int32
  | 0, _, _, _, _ => .spin
  | rounds + 1, addr, buffer, data, sz =>
    if sz ≠ 0 then do
      let u32Len := if sz > NVT_NVSPIM_PAGE_SIZE then NVT_NVSPIM_PAGE_SIZE else sz
      let r ← NVT_Program addr u32Len buffer data
      if r ≠ 0 then .ret ARM_DRIVER_ERROR
      else programChunks_SPIM rounds (addr + u32Len) buffer (data + u32Len.toNat) (sz - u32Len)
    else .ret ARM_DRIVER_OK

def ARM_Flash_ProgramData_SPIM (addr : UInt32) (data : Buffer) (p : Nat) (cnt : UInt32) : Prog interface Int32 :=
  let sz := cnt * data_width_byte DriverCapabilities.data_width
  if addr < NVT_NVSPIM_MEMORY_BASE ∨ addr + sz > NVT_NVSPIM_MEMORY_BASE + SPIM_DMM_SIZE then
    .ret ARM_DRIVER_ERROR_PARAMETER
  else programChunks_SPIM (sz.toNat + 1) (addr - NVT_NVSPIM_MEMORY_BASE) data p sz

def ARM_Flash_EraseSector_SPIM (addr : UInt32) : Prog interface Int32 := do
  if addr < NVT_NVSPIM_MEMORY_BASE ∨ addr > NVT_NVSPIM_MEMORY_BASE + SPIM_DMM_SIZE then .ret ARM_DRIVER_ERROR_PARAMETER
  else
    let r ← NVT_Erase (addr - NVT_NVSPIM_MEMORY_BASE)
    if r ≠ 0 then .ret ARM_DRIVER_ERROR else .ret ARM_DRIVER_OK

/-! ### Drivers -/

/-- `USE_SPI`, `USE_QSPI` or `USE_SPIM`. -/
inductive Variant
  | SPI
  | QSPI
  | SPIM
  deriving DecidableEq

def FLASH2_DEV : Variant → arm_flash_dev_t
  | .SPI => SPI_DEV
  | .QSPI => QSPI_DEV
  | .SPIM => SPIM_DEV

def Driver_FLASH2 : Variant → ARM_DRIVER_FLASH interface
  | .SPI =>
    { GetCapabilities := DriverCapabilities, ReadData := ARM_Flash_ReadData_SPI
      ProgramData := ARM_Flash_ProgramData_SPI, EraseSector := ARM_Flash_EraseSector_SPI, GetInfo := SPI_DEV.data }
  | .QSPI =>
    { GetCapabilities := DriverCapabilities, ReadData := ARM_Flash_ReadData_QSPI
      ProgramData := ARM_Flash_ProgramData_QSPI, EraseSector := ARM_Flash_EraseSector_QSPI, GetInfo := QSPI_DEV.data }
  | .SPIM =>
    { GetCapabilities := DriverCapabilities, ReadData := ARM_Flash_ReadData_SPIM
      ProgramData := ARM_Flash_ProgramData_SPIM, EraseSector := ARM_Flash_EraseSector_SPIM, GetInfo := SPIM_DEV.data }

end NuMicroBoot.ExternalDriver
