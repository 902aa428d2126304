import NuMicroBoot.ExternalDriver

/-!
The serial flash behind the SPI and the QSPI controller of the M460
(`spi_drv.c`, `qspi_drv.c`), down to the register macros of the board support
package. The macros of the two controllers differ in their prefix only.
-/

namespace NuMicroBoot.SpiBus
open NuMicroBoot.Calls NuMicroBoot.Cells NuMicroBoot.Driver NuMicroBoot.ExternalDriver

/-! ### Calls -/

/-- `SPI_SET_SS_LOW`, `QSPI_SET_SS_LOW` and the others, on `SPI_FLASH_PORT` or `QSPI_FLASH_PORT`. -/
inductive BusCall
  | SET_SS_LOW
  | SET_SS_HIGH
  | WRITE_TX (data : UInt32)
  | READ_RX
  | IS_BUSY
  | ClearRxFIFO
  | GET_TX_FIFO_FULL_FLAG

abbrev BusAnswer : BusCall → Type
  | .READ_RX => UInt32
  | .IS_BUSY => Bool
  | .GET_TX_FIFO_FULL_FLAG => Bool
  | _ => Unit

abbrev bus : Interface := ⟨BusCall,BusAnswer⟩

abbrev SET_SS_LOW : Prog bus Unit := .call .SET_SS_LOW .ret
abbrev SET_SS_HIGH : Prog bus Unit := .call .SET_SS_HIGH .ret
abbrev WRITE_TX (data : UInt32) : Prog bus Unit := .call (.WRITE_TX data) .ret
abbrev READ_RX : Prog bus UInt32 := .call .READ_RX .ret
abbrev IS_BUSY : Prog bus Bool := .call .IS_BUSY .ret
abbrev ClearRxFIFO : Prog bus Unit := .call .ClearRxFIFO .ret
abbrev GET_TX_FIFO_FULL_FLAG : Prog bus Bool := .call .GET_TX_FIFO_FULL_FLAG .ret

/-! ### Waiting -/

variable (SystemCoreClock : UInt32)

def busyLoop : (rounds : Nat) → (u32TimeOutCnt : UInt32) → Prog bus Unit
  | 0, _ => .spin
  | rounds + 1, u32TimeOutCnt => do
    let busy ← IS_BUSY
    if busy then
      let u32TimeOutCnt := u32TimeOutCnt - 1
      if u32TimeOutCnt = 0 then .ret () else busyLoop rounds u32TimeOutCnt
    else .ret ()

/-- `wait_SPI_IS_BUSY` and `wait_QSPI_IS_BUSY`. The counter is at 0 after 2^32 rounds at the latest. -/
def wait_IS_BUSY : Prog bus Unit := busyLoop (2 ^ 32) SystemCoreClock

/-- `SpiFlash_ReadStatusReg` of `spi_drv.c`, which leaves the RX FIFO as it finds it. -/
def SpiFlash_ReadStatusReg_SPI : Prog bus UInt8 := do
  SET_SS_LOW
  WRITE_TX 0x05
  WRITE_TX 0x00
  wait_IS_BUSY SystemCoreClock
  SET_SS_HIGH
  -- the first byte answers the command
  let _ ← READ_RX
  let rx ← READ_RX
  .ret (rx &&& 0xFF).toUInt8

/-- `SpiFlash_ReadStatusReg` of `qspi_drv.c`. -/
def SpiFlash_ReadStatusReg_QSPI : Prog bus UInt8 := do
  ClearRxFIFO
  SET_SS_LOW
  WRITE_TX 0x05
  WRITE_TX 0x00
  wait_IS_BUSY SystemCoreClock
  SET_SS_HIGH
  let _ ← READ_RX
  let rx ← READ_RX
  .ret rx.toUInt8

/-- The loop of `NVT_NVSPI_WaitReady` and `NVT_NVQSPI_WaitReady` over their status read. -/
def readyLoop (SpiFlash_ReadStatusReg : Prog bus UInt8) : (rounds : Nat) → (u32TimeOutCnt : UInt32) → Prog bus Int32
  | 0, _ => .spin
  | rounds + 1, u32TimeOutCnt =>
    let u32TimeOutCnt := u32TimeOutCnt - 1
    if u32TimeOutCnt = 0 then .ret (-1) else do
      let u8ReturnValue ← SpiFlash_ReadStatusReg
      if u8ReturnValue &&& 1 ≠ 0 then readyLoop SpiFlash_ReadStatusReg rounds u32TimeOutCnt else .ret 0

def NVT_NVSPI_WaitReady : Prog bus Int32 :=
  readyLoop (SpiFlash_ReadStatusReg_SPI SystemCoreClock) (2 ^ 32) SystemCoreClock
def NVT_NVQSPI_WaitReady : Prog bus Int32 :=
  readyLoop (SpiFlash_ReadStatusReg_QSPI SystemCoreClock) (2 ^ 32) SystemCoreClock

/-! ### Reading -/

/-- The three address bytes, highest first. -/
def writeAddress (addr : UInt32) : Prog bus Unit := do
  WRITE_TX ((addr >>> 16) &&& 0xFF)
  WRITE_TX ((addr >>> 8) &&& 0xFF)
  WRITE_TX (addr &&& 0xFF)

def dataLoop (len : UInt32) : (rounds : Nat) → (u32Cnt : UInt32) → (data : Buffer) → Prog bus Buffer
  | 0, _, _ => .spin
  | rounds + 1, u32Cnt, data =>
    if u32Cnt < len then do
      WRITE_TX 0x00
      wait_IS_BUSY SystemCoreClock
      let rx ← READ_RX
      dataLoop len rounds (u32Cnt + 1) (copy data u32Cnt.toNat (fun _ => rx.toUInt8) 0 1)
    else .ret data

/-- The bytes are returned from index 0 on. -/
def NVT_NVSPI_Read (addr len : UInt32) : Prog bus (Int32 × Buffer) := do
  SET_SS_LOW
  WRITE_TX 0x03
  writeAddress addr
  wait_IS_BUSY SystemCoreClock
  ClearRxFIFO
  let data ← dataLoop SystemCoreClock len (len.toNat + 1) 0 fun _ => 0
  wait_IS_BUSY SystemCoreClock
  SET_SS_HIGH
  .ret (0,data)

/-- `ENABLE_QUAD_MODE` is nowhere defined. -/
def NVT_NVQSPI_Read (addr len : UInt32) : Prog bus (Int32 × Buffer) := do
  SET_SS_LOW
  WRITE_TX 0x03
  wait_IS_BUSY SystemCoreClock
  writeAddress addr
  wait_IS_BUSY SystemCoreClock
  ClearRxFIFO
  let data ← dataLoop SystemCoreClock len (len.toNat + 1) 0 fun _ => 0
  wait_IS_BUSY SystemCoreClock
  SET_SS_HIGH
  .ret (0,data)

/-! ### Programming and erasing -/

/-- A frame with the write enable command alone. -/
def writeEnable : Prog bus Unit := do
  SET_SS_LOW
  WRITE_TX 0x06
  wait_IS_BUSY SystemCoreClock
  SET_SS_HIGH

def bufferLoop (len : UInt32) (buf : Buffer) (p : Nat) : (rounds : Nat) → (i : UInt32) → Prog bus Unit
  | 0, _ => .spin
  | rounds + 1, i =>
    if i < len then do
      WRITE_TX (buf (p + len.toNat)).toUInt32
      bufferLoop len buf p rounds (i + 1)
    else .ret ()

/-- The `while (1)` of `NVT_NVSPI_Program` and `NVT_NVQSPI_Program` has no way out; what the source has behind it
    is never reached. -/
def programLoop (len : UInt32) (buf : Buffer) (p : Nat) : (rounds : Nat) → Prog bus Int32
  | 0 => .spin
  | rounds + 1 => do
    let full ← GET_TX_FIFO_FULL_FLAG
    if !full then
      bufferLoop len buf p (len.toNat + 1) 0
      programLoop len buf p rounds
    else programLoop len buf p rounds

/-- `NVT_NVSPI_Program` and `NVT_NVQSPI_Program`, followed for a number of rounds. -/
def programPage (rounds : Nat) (addr len : UInt32) (buf : Buffer) (p : Nat) : Prog bus Int32 := do
  writeEnable SystemCoreClock
  SET_SS_LOW
  WRITE_TX 0x02
  writeAddress addr
  programLoop len buf p rounds

def NVT_NVSPI_Program := programPage
def NVT_NVQSPI_Program := programPage

/-- `NVT_NVSPI_Erase` and `NVT_NVQSPI_Erase`. -/
def eraseSector (addr : UInt32) : Prog bus Int32 := do
  writeEnable SystemCoreClock
  SET_SS_LOW
  WRITE_TX 0x20
  writeAddress addr
  wait_IS_BUSY SystemCoreClock
  ClearRxFIFO
  SET_SS_HIGH
  .ret 0

def NVT_NVSPI_Erase := eraseSector
def NVT_NVQSPI_Erase := eraseSector

/-! ### The drivers on the bus -/

def spi_drv (rounds : Nat) : (c : Call) → Prog bus (Answer c)
  | .NVT_Read addr len => NVT_NVSPI_Read SystemCoreClock addr len
  | .NVT_Program addr len buf p => NVT_NVSPI_Program SystemCoreClock rounds addr len buf p
  | .NVT_Erase addr => NVT_NVSPI_Erase SystemCoreClock addr
  | .NVT_WaitReady => NVT_NVSPI_WaitReady SystemCoreClock
def qspi_drv (rounds : Nat) : (c : Call) → Prog bus (Answer c)
  | .NVT_Read addr len => NVT_NVQSPI_Read SystemCoreClock addr len
  | .NVT_Program addr len buf p => NVT_NVQSPI_Program SystemCoreClock rounds addr len buf p
  | .NVT_Erase addr => NVT_NVQSPI_Erase SystemCoreClock addr
  | .NVT_WaitReady => NVT_NVQSPI_WaitReady SystemCoreClock

/-- `Driver_FLASH2` with `USE_SPI` and with `USE_QSPI`. -/
def Driver_FLASH2_SPI (rounds : Nat) : ARM_DRIVER_FLASH bus :=
  (Driver_FLASH2 .SPI).translate (spi_drv SystemCoreClock rounds)
def Driver_FLASH2_QSPI (rounds : Nat) : ARM_DRIVER_FLASH bus :=
  (Driver_FLASH2 .QSPI).translate (qspi_drv SystemCoreClock rounds)

end NuMicroBoot.SpiBus
