import NuMicroBoot.ExternalDriver

/-!
The serial flash behind the SPIM controller of the M460 (`spim_drv.c`), by the
accesses that its functions have in common. The setting of the direction is one
call here, and so is a DMA transfer up to the end of the wait for it;
`SpimRegisters` has the registers that both of them write.
-/

namespace NuMicroBoot.SpimBus
open NuMicroBoot.Calls NuMicroBoot.Driver NuMicroBoot.ExternalDriver

/-! ### Calls -/

/-- `CTL0_IO_DIR` sets `OPMODE` to `IO` and `QDIODIR` to its argument, 1 for output. -/
inductive SpimCall
  | SPIM_SET_SS_EN (on : Bool)
  | CTL0_IO_DIR (dir : Bool)
  | TX (u8Data : UInt8)
  | SPIM_SET_GO
  | SPIM_WAIT_FREE
  | RX
  | DMA_Read (u32Addr u32Size : UInt32)
  | DMA_Write (u32Addr u32Size : UInt32) (pu8Buf : Buffer) (p : Nat)

/-- A DMA read answers the bytes it stores from the start of the buffer on. -/
abbrev SpimAnswer : SpimCall → Type
  | .RX => UInt32
  | .DMA_Read _ _ => Buffer
  | _ => Unit

abbrev spim : Interface := ⟨SpimCall,SpimAnswer⟩

abbrev SPIM_SET_SS_EN (on : Bool) : Prog spim Unit := .call (.SPIM_SET_SS_EN on) .ret
abbrev CTL0_IO_DIR (dir : Bool) : Prog spim Unit := .call (.CTL0_IO_DIR dir) .ret
abbrev TX (u8Data : UInt8) : Prog spim Unit := .call (.TX u8Data) .ret
abbrev SPIM_SET_GO : Prog spim Unit := .call .SPIM_SET_GO .ret
abbrev SPIM_WAIT_FREE : Prog spim Unit := .call .SPIM_WAIT_FREE .ret
abbrev RX : Prog spim UInt32 := .call .RX .ret
abbrev NVT_SPIM_DMA_Read (u32Addr u32Size : UInt32) : Prog spim Buffer := .call (.DMA_Read u32Addr u32Size) .ret
abbrev NVT_SPIM_DMA_Write (u32Addr u32Size : UInt32) (pu8Buf : Buffer) (p : Nat) : Prog spim Unit :=
  .call (.DMA_Write u32Addr u32Size pu8Buf p) .ret

/-! ### Commands and status bits of the chip -/

def OPCODE_WREN : UInt8 := 0x06
def OPCODE_RDSR : UInt8 := 0x05
def OPCODE_RDID : UInt8 := 0x9F
def OPCODE_SE_4K : UInt8 := 0x20
def SR_WIP : UInt8 := 0x01
def SR_WEL : UInt8 := 0x02

/-! ### Functions -/

def NVT_SPIM_IO_Write (u8Data : UInt8) : Prog spim Unit := do
  TX u8Data
  SPIM_SET_GO
  SPIM_WAIT_FREE

def NVT_SPIM_IO_Read : Prog spim UInt8 := do
  SPIM_SET_GO
  SPIM_WAIT_FREE
  let rx ← RX
  .ret (rx &&& 0xFF).toUInt8

def SPIFLASH_ReadID : Prog spim UInt32 := do
  SPIM_SET_SS_EN true
  CTL0_IO_DIR true
  NVT_SPIM_IO_Write OPCODE_RDID
  CTL0_IO_DIR false
  let u8ID2 ← NVT_SPIM_IO_Read
  let u8ID1 ← NVT_SPIM_IO_Read
  let u8ID0 ← NVT_SPIM_IO_Read
  SPIM_SET_SS_EN false
  .ret ((u8ID2.toUInt32 <<< 16) ||| (u8ID1.toUInt32 <<< 8) ||| u8ID0.toUInt32)

/-- The loop of `SPIFLASH_CheckStatus`, which has no bound of its own. -/
def checkLoop (u8Flag u8Value : UInt8) : (rounds : Nat) → Prog spim UInt8
  | 0 => .spin
  | rounds + 1 => do
    let u8Status ← NVT_SPIM_IO_Read
    if u8Status &&& u8Flag ≠ u8Value then checkLoop u8Flag u8Value rounds else .ret u8Status

/-- Followed for a number of status reads. -/
def SPIFLASH_CheckStatus (rounds : Nat) (u8Flag u8Value : UInt8) : Prog spim UInt8 := do
  SPIM_SET_SS_EN true
  CTL0_IO_DIR true
  NVT_SPIM_IO_Write OPCODE_RDSR
  CTL0_IO_DIR false
  let u8Status ← checkLoop u8Flag u8Value rounds
  SPIM_SET_SS_EN false
  .ret u8Status

def SPIFLASH_WriteEnable (rounds : Nat) : Prog spim UInt8 := do
  SPIM_SET_SS_EN true
  CTL0_IO_DIR true
  NVT_SPIM_IO_Write OPCODE_WREN
  SPIM_SET_SS_EN false
  SPIFLASH_CheckStatus rounds (SR_WEL ||| SR_WIP) SR_WEL

def NVT_NVSPIM_Read (addr size : UInt32) : Prog spim (Int32 × Buffer) := do
  SPIM_SET_SS_EN true
  let data ← NVT_SPIM_DMA_Read addr size
  SPIM_SET_SS_EN false
  .ret (0,data)

def NVT_NVSPIM_Program (rounds : Nat) (addr size : UInt32) (buf : Buffer) (p : Nat) : Prog spim Int32 := do
  let u8Status ← SPIFLASH_WriteEnable rounds
  if u8Status &&& SR_WEL = 0 then .ret 1 else do
    SPIM_SET_SS_EN true
    NVT_SPIM_DMA_Write addr size buf p
    SPIM_SET_SS_EN false
    let u8Status ← SPIFLASH_CheckStatus rounds SR_WIP 0
    if u8Status ≠ 0 then .ret 1 else .ret 0

def NVT_NVSPIM_Erase (rounds : Nat) (addr : UInt32) : Prog spim Int32 := do
  SPIM_WAIT_FREE
  let u8Status ← SPIFLASH_WriteEnable rounds
  if u8Status &&& SR_WEL = 0 then .ret 1 else do
    SPIM_SET_SS_EN true
    CTL0_IO_DIR true
    NVT_SPIM_IO_Write OPCODE_SE_4K
    NVT_SPIM_IO_Write ((addr >>> 16) &&& 0xFF).toUInt8
    NVT_SPIM_IO_Write ((addr >>> 8) &&& 0xFF).toUInt8
    NVT_SPIM_IO_Write (addr &&& 0xFF).toUInt8
    SPIM_SET_SS_EN false
    let _ ← SPIFLASH_CheckStatus rounds SR_WIP 0
    .ret 0

/-! ### The driver on the controller -/

/-- The SPIM driver never waits for the chip itself. -/
def spim_drv (rounds : Nat) : (c : Call) → Prog spim (Answer c)
  | .NVT_Read addr len => NVT_NVSPIM_Read addr len
  | .NVT_Program addr len buf p => NVT_NVSPIM_Program rounds addr len buf p
  | .NVT_Erase addr => NVT_NVSPIM_Erase rounds addr
  | .NVT_WaitReady => .ret 0

/-- `Driver_FLASH2` with `USE_SPIM`. -/
def Driver_FLASH2_SPIM (rounds : Nat) : ARM_DRIVER_FLASH spim := (Driver_FLASH2 .SPIM).translate (spim_drv rounds)

end NuMicroBoot.SpimBus
