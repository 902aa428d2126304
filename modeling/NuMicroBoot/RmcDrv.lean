import NuMicroBoot.Nvmc

/-!
The RMC back end (`rmc_drv.c`) over the functions of the board support package
that it calls, and what those do to the flash.
-/

namespace NuMicroBoot.RmcDrv
open NuMicroBoot.Calls NuMicroBoot.Calls.Prog NuMicroBoot.Cells NuMicroBoot.Words NuMicroBoot.Nvmc

/-! ### Functions -/

inductive RmcCall
  | RMC_Read (addr : UInt32)
  | RMC_Write (addr word : UInt32)
  | RMC_Erase (addr : UInt32)
  | g_RMC_i32ErrCode

abbrev RmcAnswer : RmcCall → Type
  | .RMC_Read _ => UInt32
  | .RMC_Write _ _ => Int32
  | .RMC_Erase _ => Int32
  | .g_RMC_i32ErrCode => Int32

abbrev rmc : Interface := ⟨RmcCall,RmcAnswer⟩

abbrev RMC_Read (addr : UInt32) : Prog rmc UInt32 := .call (.RMC_Read addr) .ret
abbrev RMC_Write (addr word : UInt32) : Prog rmc Int32 := .call (.RMC_Write addr word) .ret
abbrev RMC_Erase (addr : UInt32) : Prog rmc Int32 := .call (.RMC_Erase addr) .ret
abbrev g_RMC_i32ErrCode : Prog rmc Int32 := .call .g_RMC_i32ErrCode .ret

def NVT_RMC_Read (addr : UInt32) : Prog rmc (Int32 × UInt32) := do
  let data ← RMC_Read addr
  let err ← g_RMC_i32ErrCode
  if err ≠ 0 then .ret (NVT_NVMC_ERROR,data) else .ret (NVT_NVMC_OK,data)

def NVT_RMC_Program (addr : UInt32) (dword : UInt64) : Prog rmc Int32 := do
  let word := (dword &&& 0xFFFFFFFF).toUInt32
  let ret ← RMC_Write addr word
  if ret = -1 then .ret NVT_NVMC_ERROR else .ret NVT_NVMC_OK

def NVT_RMC_Erase (addr : UInt32) : Prog rmc Int32 := do
  let ret ← RMC_Erase addr
  if ret = -2 then .ret NVT_NVMC_PARAMETER
  else if ret = -1 then .ret NVT_NVMC_ERROR
  else .ret NVT_NVMC_OK

def rmc_drv : (c : Call) → Prog rmc (Answer c)
  | .NVT_NVMC_Read addr => NVT_RMC_Read addr
  | .NVT_NVMC_Program addr dword => NVT_RMC_Program addr dword
  | .NVT_NVMC_Erase addr => NVT_RMC_Erase addr

/-! ### Flash -/

variable (bsp : Bsp)

/-- The functions when nothing fails: a write stores one little-endian word, as old AND new. -/
def working : Machine rmc Content
  | .RMC_Read addr, M => (wordAt M addr.toNat,M)
  | .RMC_Write addr word, M => ((0 : Int32),combine (· &&& ·) M addr.toNat (wordBytes word) 4)
  | .RMC_Erase addr, M => ((0 : Int32),erased bsp M addr)
  | .g_RMC_i32ErrCode, M => ((0 : Int32),M)

theorem low_bytes (dword : UInt64) {k : Nat} (inside : k < 4) :
    wordBytes (dword &&& 0xFFFFFFFF).toUInt32 k = dwordBytes dword k := by
  rw [wordBytes,dwordBytes,low_word]
  exact byteAt_mod dword.toNat inside

/-- Each call does what the controller of an RMC part does. -/
theorem rmc_drv_run (type : bsp.type = .RMC) (c : Call) (M : Content) :
    (rmc_drv c).run (working bsp) M = some (machine bsp c M) := by
  cases c with
  | NVT_NVMC_Read addr => rfl
  | NVT_NVMC_Program addr dword =>
    have unit : (NVT_NVMC_PROGRAM_UNIT bsp).toNat = 4 := by
      rw [NVT_NVMC_PROGRAM_UNIT,type]
      rfl
    have stored : programmed bsp M addr dword =
        combine (· &&& ·) M addr.toNat (wordBytes (dword &&& 0xFFFFFFFF).toUInt32) 4 := by
      rw [programmed,unit]
      exact combine_congr fun k inside => (low_bytes dword inside).symm
    show _ = some (NVT_NVMC_OK,programmed bsp M addr dword)
    rw [stored]
    rfl
  | NVT_NVMC_Erase addr => rfl

end NuMicroBoot.RmcDrv
