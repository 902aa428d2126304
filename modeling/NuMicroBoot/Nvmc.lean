import NuMicroBoot.Calls
import NuMicroBoot.Cells
import NuMicroBoot.Words

/-!
The non-volatile memory controller behind the internal flash: the constants that
the board support package gives `nvmc_drv.h`, the three calls of the back ends
(`fmc_drv.c`, `rmc_drv.c`), and what the hardware does at each.
-/

namespace NuMicroBoot.Nvmc
open NuMicroBoot.Calls NuMicroBoot.Cells NuMicroBoot.Words

/-! ### Status codes and constants -/

abbrev NVT_NVMC_OK : Int32 := 0
abbrev NVT_NVMC_ERROR : Int32 := -1
abbrev NVT_NVMC_TIMEOUT : Int32 := -2
abbrev NVT_NVMC_ISPFF : Int32 := -3
abbrev NVT_NVMC_PARAMETER : Int32 := -4

/-- `NVMC_TYPE_RMC == 1` builds the RMC back end, otherwise the FMC one is built. -/
inductive NvmcType
  | FMC
  | RMC
  deriving DecidableEq

/-- The constants of the board support package (`FMC_APROM_BASE` and the others,
    or their `RMC_` counterparts). `garbage` is what the stack holds where the
    programming loop keeps its uninitialised double word. -/
structure Bsp where
  type : NvmcType
  APROM_BASE : UInt32
  APROM_SIZE : UInt32
  LDROM_BASE : UInt32
  LDROM_SIZE : UInt32
  FLASH_PAGE_SIZE : UInt32
  garbage : UInt64

variable (bsp : Bsp)

def NVT_NVMC_APROM_MEMORY_BASE : UInt32 := bsp.APROM_BASE
def NVT_NVMC_LDROM_MEMORY_BASE : UInt32 := bsp.LDROM_BASE
def NVT_NVMC_APROM_SECTOR_COUNT : UInt32 := bsp.APROM_SIZE / bsp.FLASH_PAGE_SIZE
def NVT_NVMC_LDROM_SECTOR_COUNT : UInt32 := bsp.LDROM_SIZE / bsp.FLASH_PAGE_SIZE
def NVT_NVMC_SECTOR_SIZE : UInt32 := bsp.FLASH_PAGE_SIZE
def NVT_NVMC_PROGRAM_UNIT : UInt32 :=
  match bsp.type with
  | .RMC => 4
  | .FMC => 8

/-! ### Calls -/

inductive Call
  | NVT_NVMC_Read (addr : UInt32)
  | NVT_NVMC_Program (addr : UInt32) (dword : UInt64)
  | NVT_NVMC_Erase (addr : UInt32)
  deriving DecidableEq

/-- A read answers its status and the word left at `*data`, the others a status. -/
abbrev Answer : Call → Type
  | .NVT_NVMC_Read _ => Int32 × UInt32
  | .NVT_NVMC_Program _ _ => Int32
  | .NVT_NVMC_Erase _ => Int32

abbrev interface : Interface := ⟨Call,Answer⟩

def status : (c : Call) → Answer c → Int32
  | .NVT_NVMC_Read _, a => a.1
  | .NVT_NVMC_Program _ _, a => a
  | .NVT_NVMC_Erase _, a => a

abbrev NVT_NVMC_Read (addr : UInt32) : Prog interface (Int32 × UInt32) := .call (.NVT_NVMC_Read addr) .ret
abbrev NVT_NVMC_Program (addr : UInt32) (dword : UInt64) : Prog interface Int32 :=
  .call (.NVT_NVMC_Program addr dword) .ret
abbrev NVT_NVMC_Erase (addr : UInt32) : Prog interface Int32 := .call (.NVT_NVMC_Erase addr) .ret

/-- The call returned `NVT_NVMC_OK`. -/
def succeeded (c : Call) (a : Answer c) : Bool := status c a == NVT_NVMC_OK

def Call.addr : Call → UInt32
  | .NVT_NVMC_Read addr => addr
  | .NVT_NVMC_Program addr _ => addr
  | .NVT_NVMC_Erase addr => addr

/-! ### Hardware -/

/-- Flash content by byte address. -/
abbrev Content := Nat → UInt8

/-- The little-endian word at an address. -/
def wordAt (M : Content) (a : Nat) : UInt32 := UInt32.ofNat (leNat 4 fun k => M (a + k))
/-- The bytes of a word or double word, lowest first. -/
def wordBytes (w : UInt32) : Nat → UInt8 := byteAt w.toNat
def dwordBytes (d : UInt64) : Nat → UInt8 := byteAt d.toNat

/-- A program step stores old AND new in its unit. -/
def programmed (M : Content) (addr : UInt32) (dword : UInt64) : Content :=
  combine (· &&& ·) M addr.toNat (dwordBytes dword) (NVT_NVMC_PROGRAM_UNIT bsp).toNat
/-- The start of the page that holds an address. -/
def pageStart (addr : UInt32) : Nat := bsp.FLASH_PAGE_SIZE.toNat * (addr.toNat / bsp.FLASH_PAGE_SIZE.toNat)
/-- An erase step sets the page of its address to 0xFF. -/
def erased (M : Content) (addr : UInt32) : Content :=
  fill 0xFF M (pageStart bsp addr) bsp.FLASH_PAGE_SIZE.toNat

/-- The controller when no step fails. -/
def machine : Machine interface Content
  | .NVT_NVMC_Read addr, M => ((NVT_NVMC_OK,wordAt M addr.toNat),M)
  | .NVT_NVMC_Program addr dword, M => (NVT_NVMC_OK,programmed bsp M addr dword)
  | .NVT_NVMC_Erase addr, M => (NVT_NVMC_OK,erased bsp M addr)

/-- The controller when any step may fail: a failing program or erase step leaves
    its own unit or page in any state and the rest alone. -/
inductive Faulty : Device interface Content
  | read (addr : UInt32) (M : Content) (a : Int32 × UInt32) : Faulty (.NVT_NVMC_Read addr) M a M
  | programDone (addr : UInt32) (dword : UInt64) (M : Content) :
      Faulty (.NVT_NVMC_Program addr dword) M NVT_NVMC_OK (programmed bsp M addr dword)
  | programFailed (addr : UInt32) (dword : UInt64) (M M' : Content) (s : Int32) (failed : s ≠ NVT_NVMC_OK)
      (rest : SameOutside addr.toNat (NVT_NVMC_PROGRAM_UNIT bsp).toNat M M') :
      Faulty (.NVT_NVMC_Program addr dword) M s M'
  | eraseDone (addr : UInt32) (M : Content) : Faulty (.NVT_NVMC_Erase addr) M NVT_NVMC_OK (erased bsp M addr)
  | eraseFailed (addr : UInt32) (M M' : Content) (s : Int32) (failed : s ≠ NVT_NVMC_OK)
      (rest : SameOutside (pageStart bsp addr) bsp.FLASH_PAGE_SIZE.toNat M M') :
      Faulty (.NVT_NVMC_Erase addr) M s M'

/-- The controller when any step may fail and a step that fails changes nothing. -/
inductive Clean : Device interface Content
  | done (c : Call) (M : Content) : Clean c M (machine bsp c M).1 (machine bsp c M).2
  | failed (c : Call) (M : Content) (a : Answer c) (bad : succeeded c a = false) : Clean c M a M

theorem machine_succeeds (c : Call) (M : Content) : succeeded c (machine bsp c M).1 = true := by
  cases c <;> rfl

/-- Programming an erased byte stores the new one. -/
theorem erased_and (b : UInt8) : 0xFF &&& b = b := by
  rw [show (0xFF : UInt8) = -1 from rfl,UInt8.neg_one_and]

theorem wordBytes_wordAt (M : Content) (a : Nat) {k : Nat} (inside : k < 4) : wordBytes (wordAt M a) k = M (a + k) := by
  have small : leNat 4 (fun k => M (a + k)) < 2 ^ 32 := leNat_lt 4 _
  rw [wordBytes,wordAt,UInt32.toNat_ofNat',Nat.mod_eq_of_lt small,byteAt_leNat inside]

theorem program_unit_cases : NVT_NVMC_PROGRAM_UNIT bsp = 4 ∨ NVT_NVMC_PROGRAM_UNIT bsp = 8 := by
  unfold NVT_NVMC_PROGRAM_UNIT
  cases bsp.type
  · exact .inr rfl
  · exact .inl rfl

end NuMicroBoot.Nvmc
