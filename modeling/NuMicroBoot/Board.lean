import NuMicroBoot.FlashLayout
import NuMicroBoot.SpiSession
import NuMicroBoot.SpimPort
import NuMicroBoot.Sweeps

/-!
A board: the internal flash beside one external flash, and the driver objects
over both. Whatever sector size a driver tells, an erase through it sets one
aligned granule, the page of the controller or the 4 KiB of the chip.
-/

namespace NuMicroBoot.Board
open NuMicroBoot.Calls NuMicroBoot.Calls.Prog NuMicroBoot.Cells NuMicroBoot.Words NuMicroBoot.Driver NuMicroBoot.Nvmc
open NuMicroBoot.InternalDriver NuMicroBoot.ExternalDriver NuMicroBoot.AreaPlans NuMicroBoot.ExternalBounds
open NuMicroBoot.SerialFlash NuMicroBoot.SerialChip NuMicroBoot.SpiBus NuMicroBoot.SpiPort NuMicroBoot.SpimBus
open NuMicroBoot.FlashLayout NuMicroBoot.SpiSession NuMicroBoot.Sweeps

/-! ### The internal flash -/

/-- Only the start of a sector is accepted. -/
def InternalSector (dev : arm_flash_dev_t) (a : Nat) : Prop := dev.Inside a 1 ∧ a % dev.data.sector_size.toNat = 0

theorem erases_internal {bsp : Bsp} (sound : Sound bsp) (rom : Rom) : Erases (machine bsp).device (rom.driver bsp) id
    (fun _ => True) bsp.FLASH_PAGE_SIZE.toNat False (InternalSector (rom.dev bsp)) := by
  have size : (rom.driver bsp).GetInfo.sector_size = bsp.FLASH_PAGE_SIZE := by cases rom <;> rfl
  refine ⟨by cases rom <;> rfl,by rw [size]; exact sound.page.1,by rw [size],?_⟩
  intro M addr _ accepted
  have erase : (rom.driver bsp).EraseSector addr = InternalDriver.eraseSectorOn (rom.dev bsp) addr := by cases rom <;> rfl
  rw [erase,eraseSectorOn_eq (dev_fits sound rom) accepted.1 accepted.2]
  refine ⟨trivial,fun status M' answered => ?_⟩
  obtain ⟨rfl,rfl⟩ := Prod.mk.inj answered
  exact ⟨trivial,.inl ⟨rfl,trivial,rfl⟩⟩

/-! ### The external flash -/

/-- The serial flash of the external driver with the given functions. -/
def external : Variant → Interface
  | .SPI => bus
  | .QSPI => bus
  | .SPIM => spim

/-- The state of its controller and chip. -/
def External : Variant → Type
  | .SPI => Port
  | .QSPI => Port
  | .SPIM => SpimPort.Spim

def chip : (variant : Variant) → External variant → Chip
  | .SPI, s => Port.chip s
  | .QSPI, s => Port.chip s
  | .SPIM, s => SpimPort.Spim.chip s

/-- Between two calls, and the chip is idle. -/
def ExternalReady : (variant : Variant) → External variant → Prop
  | .SPI, s => SpiSession.Idle s
  | .QSPI, s => SpiSession.Idle s
  | .SPIM, s => SpimPort.Free s

/-- A board: the constants of the internal flash, the core clock, the external chip, the depth of the FIFO in front
    of it, and for how many status reads a loop without a bound is followed. -/
structure Setup where
  bsp : Bsp
  SystemCoreClock : UInt32
  type : ChipType
  depth : Nat
  rounds : Nat

variable (setup : Setup)

def externalDriver : (variant : Variant) → ARM_DRIVER_FLASH (external variant)
  | .SPI => Driver_FLASH2_SPI setup.SystemCoreClock setup.rounds
  | .QSPI => Driver_FLASH2_QSPI setup.SystemCoreClock setup.rounds
  | .SPIM => Driver_FLASH2_SPIM setup.rounds

def externalDevice : (variant : Variant) → Device (external variant) (External variant)
  | .SPI => SpiPort.device setup.type setup.depth
  | .QSPI => SpiPort.device setup.type setup.depth
  | .SPIM => SpimPort.device setup.type

/-- No erase of the chip lasts for longer than the driver waits. The SPIM driver waits without a bound, but reads the
    status between the write enable command and the erase. -/
def InTime : Variant → Prop
  | .SPIM => setup.type.keeps = true ∧ 0 < setup.rounds ∧ ∀ n, setup.type.lasts n → n < setup.rounds
  | _ => 8 ≤ setup.depth ∧ ¬ TimesOut setup.type setup.SystemCoreClock

/-- The addresses of the device that three address bytes can name. -/
def Addressed (variant : Variant) (a n : Nat) : Prop := (FLASH2_DEV variant).Inside a n ∧ a + n ≤ 2 ^ 24

variable {setup}

theorem addressed_valid {variant : Variant} {addr : UInt32} (inside : Addressed variant addr.toNat 1) :
    is_range_valid_internal (FLASH2_DEV variant) addr = 0 :=
  (valid_iff variant addr).mpr ((inside_iff variant _ _).mp inside.1)

/-- A driver that erases as the abstract flash does, on a port where that is explained. -/
theorem erases_port {driver : ARM_DRIVER_FLASH bus} {variant : Variant}
    {impl : (c : ExternalDriver.Call) → Prog bus (ExternalDriver.Answer c)}
    (info : driver.GetInfo = (FLASH2_DEV variant).data) (none : (FLASH2_DEV variant).data.sector_info = none)
    (size : (FLASH2_DEV variant).data.sector_size = 4096) (base : (FLASH2_DEV variant).memory_base = 0)
    (erase : ∀ addr, driver.EraseSector addr = (ExternalDriver.eraseSectorOn (FLASH2_DEV variant) addr).translate impl)
    (explained : ∀ {Q : Int32 → Option Flash → Prop} {p : Prog ExternalDriver.interface Int32} {s : Port} {f : Flash},
      p.Wp (Serial false (TimesOut setup.type setup.SystemCoreClock)) Left Q (some f) → Explains setup.type s f →
      (p.translate impl).Wp (SpiPort.device setup.type setup.depth) Quiet
        (fun a s' => ∃ t, Q a t ∧ ∃ f', t = some f' ∧ Explains setup.type s' f') s) :
    Erases (SpiPort.device setup.type setup.depth) driver (fun s => s.chip.memory) SpiSession.Idle 4096
      (TimesOut setup.type setup.SystemCoreClock) fun a => Addressed variant a 1 := by
  refine ⟨by rw [info,none],by rw [info,size]; decide,by rw [info,size]; decide,?_⟩
  intro s addr idle inside
  have start : Explains setup.type s ⟨s.chip.memory,false⟩ := explains_idle idle
  have erased := explained (eraseSectorOn_wp (addressed_valid inside) base rfl inside.2) start
  rw [erase]
  refine wp_weaken (wp_mono erased fun rc s' after => ?_) fun _ _ => trivial
  obtain ⟨_,⟨rfl,rfl⟩ | ⟨late,rfl,_⟩,f,same,explains⟩ := after
  · cases same
    exact .inl ⟨rfl,⟨explains.resting,explains.idle rfl⟩,explains.memory⟩
  · exact .inr ⟨late,by decide⟩

theorem erases_SPI (deep : 8 ≤ setup.depth) : Erases (externalDevice setup .SPI) (externalDriver setup .SPI)
    (fun s => (chip .SPI s).memory) (ExternalReady .SPI) 4096 (TimesOut setup.type setup.SystemCoreClock)
    fun a => Addressed .SPI a 1 :=
  erases_port rfl rfl rfl rfl (fun _ => rfl) (wp_spi_drv deep setup.rounds)

theorem erases_QSPI (deep : 8 ≤ setup.depth) : Erases (externalDevice setup .QSPI) (externalDriver setup .QSPI)
    (fun s => (chip .QSPI s).memory) (ExternalReady .QSPI) 4096 (TimesOut setup.type setup.SystemCoreClock)
    fun a => Addressed .QSPI a 1 :=
  erases_port rfl rfl rfl rfl (fun _ => rfl) (wp_qspi_drv deep setup.rounds)

theorem erases_port_driver {variant : Variant} (port : variant ≠ .SPIM) (deep : 8 ≤ setup.depth) :
    Erases (externalDevice setup variant) (externalDriver setup variant) (fun s => (chip variant s).memory)
      (ExternalReady variant) 4096 (TimesOut setup.type setup.SystemCoreClock) fun a => Addressed variant a 1 := by
  cases variant with
  | SPI => exact erases_SPI deep
  | QSPI => exact erases_QSPI deep
  | SPIM => exact absurd rfl port

/-- The SPIM driver tells a sector size of 256, a sixteenth of what its erase sets. -/
theorem erases_SPIM (inTime : InTime setup .SPIM) : Erases (externalDevice setup .SPIM) (externalDriver setup .SPIM)
    (fun s => (chip .SPIM s).memory) (ExternalReady .SPIM) 4096 False fun a => Addressed .SPIM a 1 := by
  have size : (externalDriver setup .SPIM).GetInfo.sector_size = 256 := rfl
  refine ⟨rfl,by rw [size]; decide,by rw [size]; decide,?_⟩
  intro s addr free inside
  have low : addr.toNat ≤ SPIM_DMM_SIZE.toNat := Nat.le_trans (Nat.le_of_lt inside.2) (by decide)
  have erase : (ARM_Flash_EraseSector_SPIM addr).Wp (Serial true False) Left _ (some ⟨s.chip.memory,false⟩) :=
    eraseSector_SPIM_wp low rfl inside.2
  have erased := SpimPort.wp_spim_drv inTime.1 inTime.2.1 inTime.2.2 erase ⟨free,rfl⟩
  refine wp_mono erased fun rc s' after => ?_
  obtain ⟨_,⟨rfl,rfl⟩,f,same,explains⟩ := after
  cases same
  exact .inl ⟨rfl,explains.free,explains.memory⟩

theorem externalDevice_total (ends : ∃ n, setup.type.lasts n) (variant : Variant) (c : (external variant).Call)
    (s : External variant) : ∃ a s', externalDevice setup variant c s a s' := by
  cases variant with
  | SPI => exact SpiPort.device_total ends setup.depth c s
  | QSPI => exact SpiPort.device_total ends setup.depth c s
  | SPIM => exact SpimPort.device_total ends c s

/-! ### The driver objects -/

variable (setup)

abbrev interface (variant : Variant) : Interface := Nvmc.interface.both (external variant)
abbrev State (variant : Variant) := Content × External variant

/-- The board when no step of the internal controller fails. -/
def device (variant : Variant) : Device (interface variant) (State variant) :=
  (machine setup.bsp).device.both (externalDevice setup variant)

def driver (variant : Variant) : DriverName → ARM_DRIVER_FLASH (interface variant)
  | .Driver_FLASH0 => (Driver_FLASH0 setup.bsp).translate left
  | .Driver_FLASH1 => (Driver_FLASH1 setup.bsp).translate left
  | .Driver_FLASH2 => (externalDriver setup variant).translate right

/-- The bytes of the device of a driver, by their addresses. -/
def memory (variant : Variant) : DriverName → State variant → Nat → UInt8
  | .Driver_FLASH0, s => s.1
  | .Driver_FLASH1, s => s.1
  | .Driver_FLASH2, s => (chip variant s.2).memory

def Ready (variant : Variant) : DriverName → State variant → Prop
  | .Driver_FLASH0, _ => True
  | .Driver_FLASH1, _ => True
  | .Driver_FLASH2, s => ExternalReady variant s.2

/-- No hardware step that the driver takes fails. -/
def Working (variant : Variant) : DriverName → Prop
  | .Driver_FLASH0 => Sound setup.bsp
  | .Driver_FLASH1 => Sound setup.bsp
  | .Driver_FLASH2 => InTime setup variant

/-- What one erase sets. -/
def granule : DriverName → Nat
  | .Driver_FLASH0 => setup.bsp.FLASH_PAGE_SIZE.toNat
  | .Driver_FLASH1 => setup.bsp.FLASH_PAGE_SIZE.toNat
  | .Driver_FLASH2 => 4096

/-- A range inside the device of a driver, below 16 MiB on the external flash. -/
def InDevice (variant : Variant) : DriverName → (a n : Nat) → Prop
  | .Driver_FLASH0, a, n => (FLASH0_DEV setup.bsp).Inside a n
  | .Driver_FLASH1, a, n => (FLASH1_DEV setup.bsp).Inside a n
  | .Driver_FLASH2, a, n => Addressed variant a n

/-- Where an erase through a driver object is accepted. -/
def Accepted (variant : Variant) : DriverName → Nat → Prop
  | .Driver_FLASH0, a => InternalSector (FLASH0_DEV setup.bsp) a
  | .Driver_FLASH1, a => InternalSector (FLASH1_DEV setup.bsp) a
  | .Driver_FLASH2, a => Addressed variant a 1

variable {setup}

theorem erases_external {variant : Variant} (inTime : InTime setup variant) : Erases (externalDevice setup variant)
    (externalDriver setup variant) (fun s => (chip variant s).memory) (ExternalReady variant) 4096 False
    fun a => Addressed variant a 1 := by
  cases variant with
  | SPI => exact erases_in_time (erases_SPI inTime.1) inTime.2
  | QSPI => exact erases_in_time (erases_QSPI inTime.1) inTime.2
  | SPIM => exact erases_SPIM inTime

/-- Every driver object of a working board erases by its granule. -/
theorem board_erases {variant : Variant} {name : DriverName} (working : Working setup variant name) :
    Erases (device setup variant) (driver setup variant name) (memory variant name) (Ready variant name)
      (granule setup name) False (Accepted setup variant name) := by
  cases name with
  | Driver_FLASH0 => exact erases_left (erases_internal working .APROM)
  | Driver_FLASH1 => exact erases_left (erases_internal working .LDROM)
  | Driver_FLASH2 => exact erases_right (erases_external working)

theorem inDevice_part {variant : Variant} {name : DriverName} {a n b m : Nat} (inside : InDevice setup variant name a n)
    (low : a ≤ b) (high : b + m ≤ a + n) : InDevice setup variant name b m := by
  cases name with
  | Driver_FLASH0 => exact ⟨Nat.le_trans inside.1 low,Nat.le_trans high inside.2⟩
  | Driver_FLASH1 => exact ⟨Nat.le_trans inside.1 low,Nat.le_trans high inside.2⟩
  | Driver_FLASH2 => exact ⟨⟨Nat.le_trans inside.1.1 low,Nat.le_trans high inside.1.2⟩,Nat.le_trans high inside.2⟩

theorem inDevice_end {variant : Variant} {name : DriverName} (working : Working setup variant name) {a n : Nat}
    (inside : InDevice setup variant name a n) : a + n ≤ 2 ^ 32 := by
  cases name with
  | Driver_FLASH0 => exact Nat.le_trans inside.2 (dev_fits working .APROM).ending
  | Driver_FLASH1 => exact Nat.le_trans inside.2 (dev_fits working .LDROM).ending
  | Driver_FLASH2 => exact Nat.le_trans inside.2 (by decide)

end NuMicroBoot.Board
