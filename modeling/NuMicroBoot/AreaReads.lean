import NuMicroBoot.DriverReads
import NuMicroBoot.ExternalReads
import NuMicroBoot.FlashLayout

/-!
A read of an area is exact at every offset and on every driver: the word loop of
the internal drivers and the chunk loops of the external ones deliver the whole
words that the flash map asks them for.
-/

namespace NuMicroBoot.AreaReads
open NuMicroBoot.Calls NuMicroBoot.Calls.Prog NuMicroBoot.Cells NuMicroBoot.Words NuMicroBoot.Driver NuMicroBoot.FlashMap
open NuMicroBoot.Nvmc (Bsp Content machine)
open NuMicroBoot.InternalDriver (FLASH0_DEV FLASH1_DEV Driver_FLASH0 Driver_FLASH1)
open NuMicroBoot.ExternalDriver (Variant Driver_FLASH2 FLASH2_DEV)
open NuMicroBoot.AreaPlans NuMicroBoot.DriverReads NuMicroBoot.FlashLayout

/-! ### Both flashes -/

/-- The functions of the controller and of the serial flash. -/
abbrev interface : Interface := Nvmc.interface.both ExternalDriver.interface
/-- The content of the internal flash and of the external one. -/
abbrev State := Content × (Nat → UInt8)

/-- A serial flash whose read function delivers the bytes from the given offset on. -/
def serial : Device ExternalDriver.interface (Nat → UInt8)
  | .NVT_Read addr len, M, a, M' => a.1 = 0 ∧ (∀ k < len.toNat, a.2 k = M (addr.toNat + k)) ∧ M' = M
  | _, _, _, _ => True

/-- The controller beside the serial flash, when no step fails. -/
def device (bsp : Bsp) : Device interface State := (machine bsp).device.both serial

theorem serial_answers (c : ExternalDriver.Call) (M : Nat → UInt8) : ∃ a M', serial c M a M' := by
  cases c with
  | NVT_Read addr len => exact ⟨(0,fun k => M (addr.toNat + k)),M,rfl,fun _ _ => rfl,rfl⟩
  | NVT_Program addr len buf p => exact ⟨(0 : Int32),M,trivial⟩
  | NVT_Erase addr => exact ⟨(0 : Int32),M,trivial⟩
  | NVT_WaitReady => exact ⟨(0 : Int32),M,trivial⟩

theorem device_answers (bsp : Bsp) (c : interface.Call) (s : State) : ∃ a s', device bsp c s a s' := by
  cases c with
  | inl c => exact ⟨(machine bsp c s.1).1,((machine bsp c s.1).2,s.2),rfl,rfl⟩
  | inr c =>
    obtain ⟨a,M,answered⟩ := serial_answers c s.2
    exact ⟨a,(s.1,M),answered,rfl⟩

variable (bsp : Bsp) (variant : Variant)

def dev : DriverName → arm_flash_dev_t
  | .Driver_FLASH0 => FLASH0_DEV bsp
  | .Driver_FLASH1 => FLASH1_DEV bsp
  | .Driver_FLASH2 => FLASH2_DEV variant

def driver : DriverName → ARM_DRIVER_FLASH interface
  | .Driver_FLASH0 => (Driver_FLASH0 bsp).translate left
  | .Driver_FLASH1 => (Driver_FLASH1 bsp).translate left
  | .Driver_FLASH2 => (Driver_FLASH2 variant).translate right

/-- The bytes of the device of a driver, by their addresses. -/
def memory : DriverName → State → Nat → UInt8
  | .Driver_FLASH0, s => s.1
  | .Driver_FLASH1, s => s.1
  | .Driver_FLASH2, s => s.2

/-- An area of a driver: whole words inside the range of its device. -/
structure Placed (name : DriverName) (area : flash_area interface) : Prop where
  sound : Sound bsp
  fa_driver : area.fa_driver = driver bsp variant name
  off_aligned : area.fa_off.toNat % 4 = 0
  size_aligned : area.fa_size.toNat % 4 = 0
  inside : (dev bsp variant name).Inside area.fa_off.toNat area.fa_size.toNat

variable {bsp variant} {name : DriverName} {area : flash_area interface}

theorem dev_ends (sound : Sound bsp) (name : DriverName) :
    (dev bsp variant name).memory_base.toNat + (dev bsp variant name).size ≤ 2 ^ 32 := by
  cases name with
  | Driver_FLASH0 => exact (dev_fits sound .APROM).ending
  | Driver_FLASH1 => exact (dev_fits sound .LDROM).ending
  | Driver_FLASH2 =>
    show (FLASH2_DEV variant).memory_base.toNat + (FLASH2_DEV variant).size ≤ 2 ^ 32
    cases variant <;> decide

theorem placed_words (placed : Placed bsp variant name area) : OnWords area (dev bsp variant name).Inside := by
  obtain ⟨sound,same,off_aligned,size_aligned,low,high⟩ := placed
  refine ⟨?_,off_aligned,size_aligned,Nat.le_trans high (dev_ends sound name),fun a n above below => ?_⟩
  · rw [same]
    cases name with
    | Driver_FLASH0 => rfl
    | Driver_FLASH1 => rfl
    | Driver_FLASH2 => cases variant <;> rfl
  · exact ⟨Nat.le_trans low above,Nat.le_trans below high⟩

/-! ### Every driver delivers -/

theorem run_readData (sound : Sound bsp) (rom : Rom) {addr cnt : UInt32} (some : 0 < cnt.toNat)
    (inside : (rom.dev bsp).Inside addr.toNat (4 * cnt.toNat)) (data : Buffer) (p : Nat) (M : Content) :
    ((rom.driver bsp).ReadData addr data p cnt).run (machine bsp) M =
      Option.some ((cnt.toInt32,copy data p M addr.toNat (4 * cnt.toNat)),M) := by
  have fits := dev_fits sound rom
  have ends := fits.ending
  have high := inside.2
  have read : (rom.driver bsp).ReadData addr data p cnt = InternalDriver.readDataOn (rom.dev bsp) addr data p cnt := by
    cases rom <;> rfl
  rw [read,InternalDriver.readDataOn_eq fits some inside,run_bind,run_issue (Nvmc.machine_succeeds bsp)]
  simp only [Option.bind_some,if_true,run_ret,InternalDriver.after_wordReads,InternalDriver.events_wordReads_length]
  congr 3
  refine copy_congr fun k part => ?_
  rw [InternalDriver.heard_wordReads M (by omega) _ (by omega),Nat.zero_add]

theorem internal_delivers (sound : Sound bsp) (rom : Rom) (s : State) :
    Delivers (device bsp) (fun _ => True) ((rom.driver bsp).translate left) s.1 (rom.dev bsp).Inside s := by
  intro addr data p cnt _ some inside
  have ends := (dev_fits sound rom).ending
  have proper := (dev_fits sound rom).proper
  have high := inside.2
  have small : cnt.toNat < 2 ^ 31 := by
    have low := inside.1
    omega
  refine wp_mono (wp_left (run_wp (run_readData sound rom some inside data p s.1))) ?_
  rintro r s' ⟨same,kept⟩
  obtain ⟨rfl,stays⟩ := Prod.mk.inj same
  exact ⟨toInt32_nonneg small,rfl,Prod.ext stays.symm kept⟩

theorem external_delivers (s : State) :
    Delivers (device bsp) (fun _ => True) ((Driver_FLASH2 variant).translate right) s.2 (FLASH2_DEV variant).Inside s := by
  intro addr data p cnt _ some inside
  have serves : ExternalReads.Serves serial (fun _ => True) s.2 s.2 (FLASH2_DEV variant).size :=
    ⟨trivial,fun _ _ _ _ _ answered => answered⟩
  refine wp_mono (wp_right (ExternalReads.readData_wp serves some inside data p)) ?_
  rintro r s' ⟨⟨rfl,kept⟩,rest⟩
  have fine : ¬ ARM_DRIVER_OK < 0 := by decide
  exact ⟨fine,rfl,Prod.ext rest kept⟩

theorem driver_delivers (sound : Sound bsp) (name : DriverName) (s : State) :
    Delivers (device bsp) (fun _ => True) (driver bsp variant name) (memory name s) (dev bsp variant name).Inside s := by
  cases name with
  | Driver_FLASH0 => exact internal_delivers sound .APROM s
  | Driver_FLASH1 => exact internal_delivers sound .LDROM s
  | Driver_FLASH2 => exact external_delivers s

/-! ### Reading an area -/

/-- The read ends, and always with 0 and the bytes of the device in the first part of the buffer, the rest of the
    buffer and both flashes as before. -/
structure Exact (bsp : Bsp) (p : Prog interface (Int32 × Buffer)) (M : Nat → UInt8) (a n : Nat) (dst : Buffer) (s : State) :
    Prop where
  ends : ∃ t r s', Exec (device bsp) p s t (.ret r) s'
  result : p.Wp (device bsp) (fun _ => True) (fun r s' => r.1 = 0 ∧ (∀ k < n, r.2 k = M (a + k)) ∧
    (∀ k, n ≤ k → r.2 k = dst k) ∧ s' = s) s

/-- A read that does not fit is refused before the driver is called. A read that fits asks the driver for whole words
    inside the device only, whatever the driver answers, and is exact when nothing fails. -/
theorem read_exact [Bootutil] (placed : Placed bsp variant name area) (off len : UInt32) (dst : Buffer) (s : State) :
    (area.fa_size.toNat < off.toNat + len.toNat → flash_area_read area off dst len = .ret (-1,dst)) ∧
    (off.toNat + len.toNat ≤ area.fa_size.toNat →
      flash_area_read area off dst len = (flash_area_read (onCalls area) off dst len).translate (carryOut area.fa_driver) ∧
      (flash_area_read (onCalls area) off dst len).All (WordRead (dev bsp variant name).Inside) (fun _ => True) ∧
      Exact bsp (flash_area_read area off dst len) (memory name s) (area.fa_off.toNat + off.toNat) len.toNat dst s) := by
  have words := placed_words placed
  constructor
  · intro outside
    exact read_rejects (by omega) dst
  · intro fits
    refine ⟨(read_calls area off dst len).symm,read_all words fits dst,?_⟩
    have delivers := @driver_delivers bsp variant placed.sound name s
    rw [← placed.fa_driver] at delivers
    have read := read_wp delivers trivial words fits dst
    refine ⟨wp_ends (device_answers bsp) read,wp_mono read ?_⟩
    rintro r s' ⟨rfl,rfl⟩
    refine ⟨rfl,fun k inside => ?_,fun k past => ?_,rfl⟩
    · simp only [copy]
      rw [if_pos (by omega),Nat.sub_zero]
    · simp only [copy]
      rw [if_neg (by omega)]

/-- An area at the start of the second sector of an SPI flash. -/
def external : flash_area interface where
  fa_id := 2
  fa_device_id := 101
  fa_driver := driver board .SPI .Driver_FLASH2
  fa_off := 0x1000
  fa_size := 0x1000

/-- Six bytes from the fourth one on: the end of the first word, a whole word, and the start of the next. -/
theorem read_exact_six : Exact board (@flash_area_read _ bootutil external 3 stackArray 6) (fun a => UInt8.ofNat a) 0x1003 6
    stackArray (fun _ => 0xFF,fun a => UInt8.ofNat a) :=
  ((@read_exact board .SPI .Driver_FLASH2 external bootutil
    ⟨board_sound,rfl,by decide,by decide,⟨by decide,by decide⟩⟩ 3 6 stackArray (fun _ => 0xFF,fun a => UInt8.ofNat a)).2
    (by decide)).2.2

end NuMicroBoot.AreaReads
