import NuMicroBoot.BootLoader

/-!
The flash map of every platform with both slots in the internal flash, as its
`flash_layout.h` has it, and the region in which the boot loader itself is.
-/

namespace NuMicroBoot.Platforms
open NuMicroBoot.Calls NuMicroBoot.Calls.Prog NuMicroBoot.Cells NuMicroBoot.Words NuMicroBoot.Driver NuMicroBoot.Nvmc NuMicroBoot.InternalDriver
open NuMicroBoot.FlashMap NuMicroBoot.FlashLayout NuMicroBoot.AreaPlans NuMicroBoot.Requests NuMicroBoot.Simulation
open NuMicroBoot.FmcDrv NuMicroBoot.BackEnds NuMicroBoot.FmcParts NuMicroBoot.FailingParts NuMicroBoot.Clients NuMicroBoot.BootLoader

/-! ### Maps -/

def FLASH_AREA_BL2_OFFSET : Platform → UInt32
  | .m55m1 => 0x100000
  | _ => 0
def FLASH_AREA_BL2_SIZE : UInt32 := 0x15000

/-- The byte at `p` belongs to the boot loader. -/
def OfBootLoader (platform : Platform) (p : Nat) : Prop :=
  (FLASH_AREA_BL2_OFFSET platform).toNat ≤ p ∧ p < (FLASH_AREA_BL2_OFFSET platform).toNat + FLASH_AREA_BL2_SIZE.toNat

/-- The part is one that the `flash_layout.h` was written for: its pages are the sectors, and its devices hold the areas. -/
structure Suits (platform : Platform) (bsp : Bsp) : Prop where
  sound : Sound bsp
  page : bsp.FLASH_PAGE_SIZE = platform.layout.FLASH_AREA_IMAGE_SECTOR_SIZE
  primary : (Rom.APROM.dev bsp).Inside platform.layout.FLASH_AREA_0_OFFSET.toNat FLASH_AREA_0_SIZE.toNat
  secondary : (Rom.APROM.dev bsp).Inside platform.layout.FLASH_AREA_2_OFFSET.toNat FLASH_AREA_2_SIZE.toNat
  scratch : (Rom.LDROM.dev bsp).Inside platform.layout.FLASH_AREA_SCRATCH_OFFSET.toNat
    platform.layout.FLASH_AREA_IMAGE_SECTOR_SIZE.toNat
  apart : bsp.APROM_BASE.toNat + bsp.APROM_SIZE.toNat ≤ bsp.LDROM_BASE.toNat ∨
    bsp.LDROM_BASE.toNat + bsp.LDROM_SIZE.toNat ≤ bsp.APROM_BASE.toNat

section
variable {platform : Platform} {bsp : Bsp} (suits : Suits platform bsp)
include suits

theorem area_aligned : platform.layout.FLASH_AREA_0_OFFSET.toNat % bsp.FLASH_PAGE_SIZE.toNat = 0 ∧
    platform.layout.FLASH_AREA_2_OFFSET.toNat % bsp.FLASH_PAGE_SIZE.toNat = 0 ∧
    platform.layout.FLASH_AREA_SCRATCH_OFFSET.toNat % bsp.FLASH_PAGE_SIZE.toNat = 0 ∧
    FLASH_AREA_0_SIZE.toNat % bsp.FLASH_PAGE_SIZE.toNat = 0 ∧ FLASH_AREA_2_SIZE.toNat % bsp.FLASH_PAGE_SIZE.toNat = 0 := by
  rw [suits.page]
  cases platform <;> decide

/-- The map of a platform with both slots in the APROM, built with `MCUBOOT_SWAP_USING_SCRATCH`; in the other builds there are
    no requests to the last area. -/
def platformMap (embedded : platform ≠ .m460_SPI) : InternalMap bsp where
  flash_map_entry_num := 3
  flash_map
    | 0 => ⟨.APROM,FLASH_AREA_0_ID,FLASH_DEVICE_ID,platform.layout.FLASH_AREA_0_OFFSET,FLASH_AREA_0_SIZE,suits.sound,
        (area_aligned suits).1,(area_aligned suits).2.2.2.1,suits.primary⟩
    | 1 => ⟨.APROM,FLASH_AREA_2_ID,platform.layout.FLASH_DEVICE_ID_2,platform.layout.FLASH_AREA_2_OFFSET,FLASH_AREA_2_SIZE,
        suits.sound,(area_aligned suits).2.1,(area_aligned suits).2.2.2.2,suits.secondary⟩
    | 2 => ⟨.LDROM,FLASH_AREA_SCRATCH_ID,FLASH_DEVICE_ID,platform.layout.FLASH_AREA_SCRATCH_OFFSET,
        platform.layout.FLASH_AREA_IMAGE_SECTOR_SIZE,suits.sound,(area_aligned suits).2.2.1,
        by rw [suits.page,Nat.mod_self],suits.scratch⟩
  disjoint := by
    have apart : platform.layout.FLASH_AREA_0_OFFSET.toNat + FLASH_AREA_0_SIZE.toNat ≤ platform.layout.FLASH_AREA_2_OFFSET.toNat := by
      cases platform <;> first | decide | exact absurd rfl embedded
    intro i j other same p first second
    match i,j with
    | 0,0 => exact other rfl
    | 0,1 =>
      obtain ⟨_,below⟩ := first
      obtain ⟨above,_⟩ := second
      dsimp only at below above
      omega
    | 0,2 => cases same
    | 1,0 =>
      obtain ⟨above,_⟩ := first
      obtain ⟨_,below⟩ := second
      dsimp only at below above
      omega
    | 1,1 => exact other rfl
    | 1,2 => cases same
    | 2,0 => cases same
    | 2,1 => cases same
    | 2,2 => exact other rfl
  apart := suits.apart

end

/-- The drivers of the internal flash. -/
def internalDriver (bsp : Bsp) : DriverName → ARM_DRIVER_FLASH Nvmc.interface
  | .Driver_FLASH0 => Driver_FLASH0 bsp
  | _ => Driver_FLASH1 bsp

/-- It is the map of `default_flash_map.c`. -/
theorem platformMap_areas {platform : Platform} {bsp : Bsp} (suits : Suits platform bsp) (embedded : platform ≠ .m460_SPI) :
    List.ofFn (platformMap suits embedded).areas = flash_map platform.layout (internalDriver bsp) true := by
  cases platform <;> first | rfl | exact absurd rfl embedded

/-! ### The boot loader itself -/

theorem apart_from_areas {platform : Platform} {bsp : Bsp} (suits : Suits platform bsp) (embedded : platform ≠ .m460_SPI)
    {p : Nat} (own : OfBootLoader platform p) (i : Fin 3) : ¬ ((platformMap suits embedded).flash_map i).Holds p := by
  have first : ∀ offset : UInt32, (offset = platform.layout.FLASH_AREA_0_OFFSET ∨
      offset = platform.layout.FLASH_AREA_2_OFFSET ∨ offset = platform.layout.FLASH_AREA_SCRATCH_OFFSET) →
      (FLASH_AREA_BL2_OFFSET platform).toNat + FLASH_AREA_BL2_SIZE.toNat ≤ offset.toNat := by
    rintro offset (rfl | rfl | rfl) <;> cases platform <;> first | decide | exact absurd rfl embedded
  rintro ⟨above,_⟩
  obtain ⟨_,below⟩ := own
  match i with
  | 0 => exact absurd (first _ (.inl rfl)) (Nat.not_le.mpr (Nat.lt_of_le_of_lt above below))
  | 1 => exact absurd (first _ (.inr (.inl rfl))) (Nat.not_le.mpr (Nat.lt_of_le_of_lt above below))
  | 2 => exact absurd (first _ (.inr (.inr rfl))) (Nat.not_le.mpr (Nat.lt_of_le_of_lt above below))

/-- On every platform with its slots in the internal flash, at every point from reset, whatever MCUboot requests and
    whichever commands fail or outlast their time-outs: the boot loader has not returned, its own region is as it was, and it
    runs forever by itself only where the platform has an `abort` and MCUboot has succeeded with the image of another device. -/
theorem boot_loader_kept [Bootutil] {platform : Platform} {bsp : Bsp} (suits : Suits platform bsp)
    (embedded : platform ≠ .m460_SPI) (config : Config) (b : BackEnd bsp)
    {client : Prog (flash_map_backend (platformMap suits embedded)) ((Int32 × boot_rsp) × Content)}
    (ends : client.All (fun _ => True) fun _ => True) {garbage : UInt32} {core : Core} {st : b.State} (ready : b.ready st)
    {s' : Core × b.State} {t : List (Event (boot.both b.registers))} {q : Prog (boot.both b.registers) Int32}
    (exec : Exec (BootLoader.hardware config (internalPart b)) (main config platform.layout (own_abort platform) bsp
      (left (I := boot) .Driver_FLASH2_Initialize) garbage
      (boot_go ((onDrivers (platformMap suits embedded) client).translate b.drv))) (core,st) t q s') :
    (q = .spin → Aborted config (internalPart b) (own_abort platform) (fun a st' => b.ready st' ∧
      Explained (platformMap suits embedded) client (b.content st,b.failures st) a (b.content st',b.failures st')) s') ∧
    (∀ a, q ≠ .ret a) ∧ ∀ p, OfBootLoader platform p → b.content s'.2 p = b.content st p := by
  have judged := boots_internal config b ends ready platform.layout (own_abort platform) garbage core
  obtain ⟨going,untouched,_,returned⟩ := asks_points judged exec
  refine ⟨going,fun a same => returned a same,fun p own => untouched p ?_⟩
  rintro ⟨r,_,_,holds⟩
  exact apart_from_areas suits embedded own r.1 holds

theorem board_suits : Suits .m2351 board :=
  ⟨board_sound,rfl,⟨by decide,by decide⟩,⟨by decide,by decide⟩,⟨by decide,by decide⟩,.inl (by decide)⟩

/-- An MCUboot that takes an image of another device after one erase. -/
def takeOther : Prog (flash_map_backend (platformMap board_suits nofun)) ((Int32 × boot_rsp) × Content) :=
  .call ((0 : Fin 3),.flash_area_erase 0 0x800) fun _ => .ret ((0,⟨⟨0,0,0⟩,0,0⟩),fun _ => 1)

/-- The erase fails and leaves its sector full of sevens, and the assertion ends in the loop of the platform. -/
theorem boot_loader_kept_erase : ∃ (s' : Core × Failing) (q : Prog (boot.both registers) Int32), s'.2.failures = 1 ∧
    s'.2.content = Isolation.sevens ∧ q = .spin ∧
    (q = .spin → Aborted quiet (internalPart backEnd) true (fun a (st' : Failing) => st'.Ready ∧
      Explained (platformMap board_suits nofun) takeOther (ready.content,ready.failures) a (st'.content,st'.failures)) s') ∧
    (∀ a, q ≠ .ret a) ∧ ∀ p, OfBootLoader .m2351 p → s'.2.content p = ready.content p := by
  have looping : Reaches (BootLoader.hardware quiet (internalPart backEnd)) (main quiet (Platform.layout .m2351) (own_abort .m2351) board
      (left (I := boot) .Driver_FLASH2_Initialize) 0
      (boot_go ((@onDrivers _ (platformMap board_suits nofun) bootutil _ takeOther).translate backEnd.drv))) (reset,ready) fun q s' =>
        q = .spin ∧ s'.2 = (⟨⟨0x22,0x20000,0,0,0,0,Isolation.sevens⟩,false,1,false⟩ : Failing) := by
    refine reaches_core (a := ()) trivial (reaches_core (a := ()) trivial (reaches_core (a := ()) trivial ?_))
    refine reaches_core (a := ()) trivial (reaches_core (a := ()) trivial (reaches_fmc (a := ()) (@command_stored board _) ?_))
    refine reaches_fmc (a := ()) (@address_stored board _ _) (reaches_fmc (a := ()) (erase_fails (fill_outside 7 _ _ _)) ?_)
    refine reaches_fmc (flag_seen rfl rfl) (reaches_fmc (flag_seen rfl rfl) (reaches_fmc (flag_seen rfl rfl) ?_))
    exact reaches_fmc (a := ()) (@flag_cleared board _) (reaches_core (a := ()) trivial (reaches_here ⟨rfl,rfl⟩))
  obtain ⟨t,q,⟨core,st⟩,exec,loops,left⟩ := looping
  dsimp only at left
  subst left
  exact ⟨⟨core,_⟩,q,rfl,rfl,loops,@boot_loader_kept bootutil .m2351 board board_suits nofun quiet backEnd takeOther
    ⟨trivial,fun _ => trivial⟩ 0 reset ready (fun _ => rfl) _ t q exec⟩

end NuMicroBoot.Platforms
