import Mathlib.Data.Nat.ModEq
import NuMicroBoot.Board

/-!
The sectors that `flash_area_get_sectors` lists and what erasing them does, on
every driver object of a board. The layout, the driver and the chip each have a
sector size of their own; the erase of a listed sector sets just its bytes.
-/

namespace NuMicroBoot.Sectors
open NuMicroBoot.Calls NuMicroBoot.Calls.Prog NuMicroBoot.Cells NuMicroBoot.Words NuMicroBoot.Driver NuMicroBoot.Nvmc
open NuMicroBoot.FlashMap NuMicroBoot.AreaPlans NuMicroBoot.ExternalDriver NuMicroBoot.FlashLayout NuMicroBoot.Sweeps
open NuMicroBoot.SpimPort NuMicroBoot.SerialChip NuMicroBoot.Board

/-! ### Areas of the layout -/

/-- An area on a driver object, made of layout sectors that are made of what one erase sets. -/
structure Laid (setup : Setup) (variant : Variant) (name : DriverName) (FLASH_AREA_IMAGE_SECTOR_SIZE : UInt32)
    (area : flash_area (Board.interface variant)) : Prop where
  fa_driver : area.fa_driver = driver setup variant name
  off_whole : area.fa_off.toNat % FLASH_AREA_IMAGE_SECTOR_SIZE.toNat = 0
  size_whole : area.fa_size.toNat % FLASH_AREA_IMAGE_SECTOR_SIZE.toNat = 0
  granules : FLASH_AREA_IMAGE_SECTOR_SIZE.toNat % granule setup name = 0
  inside : InDevice setup variant name area.fa_off.toNat area.fa_size.toNat

section
variable {setup : Setup} {variant : Variant} {name : DriverName} {S : UInt32} {area : flash_area (Board.interface variant)}

theorem granule_sectors (name : DriverName) : granule setup name % (driver setup variant name).GetInfo.sector_size.toNat = 0 := by
  cases name with
  | Driver_FLASH0 => exact Nat.mod_self _
  | Driver_FLASH1 => exact Nat.mod_self _
  | Driver_FLASH2 =>
    cases variant with
    | SPI => exact (by decide : 4096 % (4096 : UInt32).toNat = 0)
    | QSPI => exact (by decide : 4096 % (4096 : UInt32).toNat = 0)
    | SPIM => exact (by decide : 4096 % (256 : UInt32).toNat = 0)

theorem mod_trans {a b c : Nat} (first : a % b = 0) (second : b % c = 0) : a % c = 0 :=
  Nat.mod_eq_zero_of_dvd (Nat.dvd_trans (Nat.dvd_of_mod_eq_zero second) (Nat.dvd_of_mod_eq_zero first))

theorem accepted_of_inside {a : Nat} (inside : InDevice setup variant name a 1)
    (aligned : a % (driver setup variant name).GetInfo.sector_size.toNat = 0) : Accepted setup variant name a := by
  cases name with
  | Driver_FLASH0 => exact ⟨inside,aligned⟩
  | Driver_FLASH1 => exact ⟨inside,aligned⟩
  | Driver_FLASH2 => exact inside

/-- The loop goes over whole driver sectors of the area. -/
theorem laid_steps (laid : Laid setup variant name S area) {off len : Nat} (fits : off + len ≤ area.fa_size.toNat)
    (off_whole : off % S.toNat = 0) (len_whole : len % S.toNat = 0) : Steps area (Accepted setup variant name) off len := by
  intro d whole more
  rw [laid.fa_driver] at whole ⊢
  have sectors : S.toNat % (driver setup variant name).GetInfo.sector_size.toNat = 0 :=
    mod_trans laid.granules (granule_sectors name)
  have next : d + (driver setup variant name).GetInfo.sector_size.toNat ≤ len :=
    Nat.ModEq.add_le_of_lt (whole.trans (mod_trans len_whole sectors).symm) more
  have bound := area.fa_size.toNat_lt
  refine ⟨by omega,accepted_of_inside (inDevice_part laid.inside (by omega) (by omega)) ?_⟩
  rw [Nat.add_mod,Nat.add_mod area.fa_off.toNat,mod_trans laid.off_whole sectors,mod_trans off_whole sectors,whole]
  rfl

theorem sector_erase_wp [Bootutil] (working : Working setup variant name) (laid : Laid setup variant name S area)
    {off len : UInt32} (fits : off.toNat + len.toNat ≤ area.fa_size.toNat) (off_whole : off.toNat % S.toNat = 0)
    (len_whole : len.toNat % S.toNat = 0) {s : State variant} (ready : Ready variant name s) :
    (flash_area_erase area off len).Wp (device setup variant) (fun _ => True) (fun rc s' => rc = 0 ∧ Ready variant name s' ∧
      memory variant name s' = fill 0xFF (memory variant name s) (area.fa_off.toNat + off.toNat) len.toNat) s := by
  have erases : Erases (device setup variant) _ _ _ _ _ _ := board_erases working
  rw [← laid.fa_driver] at erases
  have start : (area.fa_off.toNat + off.toNat) % granule setup name = 0 := by
    rw [Nat.add_mod,mod_trans laid.off_whole laid.granules,mod_trans off_whole laid.granules,Nat.zero_mod]
  refine wp_mono (area_erase_wp erases fits (inDevice_end working laid.inside) (laid_steps laid fits off_whole len_whole) ready)
    fun rc s' after => ?_
  rcases after with ⟨rc,ready',memory'⟩ | ⟨failed,_⟩
  · rw [afterErase_whole erases.positive erases.small start (mod_trans len_whole laid.granules)] at memory'
    exact ⟨rc,ready',memory'⟩
  · exact failed.elim

/-! ### Listed sectors -/

/-- A sector that `flash_area_get_sectors` stores in its result. -/
def Listed (S : UInt32) (map : List (flash_area (Board.interface variant))) (idx : Int32) (cnt : UInt32) (ret : Sectors)
    (sector : flash_sector) : Prop :=
  ∃ k < (flash_area_get_sectors S map idx cnt ret).2.1.toNat, (flash_area_get_sectors S map idx cnt ret).2.2 k = sector

/-- The byte at `p` of the device belongs to the sector of the area. -/
def Holds (area : flash_area (Board.interface variant)) (sector : flash_sector) (p : Nat) : Prop :=
  area.fa_off.toNat + sector.fs_off.toNat ≤ p ∧ p < area.fa_off.toNat + sector.fs_off.toNat + sector.fs_size.toNat

/-- Erases sectors one after the other and collects what is returned. -/
def eraseAll [Bootutil] (area : flash_area (Board.interface variant)) :
    List flash_sector → Prog (Board.interface variant) (List Int32)
  | [] => .ret []
  | sector :: sectors => do
    let rc ← flash_area_erase area sector.fs_off sector.fs_size
    let rcs ← eraseAll area sectors
    .ret (rc :: rcs)

variable {map : List (flash_area (Board.interface variant))} {idx : Int32} {cnt : UInt32} {ret : Sectors}

/-- A listed sector is one of the sectors the area is made of. -/
theorem listed_place (opened : flash_area_open map (narrowed idx) = some area) {sector : flash_sector}
    (listed : Listed S map idx cnt ret sector) : sector.fs_off.toNat + sector.fs_size.toNat ≤ area.fa_size.toNat ∧
      sector.fs_off.toNat % S.toNat = 0 ∧ sector.fs_size = S := by
  obtain ⟨k,stored,rfl⟩ := listed
  have room : 1 ≤ cnt.toNat := by
    by_contra none
    have few : cnt < 1 := by
      rw [UInt32.lt_iff_toNat_lt]
      simp; omega
    simp only [flash_area_get_sectors,opened,few,if_true] at stored
    omega
  obtain ⟨inside,sectors,_⟩ := get_sectors_spec (S := S) opened room ret
  have bound := area.fa_size.toNat_lt
  have count := (flash_area_get_sectors S map idx cnt ret).2.1.toNat_lt
  have last : S.toNat * (k + 1) ≤ S.toNat * (flash_area_get_sectors S map idx cnt ret).2.1.toNat :=
    Nat.mul_le_mul_left _ stored
  rw [Nat.mul_succ] at last
  have place : (S * UInt32.ofNat k).toNat = S.toNat * k := by
    have index : (UInt32.ofNat k).toNat = k := UInt32.toNat_ofNat_of_lt' (by simp [UInt32.size]; omega)
    rw [toNat_mul_of_lt (by rw [index]; omega),index]
  rw [sectors k stored]
  exact ⟨by simp only [place]; omega,by simp only [place]; exact Nat.mul_mod_right _ _,rfl⟩

/-- Erasing listed sectors, in whatever order and how often, sets just their bytes. -/
theorem eraseAll_wp [Bootutil] (working : Working setup variant name) (laid : Laid setup variant name S area)
    (opened : flash_area_open map (narrowed idx) = some area) (sectors : List flash_sector) :
    ∀ {s : State variant}, Ready variant name s → (∀ sector ∈ sectors, Listed S map idx cnt ret sector) →
    (eraseAll area sectors).Wp (device setup variant) (fun _ => True) (fun rcs s' => rcs = List.replicate sectors.length 0 ∧
      Ready variant name s' ∧ ∀ p, ((∃ sector ∈ sectors, Holds area sector p) → memory variant name s' p = 0xFF) ∧
        ((¬ ∃ sector ∈ sectors, Holds area sector p) → memory variant name s' p = memory variant name s p)) s := by
  induction sectors with
  | nil =>
    intro s ready _
    exact ⟨trivial,rfl,ready,fun p => ⟨fun some => by simp at some,fun _ => rfl⟩⟩
  | cons sector sectors ih =>
    intro s ready listed
    obtain ⟨fits,off_whole,size⟩ := listed_place opened (listed sector (by simp))
    have len_whole : sector.fs_size.toNat % S.toNat = 0 := by rw [size]; exact Nat.mod_self _
    refine wp_bind (sector_erase_wp working laid fits off_whole len_whole ready) fun rc s₁ _ erased => ?_
    obtain ⟨rfl,ready₁,first⟩ := erased
    refine wp_bind (ih ready₁ fun sector member => listed sector (by simp [member])) fun rcs s' _ rest => ?_
    obtain ⟨rfl,ready',cells⟩ := rest
    refine ⟨trivial,rfl,ready',fun p => ?_⟩
    obtain ⟨covered,spared⟩ := cells p
    by_cases later : ∃ sector ∈ sectors, Holds area sector p
    · obtain ⟨other,member,holds⟩ := later
      exact ⟨fun _ => covered ⟨other,member,holds⟩,fun none => absurd ⟨other,by simp [member],holds⟩ none⟩
    · rw [spared later,first]
      refine ⟨fun some => ?_,fun none => if_neg fun holds => none ⟨sector,by simp,holds⟩⟩
      obtain ⟨other,member,holds⟩ := some
      rcases List.mem_cons.mp member with rfl | member
      · exact if_pos holds
      · exact absurd ⟨other,member,holds⟩ later

/-- On every driver object, the erase of a listed sector succeeds, sets the bytes of the sector and changes no other byte
    of the device; erasing any listed sectors in any order changes just the bytes of all of them. -/
theorem listed_sectors_erased [Bootutil] (setup : Setup) (variant : Variant) (name : DriverName) (S : UInt32)
    (area : flash_area (Board.interface variant)) (map : List (flash_area (Board.interface variant))) (idx : Int32)
    (cnt : UInt32) (ret : Sectors) (s : State variant) (working : Working setup variant name)
    (laid : Laid setup variant name S area) (opened : flash_area_open map (narrowed idx) = some area)
    (ready : Ready variant name s) :
    (∀ sector, Listed S map idx cnt ret sector →
      (flash_area_erase area sector.fs_off sector.fs_size).Wp (device setup variant) (fun _ => True) (fun rc s' => rc = 0 ∧
        ∀ p, (Holds area sector p → memory variant name s' p = 0xFF) ∧
          (¬ Holds area sector p → memory variant name s' p = memory variant name s p)) s) ∧
    ∀ sectors : List flash_sector, (∀ sector ∈ sectors, Listed S map idx cnt ret sector) →
      (eraseAll area sectors).Wp (device setup variant) (fun _ => True) (fun rcs s' => (∀ rc ∈ rcs, rc = 0) ∧
        ∀ p, ((∃ sector ∈ sectors, Holds area sector p) → memory variant name s' p = 0xFF) ∧
          ((¬ ∃ sector ∈ sectors, Holds area sector p) → memory variant name s' p = memory variant name s p)) s := by
  refine ⟨fun sector listed => ?_,fun sectors listed => ?_⟩
  · obtain ⟨fits,off_whole,size⟩ := listed_place opened listed
    have len_whole : sector.fs_size.toNat % S.toNat = 0 := by rw [size]; exact Nat.mod_self _
    refine wp_mono (sector_erase_wp working laid fits off_whole len_whole ready) fun rc s' erased => ?_
    obtain ⟨rfl,_,cells⟩ := erased
    refine ⟨rfl,fun p => ?_⟩
    rw [cells]
    exact ⟨fun holds => if_pos holds,fun spared => if_neg spared⟩
  · refine wp_mono (eraseAll_wp working laid opened sectors ready listed) fun rcs s' erased => ?_
    obtain ⟨rfl,_,cells⟩ := erased
    exact ⟨fun rc member => List.eq_of_mem_replicate member,cells⟩

end

/-- An M460 whose secondary slot is in a chip behind the SPIM controller. -/
def m460 : Setup where
  bsp := { board with FLASH_PAGE_SIZE := 0x1000 }
  SystemCoreClock := 200000000
  type := ⟨true,fun n => n < 1000⟩
  depth := 8
  rounds := 1000

def m460Map : List (flash_area (Board.interface .SPIM)) := flash_map Platform.m460_SPI.layout (driver m460 .SPIM) true
def m460Slot : flash_area (Board.interface .SPIM) := secondaryArea Platform.m460_SPI.layout (driver m460 .SPIM)
/-- Both flashes hold zeros, and the chip is idle. -/
def m460Start : State .SPIM := (fun _ => 0,(⟨⟨fun _ => 0,false,0,false,[],[]⟩,none,0,0⟩ : Spim))
/-- The fourth and the first sector of the slot. -/
def m460Sectors : List flash_sector := [⟨0x3000,0x1000⟩,⟨0,0x1000⟩]

theorem listed_sectors_erased_m460 :
    (@eraseAll _ bootutil m460Slot m460Sectors).Wp (device m460 .SPIM) (fun _ => True) (fun rcs s' => (∀ rc ∈ rcs, rc = 0) ∧
      ∀ p, ((∃ sector ∈ m460Sectors, Holds m460Slot sector p) → memory .SPIM .Driver_FLASH2 s' p = 0xFF) ∧
        ((¬ ∃ sector ∈ m460Sectors, Holds m460Slot sector p) → memory .SPIM .Driver_FLASH2 s' p = 0)) m460Start := by
  have listed : ∀ sector ∈ m460Sectors, Listed 0x1000 m460Map 2 8 (fun _ => ⟨0,0⟩) sector := by
    intro sector member
    rcases List.mem_cons.mp member with rfl | member
    · exact ⟨3,by decide,by decide⟩
    · obtain rfl := List.mem_singleton.mp member
      exact ⟨0,by decide,by decide⟩
  exact (@listed_sectors_erased bootutil m460 .SPIM .Driver_FLASH2 0x1000 m460Slot m460Map 2 8 (fun _ => ⟨0,0⟩) m460Start
    ⟨rfl,by decide,fun _ short => short⟩ ⟨rfl,by decide,by decide,by decide,⟨by decide,by decide⟩,by decide⟩ rfl
    ⟨rfl,rfl,rfl⟩).2 m460Sectors listed

end NuMicroBoot.Sectors
