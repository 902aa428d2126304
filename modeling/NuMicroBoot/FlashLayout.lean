import NuMicroBoot.FlashMap

/-!
The flash map of `default_flash_map.c` for one image, from the `flash_layout.h`
of each platform, and how MCUboot finds areas and sectors in it: by slot
(`flash_map_extended.c`), by id (`flash_map.c`), and the list of the sectors of
an area (`flash_map_legacy.c`).
-/

namespace NuMicroBoot.FlashLayout
open NuMicroBoot.Calls NuMicroBoot.Words NuMicroBoot.Driver NuMicroBoot.FlashMap

/-! ### Platforms -/

/-- The driver objects of `Driver_Flash.c`. -/
inductive DriverName
  | Driver_FLASH0
  | Driver_FLASH1
  | Driver_FLASH2
  deriving DecidableEq

/-- What differs between the `flash_layout.h` of the platforms. -/
structure Layout where
  FLASH_AREA_IMAGE_SECTOR_SIZE : UInt32
  FLASH_AREA_0_OFFSET : UInt32
  FLASH_AREA_2_OFFSET : UInt32
  FLASH_AREA_SCRATCH_OFFSET : UInt32
  FLASH_DEV_NAME_2 : DriverName
  FLASH_DEVICE_ID_2 : UInt8

def FLASH_DEVICE_ID : UInt8 := 100
def FLASH_AREA_0_ID : UInt8 := 1
def FLASH_AREA_2_ID : UInt8 := FLASH_AREA_0_ID + 1
def FLASH_AREA_SCRATCH_ID : UInt8 := 255
def FLASH_AREA_0_SIZE : UInt32 := 0x8000
def FLASH_AREA_2_SIZE : UInt32 := 0x8000
def FLASH_DEV_NAME : DriverName := .Driver_FLASH0
def FLASH_DEV_NAME_LDROM : DriverName := .Driver_FLASH1

/-- The platforms; the M460 has two builds, the second with `SECONDARY_SLOT_IN_SPI_FLASH`. -/
inductive Platform
  | m261
  | m480
  | m2351
  | m2354
  | m3331
  | m2l31
  | m460
  | m460_SPI
  | m55m1
  deriving DecidableEq

/-- A platform with both slots in the APROM. -/
def embedded (sector area_0 area_2 scratch : UInt32) : Layout where
  FLASH_AREA_IMAGE_SECTOR_SIZE := sector
  FLASH_AREA_0_OFFSET := area_0
  FLASH_AREA_2_OFFSET := area_2
  FLASH_AREA_SCRATCH_OFFSET := scratch
  FLASH_DEV_NAME_2 := FLASH_DEV_NAME
  FLASH_DEVICE_ID_2 := FLASH_DEVICE_ID

def Platform.layout : Platform → Layout
  | .m261 => embedded 0x800 0x20000 0x60000 (0x00100000 + 0x800)
  | .m480 => embedded 0x1000 0x20000 0x60000 0x100000
  | .m2351 => embedded 0x800 0x20000 0x60000 0x00100000
  | .m2354 => embedded 0x800 0x20000 0xA0000 (0x100000 + 0x800)
  | .m3331 => embedded 0x400 0x20000 0x60000 (0x0F100000 + 0x400)
  | .m2l31 => embedded 0x1000 0x20000 0x60000 0x0F100000
  | .m460 => embedded 0x1000 0x20000 0xA0000 (0x0F100000 + 0x1000)
  | .m460_SPI =>
    { embedded 0x1000 0x20000 0 (0x0F100000 + 0x1000) with
      FLASH_DEV_NAME_2 := .Driver_FLASH2, FLASH_DEVICE_ID_2 := 101 }
  | .m55m1 => embedded 0x2000 0x120000 0x1A0000 0x0F100000

/-! ### The map -/

section
variable {I : Interface} (layout : Layout) (driver : DriverName → ARM_DRIVER_FLASH I)

def primaryArea : flash_area I where
  fa_id := FLASH_AREA_0_ID
  fa_device_id := FLASH_DEVICE_ID
  fa_driver := driver FLASH_DEV_NAME
  fa_off := layout.FLASH_AREA_0_OFFSET
  fa_size := FLASH_AREA_0_SIZE
def secondaryArea : flash_area I where
  fa_id := FLASH_AREA_2_ID
  fa_device_id := layout.FLASH_DEVICE_ID_2
  fa_driver := driver layout.FLASH_DEV_NAME_2
  fa_off := layout.FLASH_AREA_2_OFFSET
  fa_size := FLASH_AREA_2_SIZE
def scratchArea : flash_area I where
  fa_id := FLASH_AREA_SCRATCH_ID
  fa_device_id := FLASH_DEVICE_ID
  fa_driver := driver FLASH_DEV_NAME_LDROM
  fa_off := layout.FLASH_AREA_SCRATCH_OFFSET
  fa_size := layout.FLASH_AREA_IMAGE_SECTOR_SIZE

/-- `scratch` is `MCUBOOT_SWAP_USING_SCRATCH`; `MCUBOOT_IMAGE_NUMBER` is 1. -/
def flash_map (scratch : Bool) : List (flash_area I) :=
  [primaryArea layout driver,secondaryArea layout driver] ++ if scratch then [scratchArea layout driver] else []

end

/-! ### Finding areas -/

variable {I : Interface}

/-- The first area with the id; `none` stands for the return value -1. -/
def flash_area_open (map : List (flash_area I)) (id : UInt8) : Option (flash_area I) := map.find? fun area => id == area.fa_id

/-- An `int` passed where a `uint8_t` is due. -/
def narrowed (n : Int32) : UInt8 := n.toUInt32.toUInt8

def FLASH_SLOT_DOES_NOT_EXIST : Int32 := 255
def FLASH_AREA_IMAGE_SCRATCH : Int32 := FLASH_SLOT_DOES_NOT_EXIST
def FLASH_AREA_IMAGE_PRIMARY (i : Int32) : Int32 := if i = 0 then 1 else 255
def FLASH_AREA_IMAGE_SECONDARY (i : Int32) : Int32 := if i = 0 then 2 else 255

def flash_area_id_from_multi_image_slot (image_index slot : Int32) : Int32 :=
  if slot = 0 then FLASH_AREA_IMAGE_PRIMARY image_index
  else if slot = 1 then FLASH_AREA_IMAGE_SECONDARY image_index
  else if slot = 2 then FLASH_AREA_IMAGE_SCRATCH
  else -1
def flash_area_id_from_image_slot (slot : Int32) : Int32 := flash_area_id_from_multi_image_slot 0 slot

def flash_area_id_to_multi_image_slot (image_index area_id : Int32) : Int32 :=
  if area_id = FLASH_AREA_IMAGE_PRIMARY image_index then 0
  else if area_id = FLASH_AREA_IMAGE_SECONDARY image_index then 1
  else -1
def flash_area_id_to_image_slot (area_id : Int32) : Int32 := flash_area_id_to_multi_image_slot 0 area_id

/-! ### Sectors -/

structure flash_sector where
  fs_off : UInt32
  fs_size : UInt32
  deriving DecidableEq

/-- An array of sectors by index. -/
abbrev Sectors := Nat → flash_sector

/-- The loop of `flash_area_get_sectors`; `rounds` is `max_cnt - cnt`. -/
def sectorLoop (FLASH_AREA_IMAGE_SECTOR_SIZE max_cnt : UInt32) :
    (rounds : Nat) → (rem_len cnt : UInt32) → (ret : Sectors) → Int32 × UInt32 × Sectors
  | 0, _, cnt, ret => (if cnt > max_cnt then -1 else 0,cnt,ret)
  | rounds + 1, rem_len, cnt, ret =>
    if rem_len > 0 ∧ cnt < max_cnt then
      if rem_len < FLASH_AREA_IMAGE_SECTOR_SIZE then (-1,cnt,ret)
      else
        sectorLoop FLASH_AREA_IMAGE_SECTOR_SIZE max_cnt rounds (rem_len - FLASH_AREA_IMAGE_SECTOR_SIZE) (cnt + 1)
          fun k => if k = cnt.toNat then ⟨FLASH_AREA_IMAGE_SECTOR_SIZE * cnt,FLASH_AREA_IMAGE_SECTOR_SIZE⟩ else ret k
    else (if cnt > max_cnt then -1 else 0,cnt,ret)

/-- Returns the status, the count left at `*cnt` and the array. -/
def flash_area_get_sectors (FLASH_AREA_IMAGE_SECTOR_SIZE : UInt32) (map : List (flash_area I)) (idx : Int32) (cnt : UInt32)
    (ret : Sectors) : Int32 × UInt32 × Sectors :=
  match flash_area_open map (narrowed idx) with
  | none => (-1,cnt,ret)
  | some fa =>
    if cnt < 1 then (-1,cnt,ret)
    else sectorLoop FLASH_AREA_IMAGE_SECTOR_SIZE cnt cnt.toNat fa.fa_size 0 ret

/-- Returns the status and what it leaves at `*sector`. -/
def flash_area_get_sector (fap : flash_area I) (off : UInt32) (sector : flash_sector) : Int32 × flash_sector :=
  if off ≥ fap.fa_size then (-1,sector)
  else
    let page_size := fap.fa_driver.GetInfo.page_size
    (0,⟨off / page_size * page_size,page_size⟩)

/-- What holds at both ends of the loop, and of a round when it holds of the rounds behind it, holds of the whole loop. -/
theorem sectorLoop_induct {S max_cnt : UInt32} {P : UInt32 → UInt32 → Sectors → Int32 × UInt32 × Sectors → Prop}
    (ended : ∀ rem_len cnt ret, cnt.toNat ≤ max_cnt.toNat → rem_len.toNat = 0 ∨ cnt.toNat = max_cnt.toNat →
      P rem_len cnt ret (0,cnt,ret))
    (short : ∀ rem_len cnt ret, cnt.toNat < max_cnt.toNat → 0 < rem_len.toNat → rem_len.toNat < S.toNat →
      P rem_len cnt ret (-1,cnt,ret))
    (round : ∀ rem_len cnt ret r, cnt.toNat < max_cnt.toNat → S.toNat ≤ rem_len.toNat →
      (cnt + 1).toNat = cnt.toNat + 1 → (rem_len - S).toNat = rem_len.toNat - S.toNat →
      P (rem_len - S) (cnt + 1) (fun k => if k = cnt.toNat then ⟨S * cnt,S⟩ else ret k) r → P rem_len cnt ret r)
    (rounds : Nat) : ∀ (rem_len cnt : UInt32) (ret : Sectors), rounds = max_cnt.toNat - cnt.toNat → cnt.toNat ≤ max_cnt.toNat →
      P rem_len cnt ret (sectorLoop S max_cnt rounds rem_len cnt ret) := by
  induction rounds with
  | zero =>
    intro rem_len cnt ret count below
    have past : ¬ cnt > max_cnt := by rw [gt_iff_lt,UInt32.lt_iff_toNat_lt]; omega
    simp only [sectorLoop,past,if_false]
    exact ended rem_len cnt ret below (.inr (by omega))
  | succ rounds ih =>
    intro rem_len cnt ret count below
    have less : cnt.toNat < max_cnt.toNat := by omega
    have room : cnt < max_cnt := UInt32.lt_iff_toNat_lt.mpr less
    have past : ¬ cnt > max_cnt := by rw [gt_iff_lt,UInt32.lt_iff_toNat_lt]; omega
    by_cases more : rem_len > 0
    · by_cases part : rem_len < S
      · simp only [sectorLoop,more,room,and_self,if_true,part]
        exact short rem_len cnt ret less (UInt32.lt_iff_toNat_lt.mp more) (UInt32.lt_iff_toNat_lt.mp part)
      · have enough : S.toNat ≤ rem_len.toNat := by rw [UInt32.lt_iff_toNat_lt] at part; omega
        have bound := max_cnt.toNat_lt
        have one : (1 : UInt32).toNat = 1 := rfl
        have next : (cnt + 1).toNat = cnt.toNat + 1 := toNat_add_of_lt (by omega)
        simp only [sectorLoop,more,room,and_self,if_true,part,if_false]
        refine round rem_len cnt ret _ less enough next (toNat_sub_of_le enough) ?_
        exact ih _ _ _ (by omega) (by omega)
    · have none : rem_len.toNat = 0 := by
        rw [gt_iff_lt,UInt32.lt_iff_toNat_lt] at more
        exact Nat.eq_zero_of_not_pos more
      simp only [sectorLoop,more,false_and,if_false,past]
      exact ended rem_len cnt ret below (.inl none)

/-- The loop stores the sectors of the area in order, each inside the area, and ends well when the area
    is made of whole sectors. -/
theorem sectorLoop_spec {S max_cnt : UInt32} (size : UInt32) (rounds : Nat) : ∀ (rem_len cnt : UInt32) (ret : Sectors),
    rounds = max_cnt.toNat - cnt.toNat → cnt.toNat ≤ max_cnt.toNat → S.toNat * cnt.toNat + rem_len.toNat = size.toNat →
    (∀ k < cnt.toNat, ret k = ⟨S * UInt32.ofNat k,S⟩) →
    S.toNat * (sectorLoop S max_cnt rounds rem_len cnt ret).2.1.toNat ≤ size.toNat ∧
    (∀ k < (sectorLoop S max_cnt rounds rem_len cnt ret).2.1.toNat,
      (sectorLoop S max_cnt rounds rem_len cnt ret).2.2 k = ⟨S * UInt32.ofNat k,S⟩) ∧
    (rem_len.toNat % S.toNat = 0 → (sectorLoop S max_cnt rounds rem_len cnt ret).1 = 0) := by
  refine sectorLoop_induct (P := fun rem_len cnt ret r => S.toNat * cnt.toNat + rem_len.toNat = size.toNat →
    (∀ k < cnt.toNat, ret k = ⟨S * UInt32.ofNat k,S⟩) → S.toNat * r.2.1.toNat ≤ size.toNat ∧
      (∀ k < r.2.1.toNat, r.2.2 k = ⟨S * UInt32.ofNat k,S⟩) ∧ (rem_len.toNat % S.toNat = 0 → r.1 = 0)) ?_ ?_ ?_ rounds
  · intro rem_len cnt ret _ _ total stored
    exact ⟨Nat.le.intro total,stored,fun _ => rfl⟩
  · intro rem_len cnt ret _ some less total stored
    refine ⟨Nat.le.intro total,stored,fun whole => ?_⟩
    rw [Nat.mod_eq_of_lt less] at whole
    omega
  · intro rem_len cnt ret r _ enough next left rest total stored
    obtain ⟨inside,sectors,ended⟩ := rest (by rw [next,left,Nat.mul_succ]; omega) fun k earlier => by
      by_cases last : k = cnt.toNat
      · simp [last]
      · exact (if_neg last).trans (stored k (by omega))
    refine ⟨inside,sectors,fun whole => ended ?_⟩
    rw [left,← Nat.mod_eq_sub_mod enough]
    exact whole

/-- What `flash_area_get_sectors` stores: the sectors of the area it opens, in order. -/
theorem get_sectors_spec {S : UInt32} {map : List (flash_area I)} {idx : Int32} {area : flash_area I}
    (opened : flash_area_open map (narrowed idx) = some area) {cnt : UInt32} (room : 1 ≤ cnt.toNat) (ret : Sectors) :
    S.toNat * (flash_area_get_sectors S map idx cnt ret).2.1.toNat ≤ area.fa_size.toNat ∧
    (∀ k < (flash_area_get_sectors S map idx cnt ret).2.1.toNat,
      (flash_area_get_sectors S map idx cnt ret).2.2 k = ⟨S * UInt32.ofNat k,S⟩) ∧
    (area.fa_size.toNat % S.toNat = 0 → (flash_area_get_sectors S map idx cnt ret).1 = 0) := by
  have enough : ¬ cnt < 1 := by
    rw [UInt32.lt_iff_toNat_lt]
    simp; omega
  simp only [flash_area_get_sectors,opened,enough,if_false]
  exact sectorLoop_spec area.fa_size cnt.toNat area.fa_size 0 ret (by simp) (by simp) (by simp) (by simp)

theorem get_sectors_unopened {S : UInt32} {map : List (flash_area I)} {idx : Int32}
    (failed : flash_area_open map (narrowed idx) = none) (cnt : UInt32) (ret : Sectors) :
    (flash_area_get_sectors S map idx cnt ret).1 = -1 := by
  simp only [flash_area_get_sectors,failed]

theorem get_sectors_no_room {S : UInt32} {map : List (flash_area I)} {idx : Int32} {cnt : UInt32} (none : ¬ 1 ≤ cnt.toNat)
    (ret : Sectors) : (flash_area_get_sectors S map idx cnt ret).1 = -1 := by
  have few : cnt < 1 := by
    rw [UInt32.lt_iff_toNat_lt]
    simp; omega
  simp only [flash_area_get_sectors,few,if_true]
  cases flash_area_open map (narrowed idx) <;> rfl

end NuMicroBoot.FlashLayout
