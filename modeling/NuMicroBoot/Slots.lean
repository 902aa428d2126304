import NuMicroBoot.AreaPlans
import NuMicroBoot.FlashLayout

/-!
Which area a slot stands for. A slot that does not exist gets the id -1 or
`FLASH_SLOT_DOES_NOT_EXIST`, both of which are 255 once they are narrowed to the
type of `fa_id`: the id of the scratch area, where there is one.
-/

namespace NuMicroBoot.Slots
open NuMicroBoot.Calls NuMicroBoot.Driver NuMicroBoot.InternalDriver NuMicroBoot.FlashMap NuMicroBoot.AreaPlans
open NuMicroBoot.FlashLayout

variable {I : Interface} (platform : Platform) (driver : DriverName → ARM_DRIVER_FLASH I) (scratch : Bool)

/-- The map of a platform. -/
abbrev mapOf : List (flash_area I) := flash_map platform.layout driver scratch

/-- The area MCUboot gets when it asks for a slot of an image. -/
def openSlot (image_index slot : Int32) : Option (flash_area I) :=
  flash_area_open (mapOf platform driver scratch) (narrowed (flash_area_id_from_multi_image_slot image_index slot))

/-- The area of a slot that exists: the two slots of image 0, and the scratch area as slot 2 of any image. -/
def slotArea (image_index slot : Int32) : Option (flash_area I) :=
  if image_index = 0 ∧ slot = 0 then some (primaryArea platform.layout driver)
  else if image_index = 0 ∧ slot = 1 then some (secondaryArea platform.layout driver)
  else if slot = 2 ∧ scratch = true then some (scratchArea platform.layout driver)
  else none

/-- The number is the id of an area of the map. -/
def IsArea (idx : Int32) : Prop := ∃ area ∈ mapOf platform driver scratch, idx.toInt = area.fa_id.toNat

/-- Listing sectors succeeds for ids of areas only. -/
def SectorsOfAreas (idx : Int32) (cnt : UInt32) (ret : Sectors) : Prop :=
  (flash_area_get_sectors platform.layout.FLASH_AREA_IMAGE_SECTOR_SIZE (mapOf platform driver scratch) idx cnt ret).1 = 0 →
    IsArea platform driver scratch idx

/-! ### Opening -/

/-- The two slots, and 255 where there is a scratch area. -/
theorem open_eq (id : UInt8) : flash_area_open (mapOf platform driver scratch) id =
    if id = 1 then some (primaryArea platform.layout driver)
    else if id = 2 then some (secondaryArea platform.layout driver)
    else if id = 255 ∧ scratch = true then some (scratchArea platform.layout driver)
    else none := by
  have second : FLASH_AREA_2_ID = 2 := rfl
  by_cases one : id = 1
  · simp [flash_area_open,flash_map,one,primaryArea,FLASH_AREA_0_ID]
  by_cases two : id = 2
  · simp [flash_area_open,flash_map,two,primaryArea,secondaryArea,FLASH_AREA_0_ID,second]
  cases scratch
  · simp [flash_area_open,flash_map,one,two,primaryArea,secondaryArea,FLASH_AREA_0_ID,second]
  · by_cases last : id = 255
    · simp [flash_area_open,flash_map,last,primaryArea,secondaryArea,scratchArea,FLASH_AREA_0_ID,second,FLASH_AREA_SCRATCH_ID]
    · simp [flash_area_open,flash_map,one,two,last,primaryArea,secondaryArea,scratchArea,FLASH_AREA_0_ID,second,
        FLASH_AREA_SCRATCH_ID]

/-- The narrowed id of a slot. -/
theorem slot_id (image_index slot : Int32) : narrowed (flash_area_id_from_multi_image_slot image_index slot) =
    if image_index = 0 ∧ slot = 0 then 1 else if image_index = 0 ∧ slot = 1 then 2 else 255 := by
  by_cases image : image_index = 0
  · subst image
    by_cases zero : slot = 0
    · subst zero
      rfl
    by_cases one : slot = 1
    · subst one
      rfl
    by_cases two : slot = 2
    · subst two
      rfl
    · simp only [flash_area_id_from_multi_image_slot,zero,one,two,if_false,and_false]
      rfl
  · simp only [flash_area_id_from_multi_image_slot,FLASH_AREA_IMAGE_PRIMARY,FLASH_AREA_IMAGE_SECONDARY,image,if_false,false_and]
    by_cases zero : slot = 0
    · rw [if_pos zero]
      rfl
    by_cases one : slot = 1
    · rw [if_neg zero,if_pos one]
      rfl
    by_cases two : slot = 2
    · rw [if_neg zero,if_neg one,if_pos two]
      rfl
    · rw [if_neg zero,if_neg one,if_neg two]
      rfl

/-- A slot opens as it should, unless it does not exist and there is a scratch area. -/
theorem openSlot_iff (image_index slot : Int32) :
    openSlot platform driver scratch image_index slot = slotArea platform driver scratch image_index slot ↔
      scratch = false ∨ slot = 2 ∨ image_index = 0 ∧ (slot = 0 ∨ slot = 1) := by
  rw [openSlot,open_eq,slot_id,slotArea]
  by_cases first : image_index = 0 ∧ slot = 0
  · simp [first]
  by_cases second : image_index = 0 ∧ slot = 1
  · simp [second]
  rw [if_neg first,if_neg first,if_neg second,if_neg second,if_neg (by decide),if_neg (by decide)]
  cases scratch
  · simp
  · by_cases two : slot = 2
    · simp [two]
    · simp only [two,and_true,if_true,if_false,reduceCtorEq,false_or,false_iff]
      rintro ⟨image,zero | one⟩
      · exact first ⟨image,zero⟩
      · exact second ⟨image,one⟩

/-! ### Back from an area -/

/-- A slot that an area is said to be has the id of that area. -/
theorem from_to_slot {image_index area_id slot : Int32} (told : flash_area_id_to_multi_image_slot image_index area_id = slot)
    (exists_ : slot ≠ -1) : flash_area_id_from_multi_image_slot image_index slot = area_id := by
  subst told
  unfold flash_area_id_to_multi_image_slot at exists_ ⊢
  by_cases primary : area_id = FLASH_AREA_IMAGE_PRIMARY image_index
  · rw [if_pos primary,primary]
    rfl
  by_cases secondary : area_id = FLASH_AREA_IMAGE_SECONDARY image_index
  · rw [if_neg primary,if_pos secondary,secondary]
    rfl
  · rw [if_neg primary,if_neg secondary] at exists_
    exact absurd rfl exists_

/-- Of image 0 both slots come back from their ids; of any other image the second one comes back as the first. -/
theorem to_from_slot (image_index slot : Int32) :
    flash_area_id_to_multi_image_slot image_index (flash_area_id_from_multi_image_slot image_index slot) = slot ↔
      slot = -1 ∨ slot = 0 ∨ slot = 1 ∧ image_index = 0 := by
  unfold flash_area_id_from_multi_image_slot flash_area_id_to_multi_image_slot FLASH_AREA_IMAGE_PRIMARY
    FLASH_AREA_IMAGE_SECONDARY
  by_cases image : image_index = 0
  · by_cases zero : slot = 0
    · simp [image,zero]
    by_cases one : slot = 1
    · simp [image,one]
    by_cases two : slot = 2
    · subst two
      simp only [image]
      decide
    · simp only [image,zero,one,two,if_true,if_false,and_true,or_false]
      exact eq_comm
  · by_cases zero : slot = 0
    · simp [image,zero]
    by_cases one : slot = 1
    · simp [image,one]
    by_cases two : slot = 2
    · subst two
      simp only [image]
      decide
    · simp only [image,zero,one,two,if_false,and_false,or_false]
      exact eq_comm

/-- For image 0, between its two slots and their areas, each function undoes the other. -/
theorem image_slot_iff {slot area_id : Int32} (slots : slot = 0 ∨ slot = 1) :
    flash_area_id_from_image_slot slot = area_id ↔ flash_area_id_to_image_slot area_id = slot := by
  constructor
  · rintro rfl
    exact (to_from_slot 0 slot).mpr (.inr (slots.imp_right fun one => ⟨one,rfl⟩))
  · intro told
    refine from_to_slot told ?_
    rcases slots with rfl | rfl <;> decide

/-! ### Listing sectors -/

theorem sizes_whole : ∀ area ∈ mapOf platform driver scratch,
    area.fa_size.toNat % platform.layout.FLASH_AREA_IMAGE_SECTOR_SIZE.toNat = 0 := by
  have slots : 0x8000 % platform.layout.FLASH_AREA_IMAGE_SECTOR_SIZE.toNat = 0 := by cases platform <;> rfl
  intro area member
  rcases List.mem_append.mp member with member | member
  · simp only [List.mem_cons,List.not_mem_nil,or_false] at member
    rcases member with rfl | rfl
    · exact slots
    · exact slots
  · cases scratch
    · simp at member
    · simp only [if_true,List.mem_singleton] at member
      subst member
      exact Nat.mod_self _

theorem opened_iff (id : UInt8) : (∃ area, flash_area_open (mapOf platform driver scratch) id = some area) ↔
    ∃ area ∈ mapOf platform driver scratch, area.fa_id = id := by
  rw [flash_area_open,← Option.isSome_iff_exists,List.find?_isSome]
  simp only [beq_iff_eq]
  exact exists_congr fun area => and_congr_right fun _ => eq_comm

/-- Listing the sectors of an area that opens succeeds when there is room for at least one. -/
theorem get_sectors_iff (idx : Int32) (cnt : UInt32) (ret : Sectors) :
    (flash_area_get_sectors platform.layout.FLASH_AREA_IMAGE_SECTOR_SIZE (mapOf platform driver scratch) idx cnt ret).1 = 0 ↔
      (∃ area ∈ mapOf platform driver scratch, area.fa_id = narrowed idx) ∧ 1 ≤ cnt.toNat := by
  rw [← opened_iff]
  constructor
  · intro success
    refine ⟨?_,?_⟩
    · by_contra closed
      have failed : flash_area_open (mapOf platform driver scratch) (narrowed idx) = none :=
        Option.eq_none_iff_forall_ne_some.mpr fun area opened => closed ⟨area,opened⟩
      rw [get_sectors_unopened failed] at success
      exact absurd success (by decide)
    · by_contra few
      rw [get_sectors_no_room few] at success
      exact absurd success (by decide)
  · rintro ⟨⟨area,opened⟩,room⟩
    exact (get_sectors_spec opened room ret).2.2 (sizes_whole platform driver scratch area (List.mem_of_find?_eq_some opened))

theorem sectorsOfAreas_iff (idx : Int32) (cnt : UInt32) (ret : Sectors) : SectorsOfAreas platform driver scratch idx cnt ret ↔
    IsArea platform driver scratch idx ∨ (¬ ∃ area ∈ mapOf platform driver scratch, area.fa_id = narrowed idx) ∨ cnt = 0 := by
  rw [SectorsOfAreas,get_sectors_iff]
  have few : cnt = 0 ↔ ¬ 1 ≤ cnt.toNat := by
    rw [Words.eq_iff_toNat,UInt32.toNat_zero]
    omega
  rw [few]
  constructor
  · intro only
    by_cases opens : ∃ area ∈ mapOf platform driver scratch, area.fa_id = narrowed idx
    · by_cases room : 1 ≤ cnt.toNat
      · exact .inl (only ⟨opens,room⟩)
      · exact .inr (.inr room)
    · exact .inr (.inl opens)
  · rintro (is | closed | full) ⟨opens,room⟩
    · exact is
    · exact absurd opens closed
    · exact absurd room full

/-! ### Both -/

/-- On every platform: a slot opens the area it stands for exactly when the map has no scratch area or the slot exists;
    a list of sectors is given for ids of areas only exactly when the number is such an id, or is not one after
    narrowing, or there is no room for a sector. -/
theorem slots_resolve_iff (image_index slot idx : Int32) (cnt : UInt32) (ret : Sectors) :
    (openSlot platform driver scratch image_index slot = slotArea platform driver scratch image_index slot ↔
      scratch = false ∨ slot = 2 ∨ image_index = 0 ∧ (slot = 0 ∨ slot = 1)) ∧
    (SectorsOfAreas platform driver scratch idx cnt ret ↔ IsArea platform driver scratch idx ∨
      (¬ ∃ area ∈ mapOf platform driver scratch, area.fa_id = narrowed idx) ∨ cnt = 0) :=
  ⟨openSlot_iff platform driver scratch image_index slot,sectorsOfAreas_iff platform driver scratch idx cnt ret⟩

/-- The two drivers of the internal flash; the M2351 has no third one. -/
def boardDriver : DriverName → ARM_DRIVER_FLASH Nvmc.interface
  | .Driver_FLASH0 => Driver_FLASH0 board
  | _ => Driver_FLASH1 board

/-- With a scratch area, the primary slot of image 1 and slot 3 of image 0 open it, and there are sectors for the
    number 257. -/
theorem slots_alias_scratch :
    openSlot .m2351 boardDriver true 1 0 ≠ slotArea .m2351 boardDriver true 1 0 ∧
    openSlot .m2351 boardDriver true 0 3 ≠ slotArea .m2351 boardDriver true 0 3 ∧
    ¬ SectorsOfAreas .m2351 boardDriver true 257 32 fun _ => ⟨0,0⟩ := by
  refine ⟨nofun,nofun,fun only => ?_⟩
  obtain ⟨area,member,same⟩ := only rfl
  have bound := area.fa_id.toNat_lt
  rw [show (257 : Int32).toInt = 257 from rfl] at same
  omega

end NuMicroBoot.Slots
