import NuMicroBoot.Sectors

/-!
What MCUboot learns about the sectors of an area: the list that
`flash_area_get_sectors` fills in, and the one sector that
`flash_area_get_sector` tells for an offset. The test for an overflow of the
list can never be true, and the second query takes the page size of the driver
for the sector size.
-/

namespace NuMicroBoot.SectorQueries
open NuMicroBoot.Calls NuMicroBoot.Words NuMicroBoot.Driver NuMicroBoot.FlashMap NuMicroBoot.ExternalDriver
open NuMicroBoot.FlashLayout NuMicroBoot.Board NuMicroBoot.Sectors

/-! ### The list -/

/-- How far the loop gets, when it returns 0, and that it stores nothing beyond the room it is given. -/
theorem sectorLoop_ends {S max_cnt : UInt32} (positive : 0 < S.toNat) (rounds : Nat) : ∀ (rem_len cnt : UInt32) (ret : Sectors),
    rounds = max_cnt.toNat - cnt.toNat → cnt.toNat ≤ max_cnt.toNat →
    (sectorLoop S max_cnt rounds rem_len cnt ret).2.1.toNat =
      cnt.toNat + min (max_cnt.toNat - cnt.toNat) (rem_len.toNat / S.toNat) ∧
    ((sectorLoop S max_cnt rounds rem_len cnt ret).1 = 0 ↔
      max_cnt.toNat - cnt.toNat ≤ rem_len.toNat / S.toNat ∨ rem_len.toNat % S.toNat = 0) ∧
    ∀ k, max_cnt.toNat ≤ k → (sectorLoop S max_cnt rounds rem_len cnt ret).2.2 k = ret k := by
  refine sectorLoop_induct (P := fun rem_len cnt ret r =>
    r.2.1.toNat = cnt.toNat + min (max_cnt.toNat - cnt.toNat) (rem_len.toNat / S.toNat) ∧
    (r.1 = 0 ↔ max_cnt.toNat - cnt.toNat ≤ rem_len.toNat / S.toNat ∨ rem_len.toNat % S.toNat = 0) ∧
    ∀ k, max_cnt.toNat ≤ k → r.2.2 k = ret k) ?_ ?_ ?_ rounds
  · intro rem_len cnt ret below last
    rcases last with none | full
    · rw [none,Nat.zero_div,Nat.zero_mod,Nat.min_zero]
      exact ⟨rfl,by simp,fun _ _ => rfl⟩
    · rw [full,Nat.sub_self,Nat.zero_min]
      exact ⟨rfl,by simp,fun _ _ => rfl⟩
  · intro rem_len cnt ret room some less
    rw [Nat.div_eq_of_lt less,Nat.mod_eq_of_lt less]
    have failed : ¬ (-1 : Int32) = 0 := by decide
    refine ⟨by simp,⟨fun error => absurd error failed,fun ended => ?_⟩,fun _ _ => rfl⟩
    omega
  · intro rem_len cnt ret r room enough next left rest
    have quotient : rem_len.toNat / S.toNat = (rem_len.toNat - S.toNat) / S.toNat + 1 :=
      Nat.div_eq_sub_div positive enough
    have remainder : rem_len.toNat % S.toNat = (rem_len.toNat - S.toNat) % S.toNat := Nat.mod_eq_sub_mod enough
    rw [left,next] at rest
    obtain ⟨counted,ended,spared⟩ := rest
    refine ⟨?_,?_,fun k beyond => ?_⟩
    · rw [counted,quotient]
      omega
    · rw [ended,quotient,remainder]
      omega
    · have other : k ≠ cnt.toNat := by omega
      exact (spared k beyond).trans (if_neg other)

/-- What the comment of `flash_area_get_sectors` promises for a list with room for `n` sectors: nothing is stored beyond it;
    0 means that all sectors of the area are listed; too little room is an error. -/
structure ListsAll (S fa_size n : UInt32) (ret : Sectors) (r : Int32 × UInt32 × Sectors) : Prop where
  bounded : ∀ k, n.toNat ≤ k → r.2.2 k = ret k
  whole : r.1 = 0 → fa_size.toNat % S.toNat = 0
  counted : r.1 = 0 → r.2.1.toNat = fa_size.toNat / S.toNat
  listed : r.1 = 0 → ∀ k < r.2.1.toNat, (r.2.2 k).fs_off.toNat = S.toNat * k ∧ (r.2.2 k).fs_size = S
  total : r.1 = 0 → ((List.range r.2.1.toNat).map fun k => (r.2.2 k).fs_size.toNat).sum = fa_size.toNat
  overflow : S.toNat * n.toNat < fa_size.toNat → r.1 ≠ 0

section
variable {I : Interface} {S : UInt32} {map : List (flash_area I)} {idx : Int32} {area : flash_area I} {n : UInt32} {ret : Sectors}

/-- The result on an area that is found, with room for at least one sector. -/
theorem get_sectors_ends (opened : flash_area_open map (narrowed idx) = some area) (positive : 0 < S.toNat) (room : n ≠ 0)
    (ret : Sectors) :
    (flash_area_get_sectors S map idx n ret).2.1.toNat = min n.toNat (area.fa_size.toNat / S.toNat) ∧
    ((flash_area_get_sectors S map idx n ret).1 = 0 ↔
      n.toNat ≤ area.fa_size.toNat / S.toNat ∨ area.fa_size.toNat % S.toNat = 0) ∧
    ∀ k, n.toNat ≤ k → (flash_area_get_sectors S map idx n ret).2.2 k = ret k := by
  have some := ne_zero_iff.mp room
  have one : (1 : UInt32).toNat = 1 := rfl
  have enough : ¬ n < 1 := by
    rw [UInt32.lt_iff_toNat_lt]
    omega
  simp only [flash_area_get_sectors,opened,enough,if_false]
  have ends := sectorLoop_ends positive n.toNat area.fa_size 0 ret (Nat.sub_zero n.toNat).symm (Nat.zero_le n.toNat)
  simpa using ends

theorem get_sectors_without_room (opened : flash_area_open map (narrowed idx) = some area) :
    flash_area_get_sectors S map idx 0 ret = (-1,0,ret) := by
  simp [flash_area_get_sectors,opened]

/-- Equal sizes add up. -/
theorem sum_of_sizes {f : Nat → Nat} {size count : Nat} (same : ∀ k < count, f k = size) :
    ((List.range count).map f).sum = size * count := by
  induction count with
  | zero => simp
  | succ count ih =>
    have earlier := ih fun k below => same k (Nat.lt_succ_of_lt below)
    simp [List.range_succ,earlier,same count (Nat.lt_succ_self count),Nat.mul_succ]

/-- Where all sectors fit, or there is no room at all, the list is as promised. -/
theorem lists_all (opened : flash_area_open map (narrowed idx) = some area) (positive : 0 < S.toNat)
    (fits : n = 0 ∨ area.fa_size.toNat ≤ S.toNat * n.toNat) :
    ListsAll S area.fa_size n ret (flash_area_get_sectors S map idx n ret) := by
  by_cases none : n = 0
  · subst none
    rw [get_sectors_without_room opened]
    have failed : ¬ (-1 : Int32) = 0 := by decide
    exact ⟨fun _ _ => rfl,fun ok => absurd ok failed,fun ok => absurd ok failed,fun ok => absurd ok failed,
      fun ok => absurd ok failed,fun _ => failed⟩
  · have room : area.fa_size.toNat ≤ S.toNat * n.toNat := fits.resolve_left none
    have some : 1 ≤ n.toNat := Nat.pos_of_ne_zero (ne_zero_iff.mp none)
    have split := Nat.div_add_mod area.fa_size.toNat S.toNat
    have below : area.fa_size.toNat / S.toNat ≤ n.toNat := Nat.div_le_of_le_mul room
    obtain ⟨count,success,spared⟩ := get_sectors_ends opened positive none ret
    obtain ⟨_,sectors,_⟩ := get_sectors_spec (S := S) opened some ret
    rw [Nat.min_eq_right below] at count
    have whole : (flash_area_get_sectors S map idx n ret).1 = 0 → area.fa_size.toNat % S.toNat = 0 := by
      intro ok
      rcases success.mp ok with full | whole
      · have most := Nat.mul_le_mul_left S.toNat full
        omega
      · exact whole
    have sizes : ∀ k < (flash_area_get_sectors S map idx n ret).2.1.toNat,
        ((flash_area_get_sectors S map idx n ret).2.2 k).fs_size.toNat = S.toNat := by
      intro k stored
      rw [sectors k stored]
    refine ⟨spared,whole,fun _ => count,fun _ k stored => ?_,fun ok => ?_,fun small => absurd room (by omega)⟩
    · have bound := area.fa_size.toNat_lt
      have last : S.toNat * k ≤ S.toNat * (area.fa_size.toNat / S.toNat) := Nat.mul_le_mul_left _ (by omega)
      have index : (UInt32.ofNat k).toNat = k := by
        have limit := (flash_area_get_sectors S map idx n ret).2.1.toNat_lt
        exact UInt32.toNat_ofNat_of_lt' (Nat.lt_trans stored limit)
      rw [sectors k stored]
      exact ⟨by rw [toNat_mul_of_lt (by rw [index]; omega),index],rfl⟩
    · have exactly := whole ok
      rw [sum_of_sizes sizes,count]
      omega

/-- A list that is too short is returned with 0. -/
theorem lists_short (opened : flash_area_open map (narrowed idx) = some area) (positive : 0 < S.toNat) (some : n ≠ 0)
    (small : S.toNat * n.toNat < area.fa_size.toNat) :
    ¬ ListsAll S area.fa_size n ret (flash_area_get_sectors S map idx n ret) := by
  intro lists
  obtain ⟨_,success,_⟩ := get_sectors_ends opened positive some ret
  have full : n.toNat ≤ area.fa_size.toNat / S.toNat := by
    rw [Nat.le_div_iff_mul_le positive,Nat.mul_comm]
    exact Nat.le_of_lt small
  exact lists.overflow small (success.mpr (.inl full))

/-- The list is as promised exactly when there is room for all sectors or for none. -/
theorem lists_all_iff (opened : flash_area_open map (narrowed idx) = some area) (positive : 0 < S.toNat) (n : UInt32)
    (ret : Sectors) : ListsAll S area.fa_size n ret (flash_area_get_sectors S map idx n ret) ↔
      n = 0 ∨ area.fa_size.toNat ≤ S.toNat * n.toNat := by
  constructor
  · intro lists
    by_contra neither
    obtain ⟨some,small⟩ := not_or.mp neither
    exact lists_short opened positive some (Nat.lt_of_not_le small) lists
  · intro fits
    exact lists_all opened positive fits

end

/-- Room for all eight sectors of a slot. -/
theorem lists_all_iff_eight : ListsAll 0x1000 m460Slot.fa_size 8 (fun _ => ⟨0,0⟩)
    (flash_area_get_sectors 0x1000 m460Map 2 8 fun _ => ⟨0,0⟩) ↔
      (8 : UInt32) = 0 ∨ m460Slot.fa_size.toNat ≤ (0x1000 : UInt32).toNat * (8 : UInt32).toNat :=
  lists_all_iff rfl (by decide) 8 _

/-- Room for four of them. -/
theorem not_lists_four : ¬ ListsAll 0x1000 m460Slot.fa_size 4 (fun _ => ⟨0,0⟩)
    (flash_area_get_sectors 0x1000 m460Map 2 4 fun _ => ⟨0,0⟩) :=
  lists_short rfl (by decide) (by decide) (by decide)

/-! ### One sector -/

/-- `flash_area_get_sector` succeeds exactly inside the area, and tells the entry of the list that contains the offset. -/
def QueriesAgree {I : Interface} (S : UInt32) (map : List (flash_area I)) (idx : Int32) (cnt : UInt32) (ret : Sectors)
    (fap : flash_area I) (off : UInt32) (sector : flash_sector) : Prop :=
  ((flash_area_get_sector fap off sector).1 = 0 ↔ off.toNat < fap.fa_size.toNat) ∧
  (off.toNat < fap.fa_size.toNat → ∃ k < (flash_area_get_sectors S map idx cnt ret).2.1.toNat,
    (flash_area_get_sectors S map idx cnt ret).2.2 k = (flash_area_get_sector fap off sector).2 ∧
    (flash_area_get_sector fap off sector).2.fs_off.toNat ≤ off.toNat ∧
    off.toNat < (flash_area_get_sector fap off sector).2.fs_off.toNat + (flash_area_get_sector fap off sector).2.fs_size.toNat)

section
variable {I : Interface} {S : UInt32} {map : List (flash_area I)} {idx : Int32} {area : flash_area I} {cnt off : UInt32}
  {ret : Sectors} {sector : flash_sector}

theorem get_sector_inside (inside : off.toNat < area.fa_size.toNat) : flash_area_get_sector area off sector =
    (0,⟨off / area.fa_driver.GetInfo.page_size * area.fa_driver.GetInfo.page_size,area.fa_driver.GetInfo.page_size⟩) := by
  have within : ¬ off ≥ area.fa_size := by
    rw [ge_iff_le,UInt32.le_iff_toNat_le]
    omega
  simp [flash_area_get_sector,within]

theorem get_sector_outside (outside : area.fa_size.toNat ≤ off.toNat) :
    flash_area_get_sector area off sector = (-1,sector) := by
  have beyond : off ≥ area.fa_size := UInt32.le_iff_toNat_le.mpr outside
  simp [flash_area_get_sector,beyond]

theorem get_sector_succeeds_iff : (flash_area_get_sector area off sector).1 = 0 ↔ off.toNat < area.fa_size.toNat := by
  by_cases inside : off.toNat < area.fa_size.toNat
  · simp [get_sector_inside inside,inside]
  · rw [get_sector_outside (Nat.le_of_not_lt inside)]
    simp [inside]

/-- Where the page size of the driver is the sector size of the layout, the queries agree. -/
theorem agree_of_same_size (opened : flash_area_open map (narrowed idx) = some area) (positive : 0 < S.toNat)
    (whole : area.fa_size.toNat % S.toNat = 0) (room : area.fa_size.toNat ≤ S.toNat * cnt.toNat)
    (same : area.fa_driver.GetInfo.page_size = S) : QueriesAgree S map idx cnt ret area off sector := by
  refine ⟨get_sector_succeeds_iff,fun inside => ?_⟩
  have some : cnt ≠ 0 := by
    rintro rfl
    exact Nat.not_lt_zero _ (Nat.lt_of_lt_of_le inside room)
  obtain ⟨count,_,_⟩ := get_sectors_ends opened positive some ret
  obtain ⟨_,sectors,_⟩ := get_sectors_spec (S := S) opened (Nat.pos_of_ne_zero (ne_zero_iff.mp some)) ret
  rw [Nat.min_eq_right (Nat.div_le_of_le_mul room)] at count
  have split := Nat.div_add_mod off.toNat S.toNat
  have rest := Nat.mod_lt off.toNat positive
  have bound := off.toNat_lt
  have total : S.toNat * (area.fa_size.toNat / S.toNat) = area.fa_size.toNat := by
    have parts := Nat.div_add_mod area.fa_size.toNat S.toNat
    omega
  have stored : off.toNat / S.toNat < (flash_area_get_sectors S map idx cnt ret).2.1.toNat := by
    rw [count]
    refine Nat.lt_of_mul_lt_mul_left (a := S.toNat) ?_
    omega
  have quotient : off / S = UInt32.ofNat (off.toNat / S.toNat) := by
    rw [← UInt32.toNat_div,UInt32.ofNat_toNat]
  have place : (off / S * S).toNat = S.toNat * (off.toNat / S.toNat) := by
    rw [UInt32.toNat_mul,UInt32.toNat_div,Nat.mul_comm,Nat.mod_eq_of_lt (by omega)]
  rw [get_sector_inside inside,same]
  refine ⟨_,stored,?_,?_,?_⟩
  · rw [sectors _ stored,← quotient,UInt32.mul_comm]
  · show (off / S * S).toNat ≤ off.toNat
    omega
  · show off.toNat < (off / S * S).toNat + S.toNat
    omega

/-- Where it is not, they disagree inside the area. -/
theorem disagree_of_other_size (opened : flash_area_open map (narrowed idx) = some area) (inside : off.toNat < area.fa_size.toNat)
    (room : area.fa_size.toNat ≤ S.toNat * cnt.toNat) (other : area.fa_driver.GetInfo.page_size ≠ S) :
    ¬ QueriesAgree S map idx cnt ret area off sector := by
  rintro ⟨_,found⟩
  obtain ⟨k,stored,entry,_⟩ := found inside
  have some : 1 ≤ cnt.toNat := by
    by_contra none
    have zero : cnt.toNat = 0 := by omega
    rw [zero] at room
    omega
  obtain ⟨_,sectors,_⟩ := get_sectors_spec (S := S) opened some ret
  rw [sectors k stored,get_sector_inside inside] at entry
  exact other (congrArg flash_sector.fs_size entry).symm

end

/-- The layout sector is the page of the internal flash, and 4 KiB on the M460, which alone has external flash. -/
def LayoutSector (setup : Setup) (S : UInt32) : DriverName → Prop
  | .Driver_FLASH0 => setup.bsp.FLASH_PAGE_SIZE = S
  | .Driver_FLASH1 => setup.bsp.FLASH_PAGE_SIZE = S
  | .Driver_FLASH2 => S = 0x1000

/-- The page size that a driver object tells: the erase page on the internal flash, the page of a program command on the
    external flash. -/
theorem page_size_eq_iff {setup : Setup} {variant : Variant} {name : DriverName} {S : UInt32} (layout : LayoutSector setup S name) :
    (driver setup variant name).GetInfo.page_size = S ↔ name ≠ .Driver_FLASH2 := by
  cases name with
  | Driver_FLASH0 => exact ⟨fun _ => nofun,fun _ => layout⟩
  | Driver_FLASH1 => exact ⟨fun _ => nofun,fun _ => layout⟩
  | Driver_FLASH2 =>
    have page : (driver setup variant .Driver_FLASH2).GetInfo.page_size = 256 := by cases variant <;> rfl
    rw [page,layout]
    simp

/-- The two queries agree exactly on the internal flash, and outside the area. -/
theorem queries_agree_iff (setup : Setup) (variant : Variant) (name : DriverName) (S : UInt32)
    (area : flash_area (Board.interface variant)) (map : List (flash_area (Board.interface variant))) (idx : Int32)
    (cnt off : UInt32) (ret : Sectors) (sector : flash_sector) (positive : 0 < S.toNat) (layout : LayoutSector setup S name)
    (fa_driver : area.fa_driver = driver setup variant name) (opened : flash_area_open map (narrowed idx) = some area)
    (whole : area.fa_size.toNat % S.toNat = 0) (room : area.fa_size.toNat ≤ S.toNat * cnt.toNat) :
    QueriesAgree S map idx cnt ret area off sector ↔ name ≠ .Driver_FLASH2 ∨ area.fa_size.toNat ≤ off.toNat := by
  have size : area.fa_driver.GetInfo.page_size = S ↔ name ≠ .Driver_FLASH2 := by
    rw [fa_driver]
    exact page_size_eq_iff layout
  constructor
  · intro agree
    by_contra neither
    obtain ⟨external,inside⟩ := not_or.mp neither
    exact disagree_of_other_size opened (Nat.lt_of_not_le inside) room (mt size.mp external) agree
  · rintro (internal | outside)
    · exact agree_of_same_size opened positive whole room (size.mpr internal)
    · refine ⟨get_sector_succeeds_iff,fun inside => ?_⟩
      omega

/-- On the secondary slot of an M460 in external flash. -/
theorem queries_agree_iff_m460 : QueriesAgree 0x1000 m460Map 2 8 (fun _ => ⟨0,0⟩) m460Slot 0x8000 ⟨0,0⟩ ↔
    DriverName.Driver_FLASH2 ≠ .Driver_FLASH2 ∨ m460Slot.fa_size.toNat ≤ (0x8000 : UInt32).toNat :=
  queries_agree_iff m460 .SPIM .Driver_FLASH2 0x1000 m460Slot m460Map 2 8 0x8000 (fun _ => ⟨0,0⟩) ⟨0,0⟩
    (by decide) rfl rfl rfl (by decide) (by decide)

theorem queries_disagree_m460 : ¬ QueriesAgree 0x1000 m460Map 2 8 (fun _ => ⟨0,0⟩) m460Slot 0x1234 ⟨0,0⟩ :=
  disagree_of_other_size rfl (by decide) (by decide) (by decide)

end NuMicroBoot.SectorQueries
