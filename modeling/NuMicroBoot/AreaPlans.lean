import NuMicroBoot.FlashMap
import NuMicroBoot.InternalPlans

/-!
The flash map over the internal flash, as lists of controller calls: a read is
one pass over consecutive words, a write is two short reads and then one pass
over consecutive program units, an erase is one pass over consecutive sectors.
-/

namespace NuMicroBoot.AreaPlans
open NuMicroBoot.Calls NuMicroBoot.Calls.Prog NuMicroBoot.Cells NuMicroBoot.Words NuMicroBoot.Driver
open NuMicroBoot.Nvmc NuMicroBoot.InternalDriver NuMicroBoot.FlashMap

/-! ### Areas of the internal flash -/

/-- The two regions of the internal flash. -/
inductive Rom
  | APROM
  | LDROM
  deriving DecidableEq

def Rom.dev (bsp : Bsp) : Rom → arm_flash_dev_t
  | .APROM => FLASH0_DEV bsp
  | .LDROM => FLASH1_DEV bsp
def Rom.driver (bsp : Bsp) : Rom → ARM_DRIVER_FLASH interface
  | .APROM => Driver_FLASH0 bsp
  | .LDROM => Driver_FLASH1 bsp

def Rom.base (bsp : Bsp) : Rom → UInt32
  | .APROM => bsp.APROM_BASE
  | .LDROM => bsp.LDROM_BASE
def Rom.bytes (bsp : Bsp) : Rom → UInt32
  | .APROM => bsp.APROM_SIZE
  | .LDROM => bsp.LDROM_SIZE

/-- The constants of the board support package: whole program units in a page, and both
    regions inside the 32-bit address space. -/
structure Sound (bsp : Bsp) : Prop where
  page : 0 < bsp.FLASH_PAGE_SIZE.toNat ∧ bsp.FLASH_PAGE_SIZE.toNat % 8 = 0
  region : ∀ rom : Rom, (rom.base bsp).toNat + (rom.bytes bsp).toNat ≤ 2 ^ 32

/-- A flash area on `Driver_FLASH0` or `Driver_FLASH1` made of whole sectors of its device. -/
structure InternalArea (bsp : Bsp) where
  rom : Rom
  fa_id : UInt8
  fa_device_id : UInt8
  fa_off : UInt32
  fa_size : UInt32
  sound : Sound bsp
  off_aligned : fa_off.toNat % bsp.FLASH_PAGE_SIZE.toNat = 0
  size_aligned : fa_size.toNat % bsp.FLASH_PAGE_SIZE.toNat = 0
  inside : (rom.dev bsp).Inside fa_off.toNat fa_size.toNat

variable {bsp : Bsp}

def InternalArea.area (a : InternalArea bsp) : flash_area interface where
  fa_id := a.fa_id
  fa_device_id := a.fa_device_id
  fa_driver := a.rom.driver bsp
  fa_off := a.fa_off
  fa_size := a.fa_size

theorem dev_sector_size (rom : Rom) : (rom.dev bsp).data.sector_size = bsp.FLASH_PAGE_SIZE := by cases rom <;> rfl
theorem dev_program_unit (rom : Rom) : (rom.dev bsp).data.program_unit = NVT_NVMC_PROGRAM_UNIT bsp := by
  cases rom <;> rfl

theorem dev_base (rom : Rom) : (rom.dev bsp).memory_base = rom.base bsp := by cases rom <;> rfl
theorem dev_size_le (rom : Rom) : (rom.dev bsp).size ≤ (rom.bytes bsp).toNat := by
  have whole : ∀ size : UInt32, (size / bsp.FLASH_PAGE_SIZE).toNat * bsp.FLASH_PAGE_SIZE.toNat ≤ size.toNat := by
    intro size
    rw [UInt32.toNat_div]
    exact Nat.div_mul_le_self _ _
  cases rom
  · exact whole bsp.APROM_SIZE
  · exact whole bsp.LDROM_SIZE

theorem dev_fits (sound : Sound bsp) (rom : Rom) : Fits (rom.dev bsp) := by
  have size : (rom.dev bsp).size ≤ (rom.bytes bsp).toNat := dev_size_le rom
  have region := sound.region rom
  have bound := (rom.bytes bsp).toNat_lt
  exact ⟨by rw [dev_base]; omega,by omega⟩

theorem area_ends (a : InternalArea bsp) : a.fa_off.toNat + a.fa_size.toNat ≤ 2 ^ 32 :=
  Nat.le_trans a.inside.2 (dev_fits a.sound a.rom).ending

/-! ### Maps -/

/-- The byte at `p` belongs to the area. -/
def InternalArea.Holds (a : InternalArea bsp) (p : Nat) : Prop :=
  a.fa_off.toNat ≤ p ∧ p < a.fa_off.toNat + a.fa_size.toNat

/-- A flash map over the internal flash: its areas are disjoint on each device, and the two
    regions have addresses of their own. -/
structure InternalMap (bsp : Bsp) where
  flash_map_entry_num : Nat
  flash_map : Fin flash_map_entry_num → InternalArea bsp
  disjoint : ∀ i j, i ≠ j → (flash_map i).rom = (flash_map j).rom → ∀ p, (flash_map i).Holds p → ¬ (flash_map j).Holds p
  apart : bsp.APROM_BASE.toNat + bsp.APROM_SIZE.toNat ≤ bsp.LDROM_BASE.toNat ∨
    bsp.LDROM_BASE.toNat + bsp.LDROM_SIZE.toNat ≤ bsp.APROM_BASE.toNat

def InternalMap.areas (map : InternalMap bsp) (i : Fin map.flash_map_entry_num) : flash_area interface :=
  (map.flash_map i).area

theorem holds_region (a : InternalArea bsp) {p : Nat} (holds : a.Holds p) :
    (a.rom.base bsp).toNat ≤ p ∧ p < (a.rom.base bsp).toNat + (a.rom.bytes bsp).toNat := by
  obtain ⟨low,high⟩ := a.inside
  have size : (a.rom.dev bsp).size ≤ (a.rom.bytes bsp).toNat := dev_size_le a.rom
  rw [dev_base] at low high
  obtain ⟨above,below⟩ := holds
  omega

/-- No byte belongs to two areas of a map. -/
theorem holds_one (map : InternalMap bsp) {i j : Fin map.flash_map_entry_num} (other : i ≠ j) {p : Nat}
    (first : (map.flash_map i).Holds p) : ¬ (map.flash_map j).Holds p := by
  intro second
  have one := holds_region _ first
  have two := holds_region _ second
  have apart := map.apart
  by_cases same : (map.flash_map i).rom = (map.flash_map j).rom
  · exact map.disjoint i j other same p first second
  · cases romI : (map.flash_map i).rom <;> cases romJ : (map.flash_map j).rom <;>
      simp only [romI,romJ,Rom.base,Rom.bytes,not_true_eq_false] at one two same <;> omega

theorem mod_eight {n page : Nat} (whole : page % 8 = 0) (aligned : n % page = 0) : n % 8 = 0 :=
  Nat.mod_eq_zero_of_dvd (Nat.dvd_trans (Nat.dvd_of_mod_eq_zero whole) (Nat.dvd_of_mod_eq_zero aligned))
theorem off_mod_eight (a : InternalArea bsp) : a.fa_off.toNat % 8 = 0 := mod_eight a.sound.page.2 a.off_aligned
theorem size_mod_eight (a : InternalArea bsp) : a.fa_size.toNat % 8 = 0 := mod_eight a.sound.page.2 a.size_aligned

theorem area_sector_size (a : InternalArea bsp) : a.area.fa_driver.GetInfo.sector_size = bsp.FLASH_PAGE_SIZE := by
  obtain ⟨rom⟩ := a
  cases rom <;> rfl
theorem area_sector_info (a : InternalArea bsp) : a.area.fa_driver.GetInfo.sector_info = none := by
  obtain ⟨rom⟩ := a
  cases rom <;> rfl

/-! ### Areas made of whole program units -/

/-- A flash area on `Driver_FLASH0` or `Driver_FLASH1` whose bounds are multiples of 8, which is all that reading and
    writing use. -/
structure OnUnits (bsp : Bsp) (rom : Rom) (area : flash_area interface) : Prop where
  fa_driver : area.fa_driver = rom.driver bsp
  sound : Sound bsp
  off_aligned : area.fa_off.toNat % 8 = 0
  size_aligned : area.fa_size.toNat % 8 = 0
  inside : (rom.dev bsp).Inside area.fa_off.toNat area.fa_size.toNat

theorem internal_units (a : InternalArea bsp) : OnUnits bsp a.rom a.area :=
  ⟨rfl,a.sound,off_mod_eight a,size_mod_eight a,a.inside⟩

variable {rom : Rom} {area : flash_area interface}

theorem units_ends (on : OnUnits bsp rom area) : area.fa_off.toNat + area.fa_size.toNat ≤ 2 ^ 32 :=
  Nat.le_trans on.inside.2 (dev_fits on.sound rom).ending
theorem units_data_width (on : OnUnits bsp rom area) :
    data_width_byte area.fa_driver.GetCapabilities.data_width = 4 := by
  rw [on.fa_driver]
  cases rom <;> rfl

/-! ### An example board -/

def board : Bsp where
  type := .FMC
  APROM_BASE := 0
  APROM_SIZE := 0x80000
  LDROM_BASE := 0x100000
  LDROM_SIZE := 0x1000
  FLASH_PAGE_SIZE := 0x800
  garbage := 0

theorem board_sound : Sound board := ⟨by decide,fun rom => by cases rom <;> decide⟩

/-- A primary slot of 32 KiB. -/
def primary : InternalArea board where
  rom := .APROM
  fa_id := 1
  fa_device_id := 100
  fa_off := 0x20000
  fa_size := 0x8000
  sound := board_sound
  off_aligned := by decide
  size_aligned := by decide
  inside := ⟨by decide,by decide⟩

/-- The secondary slot of the same size. -/
def secondary : InternalArea board where
  rom := .APROM
  fa_id := 2
  fa_device_id := 100
  fa_off := 0x60000
  fa_size := 0x8000
  sound := board_sound
  off_aligned := by decide
  size_aligned := by decide
  inside := ⟨by decide,by decide⟩

/-- Both slots. -/
def slots : InternalMap board where
  flash_map_entry_num := 2
  flash_map
    | 0 => primary
    | 1 => secondary
  disjoint := by
    have low : ∀ p, primary.Holds p → p < 0x28000 := fun p holds => holds.2
    have high : ∀ p, secondary.Holds p → 0x60000 ≤ p := fun p holds => holds.1
    have apart : ∀ p, primary.Holds p → ¬ secondary.Holds p := fun p first second => by
      have := low p first
      have := high p second
      omega
    intro i j other _ p first second
    match i,j with
    | 0,0 => exact other rfl
    | 0,1 => exact apart p first second
    | 1,0 => exact apart p second first
    | 1,1 => exact other rfl
  apart := .inl (by decide)

/-- The places of the slots in the map. -/
def primaryIndex : Fin slots.flash_map_entry_num := (0 : Fin 2)
def secondaryIndex : Fin slots.flash_map_entry_num := (1 : Fin 2)

/-! ### The drivers on requests inside an area -/

theorem inside_dev (on : OnUnits bsp rom area) {addr n : Nat} (low : area.fa_off.toNat ≤ addr)
    (high : addr + n ≤ area.fa_off.toNat + area.fa_size.toNat) : (rom.dev bsp).Inside addr n :=
  ⟨Nat.le_trans on.inside.1 low,Nat.le_trans high on.inside.2⟩

theorem area_read (on : OnUnits bsp rom area) {addr cnt : UInt32} (some : 0 < cnt.toNat) (low : area.fa_off.toNat ≤ addr.toNat)
    (high : addr.toNat + 4 * cnt.toNat ≤ area.fa_off.toNat + area.fa_size.toNat) (data : Buffer) (p : Nat) :
    area.fa_driver.ReadData addr data p cnt = issue succeeded (wordReads addr cnt.toNat) >>= fun r =>
      .ret (if r.2 then cnt.toInt32 else ARM_DRIVER_ERROR,copy data p (heard r.1) 0 (4 * r.1.length)) := by
  rw [← readDataOn_eq (dev_fits on.sound rom) some (inside_dev on low high) data p,on.fa_driver]
  cases rom <;> rfl

theorem area_program (on : OnUnits bsp rom area) {addr cnt : UInt32} {n : Nat} (some : 0 < cnt.toNat)
    (low : area.fa_off.toNat ≤ addr.toNat) (high : addr.toNat + 4 * cnt.toNat ≤ area.fa_off.toNat + area.fa_size.toNat)
    (aligned : addr.toNat % 8 = 0) (units : (NVT_NVMC_PROGRAM_UNIT bsp).toNat * n = 4 * cnt.toNat)
    (data : Buffer) (p : Nat) :
    area.fa_driver.ProgramData addr data p cnt =
      issue succeeded (unitPrograms (NVT_NVMC_PROGRAM_UNIT bsp) data bsp.garbage p addr n) >>= fun r =>
        .ret (if r.2 then cnt.toInt32 else ARM_DRIVER_ERROR) := by
  have start : addr.toNat % (NVT_NVMC_PROGRAM_UNIT bsp).toNat = 0 := by
    rcases program_unit_cases bsp with unit | unit <;> rw [unit] <;> simp <;> omega
  have plan : programDataOn bsp (rom.dev bsp) addr data p cnt = _ := programDataOn_eq (dev_fits on.sound rom)
    (by rw [dev_program_unit]; exact program_unit_pos.1) some (inside_dev on low high)
    (by rw [dev_program_unit]; exact start) (by rw [dev_program_unit]; exact units) data p
  rw [dev_program_unit] at plan
  rw [← plan,on.fa_driver]
  cases rom <;> rfl

theorem area_erase (a : InternalArea bsp) {addr : UInt32} (low : a.fa_off.toNat ≤ addr.toNat)
    (high : addr.toNat + 1 ≤ a.fa_off.toNat + a.fa_size.toNat) (aligned : addr.toNat % bsp.FLASH_PAGE_SIZE.toNat = 0) :
    a.area.fa_driver.EraseSector addr = issue succeeded [Call.NVT_NVMC_Erase addr] >>= fun r =>
      .ret (if r.2 then ARM_DRIVER_OK else ARM_DRIVER_ERROR) := by
  rw [← eraseSectorOn_eq (dev_fits a.sound a.rom) (inside_dev (internal_units a) low high) (by rw [dev_sector_size]; exact aligned)]
  obtain ⟨rom⟩ := a
  cases rom <;> rfl

/-! ### The range check -/

theorem is_range_valid_eq [Bootutil] {I : Interface} (area : flash_area I) (off len : UInt32) :
    is_range_valid area off len = decide (off.toNat + len.toNat ≤ area.fa_size.toNat) := by
  have bound := area.fa_size.toNat_lt
  unfold is_range_valid
  rw [Bootutil.safe_add_spec]
  by_cases fits : off.toNat + len.toNat < 2 ^ 32
  · simp only [fits,if_true,UInt32.lt_iff_toNat_lt,toNat_add_of_lt fits]
    by_cases inside : off.toNat + len.toNat ≤ area.fa_size.toNat
    · simp [inside,Nat.not_lt.mpr inside]
    · simp [inside,Nat.lt_of_not_le inside]
  · simp only [fits,if_false]
    simp; omega

theorem range_valid [Bootutil] {I : Interface} {area : flash_area I} {off len : UInt32} (fits : off.toNat + len.toNat ≤ area.fa_size.toNat) :
    is_range_valid area off len = true := by
  rw [is_range_valid_eq]
  exact decide_eq_true fits

theorem floor_align_eight (v : UInt32) : (FLOOR_ALIGN v FLASH_PROGRAM_UNIT).toNat = 8 * (v.toNat / 8) :=
  toNat_clear_low v _ (k := 3) rfl
theorem floor_align_four (v : UInt32) : (FLOOR_ALIGN v 4).toNat = 4 * (v.toNat / 4) :=
  toNat_clear_low v _ (k := 2) rfl
theorem ceiling_align_eight {v : UInt32} (fits : v.toNat + 7 < 2 ^ 32) :
    (CEILING_ALIGN v FLASH_PROGRAM_UNIT).toNat = 8 * ((v.toNat + 7) / 8) := by
  have sum : (v + (FLASH_PROGRAM_UNIT - 1)).toNat = v.toNat + 7 := toNat_add_of_lt fits
  rw [← sum]
  exact toNat_clear_low _ _ (k := 3) rfl

/-! ### Reading -/

/-- The 8-bit copying loop copies what is left up to its limit. -/
theorem copyLoop_from {src dst : Buffer} {dstIdx srcIdx : UInt8 → UInt32} {limit : UInt32} {d s : Nat}
    (small : limit.toNat < 256) (to_ : ∀ j : UInt8, j.toNat < limit.toNat → (dstIdx j).toNat = d + j.toNat)
    (from_ : ∀ j : UInt8, j.toNat < limit.toNat → (srcIdx j).toNat = s + j.toNat) :
    ∀ (rounds : Nat) (i : UInt8), i.toNat ≤ limit.toNat → limit.toNat < i.toNat + rounds →
    copyLoop src dstIdx srcIdx limit rounds (copy dst d src s i.toNat) i =
      (copy dst d src s limit.toNat,UInt8.ofNat limit.toNat) := by
  intro rounds
  induction rounds with
  | zero => intro i below enough; omega
  | succ rounds ih =>
    intro i below enough
    by_cases more : i.toUInt32 < limit
    · have inside : i.toNat < limit.toNat := by simpa [UInt32.lt_iff_toNat_lt] using more
      have next : (i + 1).toNat = i.toNat + 1 := by rw [UInt8.toNat_add]; simp; omega
      rw [copyLoop,if_pos more,to_ i inside,from_ i inside,copy_append,← next]
      exact ih (i + 1) (by omega) (by omega)
    · have same : i.toNat = limit.toNat := by
        have : ¬ i.toNat < limit.toNat := by simpa [UInt32.lt_iff_toNat_lt] using more
        omega
      rw [copyLoop,if_neg more,same,← same]
      simp

theorem copyLoop_eq (src dst : Buffer) (dstIdx srcIdx : UInt8 → UInt32) (limit : UInt32) (d s : Nat)
    (small : limit.toNat < 256) (to_ : ∀ j : UInt8, j.toNat < limit.toNat → (dstIdx j).toNat = d + j.toNat)
    (from_ : ∀ j : UInt8, j.toNat < limit.toNat → (srcIdx j).toNat = s + j.toNat) :
    copyLoop src dstIdx srcIdx limit 256 dst 0 = (copy dst d src s limit.toNat,UInt8.ofNat limit.toNat) := by
  rw [← copyLoop_from small to_ from_ 256 0 (by simp) (by simp; omega)]
  rw [UInt8.toNat_zero,copy_zero]

/-- What a read of `len` bytes at `shift` bytes into the first of some words leaves at `dst` from `d` on. -/
def delivered (dst : Buffer) (d shift len : Nat) (es : List (Event interface)) : Buffer :=
  copy dst d (heard es) shift (min len (4 * es.length - shift))

theorem delivered_append (dst : Buffer) (d len : Nat) {shift n : Nat} {es : List (Event interface)}
    (fs : List (Event interface)) (count : es.length = n) (whole : shift ≤ 4 * n) (more : 4 * n - shift ≤ len) :
    delivered (delivered dst d shift len es) (d + (4 * n - shift)) 0 (len - (4 * n - shift)) fs =
      delivered dst d shift len (es ++ fs) := by
  subst count
  simp only [delivered,List.length_append,Nat.min_eq_right more,Nat.sub_zero]
  have first : copy dst d (heard es) shift (4 * es.length - shift) =
      copy dst d (heard (es ++ fs)) shift (4 * es.length - shift) :=
    copy_congr fun k inside => by rw [heard_append,if_pos (by omega)]
  have second : ∀ X p m, copy X p (heard fs) 0 m =
      copy X p (heard (es ++ fs)) (shift + (4 * es.length - shift)) m := fun X p m =>
    copy_congr fun k _ => by
      rw [heard_append,if_neg (by omega)]
      congr 1
      omega
  rw [first,second,copy_append]
  congr 1
  omega

/-- Reads `n` words, of which `len` bytes from `shift` on go to `dst` at `d`. -/
def plannedRead (addr : UInt32) (n : Nat) (dst : Buffer) (d shift len : Nat) : Prog interface (Int32 × Buffer) :=
  issue succeeded (wordReads addr n) >>= fun r =>
    .ret (if r.2 then 0 else ARM_DRIVER_ERROR,delivered dst d shift len r.1)

theorem wordReads_length (addr : UInt32) (n : Nat) : (wordReads addr n).length = n := by
  induction n generalizing addr with
  | zero => rfl
  | succ n ih => simp [wordReads,ih]

/-- What the rest of a program may use of the words that were read. -/
theorem words_all (addr : UInt32) (n : Nat) :
    (issue succeeded (wordReads addr n) : Prog interface _).All (fun _ => True) fun r =>
      r.1.length ≤ n ∧ (r.2 = true ↔ r.1.length = n) := by
  have all : (issue succeeded (wordReads addr n) : Prog interface _).All (fun _ => True) _ :=
    issue_all fun _ _ => trivial
  rwa [wordReads_length] at all

theorem plannedRead_zero (addr : UInt32) (dst : Buffer) (d shift : Nat) :
    plannedRead addr 0 dst d shift 0 = .ret (0,dst) := by
  simp [plannedRead,wordReads,issue,delivered]

/-- A read in two parts, where the first part is full. -/
theorem plannedRead_append (addr : UInt32) (dst : Buffer) (d len : Nat) {shift n : Nat} (m : Nat)
    (whole : shift ≤ 4 * n) (more : 4 * n - shift ≤ len) :
    plannedRead addr (n + m) dst d shift len = (issue succeeded (wordReads addr n) : Prog interface _) >>= fun r =>
      if r.2 then plannedRead (addr + 4 * UInt32.ofNat n) m (delivered dst d shift len r.1) (d + (4 * n - shift)) 0
        (len - (4 * n - shift))
      else .ret (ARM_DRIVER_ERROR,delivered dst d shift len r.1) := by
  rw [plannedRead,← wordReads_append,issue_append,bind_bind]
  refine bind_congr_all (words_all addr n) fun r counted => ?_
  by_cases done : r.2
  · simp only [done,if_true,bind_bind,ret_bind,plannedRead]
    congr 1
    funext r'
    rw [delivered_append dst d len r'.1 (counted.2.mp done) whole more]
  · simp [done]

/-- A read that starts inside its first word. -/
theorem plannedRead_head (addr : UInt32) (dst : Buffer) (len : Nat) {shift : Nat} (inside : shift < 4) (part : 0 < shift) :
    plannedRead addr ((shift + len + 3) / 4) dst 0 shift len = (issue succeeded (wordReads addr 1) : Prog interface _) >>=
      fun r => if r.2 then plannedRead (addr + 4) ((len - (4 - shift) + 3) / 4) (delivered dst 0 shift len r.1)
        (min len (4 - shift)) 0 (len - (4 - shift))
      else .ret (ARM_DRIVER_ERROR,dst) := by
  have unread : ∀ r : List (Event interface) × Bool, (r.2 = true ↔ r.1.length = 1) → r.1.length ≤ 1 → ¬ r.2 →
      delivered dst 0 shift len r.1 = dst := by
    intro r counted few failed
    have none : r.1.length = 0 := by
      have := mt counted.mpr failed
      omega
    simp [delivered,none]
  by_cases full : 4 - shift ≤ len
  · have split : (shift + len + 3) / 4 = 1 + (len - (4 - shift) + 3) / 4 := by omega
    rw [split,plannedRead_append _ _ _ _ _ (by omega) full]
    refine bind_congr_all (words_all _ 1) fun r counted => ?_
    by_cases done : r.2
    · simp only [done,if_true,Nat.min_eq_right full,Nat.zero_add,Nat.mul_one]
      rfl
    · simp only [done,unread r counted.2 counted.1 done]
      rfl
  · have one : (shift + len + 3) / 4 = 1 := by omega
    have nothing : len - (4 - shift) = 0 := by omega
    rw [one,plannedRead,nothing]
    refine bind_congr_all (words_all _ 1) fun r counted => ?_
    by_cases done : r.2
    · simp only [done,if_true]
      exact (plannedRead_zero _ _ _ _).symm
    · simp only [done,unread r counted.2 counted.1 done]
      rfl

/-- The whole items and what they leave. -/
theorem items_toNat (len : UInt32) : (len / 4).toNat = len.toNat / 4 ∧ (len / 4 * 4).toNat = 4 * (len.toNat / 4) ∧
    (len - len / 4 * 4).toNat = len.toNat % 4 := by
  have four : (4 : UInt32).toNat = 4 := rfl
  have quotient : (len / 4).toNat = len.toNat / 4 := by rw [UInt32.toNat_div,four]
  have items : (len / 4 * 4).toNat = 4 * (len.toNat / 4) := by
    have bound := len.toNat_lt
    rw [toNat_mul_of_lt (by rw [quotient,four]; omega),quotient,four,Nat.mul_comm]
  refine ⟨quotient,items,?_⟩
  rw [toNat_sub_of_le (by rw [items]; omega),items]
  omega

/-- The bytes after the last whole item. -/
theorem readRest_eq (on : OnUnits bsp rom area) {off items rem addr : UInt32} {i : UInt8} {d : Nat}
    (place : (i.toUInt32 + items * 4).toNat = d) (ends : d + 4 ≤ 2 ^ 32)
    (at_ : area.fa_off + off + i.toUInt32 + items * 4 = addr)
    (small : rem.toNat < 4)
    (inside : rem ≠ 0 → area.fa_off.toNat ≤ addr.toNat ∧ addr.toNat + 4 ≤ area.fa_off.toNat + area.fa_size.toNat)
    {status : Int32} (fine : ¬ status < 0) (dst temp : Buffer) :
    readRest area off 4 dst temp status i items rem = plannedRead addr ((rem.toNat + 3) / 4) dst d 0 rem.toNat := by
  by_cases nothing : rem = 0
  · subst nothing
    simp [readRest,fine,plannedRead_zero]
  · have positive := ne_zero_iff.mp nothing
    have one : (rem.toNat + 3) / 4 = 1 := by omega
    rw [one]
    simp only [readRest,ne_eq,nothing,not_false_eq_true,if_true]
    have one : 0 < (1 : UInt32).toNat := by decide
    have word := area_read on one (inside nothing).1 (inside nothing).2 temp 0
    show area.fa_driver.ReadData (area.fa_off + off + i.toUInt32 + items * 4) temp 0 1 >>= _ = _
    rw [at_,word,bind_bind]
    refine bind_congr_all (words_all addr 1) fun r counted => ?_
    by_cases done : r.2
    · have count := counted.2.mp done
      simp only [ret_bind,done,if_true,count]
      rw [if_neg (by decide),if_neg (by decide),copyLoop_eq _ _ _ _ _ d 0 (by omega)]
      · simp only [delivered,count]
        rw [Nat.min_eq_left (by omega)]
        congr 2
        refine copy_congr fun k inside => ?_
        simp only [copy]
        rw [if_pos (by omega)]
        congr 1
        omega
      · intro j inside
        rw [toNat_add_of_lt (by rw [place]; simp; omega),place]
        simp
      · intro j inside
        simp
    · have none : r.1.length = 0 := by
        have := mt counted.2.mpr done
        omega
      simp only [ret_bind,done,none,delivered]
      rw [if_pos (by decide)]
      simp

/-- The whole items and the bytes after them. -/
theorem readItems_eq (on : OnUnits bsp rom area) {off len addr : UInt32} {i : UInt8} (head : i.toNat < 4)
    (at_ : area.fa_off + off + i.toUInt32 = addr)
    (inside : len ≠ 0 → area.fa_off.toNat ≤ addr.toNat ∧
      addr.toNat + 4 * ((len.toNat + 3) / 4) ≤ area.fa_off.toNat + area.fa_size.toNat)
    {status : Int32} (fine : ¬ status < 0) (short : i.toNat + len.toNat + 4 ≤ 2 ^ 32) (dst temp : Buffer) :
    readItems area off 4 dst temp status i len = plannedRead addr ((len.toNat + 3) / 4) dst i.toNat 0 len.toNat := by
  have ends := units_ends on
  by_cases nothing : len = 0
  · subst nothing
    simp [readItems,readRest,fine,plannedRead_zero]
  obtain ⟨low,high⟩ := inside nothing
  obtain ⟨quotient,items,left⟩ := items_toNat len
  simp only [readItems,ne_eq,nothing,not_false_eq_true,if_true]
  by_cases some : len / 4 = 0
  · have few : len.toNat / 4 = 0 := by rw [← quotient,some]; rfl
    simp only [some,not_true_eq_false,if_false]
    refine readRest_eq on (by simp) (by omega) (by simpa using at_) (by omega) (fun _ => ⟨low,?_⟩) fine dst temp
    have positive := ne_zero_iff.mp nothing
    omega
  · have many : 0 < (len / 4).toNat := Nat.pos_of_ne_zero (ne_zero_iff.mp some)
    simp only [some,not_false_eq_true,if_true]
    show area.fa_driver.ReadData (area.fa_off + off + i.toUInt32) dst i.toNat (len / 4) >>= _ = _
    have split : (len.toNat + 3) / 4 = len.toNat / 4 + (len.toNat % 4 + 3) / 4 := by omega
    have whole : 4 * (len.toNat / 4) ≤ len.toNat := by omega
    have small : (len / 4).toNat < 2 ^ 31 := by omega
    have place : (i.toUInt32 + len / 4 * 4).toNat = i.toNat + 4 * (len.toNat / 4) := by
      rw [toNat_add_of_lt (by rw [items]; simp; omega),items]
      simp
    have rest : area.fa_off + off + i.toUInt32 + len / 4 * 4 = addr + 4 * UInt32.ofNat (len.toNat / 4) := by
      rw [at_,UInt32.mul_comm,← quotient,UInt32.ofNat_toNat]
    have next : len - len / 4 * 4 ≠ 0 → (addr + 4 * UInt32.ofNat (len.toNat / 4)).toNat =
        addr.toNat + 4 * (len.toNat / 4) := by
      intro more
      have := ne_zero_iff.mp more
      rw [← rest,at_,toNat_add_of_lt (by rw [items]; omega),items]
    rw [split,plannedRead_append _ _ _ _ _ (Nat.zero_le _) (by omega),at_,
      area_read on many low (by rw [quotient]; omega),quotient,bind_bind]
    refine bind_congr_all (words_all _ _) fun r counted => ?_
    by_cases done : r.2
    · have count := counted.2.mp done
      simp only [ret_bind,done,if_true,delivered,count,Nat.sub_zero,Nat.min_eq_right whole]
      rw [if_neg (toInt32_nonneg small),
        readRest_eq on place (by omega) rest (by omega) (fun more => ?_) (toInt32_nonneg small),left]
      · congr 1
        omega
      · have := ne_zero_iff.mp more
        rw [next more]
        omega
    · simp only [ret_bind,done,Bool.false_eq_true,if_false]
      rw [if_pos (by decide),delivered,Nat.sub_zero,Nat.min_eq_right (by omega)]

theorem read_rejects [Bootutil] {I : Interface} {area : flash_area I} {off len : UInt32}
    (outside : ¬ off.toNat + len.toNat ≤ area.fa_size.toNat) (dst : Buffer) :
    flash_area_read area off dst len = .ret (-1,dst) := by
  simp only [flash_area_read,is_range_valid_eq]
  simp [outside]

/-! The bytes before the first whole item. -/

theorem floor_add {fa_off fa_size off : UInt32} (ends : fa_off.toNat + fa_size.toNat ≤ 2 ^ 32)
    (whole : fa_size.toNat % 4 = 0) (inside : off.toNat ≤ fa_size.toNat) (part : off.toNat % 4 ≠ 0) :
    (fa_off + FLOOR_ALIGN off 4).toNat = fa_off.toNat + 4 * (off.toNat / 4) := by
  rw [toNat_add_of_lt (by rw [floor_align_four]; omega),floor_align_four]

theorem floor_shift (off : UInt32) : (off - FLOOR_ALIGN off 4).toNat = off.toNat % 4 := by
  have floor := floor_align_four off
  rw [toNat_sub_of_le (by rw [floor]; omega),floor]
  omega

theorem floor_part {off : UInt32} (part : FLOOR_ALIGN off 4 ≠ off) : off.toNat % 4 ≠ 0 := by
  intro zero
  have floor := floor_align_four off
  exact part (eq_iff_toNat.mpr (by omega))

theorem floor_whole {off : UInt32} (aligned : FLOOR_ALIGN off 4 = off) : off.toNat % 4 = 0 := by
  rw [← floor_shift,aligned,UInt32.sub_self]
  rfl

/-- How many bytes the read takes of its first word. -/
theorem head_length {off len : UInt32} (fits : off.toNat + len.toNat < 2 ^ 32) :
    (if off - FLOOR_ALIGN off 4 + len ≥ 4 then 4 - (off - FLOOR_ALIGN off 4) else len).toNat =
      min len.toNat (4 - off.toNat % 4) := by
  have four : (4 : UInt32).toNat = 4 := rfl
  have sum : (off - FLOOR_ALIGN off 4 + len).toNat = off.toNat % 4 + len.toNat := by
    rw [toNat_add_of_lt (by rw [floor_shift]; omega),floor_shift]
  have full : off - FLOOR_ALIGN off 4 + len ≥ 4 ↔ 4 ≤ off.toNat % 4 + len.toNat := by
    rw [ge_iff_le,UInt32.le_iff_toNat_le,sum,four]
  by_cases more : off - FLOOR_ALIGN off 4 + len ≥ 4
  · have := full.mp more
    rw [if_pos more,toNat_sub_of_le (by rw [floor_shift,four]; omega),floor_shift,four]
    omega
  · have := mt full.mpr more
    rw [if_neg more]
    omega

/-- The loop on the first word. -/
theorem copyHead_eq (src dst : Buffer) (off : UInt32) {n : UInt32} (few : n.toNat ≤ 4) :
    copyLoop src (fun i => i.toUInt32) (fun i => i.toUInt32 + off - FLOOR_ALIGN off 4) n 256 dst 0 =
      (copy dst 0 src (off.toNat % 4) n.toNat,UInt8.ofNat n.toNat) := by
  refine copyLoop_eq _ _ _ _ _ 0 (off.toNat % 4) (by omega) (fun j _ => by simp) fun j inside => ?_
  have counter : j.toUInt32.toNat = j.toNat := by simp
  have apart : j.toUInt32 + off - FLOOR_ALIGN off 4 = off - FLOOR_ALIGN off 4 + j.toUInt32 := by
    rw [UInt32.sub_eq_add_neg,UInt32.sub_eq_add_neg,UInt32.add_assoc,UInt32.add_comm]
  rw [apart,toNat_add_of_lt (by rw [floor_shift,counter]; omega),floor_shift,counter]

/-- The rest of the read goes on at the next word. -/
theorem head_next {fa_off off n : UInt32} (few : n.toNat = 4 - off.toNat % 4) (fits : off.toNat + n.toNat < 2 ^ 32) :
    fa_off + off + (UInt8.ofNat n.toNat).toUInt32 = fa_off + FLOOR_ALIGN off 4 + 4 := by
  have floor := floor_align_four off
  have four : (4 : UInt32).toNat = 4 := rfl
  have counter : (UInt8.ofNat n.toNat).toUInt32.toNat = n.toNat := by simp; omega
  rw [UInt32.add_assoc,UInt32.add_assoc]
  congr 1
  rw [eq_iff_toNat,toNat_add_of_lt (by rw [counter]; omega),toNat_add_of_lt (by rw [floor,four]; omega),floor,counter,four]
  omega

/-- A read that fits reads the words around the bytes it is asked for. -/
theorem units_read_eq [Bootutil] (on : OnUnits bsp rom area) {off len : UInt32}
    (fits : off.toNat + len.toNat ≤ area.fa_size.toNat) (dst : Buffer) :
    flash_area_read area off dst len =
      plannedRead (area.fa_off + FLOOR_ALIGN off 4) ((off.toNat % 4 + len.toNat + 3) / 4) dst 0 (off.toNat % 4) len.toNat := by
  have ends := units_ends on
  have whole := on.size_aligned
  have start := on.off_aligned
  have bound := area.fa_size.toNat_lt
  have floor := floor_align_four off
  have valid : is_range_valid area off len = true := range_valid fits
  simp only [flash_area_read,valid,Bool.not_true,Bool.false_eq_true,if_false,units_data_width on]
  by_cases aligned : FLOOR_ALIGN off 4 = off
  · have none := floor_whole aligned
    simp only [aligned,ne_eq,not_true_eq_false,if_false,none,Nat.zero_add]
    refine readItems_eq on (by decide) (by simp) (fun some => ?_) (by decide) (by simp; omega) dst stackArray
    have positive := ne_zero_iff.mp some
    rw [toNat_add_of_lt (by omega)]
    omega
  · have part := floor_part aligned
    have base := floor_add ends (by omega) (by omega) part
    simp only [ne_eq,aligned,not_false_eq_true,if_true]
    show area.fa_driver.ReadData (area.fa_off + FLOOR_ALIGN off 4) stackArray 0 1 >>= _ = _
    rw [area_read on (by decide) (by omega) (by rw [base]; simp; omega),bind_bind]
    have taken := @head_length off len (by omega)
    generalize (if off - FLOOR_ALIGN off 4 + len ≥ 4 then 4 - (off - FLOOR_ALIGN off 4) else len) = rl at taken ⊢
    have left : (len - rl).toNat = len.toNat - (4 - off.toNat % 4) := by
      rw [toNat_sub_of_le (by omega)]
      omega
    have counter : (UInt8.ofNat rl.toNat).toNat = rl.toNat := by simp; omega
    have copied : ∀ es : List (Event interface), es.length = 1 →
        copy dst 0 (copy stackArray 0 (heard es) 0 (4 * es.length)) (off.toNat % 4) rl.toNat =
        delivered dst 0 (off.toNat % 4) len.toNat es := by
      intro es count
      rw [delivered,count,taken]
      refine copy_congr fun k inside => ?_
      simp only [copy]
      rw [if_pos (by omega)]
      congr 1
      omega
    rw [plannedRead_head _ _ _ (Nat.mod_lt _ (by decide)) (Nat.pos_of_ne_zero part)]
    refine bind_congr_all (words_all _ 1) fun r counted => ?_
    by_cases done : r.2
    · simp only [ret_bind,done,if_true]
      rw [if_neg (by decide),copyHead_eq _ _ _ (by omega)]
      dsimp only
      rw [copied r.1 (counted.2.mp done)]
      by_cases finished : len - rl = 0
      · have nothing : len.toNat - (4 - off.toNat % 4) = 0 := by rw [← left,finished]; rfl
        rw [finished,nothing,plannedRead_zero]
        simp [readItems,readRest]
      · have more := ne_zero_iff.mp finished
        have next := @head_next area.fa_off off rl (by omega) (by omega)
        rw [readItems_eq on (by omega) next (fun _ => ?_) (by decide) (by omega),counter,taken,left]
        rw [toNat_add_of_lt (by rw [base]; simp; omega),base,left]
        simp; omega
    · simp only [ret_bind,done,Bool.false_eq_true,if_false]
      rw [if_pos (by decide)]

theorem flash_area_read_rejects [Bootutil] (a : InternalArea bsp) {off len : UInt32}
    (outside : ¬ off.toNat + len.toNat ≤ a.fa_size.toNat) (dst : Buffer) :
    flash_area_read a.area off dst len = .ret (-1,dst) := read_rejects outside dst
theorem flash_area_read_eq [Bootutil] (a : InternalArea bsp) {off len : UInt32}
    (fits : off.toNat + len.toNat ≤ a.fa_size.toNat) (dst : Buffer) :
    flash_area_read a.area off dst len =
      plannedRead (a.fa_off + FLOOR_ALIGN off 4) ((off.toNat % 4 + len.toNat + 3) / 4) dst 0 (off.toNat % 4) len.toNat :=
  units_read_eq (internal_units a) fits dst

/-! ### Erasing -/

/-- Issues the calls, and returns 0 when all of them succeed and -1 otherwise. -/
def planned (cs : List Call) : Prog interface Int32 :=
  issue succeeded cs >>= fun r => .ret (if r.2 then 0 else -1)

@[simp] theorem planned_nil : planned [] = .ret 0 := rfl

theorem planned_append (xs ys : List Call) : planned (xs ++ ys) = (issue succeeded xs : Prog interface _) >>= fun r =>
    if r.2 then planned ys else .ret (-1) := by
  rw [planned,issue_append,bind_bind]
  congr 1
  funext r
  by_cases done : r.2
  · simp only [done,if_true,bind_bind,ret_bind,planned]
  · simp [done]

/-- Erases of `n` sectors from an address on. -/
def sectorErases (page : UInt32) : (addr : UInt32) → (n : Nat) → List Call
  | _, 0 => []
  | addr, n + 1 => .NVT_NVMC_Erase addr :: sectorErases page (addr + page) n

theorem eraseLoop_eq (a : InternalArea bsp) (len : UInt32) (n : Nat) :
    ∀ (rounds : Nat) (off deleted_len : UInt32), n < rounds → off.toNat % bsp.FLASH_PAGE_SIZE.toNat = 0 →
    off.toNat + bsp.FLASH_PAGE_SIZE.toNat * n ≤ a.fa_size.toNat → deleted_len.toNat ≤ off.toNat →
    len.toNat ≤ deleted_len.toNat + bsp.FLASH_PAGE_SIZE.toNat * n →
    (0 < n → deleted_len.toNat + bsp.FLASH_PAGE_SIZE.toNat * (n - 1) < len.toNat) →
    eraseLoop a.area len rounds off deleted_len =
      planned (sectorErases bsp.FLASH_PAGE_SIZE (a.fa_off + off) n) := by
  have ends := area_ends a
  have page := a.sound.page.1
  have bound := a.fa_size.toNat_lt
  induction n with
  | zero =>
    intro rounds off deleted_len enough aligned inside below finished _
    cases rounds with
    | zero => omega
    | succ rounds =>
      have past : ¬ deleted_len < len := by rw [UInt32.lt_iff_toNat_lt]; omega
      simp [eraseLoop,past,sectorErases]
  | succ n ih =>
    intro rounds off deleted_len enough aligned inside below finished unfinished
    rw [Nat.mul_succ] at inside finished
    have left := unfinished (Nat.succ_pos n)
    rw [Nat.add_sub_cancel] at left
    cases rounds with
    | zero => omega
    | succ rounds =>
      have more : deleted_len < len := by rw [UInt32.lt_iff_toNat_lt]; omega
      have place : (a.fa_off + off).toNat = a.fa_off.toNat + off.toNat := toNat_add_of_lt (by omega)
      have nextOff : (off + bsp.FLASH_PAGE_SIZE).toNat = off.toNat + bsp.FLASH_PAGE_SIZE.toNat :=
        toNat_add_of_lt (by omega)
      have nextDeleted : (deleted_len + bsp.FLASH_PAGE_SIZE).toNat = deleted_len.toNat + bsp.FLASH_PAGE_SIZE.toNat :=
        toNat_add_of_lt (by omega)
      have start : (a.fa_off + off).toNat % bsp.FLASH_PAGE_SIZE.toNat = 0 := by
        rw [place,Nat.add_mod,a.off_aligned,aligned,Nat.zero_mod]
      simp only [eraseLoop,more,if_true,area_sector_size]
      show a.area.fa_driver.EraseSector (a.fa_off + off) >>= _ = planned ([.NVT_NVMC_Erase (a.fa_off + off)] ++ _)
      rw [area_erase a (by omega) (by omega) start,planned_append,bind_bind]
      congr 1
      funext r
      by_cases done : r.2
      · simp only [ret_bind,done,if_true,ne_eq,not_true_eq_false,if_false]
        rw [ih rounds _ _ (by omega) (by rw [nextOff,Nat.add_mod,aligned]; simp) (by omega) (by omega) (by omega),
          UInt32.add_assoc]
        intro positive
        have split : n = n - 1 + 1 := by omega
        rw [split,Nat.mul_succ] at left
        omega
      · simp only [ret_bind,done,Bool.false_eq_true,if_false]
        rw [if_pos (by decide)]

/-- How many sectors hold `len` bytes. -/
def sectorsFor (page len : Nat) : Nat := (len + page - 1) / page

theorem sectorsFor_le {page len m : Nat} (positive : 0 < page) (fits : len ≤ page * m) : sectorsFor page len ≤ m := by
  refine Nat.le_of_lt_succ (Nat.div_lt_of_lt_mul ?_)
  rw [Nat.mul_succ]
  omega
theorem sectorsFor_enough {page : Nat} (len : Nat) (positive : 0 < page) : len ≤ page * sectorsFor page len := by
  have split := Nat.div_add_mod (len + page - 1) page
  have part := Nat.mod_lt (len + page - 1) positive
  rw [sectorsFor]
  omega
theorem sectorsFor_least {page len : Nat} (positive : 0 < page) (some : 0 < sectorsFor page len) :
    page * (sectorsFor page len - 1) < len := by
  have split := Nat.div_mul_le_self (len + page - 1) page
  have whole : sectorsFor page len = sectorsFor page len - 1 + 1 := by omega
  rw [← sectorsFor,whole,Nat.add_mul,Nat.mul_comm] at split
  omega
theorem sectorsFor_whole {page len : Nat} (positive : 0 < page) (whole : len % page = 0) :
    page * sectorsFor page len = len := by
  have split := Nat.div_add_mod len page
  have least : sectorsFor page len ≤ len / page := sectorsFor_le positive (by omega)
  have enough := sectorsFor_enough len positive
  have := Nat.mul_le_mul_left page least
  omega

/-- The sectors for a range inside an area are inside it too. -/
theorem sectors_inside (a : InternalArea bsp) {off len : Nat} (aligned : off % bsp.FLASH_PAGE_SIZE.toNat = 0)
    (fits : off + len ≤ a.fa_size.toNat) :
    off + bsp.FLASH_PAGE_SIZE.toNat * sectorsFor bsp.FLASH_PAGE_SIZE.toNat len ≤ a.fa_size.toNat := by
  have page := a.sound.page.1
  have first := Nat.div_add_mod off bsp.FLASH_PAGE_SIZE.toNat
  have last := Nat.div_add_mod a.fa_size.toNat bsp.FLASH_PAGE_SIZE.toNat
  have whole := a.size_aligned
  have count : sectorsFor bsp.FLASH_PAGE_SIZE.toNat len ≤
      a.fa_size.toNat / bsp.FLASH_PAGE_SIZE.toNat - off / bsp.FLASH_PAGE_SIZE.toNat := by
    refine sectorsFor_le page ?_
    rw [Nat.mul_sub]
    omega
  have total := Nat.mul_le_mul_left bsp.FLASH_PAGE_SIZE.toNat count
  rw [Nat.mul_sub] at total
  omega

/-- Where the sectors of an erase are, when there are some. -/
theorem sectors_place (a : InternalArea bsp) {off : UInt32} {len : Nat}
    (aligned : off.toNat % bsp.FLASH_PAGE_SIZE.toNat = 0) (fits : off.toNat + len ≤ a.fa_size.toNat)
    (some : 0 < sectorsFor bsp.FLASH_PAGE_SIZE.toNat len) : (a.fa_off + off).toNat = a.fa_off.toNat + off.toNat ∧
      (a.fa_off + off).toNat % bsp.FLASH_PAGE_SIZE.toNat = 0 := by
  have ends := area_ends a
  have page := a.sound.page.1
  have inside := sectors_inside a aligned fits
  have size := Nat.le_mul_of_pos_right bsp.FLASH_PAGE_SIZE.toNat some
  have place : (a.fa_off + off).toNat = a.fa_off.toNat + off.toNat := toNat_add_of_lt (by omega)
  exact ⟨place,by rw [place,Nat.add_mod,a.off_aligned,aligned,Nat.zero_mod]⟩

theorem flash_area_erase_rejects [Bootutil] (a : InternalArea bsp) {off len : UInt32}
    (outside : ¬ off.toNat + len.toNat ≤ a.fa_size.toNat) : flash_area_erase a.area off len = .ret (-1) := by
  simp only [flash_area_erase,is_range_valid_eq]
  rw [show a.area.fa_size = a.fa_size from rfl]
  simp [outside]

/-- An erase that starts at a sector goes over all sectors that hold a byte of the range. -/
theorem flash_area_erase_eq [Bootutil] (a : InternalArea bsp) {off len : UInt32}
    (fits : off.toNat + len.toNat ≤ a.fa_size.toNat) (aligned : off.toNat % bsp.FLASH_PAGE_SIZE.toNat = 0) :
    flash_area_erase a.area off len = planned (sectorErases bsp.FLASH_PAGE_SIZE (a.fa_off + off)
      (sectorsFor bsp.FLASH_PAGE_SIZE.toNat len.toNat)) := by
  have page := a.sound.page.1
  have valid : is_range_valid a.area off len = true := range_valid fits
  simp only [flash_area_erase,valid,area_sector_info,Bool.not_true,Bool.false_eq_true,if_false,Option.isNone_none,if_true]
  refine eraseLoop_eq a len _ _ _ _ ?_ aligned (sectors_inside a aligned fits) (by simp) ?_ ?_
  · exact Nat.lt_succ_of_le (sectorsFor_le page (Nat.le_mul_of_pos_left _ page))
  · simpa using sectorsFor_enough len.toNat page
  · intro some
    simpa using sectorsFor_least page some

/-- An erase that starts inside a sector erases nothing. -/
theorem flash_area_erase_misaligned [Bootutil] (a : InternalArea bsp) {off len : UInt32}
    (fits : off.toNat + len.toNat ≤ a.fa_size.toNat) (misaligned : off.toNat % bsp.FLASH_PAGE_SIZE.toNat ≠ 0) :
    flash_area_erase a.area off len = .ret (if len = 0 then 0 else ARM_DRIVER_ERROR_PARAMETER) := by
  have ends := area_ends a
  have valid : is_range_valid a.area off len = true := range_valid fits
  simp only [flash_area_erase,valid,area_sector_info,Bool.not_true,Bool.false_eq_true,if_false,Option.isNone_none,if_true]
  by_cases nothing : len = 0
  · simp [nothing,eraseLoop]
  · have some := ne_zero_iff.mp nothing
    have more : 0 < len := by rw [UInt32.lt_iff_toNat_lt]; simp; omega
    have place : (a.fa_off + off).toNat = a.fa_off.toNat + off.toNat := toNat_add_of_lt (by omega)
    have rejected : a.area.fa_driver.EraseSector (a.fa_off + off) = .ret ARM_DRIVER_ERROR_PARAMETER := by
      have refused : is_sector_aligned (a.rom.dev bsp) (a.fa_off + off) ≠ 0 := by
        rw [ne_eq,is_sector_aligned_iff,dev_sector_size,place,Nat.add_mod,a.off_aligned,Nat.zero_add,Nat.mod_mod]
        exact misaligned
      rw [← eraseSectorOn_rejects fun passed => refused passed.2]
      obtain ⟨rom⟩ := a
      cases rom <;> rfl
    simp only [eraseLoop,more,if_true,nothing,if_false]
    show a.area.fa_driver.EraseSector (a.fa_off + off) >>= _ = _
    rw [rejected]
    rfl

/-! ### On the controller -/

theorem pageStart_aligned {addr : UInt32} (aligned : addr.toNat % bsp.FLASH_PAGE_SIZE.toNat = 0) :
    pageStart bsp addr = addr.toNat := by
  have split := Nat.div_add_mod addr.toNat bsp.FLASH_PAGE_SIZE.toNat
  rw [pageStart]
  omega

theorem sectorErases_take (page : UInt32) (n i : Nat) : ∀ addr : UInt32,
    (sectorErases page addr n).take i = sectorErases page addr (min i n) := by
  induction n generalizing i with
  | zero => simp [sectorErases]
  | succ n ih =>
    intro addr
    cases i with
    | zero => simp [sectorErases]
    | succ i => rw [Nat.succ_min_succ,sectorErases,sectorErases,List.take_succ_cons,ih]

theorem after_sectorErases (page : 0 < bsp.FLASH_PAGE_SIZE.toNat) (n : Nat) : ∀ (M : Content) (addr : UInt32),
    addr.toNat % bsp.FLASH_PAGE_SIZE.toNat = 0 → addr.toNat + bsp.FLASH_PAGE_SIZE.toNat * n ≤ 2 ^ 32 →
    after (machine bsp) (sectorErases bsp.FLASH_PAGE_SIZE addr n) M =
      fill 0xFF M addr.toNat (bsp.FLASH_PAGE_SIZE.toNat * n) := by
  induction n with
  | zero => intro M addr _ _; simp [sectorErases,after]
  | succ n ih =>
    intro M addr aligned fits
    rw [Nat.mul_succ] at fits
    simp only [sectorErases,after,machine,erased,pageStart_aligned aligned]
    cases n with
    | zero => simp [sectorErases,after]
    | succ n =>
      rw [Nat.mul_succ] at fits
      have next : (addr + bsp.FLASH_PAGE_SIZE).toNat = addr.toNat + bsp.FLASH_PAGE_SIZE.toNat :=
        toNat_add_of_lt (by omega)
      rw [ih _ _ (by rw [next,Nat.add_mod,aligned]; simp) (by rw [next,Nat.mul_succ]; omega),next,fill_append,
        Nat.mul_succ _ (n + 1),Nat.add_comm]

end NuMicroBoot.AreaPlans
