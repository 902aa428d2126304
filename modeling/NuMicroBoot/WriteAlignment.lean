import NuMicroBoot.AreaReads
import NuMicroBoot.WritePlans

/-!
What `flash_area_align` promises. It answers with the program unit of the driver,
while `flash_area_write` pads to the program unit of the flash layout, which is 8
on every platform. Where the driver has a smaller one, a write that is aligned by
the answer may program bytes around its range.
-/

namespace NuMicroBoot.WriteAlignment
open NuMicroBoot.Calls NuMicroBoot.Calls.Prog NuMicroBoot.Words NuMicroBoot.Driver NuMicroBoot.FlashMap
open NuMicroBoot.Nvmc (Bsp)
open NuMicroBoot.ExternalDriver (Variant)
open NuMicroBoot.ExternalBounds NuMicroBoot.DriverReads NuMicroBoot.AreaPlans NuMicroBoot.WritePlans
open NuMicroBoot.FlashLayout NuMicroBoot.AreaReads

/-! ### Writing over the functions of a driver -/

section
variable {I : Interface} (area : flash_area I)

theorem translate_program {α : Type} {addr cnt : UInt32} {data : Buffer} {p : Nat} {next : Int32 → Prog functions α}
    {next' : Int32 → Prog I α} (rest : ∀ r, (next r).translate (carryOut area.fa_driver) = next' r) :
    ((onCalls area).fa_driver.ProgramData addr data p cnt >>= next).translate (carryOut area.fa_driver) =
      area.fa_driver.ProgramData addr data p cnt >>= next' := by
  show (area.fa_driver.ProgramData addr data p cnt >>= fun r => (next r).translate (carryOut area.fa_driver)) = _
  rw [funext rest]

variable (off : UInt32) (src : Buffer) (len data_width aligned_len add_padding_size len_padding_size : UInt32)
  (len_padding : Buffer)

theorem writeLast_calls (add_padding : Buffer) (idx : UInt32) :
    (writeLast (onCalls area) off src len data_width aligned_len add_padding_size len_padding_size len_padding
      add_padding idx).translate (carryOut area.fa_driver) =
      writeLast area off src len data_width aligned_len add_padding_size len_padding_size len_padding add_padding idx := by
  unfold writeLast
  refine translate_ite (translate_ite rfl (translate_ite rfl ?_)) rfl
  exact translate_program area fun r => translate_ite rfl rfl

theorem writeAligned_calls (add_padding : Buffer) (idx : UInt32) :
    (writeAligned (onCalls area) off src len data_width aligned_len add_padding_size len_padding_size len_padding
      add_padding idx).translate (carryOut area.fa_driver) =
      writeAligned area off src len data_width aligned_len add_padding_size len_padding_size len_padding add_padding idx := by
  unfold writeAligned
  refine translate_ite (translate_ite (translate_program area fun r => translate_ite rfl ?_) ?_) rfl
  · exact writeLast_calls area off src len data_width aligned_len add_padding_size len_padding_size len_padding _ _
  · exact writeLast_calls area off src len data_width aligned_len add_padding_size len_padding_size len_padding _ _

theorem writeUnits_calls (aligned_off : UInt32) (add_padding : Buffer) :
    (writeUnits (onCalls area) off src len data_width aligned_len add_padding_size len_padding_size len_padding
      aligned_off add_padding).translate (carryOut area.fa_driver) =
      writeUnits area off src len data_width aligned_len add_padding_size len_padding_size len_padding aligned_off
        add_padding := by
  unfold writeUnits
  refine translate_ite (translate_ite rfl (translate_ite rfl ?_)) ?_
  · refine translate_program area fun r => translate_ite rfl ?_
    exact writeAligned_calls area off src len data_width aligned_len add_padding_size len_padding_size len_padding _ _
  · exact writeAligned_calls area off src len data_width aligned_len add_padding_size len_padding_size len_padding _ _

theorem translate_area_read [Bootutil] {α : Type} {dst : Buffer} {next : Int32 × Buffer → Prog functions α}
    {next' : Int32 × Buffer → Prog I α} (rest : ∀ r, (next r).translate (carryOut area.fa_driver) = next' r) :
    (flash_area_read (onCalls area) off dst len >>= next).translate (carryOut area.fa_driver) =
      flash_area_read area off dst len >>= next' := by
  rw [translate_bind,read_calls,funext rest]

/-- A write is the same program over the functions of its driver. -/
theorem write_calls [Bootutil] : (flash_area_write (onCalls area) off src len).translate (carryOut area.fa_driver) =
    flash_area_write area off src len := by
  unfold flash_area_write
  refine translate_ite rfl (translate_area_read area _ _ fun r => translate_ite rfl (translate_ite rfl ?_))
  refine translate_area_read area _ _ fun r' => translate_ite rfl ?_
  exact writeUnits_calls area off src len _ _ _ _ _ _ _

end

/-! ### What a write programs -/

/-- A request programs bytes of the range only. -/
def Inside (a n : Nat) : Access → Prop
  | .ReadData _ _ _ _ => True
  | .ProgramData addr _ _ cnt => ∀ k < 4 * cnt.toNat, a ≤ addr.toNat + k ∧ addr.toNat + k < a + n
  | .EraseSector _ => False

/-- Whatever the driver answers, the write programs bytes of its own range only. -/
def KeepsRange {I : Interface} [Bootutil] (area : flash_area I) (off : UInt32) (src : Buffer) (len : UInt32) : Prop :=
  (flash_area_write (onCalls area) off src len).All (Inside (area.fa_off.toNat + off.toNat) len.toNat) fun _ => True

section
variable {I : Interface} {area : flash_area I} {a n : Nat}

theorem readRest_inside (off data_width : UInt32) (dst temp : Buffer) (status : Int32) (i : UInt8) (items rem : UInt32) :
    (readRest (onCalls area) off data_width dst temp status i items rem).All (Inside a n) fun _ => True := by
  unfold readRest
  exact all_ite (fun _ => ⟨trivial,fun r => all_ite (fun _ => trivial) fun _ => trivial⟩) fun _ => trivial

theorem readItems_inside (off data_width : UInt32) (dst temp : Buffer) (status : Int32) (i : UInt8) (rem : UInt32) :
    (readItems (onCalls area) off data_width dst temp status i rem).All (Inside a n) fun _ => True := by
  unfold readItems
  refine all_ite (fun _ => all_ite (fun _ => ⟨trivial,fun r => all_ite (fun _ => trivial) fun _ => ?_⟩) fun _ => ?_) fun _ => ?_
  · exact readRest_inside _ _ _ _ _ _ _ _
  · exact readRest_inside _ _ _ _ _ _ _ _
  · exact readRest_inside _ _ _ _ _ _ _ _

/-- Reading programs nothing. -/
theorem read_inside [Bootutil] (off : UInt32) (dst : Buffer) (len : UInt32) :
    (flash_area_read (onCalls area) off dst len).All (Inside a n) fun _ => True := by
  unfold flash_area_read
  refine all_ite (fun _ => trivial) fun _ => all_ite (fun _ => ⟨trivial,fun r => all_ite (fun _ => trivial) fun _ => ?_⟩) fun _ => ?_
  · exact readItems_inside _ _ _ _ _ _ _
  · exact readItems_inside _ _ _ _ _ _ _

/-- A driver whose functions all report success. -/
def willing : Machine functions Unit
  | .ReadData _ data _ _, s => ((0,data),s)
  | .ProgramData _ _ _ _, s => ((0 : Int32),s)
  | .EraseSector _, s => ((0 : Int32),s)

theorem run_readRest (off data_width : UInt32) (dst temp : Buffer) (i : UInt8) (items rem : UInt32) :
    ∃ dst', (readRest (onCalls area) off data_width dst temp 0 i items rem).run willing () = some ((0,dst'),()) := by
  unfold readRest
  by_cases more : rem ≠ 0
  · rw [if_pos more]
    exact ⟨_,rfl⟩
  · rw [if_neg more]
    exact ⟨_,rfl⟩

theorem run_readItems (off data_width : UInt32) (dst temp : Buffer) (i : UInt8) (rem : UInt32) :
    ∃ dst', (readItems (onCalls area) off data_width dst temp 0 i rem).run willing () = some ((0,dst'),()) := by
  unfold readItems
  by_cases more : rem ≠ 0
  · rw [if_pos more]
    by_cases whole : rem / data_width ≠ 0
    · dsimp only
      rw [if_pos whole]
      exact run_readRest _ _ _ _ _ _ _
    · dsimp only
      rw [if_neg whole]
      exact run_readRest _ _ _ _ _ _ _
  · rw [if_neg more]
    exact run_readRest _ _ _ _ _ _ _

/-- A read that is in range succeeds with it. -/
theorem run_area_read [Bootutil] {off : UInt32} {dst : Buffer} {len : UInt32} (fits : off.toNat + len.toNat ≤ area.fa_size.toNat) :
    ∃ dst', (flash_area_read (onCalls area) off dst len).run willing () = some ((0,dst'),()) := by
  have valid : is_range_valid (onCalls area) off len = true := range_valid fits
  unfold flash_area_read
  rw [valid,if_neg (by decide)]
  dsimp only
  by_cases part : FLOOR_ALIGN off (data_width_byte (onCalls area).fa_driver.GetCapabilities.data_width) ≠ off
  · rw [if_pos part]
    exact run_readItems _ _ _ _ _ _
  · rw [if_neg part]
    exact run_readItems _ _ _ _ _ _

/-! The units of a write, with the sizes it computes. -/

variable {off len aligned_len add_padding_size len_padding_size : UInt32}
  (sizes : Sizes off len aligned_len add_padding_size len_padding_size)
  (ends : area.fa_off.toNat + area.fa_size.toNat ≤ 2 ^ 32) (fits : off.toNat + len.toNat ≤ area.fa_size.toNat)
include sizes ends fits

/-- A range of whole units of the layout needs no padding. -/
theorem writeUnits_inside (start : off.toNat % 8 = 0) (whole : len.toNat % 8 = 0) (src add_padding len_padding : Buffer) :
    (writeUnits (onCalls area) off src len 4 aligned_len add_padding_size len_padding_size len_padding
      (FLOOR_ALIGN off FLASH_PROGRAM_UNIT) add_padding).All (Inside (area.fa_off.toNat + off.toNat) len.toNat) fun _ => True := by
  obtain ⟨head,total,tail⟩ := sizes
  have none : add_padding_size = 0 := by
    rw [eq_iff_toNat,head,start]
    rfl
  have nothing : len_padding_size = 0 := by
    have zero : (0 : UInt32).toNat = 0 := rfl
    rw [eq_iff_toNat]
    omega
  have last : ∀ idx, (writeLast (onCalls area) off src len 4 aligned_len add_padding_size len_padding_size len_padding
      add_padding idx).All (Inside (area.fa_off.toNat + off.toNat) len.toNat) fun _ => True := by
    intro idx
    unfold writeLast
    rw [nothing,if_neg (by decide)]
    trivial
  unfold writeUnits
  rw [if_neg (by rw [none]; decide)]
  unfold writeAligned
  refine all_ite (fun more => all_ite (fun _ => ⟨?_,fun r => all_ite (fun _ => trivial) fun _ => last _⟩) fun _ => last _)
    fun _ => trivial
  have some : 0 < len.toNat := UInt32.lt_iff_toNat_lt.mp more
  have place : (area.fa_off + off + 0).toNat = area.fa_off.toNat + off.toNat := by
    rw [UInt32.add_zero]
    exact toNat_add_of_lt (by omega)
  have words : (FLOOR_ALIGN (len - 0) FLASH_PROGRAM_UNIT / 4).toNat = 8 * (len.toNat / 8) / 4 := by
    rw [UInt32.sub_zero,UInt32.toNat_div,floor_align_eight]
    rfl
  intro k inside
  change area.fa_off.toNat + off.toNat ≤ (area.fa_off + off + 0).toNat + k ∧ (area.fa_off + off + 0).toNat + k < _
  omega

/-- A last unit that is not full ends behind the range. -/
theorem writeLast_outside (start : off.toNat % 8 = 0) (part : len.toNat % 8 ≠ 0) (src add_padding len_padding : Buffer)
    (idx : UInt32) (at_ : idx.toNat = 8 * (len.toNat / 8)) :
    ¬ (writeLast (onCalls area) off src len 4 aligned_len add_padding_size len_padding_size len_padding
      add_padding idx).All (Inside (area.fa_off.toNat + off.toNat) len.toNat) fun _ => True := by
  obtain ⟨head,total,tail⟩ := sizes
  have some : len_padding_size ≠ 0 := ne_zero_iff.mpr (by omega)
  rw [writeLast_program (by omega) fun _ => by omega,if_neg some]
  intro all
  have high := (all.1 7 (by decide)).2
  have first : (area.fa_off + off).toNat = area.fa_off.toNat + off.toNat := toNat_add_of_lt (by omega)
  have place : (area.fa_off + off + idx).toNat = area.fa_off.toNat + off.toNat + idx.toNat := by
    rw [toNat_add_of_lt (by omega),first]
  change (area.fa_off + off + idx).toNat + 7 < _ at high
  omega

/-- Any range that is not made of whole units is padded, and the padding is programmed too. -/
theorem writeUnits_outside (part : ¬ (off.toNat % 8 = 0 ∧ len.toNat % 8 = 0)) (src add_padding len_padding : Buffer) :
    ¬ (writeUnits (onCalls area) off src len 4 aligned_len add_padding_size len_padding_size len_padding
      (FLOOR_ALIGN off FLASH_PROGRAM_UNIT) add_padding).All (Inside (area.fa_off.toNat + off.toNat) len.toNat) fun _ => True := by
  intro all
  have floor := floor_align_eight
  by_cases start : off.toNat % 8 = 0
  · have rest : len.toNat % 8 ≠ 0 := fun whole => part ⟨start,whole⟩
    have last := writeLast_outside sizes ends fits start rest src add_padding len_padding
    have none : ¬ add_padding_size ≠ 0 := by
      rw [ne_zero_iff,sizes.head,start]
      decide
    have zero : (0 : UInt32).toNat = 0 := rfl
    have more : 0 < len := by
      rw [UInt32.lt_iff_toNat_lt]
      omega
    unfold writeUnits writeAligned at all
    rw [if_neg none,if_pos more] at all
    dsimp only at all
    by_cases some : FLOOR_ALIGN (len - 0) FLASH_PROGRAM_UNIT > 0
    · rw [if_pos some] at all
      refine last _ ?_ (all.2 (0 : Int32))
      rw [UInt32.zero_add,UInt32.sub_zero,floor]
    · rw [if_neg some] at all
      rw [gt_iff_lt,UInt32.lt_iff_toNat_lt,UInt32.sub_zero,floor] at some
      exact last 0 (by omega) all
  · rw [writeUnits_head sizes start] at all
    have low := (all.1 0 (by decide)).1
    have place : (area.fa_off + FLOOR_ALIGN off FLASH_PROGRAM_UNIT).toNat = area.fa_off.toNat + 8 * (off.toNat / 8) := by
      rw [toNat_add_of_lt (by rw [floor]; omega),floor]
    change _ ≤ (area.fa_off + FLOOR_ALIGN off FLASH_PROGRAM_UNIT).toNat + 0 at low
    omega

end

/-! ### Whole writes -/

section
variable {I : Interface} {area : flash_area I} {off len : UInt32} (fits : off.toNat + len.toNat ≤ area.fa_size.toNat)
include fits

/-- A range that rounds up beyond its area is refused before anything is programmed. -/
theorem keepsRange_refused [Bootutil] (beyond : area.fa_size.toNat < 8 * ((off.toNat + len.toNat + 7) / 8)) (src : Buffer) :
    KeepsRange area off src len := by
  have bound := area.fa_size.toNat_lt
  have floor := floor_align_eight
  unfold KeepsRange flash_area_write
  refine all_ite (fun _ => trivial) fun _ => all_bind (read_inside _ _ _) fun r _ => ?_
  refine all_ite (fun _ => trivial) fun _ => all_ite (fun _ => trivial) fun valid => ?_
  by_cases small : off.toNat % 8 + len.toNat + 7 < 2 ^ 32
  · have total := (sizes_of small).total
    rw [is_range_valid_eq,Bool.not_eq_true',decide_eq_false_iff_not,not_not,total,floor] at valid
    change _ ≤ area.fa_size.toNat at valid
    omega
  · -- the rounded length is 0 in 32 bits, and the second read is refused
    have head := head_toNat off
    have sum : (len + (off - FLOOR_ALIGN off FLASH_PROGRAM_UNIT)).toNat = len.toNat + off.toNat % 8 := padded_toNat (by omega)
    have wrapped : CEILING_ALIGN (len + (off - FLOOR_ALIGN off FLASH_PROGRAM_UNIT)) FLASH_PROGRAM_UNIT = 0 := by
      have seven : (FLASH_PROGRAM_UNIT - 1).toNat = 7 := rfl
      have zero : (0 : UInt32).toNat = 0 := rfl
      rw [eq_iff_toNat]
      refine (floor_align_eight _).trans ?_
      rw [UInt32.toNat_add,sum,seven,zero]
      omega
    have next : (off + len).toNat = off.toNat + len.toNat := toNat_add_of_lt (by omega)
    have negated : (0 - len).toNat = 2 ^ 32 - len.toNat := by
      rw [UInt32.toNat_sub,UInt32.toNat_zero]
      omega
    have left : (0 - len - (off - FLOOR_ALIGN off FLASH_PROGRAM_UNIT)).toNat = 2 ^ 32 - len.toNat - off.toNat % 8 := by
      rw [toNat_sub_of_le (by rw [negated,head]; omega),negated,head]
    rw [wrapped,read_rejects]
    · trivial
    · rw [next,left]
      change ¬ _ ≤ area.fa_size.toNat
      omega

/-- A write in range keeps to its range exactly when it is made of whole units of the layout, or is refused. -/
theorem keepsRange_iff [Bootutil] (width : data_width_byte area.fa_driver.GetCapabilities.data_width = 4)
    (ends : area.fa_off.toNat + area.fa_size.toNat ≤ 2 ^ 32) (src : Buffer) :
    KeepsRange area off src len ↔
      off.toNat % 8 = 0 ∧ len.toNat % 8 = 0 ∨ area.fa_size.toNat < 8 * ((off.toNat + len.toNat + 7) / 8) := by
  have bound := area.fa_size.toNat_lt
  have floor := floor_align_eight
  have valid : is_range_valid (onCalls area) off len = true := range_valid fits
  have width' : data_width_byte (onCalls area).fa_driver.GetCapabilities.data_width = 4 := width
  constructor
  · intro all
    by_contra other
    obtain ⟨part,inside⟩ := not_or.mp other
    have sizes : Sizes off len _ _ _ := sizes_of (by omega)
    obtain ⟨head,total,tail⟩ := sizes
    have valid' : is_range_valid (onCalls area) (FLOOR_ALIGN off FLASH_PROGRAM_UNIT)
        (CEILING_ALIGN (len + (off - FLOOR_ALIGN off FLASH_PROGRAM_UNIT)) FLASH_PROGRAM_UNIT) = true := by
      refine range_valid ?_
      change _ ≤ area.fa_size.toNat
      rw [total,floor]
      omega
    have next : (off + len).toNat = off.toNat + len.toNat := toNat_add_of_lt (by omega)
    obtain ⟨add_padding,first⟩ := @run_area_read I area _ (FLOOR_ALIGN off FLASH_PROGRAM_UNIT) stackArray
      (off - FLOOR_ALIGN off FLASH_PROGRAM_UNIT) (by rw [head,floor]; omega)
    obtain ⟨len_padding,second⟩ := @run_area_read I area _ (off + len) stackArray (tailSize off len) (by rw [next]; omega)
    unfold KeepsRange flash_area_write at all
    rw [valid,if_neg (by decide),width'] at all
    have after := all_after all first
    dsimp only at after
    rw [if_neg (by decide),valid',if_neg (by decide)] at after
    have units := all_after after second
    dsimp only at units
    rw [if_neg (by decide)] at units
    exact writeUnits_outside ⟨head,total,tail⟩ ends fits part src add_padding len_padding units
  · rintro (⟨start,whole⟩ | beyond)
    · have sizes : Sizes off len _ _ _ := sizes_of (by omega)
      unfold KeepsRange flash_area_write
      rw [width']
      refine all_ite (fun _ => trivial) fun _ => all_bind (read_inside _ _ _) fun r _ => all_ite (fun _ => trivial) fun _ => ?_
      refine all_ite (fun _ => trivial) fun _ => all_bind (read_inside _ _ _) fun r' _ => all_ite (fun _ => trivial) fun _ => ?_
      exact writeUnits_inside sizes ends fits start whole src r.2 r'.2
    · exact keepsRange_refused fits beyond src

end

/-! ### Aligned writes -/

theorem driver_width (bsp : Bsp) (variant : Variant) (name : DriverName) :
    data_width_byte (driver bsp variant name).GetCapabilities.data_width = 4 := by
  cases name with
  | Driver_FLASH0 => rfl
  | Driver_FLASH1 => rfl
  | Driver_FLASH2 => cases variant <;> rfl

/-- On an area of any driver, a write that is aligned by `flash_area_align` and in range programs nothing but its range
    exactly when the driver tells 8, or the range is made of units of 8 bytes all the same, or it rounds up beyond the
    area and is refused. -/
theorem aligned_write_iff [Bootutil] {bsp : Bsp} {variant : Variant} {name : DriverName} {area : flash_area interface}
    (onDriver : area.fa_driver = driver bsp variant name) (ends : area.fa_off.toNat + area.fa_size.toNat ≤ 2 ^ 32)
    (off len : UInt32) (src : Buffer) (off_aligned : off.toNat % (flash_area_align area).toNat = 0)
    (len_aligned : len.toNat % (flash_area_align area).toNat = 0)
    (fits : off.toNat + len.toNat ≤ area.fa_size.toNat) :
    KeepsRange area off src len ↔ flash_area_align area = 8 ∨ off.toNat % 8 = 0 ∧ len.toNat % 8 = 0 ∨
      area.fa_size.toNat < 8 * ((off.toNat + len.toNat + 7) / 8) := by
  have width : data_width_byte area.fa_driver.GetCapabilities.data_width = 4 := by
    rw [onDriver]
    exact driver_width bsp variant name
  have kept := keepsRange_iff fits width ends src
  constructor
  · intro keeps
    exact .inr (kept.mp keeps)
  · rintro (eight | whole)
    · rw [eight] at off_aligned len_aligned
      exact kept.mpr (.inl ⟨off_aligned,len_aligned⟩)
    · exact kept.mpr whole

/-! ### The RMC part -/

/-- The M2L31, whose program unit is a word. -/
def m2l31 : Bsp := { board with type := .RMC, LDROM_BASE := 0x0F100000, FLASH_PAGE_SIZE := 0x1000 }

def m2l31Primary : flash_area interface := primaryArea Platform.m2l31.layout (driver m2l31 .SPI)

theorem aligned_write_iff_m2l31 : @KeepsRange _ bootutil m2l31Primary 8 (fun _ => 5) 16 ↔ flash_area_align m2l31Primary = 8 ∨
    8 % 8 = 0 ∧ 16 % 8 = 0 ∨ m2l31Primary.fa_size.toNat < 8 * ((8 + 16 + 7) / 8) :=
  @aligned_write_iff bootutil m2l31 .SPI .Driver_FLASH0 m2l31Primary rfl (by decide) 8 16 (fun _ => 5) (by decide) (by decide)
    (by decide)

/-- One word at the second word of the primary slot: the unit that holds it is programmed from its first word on. -/
theorem word_write_leaves_range : flash_area_align m2l31Primary = 4 ∧ ¬ @KeepsRange _ bootutil m2l31Primary 4 (fun _ => 5) 4 := by
  refine ⟨rfl,fun keeps => ?_⟩
  rw [@keepsRange_iff _ m2l31Primary 4 4 (by decide) bootutil rfl (by decide)] at keeps
  exact absurd keeps (by decide)

end NuMicroBoot.WriteAlignment
