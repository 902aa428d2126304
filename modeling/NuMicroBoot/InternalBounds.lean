import NuMicroBoot.AreaPlans

/-!
Which requests keep `Driver_FLASH0` and `Driver_FLASH1` inside their device. The
drivers check the last byte of a request only, computed in 32 bits: a request
that starts below the device or wraps passes when its last byte falls inside.
-/

namespace NuMicroBoot.InternalBounds
open NuMicroBoot.Calls NuMicroBoot.Calls.Prog NuMicroBoot.Words NuMicroBoot.Driver NuMicroBoot.Nvmc
open NuMicroBoot.InternalDriver NuMicroBoot.FlashMap NuMicroBoot.AreaPlans

variable {bsp : Bsp} {dev : arm_flash_dev_t} {addr cnt : UInt32}

/-- Every controller call is at an address of the device, a result that is not negative is for a range inside the
    device, and a range that starts below the device or passes 2^32 is refused. -/
structure Contained (dev : arm_flash_dev_t) (addr cnt : UInt32) {α : Type} (rc : α → Int32) (p : Prog interface α) :
    Prop where
  reach : p.All (fun c : Call => dev.Inside c.addr.toNat 1) fun a => 0 ≤ rc a → dev.Inside addr.toNat (4 * cnt.toNat)
  refused : addr.toNat < dev.memory_base.toNat ∨ 2 ^ 32 < addr.toNat + 4 * cnt.toNat →
    ∃ a, p = .ret a ∧ rc a = ARM_DRIVER_ERROR_PARAMETER

/-- The range starts in the device or above and ends at 2^32 or below. -/
def Proper (dev : arm_flash_dev_t) (addr cnt : UInt32) : Prop :=
  dev.memory_base.toNat ≤ addr.toNat ∧ addr.toNat + 4 * cnt.toNat ≤ 2 ^ 32

/-- The address of the last byte as the drivers compute it. -/
def lastByte (addr cnt : UInt32) : Nat := (addr.toNat + 4 * cnt.toNat - 1) % 2 ^ 32

/-! ### The range check -/

theorem checked_iff (fits : Fits dev) (some : 1 ≤ cnt.toNat) :
    is_range_valid_internal dev (addr + cnt * 4 - 1) = 0 ↔ dev.Inside (lastByte addr cnt) 1 := by
  have last : (addr + cnt * 4 - 1).toNat = lastByte addr cnt := by
    rw [lastByte,UInt32.toNat_sub,UInt32.toNat_add,UInt32.toNat_mul]
    simp
    omega
  rw [is_range_valid_iff fits.ending,last,arm_flash_dev_t.Inside]
  have proper := fits.proper
  omega

/-- A proper request that passes the check is inside the device. -/
theorem inside_of_checked (fits : Fits dev) (some : 1 ≤ cnt.toNat) (proper : Proper dev addr cnt)
    (last : dev.Inside (lastByte addr cnt) 1) : dev.Inside addr.toNat (4 * cnt.toNat) := by
  obtain ⟨low,high⟩ := proper
  obtain ⟨above,below⟩ := last
  have small := fits.proper
  rw [lastByte] at above below
  exact ⟨low,by omega⟩

/-- A refusal makes no call. -/
theorem contained_refusal {α : Type} {rc : α → Int32} {a : α} (refused : rc a = ARM_DRIVER_ERROR_PARAMETER) :
    Contained dev addr cnt rc (.ret a) where
  reach := fun success => by
    rw [refused] at success
    exact absurd success (by decide)
  refused := fun _ => ⟨a,rfl,refused⟩

theorem contained_proper {α : Type} {rc : α → Int32} {p : Prog interface α} (proper : Proper dev addr cnt)
    (reach : p.All (fun c : Call => dev.Inside c.addr.toNat 1) fun a => 0 ≤ rc a → dev.Inside addr.toNat (4 * cnt.toNat)) :
    Contained dev addr cnt rc p where
  reach := reach
  refused := fun improper => absurd proper (by rw [Proper]; omega)

/-- Where the request is accepted, only a proper one can be contained. -/
theorem proper_of_contained {α : Type} {rc : α → Int32} {p : Prog interface α} (contained : Contained dev addr cnt rc p)
    (accepted : ∀ a, p = .ret a → rc a ≠ ARM_DRIVER_ERROR_PARAMETER) : Proper dev addr cnt := by
  by_contra improper
  rw [Proper] at improper
  obtain ⟨a,same,refused⟩ := contained.refused (by omega)
  exact accepted a same refused

/-- The count an accepted request of no bytes returns. -/
theorem empty_count {cnt : UInt32} (nothing : cnt * 4 = 0) : cnt.toInt32 ≠ ARM_DRIVER_ERROR_PARAMETER := by
  intro same
  have count : cnt = ARM_DRIVER_ERROR_PARAMETER.toUInt32 := by rw [← same]; rfl
  rw [count] at nothing
  exact absurd nothing (by decide)

/-! ### Reading -/

theorem wordReads_inside (n : Nat) : ∀ addr : UInt32, dev.Inside addr.toNat (4 * n) →
    dev.memory_base.toNat + dev.size ≤ 2 ^ 32 → ∀ c ∈ wordReads addr n, dev.Inside c.addr.toNat 1 := by
  induction n with
  | zero => simp [wordReads]
  | succ n ih =>
    intro addr inside ending c member
    obtain ⟨low,high⟩ := inside
    rcases List.mem_cons.mp member with rfl | member
    · exact ⟨low,by show addr.toNat + 1 ≤ _; omega⟩
    · cases n with
      | zero => simp [wordReads] at member
      | succ n =>
        have next : (addr + 4).toNat = addr.toNat + 4 := toNat_add_of_lt (by simp; omega)
        exact ih (addr + 4) ⟨by omega,by omega⟩ ending c member

theorem readDataOn_refuses (refused : is_range_valid_internal dev (addr + cnt * 4 - 1) ≠ 0) (data : Buffer) (p : Nat) :
    readDataOn dev addr data p cnt = .ret (ARM_DRIVER_ERROR_PARAMETER,data) := by
  exact if_pos refused

/-- An accepted request makes a call, or has no bytes left after the wrapping multiplication. -/
theorem readDataOn_accepts (accepted : is_range_valid_internal dev (addr + cnt * 4 - 1) = 0) (data : Buffer) (p : Nat)
    (a : Int32 × Buffer) (returned : readDataOn dev addr data p cnt = .ret a) : a.1 ≠ ARM_DRIVER_ERROR_PARAMETER := by
  simp only [readDataOn,data_width_byte_driver,accepted,ne_eq,not_true_eq_false,if_false] at returned
  by_cases nothing : cnt * 4 = 0
  · simp only [ARM_Flash_ReadData_Internal,nothing,readLoop] at returned
    cases returned
    exact empty_count nothing
  · have some : cnt * 4 > 0 := by
      rw [gt_iff_lt,UInt32.lt_iff_toNat_lt]
      exact Nat.pos_of_ne_zero (ne_zero_iff.mp nothing)
    simp only [ARM_Flash_ReadData_Internal,readLoop,some,if_true] at returned
    cases returned

theorem contained_read_iff (fits : Fits dev) (some : 1 ≤ cnt.toNat) (data : Buffer) (p : Nat) :
    Contained dev addr cnt Prod.fst (readDataOn dev addr data p cnt) ↔
      Proper dev addr cnt ∨ ¬ dev.Inside (lastByte addr cnt) 1 := by
  have check : is_range_valid_internal dev (addr + cnt * 4 - 1) = 0 ↔ dev.Inside (lastByte addr cnt) 1 :=
    checked_iff fits some
  by_cases accepted : is_range_valid_internal dev (addr + cnt * 4 - 1) = 0
  · have last := check.mp accepted
    constructor
    · exact fun contained => .inl (proper_of_contained contained (readDataOn_accepts accepted data p))
    · rintro (proper | outside)
      · have inside := inside_of_checked fits some proper last
        refine contained_proper proper ?_
        rw [readDataOn_eq fits some inside data p]
        exact all_bind (issue_all (wordReads_inside _ _ inside fits.ending)) fun _ _ _ => inside
      · exact absurd last outside
  · rw [readDataOn_refuses accepted data p]
    exact ⟨fun _ => .inr fun last => accepted (check.mpr last),fun _ => contained_refusal rfl⟩

/-! ### Programming -/

/-- The range starts and ends at a program unit. -/
def WholeUnits (dev : arm_flash_dev_t) (addr cnt : UInt32) : Prop :=
  addr.toNat % dev.data.program_unit.toNat = 0 ∧ 4 * cnt.toNat % dev.data.program_unit.toNat = 0

/-- The checks of a program request. -/
theorem checks_iff (fits : Fits dev) (unit : dev.data.program_unit = 4 ∨ dev.data.program_unit = 8)
    (some : 1 ≤ cnt.toNat) : is_range_valid_internal dev (addr + cnt * 4 - 1) ||| is_write_aligned dev addr |||
      is_write_aligned dev (cnt * 4) = 0 ↔ dev.Inside (lastByte addr cnt) 1 ∧ WholeUnits dev addr cnt := by
  have size : (cnt * 4).toNat % dev.data.program_unit.toNat = 4 * cnt.toNat % dev.data.program_unit.toNat := by
    rw [UInt32.toNat_mul]
    rcases unit with unit | unit
    · simp [unit]
    · rw [unit]
      simp
      omega
  rw [or_checks_eq_zero (or_checks_cases (is_range_valid_cases _ _) (is_write_aligned_cases _ _)) (is_write_aligned_cases _ _),
    or_checks_eq_zero (is_range_valid_cases _ _) (is_write_aligned_cases _ _),checked_iff fits some,is_write_aligned_iff,
    is_write_aligned_iff,size,and_assoc,WholeUnits]

theorem programDataOn_refuses {data : Buffer} {p : Nat} (refused : is_range_valid_internal dev (addr + cnt * 4 - 1) |||
      is_write_aligned dev addr ||| is_write_aligned dev (cnt * 4) ≠ 0) :
    programDataOn bsp dev addr data p cnt = .ret ARM_DRIVER_ERROR_PARAMETER := by
  exact if_pos refused

theorem programDataOn_accepts {data : Buffer} {p : Nat} (accepted : is_range_valid_internal dev (addr + cnt * 4 - 1) |||
      is_write_aligned dev addr ||| is_write_aligned dev (cnt * 4) = 0) (a : Int32)
    (returned : programDataOn bsp dev addr data p cnt = .ret a) : a ≠ ARM_DRIVER_ERROR_PARAMETER := by
  simp only [programDataOn,data_width_byte_driver,accepted,ne_eq,not_true_eq_false,if_false] at returned
  by_cases nothing : cnt * 4 = 0
  · simp only [ARM_Flash_ProgramData_Internal,nothing,programLoop] at returned
    cases returned
    exact empty_count nothing
  · have some : (0 : UInt32) < cnt * 4 := by
      rw [UInt32.lt_iff_toNat_lt]
      exact Nat.pos_of_ne_zero (ne_zero_iff.mp nothing)
    simp only [ARM_Flash_ProgramData_Internal,programLoop,some,if_true] at returned
    cases returned

theorem contained_program_iff (fits : Fits dev) (unit : dev.data.program_unit = 4 ∨ dev.data.program_unit = 8)
    (some : 1 ≤ cnt.toNat) (data : Buffer) (p : Nat) :
    Contained dev addr cnt id (programDataOn bsp dev addr data p cnt) ↔
      Proper dev addr cnt ∨ ¬ dev.Inside (lastByte addr cnt) 1 ∨ ¬ WholeUnits dev addr cnt := by
  have check : is_range_valid_internal dev (addr + cnt * 4 - 1) ||| is_write_aligned dev addr |||
      is_write_aligned dev (cnt * 4) = 0 ↔ _ := checks_iff fits unit some
  by_cases accepted : is_range_valid_internal dev (addr + cnt * 4 - 1) ||| is_write_aligned dev addr |||
      is_write_aligned dev (cnt * 4) = 0
  · obtain ⟨last,aligned,whole⟩ := check.mp accepted
    have positive : 0 < dev.data.program_unit.toNat ∧ dev.data.program_unit.toNat ≤ 8 := by
      rcases unit with unit | unit <;> rw [unit] <;> decide
    constructor
    · exact fun contained => .inl (proper_of_contained contained (programDataOn_accepts accepted))
    · rintro (proper | outside | ragged)
      · have inside := inside_of_checked fits some proper last
        have units := Nat.mul_div_cancel' (Nat.dvd_of_mod_eq_zero whole)
        have ends : addr.toNat + dev.data.program_unit.toNat * (4 * cnt.toNat / dev.data.program_unit.toNat) ≤ 2 ^ 32 := by
          rw [units]
          exact proper.2
        refine contained_proper proper ?_
        rw [programDataOn_eq fits positive.1 some inside aligned units data p]
        refine all_bind (issue_all fun c member => ?_) fun _ _ _ => inside
        obtain ⟨addr',dword,rfl,low,high⟩ := programs_inside
          (programs_unitPrograms positive.1 positive.2 data _ bsp.garbage p addr ends) c member
        rw [unitPrograms_length,units] at high
        obtain ⟨above,below⟩ := inside
        exact ⟨Nat.le_trans above low,by show addr'.toNat + 1 ≤ _; omega⟩
      · exact absurd last outside
      · exact absurd ⟨aligned,whole⟩ ragged
  · rw [programDataOn_refuses accepted]
    refine ⟨fun _ => .inr ?_,fun _ => contained_refusal rfl⟩
    by_cases last : dev.Inside (lastByte addr cnt) 1
    · exact .inr fun whole => accepted (check.mpr ⟨last,whole⟩)
    · exact .inl last

/-! ### Both drivers -/

/-- A request of at least one item is contained exactly when its range starts in the device or above and does not pass
    2^32, or its last byte falls outside the device, or it is to program a range of ragged units. -/
theorem internal_contained_iff (rom : Rom) (ending : (rom.dev bsp).memory_base.toNat + (rom.dev bsp).size ≤ 2 ^ 32)
    (some : 1 ≤ cnt.toNat) (data : Buffer) (p : Nat) :
    (Contained (rom.dev bsp) addr cnt Prod.fst ((rom.driver bsp).ReadData addr data p cnt) ↔
      Proper (rom.dev bsp) addr cnt ∨ ¬ (rom.dev bsp).Inside (lastByte addr cnt) 1) ∧
    (Contained (rom.dev bsp) addr cnt id ((rom.driver bsp).ProgramData addr data p cnt) ↔
      Proper (rom.dev bsp) addr cnt ∨ ¬ (rom.dev bsp).Inside (lastByte addr cnt) 1 ∨ ¬ WholeUnits (rom.dev bsp) addr cnt) := by
  have fits : Fits (rom.dev bsp) := ⟨ending,Nat.lt_of_le_of_lt (dev_size_le rom) (rom.bytes bsp).toNat_lt⟩
  have unit := program_unit_cases bsp
  rw [← dev_program_unit rom] at unit
  have read : Contained (rom.dev bsp) addr cnt Prod.fst (readDataOn (rom.dev bsp) addr data p cnt) ↔ _ :=
    contained_read_iff fits some data p
  have program : Contained (rom.dev bsp) addr cnt id (programDataOn bsp (rom.dev bsp) addr data p cnt) ↔ _ :=
    contained_program_iff fits unit some data p
  cases rom <;> exact ⟨read,program⟩

/-- Two words at the start of the LDROM. -/
theorem internal_contained_iff_ldrom :
    (Contained (Rom.LDROM.dev board) 0x100000 2 Prod.fst ((Rom.LDROM.driver board).ReadData 0x100000 stackArray 0 2) ↔
      Proper (Rom.LDROM.dev board) 0x100000 2 ∨ ¬ (Rom.LDROM.dev board).Inside (lastByte 0x100000 2) 1) ∧
    (Contained (Rom.LDROM.dev board) 0x100000 2 id ((Rom.LDROM.driver board).ProgramData 0x100000 stackArray 0 2) ↔
      Proper (Rom.LDROM.dev board) 0x100000 2 ∨ ¬ (Rom.LDROM.dev board).Inside (lastByte 0x100000 2) 1 ∨
        ¬ WholeUnits (Rom.LDROM.dev board) 0x100000 2) :=
  internal_contained_iff .LDROM (by decide) (by decide) stackArray 0

/-- `Driver_FLASH1` reads the whole APROM when it is asked to read from address 0 into the first word of the LDROM. -/
theorem ldrom_read_not_contained : ¬ Contained (Rom.LDROM.dev board) 0 0x40001 Prod.fst
    ((Rom.LDROM.driver board).ReadData 0 stackArray 0 0x40001) := by
  intro contained
  have first : (Rom.LDROM.dev board).Inside 0 1 := contained.reach.1
  exact absurd first.1 (by decide)

end NuMicroBoot.InternalBounds
