import NuMicroBoot.ExternalDriver

/-!
Which requests keep the three variants of `Driver_FLASH2` inside their device.
Standard SPI and QSPI check the first address of a request only, SPIM checks the
end of the range in 32 bits and lets an erase through at the end of the device.
-/

namespace NuMicroBoot.ExternalBounds
open NuMicroBoot.Calls NuMicroBoot.Calls.Prog NuMicroBoot.Words NuMicroBoot.Driver NuMicroBoot.ExternalDriver

/-! ### Requests -/

/-- A request to a driver. -/
inductive Access
  | ReadData (addr : UInt32) (data : Buffer) (p : Nat) (cnt : UInt32)
  | ProgramData (addr : UInt32) (data : Buffer) (p : Nat) (cnt : UInt32)
  | EraseSector (addr : UInt32)

/-- The driver's function for the request; what a read leaves in the buffer does not matter here. -/
def Access.perform {I : Interface} (driver : ARM_DRIVER_FLASH I) : Access → Prog I Int32
  | .ReadData addr data p cnt => driver.ReadData addr data p cnt >>= fun r => .ret r.1
  | .ProgramData addr data p cnt => driver.ProgramData addr data p cnt
  | .EraseSector addr => driver.EraseSector addr

def Access.addr : Access → UInt32
  | .ReadData addr _ _ _ => addr
  | .ProgramData addr _ _ _ => addr
  | .EraseSector addr => addr
/-- The bytes the request is for; an erase is for the byte at its address. -/
def Access.bytes : Access → Nat
  | .ReadData _ _ _ cnt => 4 * cnt.toNat
  | .ProgramData _ _ _ cnt => 4 * cnt.toNat
  | .EraseSector _ => 1

/-- The call covers offsets below `size` only; an erase covers the 4 KiB around its address. -/
def Within (size : Nat) : Call → Prop
  | .NVT_Read addr len => addr.toNat + len.toNat ≤ size
  | .NVT_Program addr len _ _ => addr.toNat + len.toNat ≤ size
  | .NVT_Erase addr => 4096 * (addr.toNat / 4096) + 4096 ≤ size
  | .NVT_WaitReady => True

/-- Every call stays inside the device, and a request that is not inside it is refused without any call. -/
structure Confined (variant : Variant) (access : Access) : Prop where
  reach : (access.perform (Driver_FLASH2 variant)).All (Within (FLASH2_DEV variant).size) fun _ => True
  refused : ¬ (FLASH2_DEV variant).Inside access.addr.toNat access.bytes →
    ∃ rc < 0, access.perform (Driver_FLASH2 variant) = .ret rc

/-- What the check of each driver lets through. -/
def Passes (size : Nat) : Variant → Access → Prop
  | .SPIM, .EraseSector addr => addr.toNat ≤ size
  | .SPIM, access => (access.addr.toNat + access.bytes) % 2 ^ 32 ≤ size
  | _, access => access.addr.toNat < size

theorem size_cases (variant : Variant) : (FLASH2_DEV variant).size = 0x400000 ∨ (FLASH2_DEV variant).size = 0x2000000 := by
  cases variant
  · exact .inl rfl
  · exact .inr rfl
  · exact .inr rfl

theorem inside_iff (variant : Variant) (a n : Nat) : (FLASH2_DEV variant).Inside a n ↔ a + n ≤ (FLASH2_DEV variant).size := by
  have base : (FLASH2_DEV variant).memory_base.toNat = 0 := by cases variant <;> rfl
  rw [arm_flash_dev_t.Inside,base]
  omega

/-! ### Chunks -/

/-- The next chunk of `sz` bytes. -/
def chunk (page_size sz : UInt32) : UInt32 := if sz > page_size then page_size else sz

/-- A chunk is not empty, and what is left follows it. -/
theorem chunk_step {page_size addr sz : UInt32} (positive : page_size ≠ 0) (more : sz ≠ 0)
    (fits : addr.toNat + sz.toNat < 2 ^ 32) : 0 < (chunk page_size sz).toNat ∧
      (addr + chunk page_size sz).toNat = addr.toNat + (chunk page_size sz).toNat ∧
      (sz - chunk page_size sz).toNat + (chunk page_size sz).toNat = sz.toNat := by
  have page := ne_zero_iff.mp positive
  have some := ne_zero_iff.mp more
  have part : 0 < (chunk page_size sz).toNat ∧ (chunk page_size sz).toNat ≤ sz.toNat := by
    unfold chunk
    by_cases whole : sz > page_size
    · rw [if_pos whole]
      exact ⟨by omega,Nat.le_of_lt (UInt32.lt_iff_toNat_lt.mp whole)⟩
    · rw [if_neg whole]
      omega
  exact ⟨part.1,toNat_add_of_lt (by omega),by rw [toNat_sub_of_le part.2]; omega⟩

section
variable {size : Nat} (small : size < 2 ^ 32)
include small

/-- A chunk of a range inside the device and what is left of the range are inside it too. -/
theorem chunk_within {page_size addr sz : UInt32} (positive : page_size ≠ 0) (more : sz ≠ 0) (fits : addr.toNat + sz.toNat ≤ size) :
    addr.toNat + (chunk page_size sz).toNat ≤ size ∧ (sz - chunk page_size sz).toNat < sz.toNat ∧
      (addr + chunk page_size sz).toNat + (sz - chunk page_size sz).toNat ≤ size := by
  obtain ⟨some,next,left⟩ := chunk_step positive more (Nat.lt_of_le_of_lt fits small)
  omega

section
variable {page_size : UInt32} (positive : page_size ≠ 0)
include positive

theorem readChunks_within (rounds : Nat) : ∀ (addr : UInt32) (buffer : Buffer) (data : Nat) (sz : UInt32),
    sz.toNat < rounds → addr.toNat + sz.toNat ≤ size →
    (readChunks page_size rounds addr buffer data sz).All (Within size) fun _ => True := by
  induction rounds with
  | zero => intro addr buffer data sz enough; omega
  | succ rounds ih =>
    intro addr buffer data sz enough fits
    refine all_ite (fun more => ?_) fun _ => trivial
    obtain ⟨inside,less,rest⟩ := chunk_within small positive more fits
    exact ⟨inside,fun a => all_ite (fun _ => trivial) fun _ => ih _ _ _ _ (Nat.lt_of_lt_of_le less (Nat.le_of_lt_succ enough)) rest⟩

theorem programChunks_within (rounds : Nat) : ∀ (addr : UInt32) (buffer : Buffer) (data : Nat) (sz : UInt32),
    sz.toNat < rounds → addr.toNat + sz.toNat ≤ size →
    (programChunks page_size rounds addr buffer data sz).All (Within size) fun _ => True := by
  induction rounds with
  | zero => intro addr buffer data sz enough; omega
  | succ rounds ih =>
    intro addr buffer data sz enough fits
    refine all_ite (fun more => ?_) fun _ => trivial
    obtain ⟨inside,less,rest⟩ := chunk_within small positive more fits
    refine ⟨inside,fun r => all_ite (fun _ => trivial) fun _ => ?_⟩
    exact ⟨trivial,fun r => all_ite (fun _ => trivial) fun _ => ih _ _ _ _ (Nat.lt_of_lt_of_le less (Nat.le_of_lt_succ enough)) rest⟩

end

theorem readChunks_SPIM_within (rounds : Nat) : ∀ (addr : UInt32) (buffer : Buffer) (data : Nat) (sz : UInt32),
    sz.toNat < rounds → addr.toNat + sz.toNat ≤ size →
    (readChunks_SPIM rounds addr buffer data sz).All (Within size) fun _ => True := by
  induction rounds with
  | zero => intro addr buffer data sz enough; omega
  | succ rounds ih =>
    intro addr buffer data sz enough fits
    refine all_ite (fun more => ?_) fun _ => trivial
    have page : NVT_NVSPIM_PAGE_SIZE ≠ 0 := by decide
    obtain ⟨inside,less,rest⟩ := chunk_within small page more fits
    exact ⟨inside,fun a => ih _ _ _ _ (Nat.lt_of_lt_of_le less (Nat.le_of_lt_succ enough)) rest⟩

theorem programChunks_SPIM_within (rounds : Nat) : ∀ (addr : UInt32) (buffer : Buffer) (data : Nat) (sz : UInt32),
    sz.toNat < rounds → addr.toNat + sz.toNat ≤ size →
    (programChunks_SPIM rounds addr buffer data sz).All (Within size) fun _ => True := by
  induction rounds with
  | zero => intro addr buffer data sz enough; omega
  | succ rounds ih =>
    intro addr buffer data sz enough fits
    refine all_ite (fun more => ?_) fun _ => trivial
    have page : NVT_NVSPIM_PAGE_SIZE ≠ 0 := by decide
    obtain ⟨inside,less,rest⟩ := chunk_within small page more fits
    exact ⟨inside,fun r => all_ite (fun _ => trivial) fun _ => ih _ _ _ _ (Nat.lt_of_lt_of_le less (Nat.le_of_lt_succ enough)) rest⟩

end

/-! ### What the checks let through -/

variable {variant : Variant} {access : Access}

theorem valid_iff (variant : Variant) (addr : UInt32) :
    is_range_valid_internal (FLASH2_DEV variant) addr = 0 ↔ addr.toNat < (FLASH2_DEV variant).size := by
  have base : (FLASH2_DEV variant).memory_base.toNat = 0 := by cases variant <;> rfl
  have size := size_cases variant
  rw [is_range_valid_iff (by omega),base]
  omega

theorem bytes_toNat (addr cnt : UInt32) :
    (addr + cnt * data_width_byte DriverCapabilities.data_width).toNat = (addr.toNat + 4 * cnt.toNat) % 2 ^ 32 := by
  rw [data_width_byte_driver,UInt32.toNat_add,UInt32.toNat_mul]
  simp
  omega

/-- The test of the SPIM driver on a range. -/
theorem spim_check_iff (addr cnt : UInt32) : (addr < NVT_NVSPIM_MEMORY_BASE ∨
      addr + cnt * data_width_byte DriverCapabilities.data_width > NVT_NVSPIM_MEMORY_BASE + SPIM_DMM_SIZE) ↔
    ¬ (addr.toNat + 4 * cnt.toNat) % 2 ^ 32 ≤ (FLASH2_DEV .SPIM).size := by
  have window : (NVT_NVSPIM_MEMORY_BASE + SPIM_DMM_SIZE).toNat = (FLASH2_DEV .SPIM).size := rfl
  have base : NVT_NVSPIM_MEMORY_BASE.toNat = 0 := rfl
  rw [gt_iff_lt,UInt32.lt_iff_toNat_lt,UInt32.lt_iff_toNat_lt,bytes_toNat,window,base]
  omega

theorem spim_erase_check_iff (addr : UInt32) :
    (addr < NVT_NVSPIM_MEMORY_BASE ∨ addr > NVT_NVSPIM_MEMORY_BASE + SPIM_DMM_SIZE) ↔
      ¬ addr.toNat ≤ (FLASH2_DEV .SPIM).size := by
  have window : (NVT_NVSPIM_MEMORY_BASE + SPIM_DMM_SIZE).toNat = (FLASH2_DEV .SPIM).size := rfl
  have base : NVT_NVSPIM_MEMORY_BASE.toNat = 0 := rfl
  rw [gt_iff_lt,UInt32.lt_iff_toNat_lt,UInt32.lt_iff_toNat_lt,window,base]
  omega

/-- A request that the check does not let through is refused. -/
theorem refuses (blocked : ¬ Passes (FLASH2_DEV variant).size variant access) :
    access.perform (Driver_FLASH2 variant) = .ret ARM_DRIVER_ERROR_PARAMETER := by
  have invalid : ¬ access.addr.toNat < (FLASH2_DEV variant).size →
      is_range_valid_internal (FLASH2_DEV variant) access.addr ≠ 0 := mt (valid_iff variant access.addr).mp
  have read : ∀ {p : Prog interface (Int32 × Buffer)} {data : Buffer}, p = .ret (ARM_DRIVER_ERROR_PARAMETER,data) →
      (p >>= fun r => .ret r.1) = .ret ARM_DRIVER_ERROR_PARAMETER := fun same => by rw [same]; rfl
  cases variant with
  | SPI | QSPI =>
    cases access with
    | ReadData addr data p cnt => exact read (if_pos (invalid blocked))
    | ProgramData addr data p cnt => exact if_pos (invalid blocked)
    | EraseSector addr => exact if_pos (invalid blocked)
  | SPIM =>
    cases access with
    | ReadData addr data p cnt => exact read (if_pos ((spim_check_iff addr cnt).mpr blocked))
    | ProgramData addr data p cnt => exact if_pos ((spim_check_iff addr cnt).mpr blocked)
    | EraseSector addr => exact if_pos ((spim_erase_check_iff addr).mpr blocked)

/-! A loop that returns without a call had nothing to do. -/

theorem readChunks_ret {page_size addr sz : UInt32} {buffer : Buffer} {n data : Nat} {a : Int32 × Buffer}
    (returned : readChunks page_size (n + 1) addr buffer data sz = .ret a) : a.1 = ARM_DRIVER_OK :=
  congrArg Prod.fst (ite_call_eq_ret returned)
theorem programChunks_ret {page_size addr sz : UInt32} {buffer : Buffer} {n data : Nat} {a : Int32}
    (returned : programChunks page_size (n + 1) addr buffer data sz = .ret a) : a = ARM_DRIVER_OK := ite_call_eq_ret returned
theorem readChunks_SPIM_ret {addr sz : UInt32} {buffer : Buffer} {n data : Nat} {a : Int32 × Buffer}
    (returned : readChunks_SPIM (n + 1) addr buffer data sz = .ret a) : a.1 = ARM_DRIVER_OK :=
  congrArg Prod.fst (ite_call_eq_ret returned)
theorem programChunks_SPIM_ret {addr sz : UInt32} {buffer : Buffer} {n data : Nat} {a : Int32}
    (returned : programChunks_SPIM (n + 1) addr buffer data sz = .ret a) : a = ARM_DRIVER_OK := ite_call_eq_ret returned

/-- A request that the check lets through is not refused. -/
theorem accepts (passes : Passes (FLASH2_DEV variant).size variant access) {rc : Int32}
    (returned : access.perform (Driver_FLASH2 variant) = .ret rc) : rc = ARM_DRIVER_OK := by
  have valid : access.addr.toNat < (FLASH2_DEV variant).size →
      ¬ is_range_valid_internal (FLASH2_DEV variant) access.addr ≠ 0 :=
    fun inside => not_not.mpr ((valid_iff variant access.addr).mpr inside)
  have read : ∀ {p : Prog interface (Int32 × Buffer)}, (p >>= fun r => .ret r.1) = .ret rc →
      (∀ a, p = .ret a → a.1 = ARM_DRIVER_OK) → rc = ARM_DRIVER_OK := fun same ok => by
    obtain ⟨a,first,second⟩ := bind_eq_ret same
    cases second
    exact ok a first
  cases variant with
  | SPI | QSPI =>
    cases access with
    | ReadData addr data p cnt => exact read returned fun a first => readChunks_ret (Eq.trans (if_neg (valid passes)).symm first)
    | ProgramData addr data p cnt => exact programChunks_ret (Eq.trans (if_neg (valid passes)).symm returned)
    | EraseSector addr => exact nomatch Eq.trans (if_neg (valid passes)).symm returned
  | SPIM =>
    cases access with
    | ReadData addr data p cnt =>
      have through := mt (spim_check_iff addr cnt).mp (not_not.mpr passes)
      exact read returned fun a first => readChunks_SPIM_ret (Eq.trans (if_neg through).symm first)
    | ProgramData addr data p cnt =>
      have through := mt (spim_check_iff addr cnt).mp (not_not.mpr passes)
      exact programChunks_SPIM_ret (Eq.trans (if_neg through).symm returned)
    | EraseSector addr =>
      have through := mt (spim_erase_check_iff addr).mp (not_not.mpr passes)
      exact nomatch Eq.trans (if_neg through).symm returned

/-- A request inside the device makes calls inside it. -/
theorem reach_of_inside (inside : (FLASH2_DEV variant).Inside access.addr.toNat access.bytes) :
    (access.perform (Driver_FLASH2 variant)).All (Within (FLASH2_DEV variant).size) fun _ => True := by
  have small : (FLASH2_DEV variant).size < 2 ^ 32 := by
    have size := size_cases variant
    omega
  rw [inside_iff] at inside
  have fits : ∀ {addr cnt : UInt32}, addr.toNat + 4 * cnt.toNat ≤ (FLASH2_DEV variant).size →
      (addr - 0).toNat + (cnt * data_width_byte DriverCapabilities.data_width).toNat ≤ (FLASH2_DEV variant).size := by
    intro addr cnt
    rw [UInt32.sub_zero,data_width_byte_driver,UInt32.toNat_mul]
    simp
    omega
  have read : ∀ {p : Prog interface (Int32 × Buffer)}, p.All (Within (FLASH2_DEV variant).size) (fun _ => True) →
      (p >>= fun r => .ret r.1).All (Within (FLASH2_DEV variant).size) fun _ => True :=
    fun all => all_bind all fun _ _ => trivial
  have sector : ∀ addr : UInt32, addr.toNat + 1 ≤ (FLASH2_DEV variant).size →
      Within (FLASH2_DEV variant).size (.NVT_Erase (addr - 0)) := by
    intro addr below
    have size := size_cases variant
    rw [UInt32.sub_zero,Within]
    omega
  cases variant with
  | SPI | QSPI =>
    cases access with
    | ReadData addr data p cnt =>
      exact read (all_ite (fun _ => trivial) fun _ =>
        readChunks_within small (by decide) _ _ _ _ _ (Nat.lt_succ_self _) (fits inside))
    | ProgramData addr data p cnt =>
      exact all_ite (fun _ => trivial) fun _ =>
        programChunks_within small (by decide) _ _ _ _ _ (Nat.lt_succ_self _) (fits inside)
    | EraseSector addr =>
      exact all_ite (fun _ => trivial) fun _ => ⟨sector addr inside,fun r => all_ite (fun _ => trivial) fun _ =>
        ⟨trivial,fun r => all_ite (fun _ => trivial) fun _ => trivial⟩⟩
  | SPIM =>
    cases access with
    | ReadData addr data p cnt =>
      exact read (all_ite (fun _ => trivial) fun _ =>
        readChunks_SPIM_within small _ _ _ _ _ (Nat.lt_succ_self _) (fits inside))
    | ProgramData addr data p cnt =>
      exact all_ite (fun _ => trivial) fun _ =>
        programChunks_SPIM_within small _ _ _ _ _ (Nat.lt_succ_self _) (fits inside)
    | EraseSector addr =>
      exact all_ite (fun _ => trivial) fun _ => ⟨sector addr inside,fun r => all_ite (fun _ => trivial) fun _ => trivial⟩

/-! ### The condition -/

/-- A request is confined exactly when it is inside the device or the check of its driver stops it. -/
theorem confined_iff (variant : Variant) (access : Access) : Confined variant access ↔
    (Passes (FLASH2_DEV variant).size variant access →
      access.addr.toNat + access.bytes ≤ (FLASH2_DEV variant).size) := by
  rw [← inside_iff]
  constructor
  · intro confined passes
    by_contra outside
    obtain ⟨rc,negative,returned⟩ := confined.refused outside
    rw [accepts passes returned] at negative
    exact absurd negative (by decide)
  · intro condition
    by_cases passes : Passes (FLASH2_DEV variant).size variant access
    · exact ⟨reach_of_inside (condition passes),fun outside => absurd (condition passes) outside⟩
    · have returned := refuses passes
      refine ⟨?_,fun _ => ⟨ARM_DRIVER_ERROR_PARAMETER,by decide,returned⟩⟩
      rw [returned]
      trivial

/-- Two words from the last word of the standard SPI flash on, and a sector right behind the SPIM flash. -/
theorem not_confined_at_end : ¬ Confined .SPI (.ReadData 0x3FFFFC (fun _ => 0) 0 2) ∧
    ¬ Confined .SPIM (.EraseSector 0x2000000) := by
  constructor
  · intro confined
    have first : (0x3FFFFC : UInt32).toNat + (8 : UInt32).toNat ≤ 0x400000 := confined.reach.1
    exact absurd first (by decide)
  · intro confined
    have first : 4096 * ((0x2000000 : UInt32).toNat / 4096) + 4096 ≤ 0x2000000 := confined.reach.1
    exact absurd first (by decide)

end NuMicroBoot.ExternalBounds
