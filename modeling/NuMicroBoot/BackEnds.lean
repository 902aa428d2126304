import NuMicroBoot.AreaReads
import NuMicroBoot.FailingParts

/-!
The two back ends of the internal flash under one driver. Built with the FMC,
which programs double words through its registers, or with the RMC, which
programs single words, `ARM_Flash_ProgramData_APROM` and `ARM_Flash_ReadData_APROM`
return the same and leave the same flash.
-/

namespace NuMicroBoot.BackEnds
open NuMicroBoot.Calls NuMicroBoot.Calls.Prog NuMicroBoot.Cells NuMicroBoot.Words NuMicroBoot.Driver NuMicroBoot.Nvmc
open NuMicroBoot.InternalDriver NuMicroBoot.AreaPlans NuMicroBoot.FmcDrv NuMicroBoot.RmcDrv
open NuMicroBoot.FmcParts NuMicroBoot.FailingParts NuMicroBoot.Simulation

/-! ### The FMC -/

variable (fmc : Fmc) (bsp : Bsp)

/-- The controller when nothing fails: a command ends within its time-out, and the failure flag stays clear. -/
def hardware : Device registers Controller
  | .load .ISPSTS, s, a, s' =>
    if s.left = 0 then ¬ Busy fmc a ∧ a &&& fmc.FMC_ISPSTS_ISPFF_Msk = 0 ∧ s' = s
    else Busy fmc a ∧ s' = { s with left := s.left - 1 }
  | .load .ISPDAT, s, a, s' => a = s.ISPDAT ∧ s' = s
  | .load _, s, _, s' => s' = s
  | .store .ISPCMD v, s, _, s' => s' = { s with ISPCMD := v }
  | .store .ISPADDR v, s, _, s' => s' = { s with ISPADDR := v }
  | .store .MPDAT0 v, s, _, s' => s' = { s with MPDAT0 := v }
  | .store .MPDAT1 v, s, _, s' => s' = { s with MPDAT1 := v }
  | .store .ISPTRG _, s, _, s' => ∃ left ≤ (s.timeout fmc).toInt.toNat, s' = { s.executed fmc bsp with left := left }
  | .store _ _, s, _, s' => s' = s

variable {fmc bsp}

theorem hardware_answers (proper : Proper fmc) (c : FmcCall) (s : Controller) : ∃ a s', hardware fmc bsp c s a s' := by
  cases c with
  | load r =>
    cases r with
    | ISPSTS =>
      by_cases idle : s.left = 0
      · refine ⟨0,s,?_⟩
        have clear : ∀ m : UInt32, 0 &&& m = 0 := fun m => UInt32.zero_and
        simp [hardware,idle,Busy,clear]
      · refine ⟨fmc.FMC_ISPSTS_ISPBUSY_Msk,{ s with left := s.left - 1 },?_⟩
        simp only [hardware,idle,if_false,Busy,UInt32.and_self]
        exact ⟨proper.busy,trivial⟩
    | ISPDAT => exact ⟨_,_,rfl,rfl⟩
    | _ => exact ⟨0,s,rfl⟩
  | store r v =>
    cases r with
    | ISPTRG => exact ⟨(),_,0,Nat.zero_le _,rfl⟩
    | ISPDAT => exact ⟨(),s,rfl⟩
    | ISPSTS => exact ⟨(),s,rfl⟩
    | _ => exact ⟨(),_,rfl⟩

/-- The controller as one of those whose commands may fail, where none has. -/
def faultless (s : Controller) : Failing := ⟨s,false,0,false⟩

/-- What the hardware does when nothing fails, it may also do when something can. -/
theorem hardware_failing (proper : Proper fmc) (c : FmcCall) (s : Controller) (a : registers.Answer c) (s' : Controller)
    (answered : hardware fmc bsp c s a s') : failing fmc bsp c (faultless s) a (faultless s') := by
  cases c with
  | load r =>
    cases r with
    | ISPSTS =>
      by_cases idle : s.left = 0
      · obtain ⟨clear,flag,rfl⟩ := (if_pos idle).mp answered
        exact (if_pos idle).mpr ⟨clear,by simp [flag,faultless],rfl⟩
      · obtain ⟨set,rfl⟩ := (if_neg idle).mp answered
        exact (if_neg idle).mpr ⟨set,rfl⟩
    | ISPDAT =>
      obtain ⟨rfl,rfl⟩ := answered
      exact ⟨rfl,rfl⟩
    | _ =>
      obtain rfl := answered
      exact rfl
  | store r v =>
    cases r with
    | ISPTRG =>
      obtain ⟨left,inTime,rfl⟩ := answered
      refine ⟨_,left,false,executed_spoiled proper s,fun _ => rfl,?_⟩
      rw [@triggered_inTime fmc (faultless s) _ _ left false rfl inTime]
      rfl
    | ISPSTS =>
      obtain rfl := answered
      exact (ite_self _).symm
    | _ =>
      obtain rfl := answered
      exact rfl

/-- Each call does what the controller of an FMC part does. -/
theorem fmc_drv_wp (proper : Proper fmc) (type : bsp.type = .FMC) (data : UInt32) (c : Call) (s : Controller)
    (M : Content) (same : s.content = M) : (fmc_drv fmc data c).Wp (hardware fmc bsp) (fun _ => True)
      (fun a s' => ∃ M', (machine bsp).device c M a M' ∧ s'.content = M') s := by
  have carried := (fmc_simulates (K := fun _ => True) proper type data).carries c (faultless s) (M,0)
    ⟨fun _ => rfl,same,rfl,trivial⟩ fun _ _ _ => trivial
  refine wp_mono (wp_embed faultless (hardware_failing proper) carried) ?_
  rintro a s' ⟨⟨M',n⟩,⟨answered,counted⟩,explains⟩
  -- no failure has been counted, so the call has succeeded
  have none : n = 0 := explains.failures.symm
  have good : succeeded c a = true := by
    by_contra bad
    rw [if_neg bad] at counted
    dsimp only at counted
    omega
  exact ⟨M',unreliable_good answered good,explains.content⟩

/-! ### One driver -/

/-- A part with this geometry on one of the controllers; `garbage` is what its programming loop starts from. -/
def part (bsp : Bsp) (type : NvmcType) (garbage : UInt64) : Bsp := { bsp with type := type, garbage := garbage }

/-- Programming a range of the APROM, and then reading one. -/
def programThenRead (bsp : Bsp) (addr : UInt32) (data : Buffer) (p : Nat) (cnt addr' : UInt32) (buf : Buffer) (q : Nat)
    (cnt' : UInt32) : Prog interface (Int32 × Int32 × Buffer) := do
  let rc ← ARM_Flash_ProgramData_APROM bsp addr data p cnt
  let (rc',buf) ← ARM_Flash_ReadData_APROM bsp addr' buf q cnt'
  .ret (rc,rc',buf)

/-- The flash with `cnt` words of the data programmed: old AND new in each byte of them, and no other byte changed. -/
def programmedWords (M : Content) (addr : UInt32) (data : Buffer) (p : Nat) (cnt : UInt32) : Content :=
  combine (· &&& ·) M addr.toNat (fun k => data (p + k)) (4 * cnt.toNat)

/-- The device takes a range for programming: it is inside, starts at a double word and is made of whole ones. -/
structure Programmable (dev : arm_flash_dev_t) (addr cnt : UInt32) : Prop where
  inside : dev.Inside addr.toNat (4 * cnt.toNat)
  some : 1 ≤ cnt.toNat
  aligned : addr.toNat % 8 = 0
  even : cnt.toNat % 2 = 0

/-- The device takes a range for reading; an empty one it takes behind its first byte only. -/
structure Readable (dev : arm_flash_dev_t) (addr cnt : UInt32) : Prop where
  inside : dev.Inside addr.toNat (4 * cnt.toNat)
  taken : 0 < cnt.toNat ∨ dev.memory_base.toNat < addr.toNat

section
variable (sound : Sound bsp) {addr cnt : UInt32}
include sound

theorem run_program (range : Programmable (FLASH0_DEV bsp) addr cnt) (data : Buffer) (p : Nat) (M : Content) :
    (ARM_Flash_ProgramData_APROM bsp addr data p cnt).run (machine bsp) M =
      some (cnt.toInt32,programmedWords M addr data p cnt) := by
  have fits := dev_fits sound .APROM
  have ends := fits.ending
  obtain ⟨inside,more,aligned,even⟩ := range
  have high := inside.2
  obtain ⟨n,units,start⟩ : ∃ n, (NVT_NVMC_PROGRAM_UNIT bsp).toNat * n = 4 * cnt.toNat ∧
      addr.toNat % (NVT_NVMC_PROGRAM_UNIT bsp).toNat = 0 := by
    rcases program_unit_cases bsp with unit | unit
    · refine ⟨cnt.toNat,?_⟩
      rw [unit,show (4 : UInt32).toNat = 4 from rfl]
      omega
    · refine ⟨cnt.toNat / 2,?_⟩
      rw [unit,show (8 : UInt32).toNat = 8 from rfl]
      omega
  have below : addr.toNat + (NVT_NVMC_PROGRAM_UNIT bsp).toNat * n ≤ 2 ^ 32 := by
    rw [units]
    exact Nat.le_trans high ends
  have plan := @programDataOn_eq bsp (FLASH0_DEV bsp) fits program_unit_pos.1 addr cnt n more inside start units data p
  have programs := programs_unitPrograms program_unit_pos.1 program_unit_pos.2 data n bsp.garbage p addr below
  unfold ARM_Flash_ProgramData_APROM
  rw [plan,run_bind,run_issue (machine_succeeds bsp)]
  simp only [Option.bind_some,if_true,run_ret]
  rw [show (FLASH0_DEV bsp).data.program_unit = NVT_NVMC_PROGRAM_UNIT bsp from rfl,after_programs programs,
    unitPrograms_length,units]
  rfl

theorem run_read (range : Readable (FLASH0_DEV bsp) addr cnt) (buf : Buffer) (q : Nat) (M : Content) :
    (ARM_Flash_ReadData_APROM bsp addr buf q cnt).run (machine bsp) M =
      some ((cnt.toInt32,copy buf q M addr.toNat (4 * cnt.toNat)),M) := by
  by_cases more : 0 < cnt.toNat
  · exact AreaReads.run_readData sound .APROM more range.inside buf q M
  · have fits := dev_fits sound .APROM
    have ends : (FLASH0_DEV bsp).memory_base.toNat + (FLASH0_DEV bsp).size ≤ 2 ^ 32 := fits.ending
    have proper : (FLASH0_DEV bsp).size < 2 ^ 32 := fits.proper
    obtain ⟨low,high⟩ := range.inside
    have behind := range.taken.resolve_left more
    have none : cnt = 0 := by
      have zero : (0 : UInt32).toNat = 0 := rfl
      rw [eq_iff_toNat]
      omega
    subst none
    have place : (addr + 0 * 4 - 1).toNat = addr.toNat - 1 := by
      have one : (1 : UInt32).toNat = 1 := rfl
      rw [UInt32.zero_mul,UInt32.add_zero,toNat_sub_of_le (by omega),one]
    have valid : is_range_valid_internal (FLASH0_DEV bsp) (addr + 0 * 4 - 1) = 0 := by
      rw [is_range_valid_iff ends,place]
      omega
    unfold ARM_Flash_ReadData_APROM readDataOn
    rw [data_width_byte_driver]
    dsimp only
    rw [valid,if_neg (by decide),UInt32.toNat_zero,Nat.mul_zero,copy_zero]
    rfl

/-- On the calls of the back ends both parts do the same. -/
theorem run_programThenRead (range : Programmable (FLASH0_DEV bsp) addr cnt) {addr' cnt' : UInt32}
    (range' : Readable (FLASH0_DEV bsp) addr' cnt') (data : Buffer) (p : Nat) (buf : Buffer) (q : Nat) (M : Content) :
    (programThenRead bsp addr data p cnt addr' buf q cnt').run (machine bsp) M =
      some ((cnt.toInt32,cnt'.toInt32,copy buf q (programmedWords M addr data p cnt) addr'.toNat (4 * cnt'.toNat)),
        programmedWords M addr data p cnt) := by
  unfold programThenRead
  rw [run_bind_of_eq (run_program sound range data p M),run_bind_of_eq (run_read sound range' buf q _)]
  rfl

/-- An empty read at the first byte of the device is refused: the place before it is not in the device. -/
theorem empty_refused {addr : UInt32} (first : addr = (FLASH0_DEV bsp).memory_base) (buf : Buffer) (q : Nat) (M : Content) :
    (ARM_Flash_ReadData_APROM bsp addr buf q 0).run (machine bsp) M = some ((ARM_DRIVER_ERROR_PARAMETER,buf),M) := by
  have fits := dev_fits sound .APROM
  have ends : (FLASH0_DEV bsp).memory_base.toNat + (FLASH0_DEV bsp).size ≤ 2 ^ 32 := fits.ending
  have proper : (FLASH0_DEV bsp).size < 2 ^ 32 := fits.proper
  have before : (addr + 0 * 4 - 1).toNat = if addr.toNat = 0 then 2 ^ 32 - 1 else addr.toNat - 1 := by
    have bound := addr.toNat_lt
    rw [UInt32.zero_mul,UInt32.add_zero,UInt32.toNat_sub,show (1 : UInt32).toNat = 1 from rfl]
    split_ifs <;> omega
  have refused : is_range_valid_internal (FLASH0_DEV bsp) (addr + 0 * 4 - 1) ≠ 0 := by
    rw [Ne,is_range_valid_iff ends,before,first]
    split_ifs <;> omega
  unfold ARM_Flash_ReadData_APROM readDataOn
  rw [data_width_byte_driver]
  dsimp only
  rw [if_pos refused]
  rfl

end

/-- What both parts do on the calls of the back ends, they do on the RMC and on the FMC. -/
theorem both_parts (proper : Proper fmc) {addr cnt addr' cnt' : UInt32} {data : Buffer} {p : Nat} {buf : Buffer}
    {q : Nat} {M M' : Content} {r : Int32 × Int32 × Buffer} (ran : ∀ type garbage,
      (programThenRead (part bsp type garbage) addr data p cnt addr' buf q cnt').run (machine (part bsp type garbage)) M =
        some (r,M')) (garbage garbage' : UInt64) (r_data : UInt32) :
    ((programThenRead (part bsp .RMC garbage) addr data p cnt addr' buf q cnt').translate rmc_drv).run
      (working (part bsp .RMC garbage)) M = some (r,M') ∧
    ∀ s : Controller, s.content = M →
      (∃ t r s', Exec (hardware fmc (part bsp .FMC garbage'))
        ((programThenRead (part bsp .FMC garbage') addr data p cnt addr' buf q cnt').translate (fmc_drv fmc r_data))
        s t (.ret r) s') ∧
      ((programThenRead (part bsp .FMC garbage') addr data p cnt addr' buf q cnt').translate (fmc_drv fmc r_data)).Wp
        (hardware fmc (part bsp .FMC garbage')) (fun _ => True) (fun r' s' => r' = r ∧ s'.content = M') s := by
  constructor
  · rw [run_translate fun c M => rmc_drv_run (part bsp .RMC garbage) rfl c M]
    exact ran .RMC garbage
  · intro s same
    have carried := wp_translate (fun _ _ _ => trivial) (fun c s M same _ => fmc_drv_wp proper rfl r_data c s M same)
      (run_wp (ran .FMC garbage')) same
    refine ⟨wp_ends (hardware_answers proper) carried,wp_mono carried ?_⟩
    rintro r' s' ⟨M'',returned,content⟩
    obtain ⟨rfl,rfl⟩ := Prod.mk.inj returned
    exact ⟨rfl,content⟩

theorem part_sound (sound : Sound bsp) (type : NvmcType) (garbage : UInt64) : Sound (part bsp type garbage) := by
  refine ⟨sound.page,fun rom => ?_⟩
  have region := sound.region rom
  cases rom <;> exact region

/-- Built for the FMC and built for the RMC, programming returns its count and leaves `programmedWords`, and the read
    behind it returns its count and the bytes of that. -/
theorem back_ends_agree (proper : Proper fmc) (sound : Sound bsp) {addr cnt addr' cnt' : UInt32}
    (range : Programmable (FLASH0_DEV bsp) addr cnt) (range' : Readable (FLASH0_DEV bsp) addr' cnt') (data : Buffer) (p : Nat)
    (buf : Buffer) (q : Nat) (M : Content) (garbage garbage' : UInt64) (r_data : UInt32) :
    ((programThenRead (part bsp .RMC garbage) addr data p cnt addr' buf q cnt').translate rmc_drv).run
      (working (part bsp .RMC garbage)) M =
      some ((cnt.toInt32,cnt'.toInt32,copy buf q (programmedWords M addr data p cnt) addr'.toNat (4 * cnt'.toNat)),
        programmedWords M addr data p cnt) ∧
    ∀ s : Controller, s.content = M →
      (∃ t r s', Exec (hardware fmc (part bsp .FMC garbage'))
        ((programThenRead (part bsp .FMC garbage') addr data p cnt addr' buf q cnt').translate (fmc_drv fmc r_data))
        s t (.ret r) s') ∧
      ((programThenRead (part bsp .FMC garbage') addr data p cnt addr' buf q cnt').translate (fmc_drv fmc r_data)).Wp
        (hardware fmc (part bsp .FMC garbage')) (fun _ => True) (fun r s' => r = (cnt.toInt32,cnt'.toInt32,
          copy buf q (programmedWords M addr data p cnt) addr'.toNat (4 * cnt'.toNat)) ∧
          s'.content = programmedWords M addr data p cnt) s := by
  -- the two parts differ in their program unit only
  refine both_parts proper (fun type garbage => ?_) garbage garbage' r_data
  exact @run_programThenRead (part bsp type garbage) (part_sound sound type garbage) addr cnt
    ⟨range.inside,range.some,range.aligned,range.even⟩ addr' cnt' ⟨range'.inside,range'.taken⟩ data p buf q M

/-! ### An example part -/

/-- Three double words at the start of the primary slot, of which the last word and the one behind it are read. -/
theorem back_ends_agree_board :
    ((programThenRead (part board .RMC 7) 0x20000 (fun k => UInt8.ofNat k) 0 6 0x20014 (fun _ => 0) 0 2).translate rmc_drv).run
      (working (part board .RMC 7)) (fun _ => 0xFF) =
      some ((6,2,copy (fun _ => 0) 0 (programmedWords (fun _ => 0xFF) 0x20000 (fun k => UInt8.ofNat k) 0 6) 0x20014 8),
        programmedWords (fun _ => 0xFF) 0x20000 (fun k => UInt8.ofNat k) 0 6) :=
  (@back_ends_agree fmcRegisters board fmcRegisters_proper board_sound 0x20000 6 0x20014 2
    ⟨⟨by decide,by decide⟩,by decide,by decide,by decide⟩ ⟨⟨by decide,by decide⟩,.inl (by decide)⟩
    (fun k => UInt8.ofNat k) 0 (fun _ => 0) 0 (fun _ => 0xFF) 7 0 0).1

/-- Both programming calls return their count of six words, but the empty read at the start of the APROM, which lies inside
    the device and at a word, returns an error with either back end. -/
theorem empty_read_fails :
    Programmable (FLASH0_DEV board) 0x20000 6 ∧ (FLASH0_DEV board).Inside (0 : UInt32).toNat (4 * (0 : UInt32).toNat) ∧
    ARM_DRIVER_ERROR_PARAMETER ≠ (0 : UInt32).toInt32 ∧
    ((programThenRead (part board .RMC 7) 0x20000 (fun k => UInt8.ofNat k) 0 6 0 (fun _ => 0) 0 0).translate rmc_drv).run
      (working (part board .RMC 7)) (fun _ => 0xFF) =
      some ((6,ARM_DRIVER_ERROR_PARAMETER,fun _ => 0),
        programmedWords (fun _ => 0xFF) 0x20000 (fun k => UInt8.ofNat k) 0 6) ∧
    ((programThenRead (part board .FMC 0) 0x20000 (fun k => UInt8.ofNat k) 0 6 0 (fun _ => 0) 0 0).translate
      (fmc_drv fmcRegisters 0)).Wp (hardware fmcRegisters (part board .FMC 0)) (fun _ => True)
      (fun r _ => r = (6,ARM_DRIVER_ERROR_PARAMETER,fun _ => 0)) ⟨0,0,0,0,0,0,fun _ => 0xFF⟩ := by
  have range : Programmable (FLASH0_DEV board) 0x20000 6 := ⟨⟨by decide,by decide⟩,by decide,by decide,by decide⟩
  have ran : ∀ type garbage,
      (programThenRead (part board type garbage) 0x20000 (fun k => UInt8.ofNat k) 0 6 0 (fun _ => 0) 0 0).run
        (machine (part board type garbage)) (fun _ => 0xFF) = some ((6,ARM_DRIVER_ERROR_PARAMETER,fun _ => 0),
          programmedWords (fun _ => 0xFF) 0x20000 (fun k => UInt8.ofNat k) 0 6) := by
    intro type garbage
    have sound := part_sound board_sound type garbage
    have programmed := @run_program _ sound 0x20000 6 ⟨range.inside,range.some,range.aligned,range.even⟩
      (fun k => UInt8.ofNat k) 0 fun _ => 0xFF
    unfold programThenRead
    rw [run_bind_of_eq programmed,run_bind_of_eq (@empty_refused _ sound 0 rfl _ _ _)]
    rfl
  obtain ⟨first,second⟩ := both_parts fmcRegisters_proper ran 7 0 0
  refine ⟨range,⟨by decide,by decide⟩,by decide,first,?_⟩
  exact wp_mono (second _ rfl).2 fun r s' after => after.1

end NuMicroBoot.BackEnds
