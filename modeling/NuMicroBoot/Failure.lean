import NuMicroBoot.Requests
import NuMicroBoot.AreaPlans

/-!
No failure is silent: an operation of the flash map over the internal flash
returns an error right after the first controller step that fails, and reports
success only when all steps have succeeded.
-/

namespace NuMicroBoot.Failure
open NuMicroBoot.Calls NuMicroBoot.Calls.Prog NuMicroBoot.Cells NuMicroBoot.Words NuMicroBoot.Driver NuMicroBoot.Nvmc
open NuMicroBoot.InternalDriver NuMicroBoot.FlashMap NuMicroBoot.AreaPlans NuMicroBoot.Requests

/-! ### The flash map over a driver that stops at failures -/

section
variable {I : Interface} (good : (c : I.Call) → I.Answer c → Prop)

/-- The driver returns `ARM_DRIVER_ERROR` right after the first call that is not good. -/
structure FailFast (driver : ARM_DRIVER_FLASH I) : Prop where
  read : ∀ addr data p cnt, (driver.ReadData addr data p cnt).FailStop good fun r => r.1 = ARM_DRIVER_ERROR
  program : ∀ addr data p cnt, (driver.ProgramData addr data p cnt).FailStop good fun r => r = ARM_DRIVER_ERROR
  erase : ∀ addr, (driver.EraseSector addr).FailStop good fun r => r = ARM_DRIVER_ERROR

variable {good} {area : flash_area I} (fast : FailFast good area.fa_driver)
include fast

theorem failStop_readRest {off data_width items rem : UInt32} {dst temp : Buffer} {status : Int32} {i : UInt8} :
    (readRest area off data_width dst temp status i items rem).FailStop good fun r => r.1 = ARM_DRIVER_ERROR := by
  refine failStop_ite (failStop_bind (fast.read _ _ _ _) (fun r => failStop_ite trivial trivial) fun r failed => ?_) trivial
  exact ⟨(r.1,dst),if_pos (by rw [failed]; decide),failed⟩

theorem failStop_readItems {off data_width rem : UInt32} {dst temp : Buffer} {status : Int32} {i : UInt8} :
    (readItems area off data_width dst temp status i rem).FailStop good fun r => r.1 = ARM_DRIVER_ERROR := by
  refine failStop_ite (failStop_ite (failStop_bind (fast.read _ _ _ _) (fun r => failStop_ite trivial ?_)
    fun r failed => ?_) (failStop_readRest fast)) (failStop_readRest fast)
  · exact failStop_readRest fast
  · exact ⟨r,if_pos (by rw [failed]; decide),failed⟩

theorem failStop_read [Bootutil] (off : UInt32) (dst : Buffer) (len : UInt32) :
    (flash_area_read area off dst len).FailStop good fun r => r.1 = ARM_DRIVER_ERROR := by
  refine failStop_ite trivial (failStop_ite (failStop_bind (fast.read _ _ _ _) (fun r => failStop_ite trivial ?_)
    fun r failed => ?_) (failStop_readItems fast))
  · exact failStop_readItems fast
  · exact ⟨(r.1,dst),if_pos (by rw [failed]; decide),failed⟩

/-! ### Writing -/

theorem failStop_writeLast {off len data_width aligned_len add_padding_size len_padding_size idx : UInt32}
    {src len_padding add_padding : Buffer} : (writeLast area off src len data_width aligned_len add_padding_size
      len_padding_size len_padding add_padding idx).FailStop good fun r => r = -1 := by
  refine failStop_ite (failStop_ite trivial (failStop_ite trivial (failStop_bind (fast.program _ _ _ _)
    (fun status => failStop_ite trivial trivial) fun status failed => ?_))) trivial
  exact ⟨-1,if_pos (by rw [failed]; decide),rfl⟩

theorem failStop_writeAligned {off len data_width aligned_len add_padding_size len_padding_size idx : UInt32}
    {src len_padding add_padding : Buffer} : (writeAligned area off src len data_width aligned_len add_padding_size
      len_padding_size len_padding add_padding idx).FailStop good fun r => r = -1 := by
  refine failStop_ite (failStop_ite (failStop_bind (fast.program _ _ _ _)
    (fun status => failStop_ite trivial (failStop_writeLast fast)) fun status failed => ?_) (failStop_writeLast fast)) trivial
  exact ⟨-1,if_pos (by rw [failed]; decide),rfl⟩

theorem failStop_writeUnits {off len data_width aligned_len add_padding_size len_padding_size aligned_off : UInt32}
    {src len_padding add_padding : Buffer} : (writeUnits area off src len data_width aligned_len add_padding_size
      len_padding_size len_padding aligned_off add_padding).FailStop good fun r => r = -1 := by
  refine failStop_ite (failStop_ite trivial (failStop_ite trivial (failStop_bind (fast.program _ _ _ _)
    (fun status => failStop_ite trivial (failStop_writeAligned fast)) fun status failed => ?_)))
    (failStop_writeAligned fast)
  exact ⟨-1,if_pos (by rw [failed]; decide),rfl⟩

theorem failStop_write [Bootutil] (off : UInt32) (src : Buffer) (len : UInt32) :
    (flash_area_write area off src len).FailStop good fun r => r = -1 := by
  refine failStop_ite trivial (failStop_bind (failStop_read fast _ _ _) (fun r => failStop_ite trivial
    (failStop_ite trivial (failStop_bind (failStop_read fast _ _ _) (fun r => failStop_ite trivial
      (failStop_writeUnits fast)) fun r failed => ?_))) fun r failed => ?_)
  · exact ⟨-1,if_pos (by rw [failed]; decide),rfl⟩
  · exact ⟨-1,if_pos (by rw [failed]; decide),rfl⟩

theorem failStop_is_empty [Bootutil] (off : UInt32) (dst : Buffer) (len : UInt32) :
    (flash_area_read_is_empty area off dst len).FailStop good fun r => r.1 = -1 := by
  refine failStop_bind (failStop_read fast off dst len) (fun r => failStop_ite trivial trivial) fun r failed => ?_
  exact ⟨(-1,r.2),if_pos (by rw [failed]; decide),rfl⟩

end

/-! ### The internal drivers -/

/-- The step has returned `NVT_NVMC_OK`. -/
def Fine (c : Call) (a : Answer c) : Prop := succeeded c a = true

theorem failStop_readLoop (rounds : Nat) : ∀ (dest : Nat) (addr remain : UInt32) (data : Buffer),
    remain.toNat < rounds → (readLoop rounds dest addr remain data).FailStop Fine fun r => r.1 = ARM_DRIVER_ERROR := by
  induction rounds with
  | zero => intro dest addr remain data enough; omega
  | succ rounds ih =>
    intro dest addr remain data enough
    refine failStop_ite (fun a => ⟨fun fine => ?_,fun failed => ?_⟩) trivial
    · refine failStop_ite trivial ?_
      by_cases more : remain > 4
      · have := UInt32.lt_iff_toNat_lt.mp more
        rw [if_pos more]
        refine ih _ _ _ _ ?_
        rw [toNat_sub_of_le (by simp at this ⊢; omega)]
        simp at this ⊢; omega
      · rw [if_neg more]
        trivial
    · refine ⟨(ARM_DRIVER_ERROR,data),if_pos ?_,rfl⟩
      simpa [Fine,succeeded_read] using failed

theorem failStop_readDataOn (dev : arm_flash_dev_t) (addr : UInt32) (data : Buffer) (p : Nat) (cnt : UInt32) :
    (readDataOn dev addr data p cnt).FailStop Fine fun r => r.1 = ARM_DRIVER_ERROR := by
  refine failStop_ite trivial (failStop_bind (failStop_readLoop _ _ _ _ _ (Nat.lt_succ_self _))
    (fun r => failStop_ite trivial trivial) fun r failed => ?_)
  exact ⟨(ARM_DRIVER_ERROR,r.2),if_pos (by rw [failed]; decide),rfl⟩

theorem failStop_programLoop (addr : UInt32) (data : Buffer) (p : Nat) (sz u : UInt32) (positive : 0 < u.toNat)
    (rounds : Nat) : ∀ (offst src : UInt32) (dword : UInt64), offst.toNat ≤ sz.toNat →
    (sz.toNat - offst.toNat) % u.toNat = 0 → sz.toNat - offst.toNat < rounds →
    (programLoop addr data p sz u rounds offst src dword).FailStop Fine fun r => r = ARM_DRIVER_ERROR := by
  have bound := sz.toNat_lt
  induction rounds with
  | zero => intro offst src dword below whole enough; omega
  | succ rounds ih =>
    intro offst src dword below whole enough
    by_cases more : offst < sz
    · have left := UInt32.lt_iff_toNat_lt.mp more
      have unit : u.toNat ≤ sz.toNat - offst.toNat :=
        Nat.le_of_dvd (by omega) (Nat.dvd_of_mod_eq_zero whole)
      have next : (offst + u).toNat = offst.toNat + u.toNat := toNat_add_of_lt (by omega)
      rw [programLoop,if_pos more]
      refine fun status => ⟨fun fine => failStop_ite trivial (ih _ _ _ ?_ ?_ ?_),fun failed => ?_⟩
      · omega
      · rw [next,Nat.sub_add_eq,← Nat.mod_eq_sub_mod unit]
        exact whole
      · omega
      · refine ⟨ARM_DRIVER_ERROR,if_pos ?_,rfl⟩
        simpa [Fine,succeeded_program] using failed
    · rw [programLoop,if_neg more]
      trivial

theorem failStop_programDataOn (bsp : Bsp) (dev : arm_flash_dev_t) (positive : 0 < dev.data.program_unit.toNat)
    (addr : UInt32) (data : Buffer) (p : Nat) (cnt : UInt32) :
    (programDataOn bsp dev addr data p cnt).FailStop Fine fun r => r = ARM_DRIVER_ERROR := by
  unfold programDataOn
  dsimp only
  by_cases rejected : is_range_valid_internal dev (addr + cnt * data_width_byte DriverCapabilities.data_width - 1) |||
      is_write_aligned dev addr ||| is_write_aligned dev (cnt * data_width_byte DriverCapabilities.data_width) ≠ 0
  · rw [if_pos rejected]
    trivial
  rw [if_neg rejected]
  have aligned : is_write_aligned dev (cnt * data_width_byte DriverCapabilities.data_width) = 0 := by
    rw [ne_eq,Decidable.not_not,or_checks_eq_zero (or_checks_cases (is_range_valid_cases _ _) (is_write_aligned_cases _ _))
      (is_write_aligned_cases _ _)] at rejected
    exact rejected.2
  refine failStop_bind (failStop_programLoop _ _ _ _ _ positive _ _ _ _ (by simp) ?_ (by simp))
    (fun status => failStop_ite trivial trivial) fun status failed => ?_
  · simpa using (is_write_aligned_iff dev _).mp aligned
  · exact ⟨ARM_DRIVER_ERROR,if_pos (by rw [failed]; decide),rfl⟩

theorem failStop_eraseInternal (addr : UInt32) :
    (ARM_Flash_EraseSector_Internal addr).FailStop Fine fun r => r = ARM_DRIVER_ERROR := by
  refine fun status => ⟨fun fine => failStop_ite trivial trivial,fun failed => ⟨ARM_DRIVER_ERROR,if_pos ?_,rfl⟩⟩
  simpa [Fine,succeeded_erase] using failed

theorem failStop_eraseSectorOn (dev : arm_flash_dev_t) (addr : UInt32) :
    (eraseSectorOn dev addr).FailStop Fine fun r => r = ARM_DRIVER_ERROR := by
  refine failStop_ite trivial (failStop_bind (failStop_eraseInternal addr) (fun status => failStop_ite trivial trivial)
    fun status failed => ?_)
  exact ⟨ARM_DRIVER_ERROR,if_pos (by rw [failed]; decide),rfl⟩

variable {bsp : Bsp}

theorem failFast_internal (rom : Rom) : FailFast Fine (rom.driver bsp) := by
  have unit : 0 < (rom.dev bsp).data.program_unit.toNat := by
    rw [dev_program_unit]
    exact program_unit_pos.1
  cases rom with
  | APROM => exact ⟨failStop_readDataOn _,failStop_programDataOn bsp _ unit,failStop_eraseSectorOn _⟩
  | LDROM => exact ⟨failStop_readDataOn _,failStop_programDataOn bsp _ unit,failStop_eraseSectorOn _⟩

/-! ### Erasing -/

theorem next_multiple {page m n : Nat} (first : m % page = 0) (second : n % page = 0) (less : m < n) : m + page ≤ n := by
  have apart : page ∣ n - m := Nat.dvd_sub (Nat.dvd_of_mod_eq_zero second) (Nat.dvd_of_mod_eq_zero first)
  have := Nat.le_of_dvd (by omega) apart
  omega

/-- How far an erase has come when it is about to erase at `addr`: it has just erased the sector before, and the
    sectors it has erased lie between the start of the device and `addr`. -/
structure Progress (dev : arm_flash_dev_t) (page addr deleted_len : UInt32) : Prop where
  whole : deleted_len.toNat % page.toNat = 0
  before : deleted_len.toNat = 0 ∨ ∃ prev : UInt32, addr = prev + page ∧ prev.toNat % page.toNat = 0 ∧
    dev.memory_base.toNat ≤ prev.toNat ∧ prev.toNat < dev.memory_base.toNat + dev.size ∧
    deleted_len.toNat ≤ prev.toNat - dev.memory_base.toNat + page.toNat

/-- A sector that is accepted lies behind those erased so far, so the count of erased bytes does not wrap. -/
theorem progress_step {dev : arm_flash_dev_t} (fits : Fits dev) {page addr deleted_len : UInt32}
    (size : dev.size % page.toNat = 0) (progress : Progress dev page addr deleted_len)
    (aligned : addr.toNat % page.toNat = 0) (low : dev.memory_base.toNat ≤ addr.toNat)
    (high : addr.toNat < dev.memory_base.toNat + dev.size) :
    (deleted_len + page).toNat = deleted_len.toNat + page.toNat ∧ Progress dev page (addr + page) (deleted_len + page) := by
  have ending := fits.ending
  have proper := fits.proper
  have small := page.toNat_lt
  obtain ⟨whole,before⟩ := progress
  have sum : (deleted_len + page).toNat = deleted_len.toNat + page.toNat ∧
      deleted_len.toNat + page.toNat ≤ addr.toNat - dev.memory_base.toNat + page.toNat := by
    rcases before with none | ⟨prev,rfl,start,above,below,erased⟩
    · exact ⟨toNat_add_of_lt (by omega),by omega⟩
    · have forward : prev.toNat + page.toNat < 2 ^ 32 := by
        by_contra wraps
        have value : (prev + page).toNat = prev.toNat + page.toNat - 2 ^ 32 := by
          have bound := prev.toNat_lt
          rw [UInt32.toNat_add]
          omega
        have zero : prev.toNat + page.toNat - 2 ^ 32 = 0 := by
          have bound := prev.toNat_lt
          have less : prev.toNat + page.toNat - 2 ^ 32 < page.toNat := by omega
          rw [value,Nat.mod_eq_of_lt less] at aligned
          exact aligned
        have room := next_multiple start size (by omega)
        omega
      rw [toNat_add_of_lt forward] at high ⊢
      have room := next_multiple whole size (by omega)
      exact ⟨toNat_add_of_lt (by omega),by omega⟩
  refine ⟨sum.1,?_,.inr ⟨addr,rfl,aligned,low,high,by rw [sum.1]; exact sum.2⟩⟩
  rw [sum.1,Nat.add_mod,whole]
  simp

theorem failStop_eraseLoop (sound : Sound bsp) (rom : Rom) {area : flash_area interface}
    (driver : area.fa_driver = rom.driver bsp) (len : UInt32) (rounds : Nat) : ∀ off deleted_len : UInt32,
    Progress (rom.dev bsp) bsp.FLASH_PAGE_SIZE (area.fa_off + off) deleted_len →
    len.toNat - deleted_len.toNat < rounds → (eraseLoop area len rounds off deleted_len).FailStop Fine fun r => r ≠ 0 := by
  have page := sound.page.1
  have erases : ∀ addr, area.fa_driver.EraseSector addr = eraseSectorOn (rom.dev bsp) addr := by
    rw [driver]
    cases rom <;> exact fun _ => rfl
  have sectors : area.fa_driver.GetInfo.sector_size = bsp.FLASH_PAGE_SIZE := by
    rw [driver]
    cases rom <;> rfl
  have size : (rom.dev bsp).size % bsp.FLASH_PAGE_SIZE.toNat = 0 := by
    rw [arm_flash_dev_t.size,dev_sector_size]
    exact Nat.mul_mod_left _ _
  induction rounds with
  | zero => intro off deleted_len _ enough; omega
  | succ rounds ih =>
    intro off deleted_len progress enough
    by_cases more : deleted_len < len
    · rw [eraseLoop,if_pos more,erases,sectors]
      by_cases accepted : is_range_valid_internal (rom.dev bsp) (area.fa_off + off) = 0 ∧
          is_sector_aligned (rom.dev bsp) (area.fa_off + off) = 0
      · obtain ⟨_,low,high⟩ := (is_range_valid_iff (dev_fits sound rom).ending _).mp accepted.1
        have aligned := (is_sector_aligned_iff _ _).mp accepted.2
        rw [dev_sector_size] at aligned
        obtain ⟨sum,progress'⟩ := progress_step (dev_fits sound rom) size progress aligned low high
        have left := UInt32.lt_iff_toNat_lt.mp more
        refine failStop_bind (failStop_eraseSectorOn _ _) (fun rc => failStop_ite trivial (ih _ _ ?_ (by omega)))
          fun rc failed => ?_
        · rwa [← UInt32.add_assoc]
        · exact ⟨rc,if_pos (by rw [failed]; decide),by rw [failed]; decide⟩
      · rw [eraseSectorOn_rejects accepted]
        trivial
    · rw [eraseLoop,if_neg more]
      trivial

theorem failStop_erase [Bootutil] (sound : Sound bsp) (rom : Rom) {area : flash_area interface}
    (driver : area.fa_driver = rom.driver bsp) (off len : UInt32) :
    (flash_area_erase area off len).FailStop Fine fun r => r ≠ 0 :=
  failStop_ite trivial (failStop_ite (failStop_eraseLoop sound rom driver len _ off 0 ⟨by simp,.inl rfl⟩ (by simp)) trivial)

/-! ### Requests -/

theorem failStop_perform [Bootutil] (sound : Sound bsp) (rom : Rom) {area : flash_area interface}
    (driver : area.fa_driver = rom.driver bsp) (request : Request) :
    (perform area request).FailStop Fine fun reply => reply.Error request := by
  have fast : FailFast Fine area.fa_driver := by
    rw [driver]
    exact failFast_internal rom
  cases request with
  | flash_area_read off dst len =>
    refine failStop_bind (failStop_read fast off dst len) (fun _ => trivial) fun r failed => ⟨⟨r.1,r.2⟩,rfl,?_⟩
    show r.1 ≠ 0
    rw [failed]
    decide
  | flash_area_write off src len =>
    refine failStop_bind (failStop_write fast off src len) (fun _ => trivial) fun rc failed => ⟨⟨rc,src⟩,rfl,?_⟩
    show rc ≠ 0
    rw [failed]
    decide
  | flash_area_erase off len =>
    exact failStop_bind (failStop_erase sound rom driver off len) (fun _ => trivial) fun rc failed =>
      ⟨⟨rc,stackArray⟩,rfl,failed⟩
  | flash_area_read_is_empty off dst len =>
    exact failStop_bind (failStop_is_empty fast off dst len) (fun _ => trivial) fun r failed => ⟨⟨r.1,r.2⟩,rfl,failed⟩

theorem error_not_success {request : Request} {reply : Reply} (error : reply.Error request) : ¬ reply.Success request := by
  cases request with
  | flash_area_read_is_empty =>
    have rc : reply.rc = -1 := error
    show ¬ (reply.rc = 0 ∨ reply.rc = 1)
    rw [rc]
    decide
  | _ => exact error

/-- Over every outcome of the controller steps: the operation never runs forever; it reports success only if every
    step it made has succeeded; and when a step fails, it has made no step after that one and returns an error. -/
theorem no_silent_failure [Bootutil] (sound : Sound bsp) (rom : Rom) (area : flash_area interface)
    (driver : area.fa_driver = rom.driver bsp) (request : Request) {σ : Type} {R : Device interface σ} {s s' : σ}
    {t : List (Event interface)} {q : Prog interface Reply} (exec : Exec R (perform area request) s t q s') :
    q ≠ .spin ∧
    (∀ reply, q = .ret reply → reply.Success request → ∀ e ∈ t, succeeded e.call e.answer = true) ∧
    ∀ before e after, t = before ++ e :: after → succeeded e.call e.answer = false →
      after = [] ∧ ∃ reply, q = .ret reply ∧ reply.Error request := by
  rcases failStop_exec (failStop_perform sound rom driver request) exec with ⟨fine,rest⟩ | ⟨front,last,rfl,fine,failed,reply,rfl,error⟩
  · refine ⟨?_,fun _ _ _ => fine,?_⟩
    · rintro rfl
      exact rest
    · rintro before e after rfl failed
      have isFine : succeeded e.call e.answer = true := fine e (by simp)
      rw [failed] at isFine
      cases isFine
  · refine ⟨by simp,?_,?_⟩
    · rintro reply' same success
      cases same
      exact absurd success (error_not_success error)
    · intro before e after split failed'
      rcases List.eq_nil_or_concat after with rfl | ⟨init,x,rfl⟩
      · exact ⟨rfl,reply,rfl,error⟩
      · have same : front ++ [last] = (before ++ e :: init) ++ [x] := by simpa using split
        have isFine : succeeded e.call e.answer = true := fine e (by simp [(List.append_inj' same rfl).1])
        rw [failed'] at isFine
        cases isFine

/-- A controller that may answer anything. -/
def anyAnswer : Device interface Unit := fun _ _ _ _ => True

/-- A read whose first step times out. -/
theorem no_silent_failure_read : ∃ (t : List (Event interface)) (q : Prog interface Reply), t ≠ [] ∧ q ≠ .spin ∧
    (∀ reply, q = Prog.ret reply → reply.Success (.flash_area_read 0 stackArray 8) →
      ∀ e ∈ t, succeeded e.call e.answer = true) ∧
    ∀ before e after, t = before ++ e :: after → succeeded e.call e.answer = false →
      after = [] ∧ ∃ reply, q = Prog.ret reply ∧ reply.Error (.flash_area_read 0 stackArray 8) :=
  ⟨_,_,List.cons_ne_nil _ _,@no_silent_failure _ bootutil board_sound .APROM primary.area rfl
    (.flash_area_read 0 stackArray 8) Unit anyAnswer () () _ _
    (.step (show anyAnswer (.NVT_NVMC_Read 0x20000) () (NVT_NVMC_TIMEOUT,0) () from trivial) (.stop _ _))⟩

end NuMicroBoot.Failure
