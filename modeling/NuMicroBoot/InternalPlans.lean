import NuMicroBoot.InternalDriver

/-!
What the internal drivers do with a request they accept: they issue a list of
controller calls in order, up to the first that fails. Reading goes word by
word, programming unit by unit.
-/

namespace NuMicroBoot.InternalDriver
open NuMicroBoot.Calls NuMicroBoot.Calls.Prog NuMicroBoot.Cells NuMicroBoot.Words NuMicroBoot.Driver NuMicroBoot.Nvmc

variable {bsp : Bsp}

/-- The device ends at 2^32 or below, and is not the whole address space. -/
structure Fits (dev : arm_flash_dev_t) : Prop where
  ending : dev.memory_base.toNat + dev.size ≤ 2 ^ 32
  proper : dev.size < 2 ^ 32

theorem succeeded_read (addr : UInt32) (a : Int32 × UInt32) :
    succeeded (.NVT_NVMC_Read addr) a = decide (a.1 = NVT_NVMC_OK) := rfl
theorem succeeded_program (addr : UInt32) (dword : UInt64) (a : Int32) :
    succeeded (.NVT_NVMC_Program addr dword) a = decide (a = NVT_NVMC_OK) := rfl
theorem succeeded_erase (addr : UInt32) (a : Int32) :
    succeeded (.NVT_NVMC_Erase addr) a = decide (a = NVT_NVMC_OK) := rfl

/-! ### Reading -/

/-- Reads of `n` words from an address on. -/
def wordReads : (addr : UInt32) → (n : Nat) → List Call
  | _, 0 => []
  | addr, n + 1 => .NVT_NVMC_Read addr :: wordReads (addr + 4) n

/-- The word a read answered. -/
def wordOf : Event interface → UInt32
  | ⟨.NVT_NVMC_Read _,a⟩ => a.2
  | _ => 0

/-- The bytes that reads answered, one word after the other. -/
def heard : List (Event interface) → Buffer
  | [] => fun _ => 0
  | e :: es => fun k => if k < 4 then wordBytes (wordOf e) k else heard es (k - 4)

theorem copy_heard (data : Buffer) (p : Nat) (e : Event interface) (es : List (Event interface)) :
    copy (copy data p (wordBytes (wordOf e)) 0 4) (p + 4) (heard es) 0 (4 * es.length) =
      copy data p (heard (e :: es)) 0 (4 * (e :: es).length) := by
  have shape : 4 * (e :: es).length = 4 + 4 * es.length := by simp; omega
  have first : copy data p (wordBytes (wordOf e)) 0 4 = copy data p (heard (e :: es)) 0 4 :=
    copy_congr fun k inside => by simp [heard,inside]
  rw [shape,← copy_append,first]
  refine copy_congr fun k _ => ?_
  show heard es (0 + k) = if 0 + 4 + k < 4 then _ else heard es (0 + 4 + k - 4)
  rw [if_neg (by omega)]
  congr 1
  omega

/-- The bytes heard so far and the rest. -/
theorem heard_append (es fs : List (Event interface)) (k : Nat) :
    heard (es ++ fs) k = if k < 4 * es.length then heard es k else heard fs (k - 4 * es.length) := by
  induction es generalizing k with
  | nil => simp
  | cons e es ih =>
    have shape : 4 * (e :: es).length = 4 + 4 * es.length := by simp; omega
    simp only [List.cons_append,heard,ih,shape]
    by_cases head : k < 4
    · rw [if_pos head,if_pos (by omega),if_pos head]
    · rw [if_neg head]
      by_cases inside : k - 4 < 4 * es.length
      · rw [if_pos inside,if_pos (by omega),if_neg head]
      · rw [if_neg inside,if_neg (by omega)]
        congr 1
        omega

theorem wordReads_append (addr : UInt32) (n m : Nat) :
    wordReads addr n ++ wordReads (addr + 4 * UInt32.ofNat n) m = wordReads addr (n + m) := by
  induction n generalizing addr with
  | zero => simp [wordReads]
  | succ n ih =>
    have next : addr + 4 * UInt32.ofNat (n + 1) = addr + 4 + 4 * UInt32.ofNat n := by
      rw [UInt32.ofNat_add,UInt32.mul_add,UInt32.add_comm (4 * UInt32.ofNat n),UInt32.add_assoc]
      rfl
    rw [next,Nat.succ_add,wordReads,wordReads,List.cons_append,ih]

/-- Where `remain` is a whole number of words, the loop reads them in order. -/
theorem readLoop_eq (n : Nat) : ∀ (rounds dest : Nat) (addr remain : UInt32) (data : Buffer),
    remain.toNat = 4 * n → n < rounds →
    readLoop rounds dest addr remain data = issue succeeded (wordReads addr n) >>= fun r =>
      .ret (if r.2 then ARM_DRIVER_OK else ARM_DRIVER_ERROR,copy data dest (heard r.1) 0 (4 * r.1.length)) := by
  induction n with
  | zero =>
    intro rounds dest addr remain data size enough
    cases rounds with
    | zero => omega
    | succ rounds =>
      have nothing : ¬ remain > 0 := by simp [UInt32.lt_iff_toNat_lt,size]
      simp [readLoop,nothing,wordReads,issue]
  | succ n ih =>
    intro rounds dest addr remain data size enough
    cases rounds with
    | zero => omega
    | succ rounds =>
      have something : remain > 0 := by rw [gt_iff_lt,UInt32.lt_iff_toNat_lt,size]; simp
      simp only [readLoop,something,if_true,wordReads,issue,call_bind,ret_bind,succeeded_read]
      congr 1
      funext a
      obtain ⟨status,word⟩ := a
      by_cases fine : status = NVT_NVMC_OK
      · subst fine
        simp only [ne_eq,not_true_eq_false,if_false,decide_true,if_true,bind_bind,ret_bind]
        by_cases more : remain > 4
        · have left : (remain - 4).toNat = 4 * n := by
            have four : (4 : UInt32).toNat = 4 := rfl
            rw [toNat_sub_of_le (by omega)]
            omega
          rw [if_pos more,ih _ _ _ _ _ left (by omega)]
          congr 1
          funext r
          rw [← copy_heard]
          rfl
        · have last : n = 0 := by
            rw [gt_iff_lt,UInt32.lt_iff_toNat_lt,size] at more
            simp at more; omega
          subst last
          simp only [more,if_false,wordReads,issue,ret_bind,if_true]
          rw [size,← copy_heard]
          simp
          rfl
      · simp [fine]

/-- The bytes from `addr` on are the request's, as the last-byte check sees them. -/
theorem request_in_range {dev : arm_flash_dev_t} (fits : Fits dev) {addr cnt : UInt32} (some : 0 < cnt.toNat)
    (inside : dev.Inside addr.toNat (4 * cnt.toNat)) :
    (cnt * 4).toNat = 4 * cnt.toNat ∧ is_range_valid_internal dev (addr + cnt * 4 - 1) = 0 := by
  obtain ⟨low,high⟩ := inside
  have ending := fits.ending
  have proper := fits.proper
  have size : (cnt * 4).toNat = 4 * cnt.toNat := by
    rw [UInt32.toNat_mul]
    simp; omega
  have last : (addr + cnt * 4 - 1).toNat = addr.toNat + 4 * cnt.toNat - 1 := by
    rw [UInt32.toNat_sub,UInt32.toNat_add,size]
    simp; omega
  refine ⟨size,(is_range_valid_iff ending _).mpr ⟨proper,?_,?_⟩⟩
  · rw [last]; omega
  · rw [last]; omega

theorem readDataOn_eq {dev : arm_flash_dev_t} (fits : Fits dev) {addr cnt : UInt32} (some : 0 < cnt.toNat)
    (inside : dev.Inside addr.toNat (4 * cnt.toNat)) (data : Buffer) (p : Nat) :
    readDataOn dev addr data p cnt = issue succeeded (wordReads addr cnt.toNat) >>= fun r =>
      .ret (if r.2 then cnt.toInt32 else ARM_DRIVER_ERROR,copy data p (heard r.1) 0 (4 * r.1.length)) := by
  obtain ⟨size,valid⟩ := request_in_range fits some inside
  simp only [readDataOn,data_width_byte_driver,valid,ne_eq,not_true_eq_false,if_false]
  rw [ARM_Flash_ReadData_Internal,readLoop_eq cnt.toNat _ _ _ _ _ size (by omega)]
  simp only [bind_bind,ret_bind]
  congr 1
  funext r
  by_cases done : r.2 <;> simp [done]

/-! ### Programming -/

/-- Programming `n` units of `u` bytes of the data from `p` on; `dword` is what the local
    double word held before. -/
def unitPrograms (u : UInt32) (data : Buffer) :
    (dword : UInt64) → (p : Nat) → (addr : UInt32) → (n : Nat) → List Call
  | _, _, _, 0 => []
  | dword, p, addr, n + 1 =>
    .NVT_NVMC_Program addr (loadBytes dword data p u.toNat) ::
      unitPrograms u data (loadBytes dword data p u.toNat) (p + u.toNat) (addr + u) n

theorem programLoop_eq (addr : UInt32) (data : Buffer) (p : Nat) (sz u : UInt32) (positive : 0 < u.toNat) (n : Nat) :
    ∀ (rounds : Nat) (offst : UInt32) (dword : UInt64), offst.toNat + u.toNat * n = sz.toNat → n < rounds →
    programLoop addr data p sz u rounds offst offst dword =
      issue succeeded (unitPrograms u data dword (p + offst.toNat) (addr + offst) n) >>= fun r =>
        .ret (if r.2 then ARM_DRIVER_OK else ARM_DRIVER_ERROR) := by
  have bound := sz.toNat_lt
  induction n with
  | zero =>
    intro rounds offst dword size enough
    cases rounds with
    | zero => omega
    | succ rounds =>
      have finished : ¬ offst < sz := by rw [UInt32.lt_iff_toNat_lt]; omega
      simp [programLoop,finished,unitPrograms,issue]
  | succ n ih =>
    intro rounds offst dword size enough
    rw [Nat.mul_succ] at size
    cases rounds with
    | zero => omega
    | succ rounds =>
      have more : offst < sz := by rw [UInt32.lt_iff_toNat_lt]; omega
      have next : (offst + u).toNat = offst.toNat + u.toNat := toNat_add_of_lt (by omega)
      simp only [programLoop,more,if_true,unitPrograms,issue,call_bind,ret_bind,succeeded_program]
      congr 1
      funext status
      by_cases fine : status = NVT_NVMC_OK
      · subst fine
        simp only [ne_eq,not_true_eq_false,if_false,decide_true,if_true,bind_bind,ret_bind]
        rw [ih rounds (offst + u) _ (by omega) (by omega),next,Nat.add_assoc,UInt32.add_assoc]
      · simp [fine]

theorem programDataOn_eq {dev : arm_flash_dev_t} (fits : Fits dev) (positive : 0 < dev.data.program_unit.toNat)
    {addr cnt : UInt32} {n : Nat} (some : 0 < cnt.toNat) (inside : dev.Inside addr.toNat (4 * cnt.toNat))
    (aligned : addr.toNat % dev.data.program_unit.toNat = 0) (units : dev.data.program_unit.toNat * n = 4 * cnt.toNat)
    (data : Buffer) (p : Nat) :
    programDataOn bsp dev addr data p cnt =
      issue succeeded (unitPrograms dev.data.program_unit data bsp.garbage p addr n) >>= fun r =>
        .ret (if r.2 then cnt.toInt32 else ARM_DRIVER_ERROR) := by
  obtain ⟨size,valid⟩ := request_in_range fits some inside
  have start := (is_write_aligned_iff dev addr).mpr aligned
  have whole := (is_write_aligned_iff dev (cnt * 4)).mpr (by rw [size,← units]; exact Nat.mul_mod_right _ _)
  have rounds : n < (cnt * 4).toNat + 1 := by
    rw [size,← units]
    exact Nat.lt_succ_of_le (Nat.le_mul_of_pos_left n positive)
  simp only [programDataOn,data_width_byte_driver,valid,start,whole]
  rw [if_neg (by decide),ARM_Flash_ProgramData_Internal,
    programLoop_eq addr data p _ _ positive n _ _ _ (by rw [size,← units]; simp) rounds]
  simp only [bind_bind,ret_bind]
  rw [UInt32.toNat_zero,Nat.add_zero,UInt32.add_zero]
  congr 1
  funext r
  by_cases done : r.2 <;> simp [done]

/-! ### Erasing -/

theorem eraseSectorOn_eq {dev : arm_flash_dev_t} (fits : Fits dev) {addr : UInt32} (inside : dev.Inside addr.toNat 1)
    (aligned : addr.toNat % dev.data.sector_size.toNat = 0) :
    eraseSectorOn dev addr = issue succeeded [Call.NVT_NVMC_Erase addr] >>= fun r =>
      .ret (if r.2 then ARM_DRIVER_OK else ARM_DRIVER_ERROR) := by
  obtain ⟨low,high⟩ := inside
  have valid := (is_range_valid_iff fits.ending addr).mpr ⟨fits.proper,low,by omega⟩
  have start := (is_sector_aligned_iff dev addr).mpr aligned
  simp only [eraseSectorOn,valid,start]
  rw [if_neg (by decide)]
  simp only [ARM_Flash_EraseSector_Internal,issue,call_bind,ret_bind,succeeded_erase]
  congr 1
  funext status
  by_cases fine : status = NVT_NVMC_OK
  · simp [fine]
  · simp only [fine,ne_eq,not_false_eq_true,if_true,decide_false,ret_bind]
    rw [if_pos (by decide)]
    rfl

/-- A sector that is not the start of one of the device is refused. -/
theorem eraseSectorOn_rejects {dev : arm_flash_dev_t} {addr : UInt32}
    (refused : ¬ (is_range_valid_internal dev addr = 0 ∧ is_sector_aligned dev addr = 0)) :
    eraseSectorOn dev addr = .ret ARM_DRIVER_ERROR_PARAMETER := by
  rw [← or_checks_eq_zero (is_range_valid_cases dev addr) (is_sector_aligned_cases dev addr)] at refused
  simp only [eraseSectorOn]
  rw [if_pos refused]

/-! ### On the controller -/

theorem events_wordReads_length (M : Content) (addr : UInt32) (n : Nat) :
    (events (machine bsp) (wordReads addr n) M).length = n := by
  induction n generalizing addr with
  | zero => rfl
  | succ n ih => simp [wordReads,events,machine,ih]

theorem after_wordReads (M : Content) (addr : UInt32) (n : Nat) : after (machine bsp) (wordReads addr n) M = M := by
  induction n generalizing addr with
  | zero => rfl
  | succ n ih => simp [wordReads,after,machine,ih]

/-- Reading words answers the bytes of the content. -/
theorem heard_wordReads (M : Content) {n : Nat} : ∀ {addr : UInt32}, addr.toNat + 4 * n ≤ 2 ^ 32 →
    ∀ k < 4 * n, heard (events (machine bsp) (wordReads addr n) M) k = M (addr.toNat + k) := by
  induction n with
  | zero => intro addr _ k inside; omega
  | succ n ih =>
    intro addr fits k inside
    simp only [wordReads,events,machine,heard]
    by_cases first : k < 4
    · rw [if_pos first]
      exact wordBytes_wordAt M addr.toNat first
    · rw [if_neg first]
      have next : (addr + 4).toNat = addr.toNat + 4 := toNat_add_of_lt (by simp; omega)
      rw [ih (by omega) (k - 4) (by omega),next]
      congr 1
      omega

/-- The bytes of a double word loaded from a buffer. -/
theorem dwordBytes_loadBytes (dword : UInt64) (data : Buffer) (p : Nat) {n k : Nat} (inside : k < n) (small : n ≤ 8) :
    dwordBytes (loadBytes dword data p n) k = data (p + k) := by
  have bound : leNat 8 (copy (dwordBytes dword) 0 data p n) < 2 ^ 64 := leNat_lt 8 _
  rw [dwordBytes,loadBytes,UInt64.toNat_ofNat',Nat.mod_eq_of_lt bound,byteAt_leNat (by omega)]
  simp [copy,inside]

theorem program_unit_pos : 0 < (NVT_NVMC_PROGRAM_UNIT bsp).toNat ∧ (NVT_NVMC_PROGRAM_UNIT bsp).toNat ≤ 8 := by
  rcases program_unit_cases bsp with unit | unit <;> rw [unit] <;> decide

/-! ### Programming consecutive units -/

/-- The calls program consecutive units of `u` bytes from `a` on with the bytes of the data. -/
inductive Programs (u : Nat) : (a : Nat) → (data : Nat → UInt8) → List Call → Prop
  | nil (a : Nat) (data : Nat → UInt8) : Programs u a data []
  | cons {a : Nat} {data : Nat → UInt8} {addr : UInt32} {dword : UInt64} {cs : List Call} (place : addr.toNat = a)
      (bytes : ∀ k < u, dwordBytes dword k = data k) (rest : Programs u (a + u) (fun k => data (u + k)) cs) :
      Programs u a data (.NVT_NVMC_Program addr dword :: cs)

theorem unitPrograms_length (u : UInt32) (data : Buffer) (dword : UInt64) (p : Nat) (addr : UInt32) (n : Nat) :
    (unitPrograms u data dword p addr n).length = n := by
  induction n generalizing dword p addr with
  | zero => rfl
  | succ n ih => simp [unitPrograms,ih]

theorem programs_unitPrograms {u : UInt32} (positive : 0 < u.toNat) (small : u.toNat ≤ 8) (data : Buffer) (n : Nat) :
    ∀ (dword : UInt64) (p : Nat) (addr : UInt32), addr.toNat + u.toNat * n ≤ 2 ^ 32 →
    Programs u.toNat addr.toNat (fun k => data (p + k)) (unitPrograms u data dword p addr n) := by
  induction n with
  | zero => intro dword p addr _; exact .nil _ _
  | succ n ih =>
    intro dword p addr fits
    rw [Nat.mul_succ] at fits
    refine .cons rfl (fun k inside => dwordBytes_loadBytes dword data p inside small) ?_
    cases n with
    | zero => exact .nil _ _
    | succ n =>
      rw [Nat.mul_succ] at fits
      have next : (addr + u).toNat = addr.toNat + u.toNat := toNat_add_of_lt (by omega)
      have tail := ih (loadBytes dword data p u.toNat) (p + u.toNat) (addr + u) (by rw [next,Nat.mul_succ]; omega)
      simpa only [next,Nat.add_assoc] using tail

theorem programs_congr {u a : Nat} {data data' : Nat → UInt8} {cs : List Call} (programs : Programs u a data cs)
    (same : ∀ k < u * cs.length, data k = data' k) : Programs u a data' cs := by
  induction programs generalizing data' with
  | nil => exact .nil _ _
  | @cons a data addr dword cs place bytes rest ih =>
    rw [List.length_cons,Nat.mul_succ] at same
    refine .cons place (fun k inside => ?_) (ih fun k inside => same _ (by omega))
    rw [bytes k inside,same k (by omega)]

theorem programs_append {u a : Nat} {data : Nat → UInt8} {xs ys : List Call} (first : Programs u a data xs)
    (second : Programs u (a + u * xs.length) (fun k => data (u * xs.length + k)) ys) : Programs u a data (xs ++ ys) := by
  induction first with
  | nil => simpa using second
  | @cons a data addr dword cs place bytes rest ih =>
    refine .cons place bytes (ih ?_)
    rw [List.length_cons,Nat.mul_succ,Nat.add_comm (u * cs.length)] at second
    simpa only [Nat.add_assoc] using second

theorem programs_take {u a : Nat} {data : Nat → UInt8} {cs : List Call} (programs : Programs u a data cs) (n : Nat) :
    Programs u a data (cs.take n) := by
  induction programs generalizing n with
  | nil => simpa using Programs.nil _ _
  | cons place bytes rest ih =>
    cases n with
    | zero => exact .nil _ _
    | succ n => exact .cons place bytes (ih n)

/-- Every call programs a unit among those from `a` on. -/
theorem programs_inside {u a : Nat} {data : Nat → UInt8} {cs : List Call} (programs : Programs u a data cs) :
    ∀ c ∈ cs, ∃ addr dword, c = .NVT_NVMC_Program addr dword ∧ a ≤ addr.toNat ∧ addr.toNat + u ≤ a + u * cs.length := by
  induction programs with
  | nil => simp
  | @cons a data addr dword cs place bytes rest ih =>
    intro c member
    rw [List.length_cons,Nat.mul_succ]
    rcases List.mem_cons.mp member with rfl | member
    · exact ⟨addr,dword,rfl,by omega,by omega⟩
    · obtain ⟨addr',dword',same,low,high⟩ := ih c member
      exact ⟨addr',dword',same,by omega,by omega⟩

/-- Programming consecutive units combines the content with the data. -/
theorem after_programs {a : Nat} {data : Nat → UInt8} {cs : List Call}
    (programs : Programs (NVT_NVMC_PROGRAM_UNIT bsp).toNat a data cs) (M : Content) :
    after (machine bsp) cs M = combine (· &&& ·) M a data ((NVT_NVMC_PROGRAM_UNIT bsp).toNat * cs.length) := by
  induction programs generalizing M with
  | nil => simp [after]
  | @cons a data addr dword cs place bytes rest ih =>
    simp only [after,machine]
    rw [ih,programmed,place,combine_congr bytes,combine_append,List.length_cons,Nat.mul_succ,Nat.add_comm]

end NuMicroBoot.InternalDriver
