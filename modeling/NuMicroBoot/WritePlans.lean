import NuMicroBoot.AreaPlans

/-!
Writing to an area of the internal flash, as a list of controller calls: a
write reads the rest of its first and of its last program unit and then programs
consecutive units.
-/

namespace NuMicroBoot.WritePlans
open NuMicroBoot.Calls NuMicroBoot.Calls.Prog NuMicroBoot.Cells NuMicroBoot.Words NuMicroBoot.Driver
open NuMicroBoot.Nvmc NuMicroBoot.InternalDriver NuMicroBoot.FlashMap NuMicroBoot.AreaPlans

variable {bsp : Bsp} {rom : Rom} {area : flash_area interface}

/-- A whole number of program units, whatever the unit. -/
theorem units_of_eight (n : Nat) :
    (NVT_NVMC_PROGRAM_UNIT bsp).toNat * (8 * n / (NVT_NVMC_PROGRAM_UNIT bsp).toNat) = 8 * n := by
  rcases program_unit_cases bsp with unit | unit <;> rw [unit] <;> simp; omega

/-- The calls that program `8 * n` bytes of a buffer. -/
def programsOf (bsp : Bsp) (data : Buffer) (addr : UInt32) (n : Nat) : List Call :=
  unitPrograms (NVT_NVMC_PROGRAM_UNIT bsp) data bsp.garbage 0 addr (8 * n / (NVT_NVMC_PROGRAM_UNIT bsp).toNat)

@[simp] theorem programsOf_zero (data : Buffer) (addr : UInt32) : programsOf bsp data addr 0 = [] := by
  simp [programsOf,unitPrograms]

/-- The calls program the `n` bytes from `a` on, unit after unit, with the data. -/
structure Covers (bsp : Bsp) (a n : Nat) (data : Nat → UInt8) (cs : List Call) : Prop where
  programs : Programs (NVT_NVMC_PROGRAM_UNIT bsp).toNat a data cs
  size : (NVT_NVMC_PROGRAM_UNIT bsp).toNat * cs.length = n

theorem covers_nil (a : Nat) (data : Nat → UInt8) : Covers bsp a 0 data [] := ⟨.nil _ _,by simp⟩

theorem covers_programsOf {data data' : Buffer} {addr : UInt32} {n : Nat} (fits : addr.toNat + 8 * n ≤ 2 ^ 32)
    (same : ∀ k < 8 * n, data k = data' k) : Covers bsp addr.toNat (8 * n) data' (programsOf bsp data addr n) := by
  have size : (NVT_NVMC_PROGRAM_UNIT bsp).toNat * (programsOf bsp data addr n).length = 8 * n := by
    rw [programsOf,unitPrograms_length,units_of_eight]
  have programs := programs_unitPrograms program_unit_pos.1 program_unit_pos.2 data
    (8 * n / (NVT_NVMC_PROGRAM_UNIT bsp).toNat) bsp.garbage 0 addr (by rw [units_of_eight]; exact fits)
  simp only [Nat.zero_add] at programs
  exact ⟨programs_congr programs fun k inside => same k (by rw [← size]; exact inside),size⟩

theorem covers_append {a n m : Nat} {data : Nat → UInt8} {xs ys : List Call} (first : Covers bsp a n data xs)
    (second : Covers bsp (a + n) m (fun k => data (n + k)) ys) : Covers bsp a (n + m) data (xs ++ ys) := by
  obtain ⟨programs,rfl⟩ := first
  obtain ⟨programs',rfl⟩ := second
  refine ⟨programs_append programs programs',?_⟩
  rw [List.length_append,Nat.mul_add]

/-- A first part of the calls covers a first part of the bytes. -/
theorem covers_take {a n : Nat} {data : Nat → UInt8} {cs : List Call} (covers : Covers bsp a n data cs) (i : Nat) :
    ∃ j ≤ n, Covers bsp a j data (cs.take i) := by
  obtain ⟨programs,rfl⟩ := covers
  refine ⟨_,?_,programs_take programs i,rfl⟩
  exact Nat.mul_le_mul_left _ (List.length_take_le' i cs)

theorem after_covers {a n : Nat} {data : Nat → UInt8} {cs : List Call} (covers : Covers bsp a n data cs) (M : Content) :
    after (machine bsp) cs M = combine (· &&& ·) M a data n := by
  obtain ⟨programs,rfl⟩ := covers
  exact after_programs programs M

/-- A program request that the flash map checks with `< 0`, and what follows it. -/
theorem program_then (on : OnUnits bsp rom area) {addr cnt : UInt32} {n : Nat} (some : 0 < n) (count : cnt.toNat = 2 * n)
    (low : area.fa_off.toNat ≤ addr.toNat) (high : addr.toNat + 8 * n ≤ area.fa_off.toNat + area.fa_size.toNat)
    (aligned : addr.toNat % 8 = 0) (data : Buffer) (rest : List Call) :
    (area.fa_driver.ProgramData addr data 0 cnt >>= fun status =>
      if status < 0 then .ret (-1) else planned rest) = planned (programsOf bsp data addr n ++ rest) := by
  have ends := units_ends on
  rw [planned_append,area_program on (by omega) low (by omega) aligned (by rw [units_of_eight n]; omega),bind_bind]
  congr 1
  funext r
  by_cases done : r.2
  · simp only [ret_bind,done,if_true]
    rw [if_neg (toInt32_nonneg (by omega))]
  · simp only [ret_bind,done,Bool.false_eq_true,if_false]
    rw [if_pos (by decide)]

/-! ### Places -/

/-- The unit that holds `off` starts inside the area. -/
theorem unit_place (on : OnUnits bsp rom area) {off : UInt32} (inside : off.toNat ≤ area.fa_size.toNat)
    (part : off.toNat % 8 ≠ 0) :
    (area.fa_off + FLOOR_ALIGN off FLASH_PROGRAM_UNIT).toNat = area.fa_off.toNat + 8 * (off.toNat / 8) := by
  have ends := units_ends on
  have whole := on.size_aligned
  rw [toNat_add_of_lt (by rw [floor_align_eight]; omega),floor_align_eight]

/-- The byte for place `taken` of the source. -/
theorem byte_place (on : OnUnits bsp rom area) {off len : UInt32} (fits : off.toNat + len.toNat ≤ area.fa_size.toNat)
    {taken : Nat} (more : taken < len.toNat) :
    (area.fa_off + off + UInt32.ofNat taken).toNat = area.fa_off.toNat + off.toNat + taken := by
  have ends := units_ends on
  have bound := area.fa_size.toNat_lt
  have index : (UInt32.ofNat taken).toNat = taken := by rw [UInt32.toNat_ofNat',Nat.mod_eq_of_lt (by omega)]
  have start : (area.fa_off + off).toNat = area.fa_off.toNat + off.toNat := toNat_add_of_lt (by omega)
  rw [toNat_add_of_lt (by omega),start,index]

/-- Programming the unit that holds `off`. -/
theorem program_first (on : OnUnits bsp rom area) {off : UInt32} (inside : off.toNat ≤ area.fa_size.toNat)
    (part : off.toNat % 8 ≠ 0) (data : Buffer) (rest : List Call) :
    (area.fa_driver.ProgramData (area.fa_off + FLOOR_ALIGN off FLASH_PROGRAM_UNIT) data 0 (FLASH_PROGRAM_UNIT / 4) >>=
      fun status => if status < 0 then .ret (-1) else planned rest) =
      planned (programsOf bsp data (area.fa_off + FLOOR_ALIGN off FLASH_PROGRAM_UNIT) 1 ++ rest) := by
  have place := unit_place on inside part
  have start := on.off_aligned
  have whole := on.size_aligned
  exact program_then on (by decide) (by decide) (by omega) (by omega) (by omega) data rest

/-! ### Filling a program unit -/

theorem program_unit_toNat : FLASH_PROGRAM_UNIT.toNat = 8 := rfl

theorem fillLoop_eq (src : Buffer) (limit : UInt32) (m : Nat) :
    ∀ (rounds : Nat) (add_padding : Buffer) (i k : UInt32), i.toNat ≤ 8 → k.toNat ≤ limit.toNat →
    m = min (8 - i.toNat) (limit.toNat - k.toNat) → m ≤ rounds →
    fillLoop src limit rounds add_padding i k =
      (copy add_padding i.toNat src k.toNat m,i + UInt32.ofNat m,k + UInt32.ofNat m) := by
  have bound := limit.toNat_lt
  induction m with
  | zero =>
    intro rounds add_padding i k low high least enough
    cases rounds with
    | zero => simp [fillLoop]
    | succ rounds =>
      have full : ¬ (i < FLASH_PROGRAM_UNIT ∧ k < limit) := by
        simp only [UInt32.lt_iff_toNat_lt]
        show ¬ (i.toNat < 8 ∧ k.toNat < limit.toNat)
        omega
      rw [fillLoop,if_neg full]
      simp
  | succ m ih =>
    intro rounds add_padding i k low high least enough
    cases rounds with
    | zero => omega
    | succ rounds =>
      have room : i < FLASH_PROGRAM_UNIT ∧ k < limit := by
        simp only [UInt32.lt_iff_toNat_lt]
        show i.toNat < 8 ∧ k.toNat < limit.toNat
        omega
      have nextI : (i + 1).toNat = i.toNat + 1 := toNat_add_of_lt (by simp; omega)
      have nextK : (k + 1).toNat = k.toNat + 1 := toNat_add_of_lt (by simp; omega)
      have step : ∀ v : UInt32, v + 1 + UInt32.ofNat m = v + UInt32.ofNat (m + 1) := by
        intro v
        rw [UInt32.ofNat_add,UInt32.add_assoc,UInt32.add_comm 1]
        rfl
      rw [fillLoop,if_pos room,ih rounds _ _ _ (by omega) (by omega) (by omega) (by omega),nextI,nextK,copy_append,
        Nat.add_comm 1,step,step]

/-- `m` is what fits in the unit and is left below the limit. -/
theorem fill_unit (src : Buffer) (limit : UInt32) (add_padding : Buffer) (i k : UInt32) (m : Nat) (low : i.toNat ≤ 8)
    (high : k.toNat ≤ limit.toNat) (least : m = min (8 - i.toNat) (limit.toNat - k.toNat)) :
    fillLoop src limit FLASH_PROGRAM_UNIT.toNat add_padding i k =
      (copy add_padding i.toNat src k.toNat m,i + UInt32.ofNat m,k + UInt32.ofNat m) := by
  refine fillLoop_eq src limit m _ _ _ _ low high least ?_
  show m ≤ 8
  omega

/-- The last program unit: the rest of the source and then the padding. -/
theorem writeLast_program {I : Interface} {area : flash_area I}
    {off len idx aligned_len add_padding_size len_padding_size : UInt32} {src len_padding add_padding : Buffer}
    (written : idx.toNat ≤ len.toNat)
    (gap : len_padding_size ≠ 0 → len.toNat - idx.toNat + len_padding_size.toNat = 8 ∧
      aligned_len.toNat = add_padding_size.toNat + idx.toNat + 8) :
    writeLast area off src len 4 aligned_len add_padding_size len_padding_size len_padding add_padding idx =
      if len_padding_size = 0 then .ret 0 else
        area.fa_driver.ProgramData (area.fa_off + off + idx) (copy (copy add_padding 0 src idx.toNat
          (len.toNat - idx.toNat)) (len.toNat - idx.toNat) len_padding 0 len_padding_size.toNat) 0 (FLASH_PROGRAM_UNIT / 4)
          >>= fun status => if status < 0 then .ret (-1) else .ret 0 := by
  by_cases nothing : len_padding_size = 0
  · simp [writeLast,nothing]
  · obtain ⟨whole,total⟩ := gap nothing
    have rest : idx + UInt32.ofNat (len.toNat - idx.toNat) = len := by
      rw [← UInt32.toNat_sub_of_le _ _ (UInt32.le_iff_toNat_le.mpr written),UInt32.ofNat_toNat,UInt32.add_comm]
      exact UInt32.sub_add_cancel _ _
    have few : (UInt32.ofNat (len.toNat - idx.toNat)).toNat = len.toNat - idx.toNat := by
      rw [UInt32.toNat_ofNat',Nat.mod_eq_of_lt (by omega)]
    have full : UInt32.ofNat (len.toNat - idx.toNat) + len_padding_size = FLASH_PROGRAM_UNIT := by
      rw [eq_iff_toNat,toNat_add_of_lt (by omega),few]
      exact whole
    have size : aligned_len = add_padding_size + idx + FLASH_PROGRAM_UNIT := by
      have bound := aligned_len.toNat_lt
      have sum : (add_padding_size + idx).toNat = add_padding_size.toNat + idx.toNat := toNat_add_of_lt (by omega)
      rw [eq_iff_toNat,toNat_add_of_lt (by rw [sum,program_unit_toNat]; omega),sum,program_unit_toNat]
      exact total
    simp only [writeLast,ne_eq,nothing,not_false_eq_true,if_true,if_false]
    rw [fill_unit src len _ _ _ (len.toNat - idx.toNat) (by decide) written (by simp; omega)]
    simp only [rest,not_true_eq_false,if_false,UInt32.zero_add]
    rw [fill_unit len_padding len_padding_size _ _ _ len_padding_size.toNat (by omega) (by simp) (by simp; omega)]
    simp only [UInt32.ofNat_toNat,UInt32.zero_add,full,size,not_true_eq_false,or_self,if_false,few]
    rfl

/-- The last `r` bytes of the source, which start a unit. -/
theorem writeLast_eq (on : OnUnits bsp rom area) {off len idx aligned_len add_padding_size len_padding_size addr : UInt32}
    {src len_padding add_padding : Buffer} {r : Nat} (at_ : area.fa_off + off + idx = addr)
    (left : len.toNat = idx.toNat + r) (small : r < 8) (tail : len_padding_size.toNat = (8 - r) % 8)
    (total : r ≠ 0 → aligned_len.toNat = add_padding_size.toNat + idx.toNat + 8)
    (inside : r ≠ 0 → area.fa_off.toNat ≤ addr.toNat ∧ addr.toNat + 8 ≤ area.fa_off.toNat + area.fa_size.toNat ∧
      addr.toNat % 8 = 0) :
    writeLast area off src len 4 aligned_len add_padding_size len_padding_size len_padding add_padding idx =
      planned (if r = 0 then [] else programsOf bsp (copy (copy add_padding 0 src idx.toNat r) r len_padding 0 (8 - r))
        addr 1) := by
  have rest : len.toNat - idx.toNat = r := by omega
  have unit : len_padding_size ≠ 0 → r ≠ 0 ∧ r + len_padding_size.toNat = 8 := fun some => by
    have := ne_zero_iff.mp some
    omega
  have gap : len_padding_size ≠ 0 → len.toNat - idx.toNat + len_padding_size.toNat = 8 ∧
      aligned_len.toNat = add_padding_size.toNat + idx.toNat + 8 := fun some => by
    obtain ⟨part,whole⟩ := unit some
    exact ⟨rest ▸ whole,total part⟩
  rw [writeLast_program (by omega) gap,at_,rest]
  by_cases none : r = 0
  · have nothing : len_padding_size = 0 := by rw [eq_iff_toNat,tail,none]; rfl
    rw [if_pos nothing,if_pos none,planned_nil]
  · have some : len_padding_size ≠ 0 := ne_zero_iff.mpr (by omega)
    have size : len_padding_size.toNat = 8 - r := by omega
    obtain ⟨low,high,aligned⟩ := inside none
    have count : (FLASH_PROGRAM_UNIT / 4).toNat = 2 * 1 := rfl
    have step := program_then on (by decide) count low high aligned
      (copy (copy add_padding 0 src idx.toNat r) r len_padding 0 (8 - r)) []
    simp only [planned_nil,List.append_nil] at step
    rw [if_neg some,if_neg none,size]
    exact step

/-- The whole units of the source from `idx` on, and the last unit. -/
theorem writeAligned_eq (on : OnUnits bsp rom area) {off len idx aligned_len add_padding_size len_padding_size addr : UInt32}
    {src len_padding add_padding : Buffer} {n r : Nat} (at_ : area.fa_off + off + idx = addr)
    (split : len.toNat = idx.toNat + 8 * n + r) (small : r < 8)
    (gap : idx.toNat < len.toNat → len_padding_size.toNat = (8 - r) % 8 ∧
      (r ≠ 0 → aligned_len.toNat = add_padding_size.toNat + idx.toNat + 8 * n + 8))
    (inside : idx.toNat < len.toNat → area.fa_off.toNat ≤ addr.toNat ∧
      addr.toNat + 8 * n + r + len_padding_size.toNat ≤ area.fa_off.toNat + area.fa_size.toNat ∧ addr.toNat % 8 = 0) :
    writeAligned area off src len 4 aligned_len add_padding_size len_padding_size len_padding add_padding idx =
      planned (programsOf bsp src addr n ++ if r = 0 then [] else programsOf bsp (copy (copy add_padding 0 src
        (idx.toNat + 8 * n) r) r len_padding 0 (8 - r)) (addr + UInt32.ofNat (8 * n)) 1) := by
  have ends := units_ends on
  have bound := len.toNat_lt
  by_cases finished : idx.toNat < len.toNat
  · obtain ⟨tail,total⟩ := gap finished
    obtain ⟨low,high,aligned⟩ := inside finished
    have left : (len - idx).toNat = 8 * n + r := by
      rw [toNat_sub_of_le (by omega)]
      omega
    have size : (FLOOR_ALIGN (len - idx) FLASH_PROGRAM_UNIT).toNat = 8 * n := by
      rw [floor_align_eight,left]
      omega
    have next : (idx + FLOOR_ALIGN (len - idx) FLASH_PROGRAM_UNIT).toNat = idx.toNat + 8 * n := by
      rw [toNat_add_of_lt (by omega),size]
    have start : area.fa_off + off + (idx + FLOOR_ALIGN (len - idx) FLASH_PROGRAM_UNIT) = addr + UInt32.ofNat (8 * n) := by
      rw [← UInt32.add_assoc,at_,← size,UInt32.ofNat_toNat]
    have place : r ≠ 0 → (addr + UInt32.ofNat (8 * n)).toNat = addr.toNat + 8 * n := fun some => by
      have few : (UInt32.ofNat (8 * n)).toNat = 8 * n := by rw [← size,UInt32.ofNat_toNat]
      rw [toNat_add_of_lt (by omega),few]
    have last : writeLast area off src len 4 aligned_len add_padding_size len_padding_size len_padding add_padding
        (idx + FLOOR_ALIGN (len - idx) FLASH_PROGRAM_UNIT) = planned (if r = 0 then [] else programsOf bsp (copy
        (copy add_padding 0 src (idx.toNat + 8 * n) r) r len_padding 0 (8 - r)) (addr + UInt32.ofNat (8 * n)) 1) := by
      rw [← next]
      refine writeLast_eq on start (by omega) small tail (fun part => ?_) fun part => ?_
      · rw [next,total part]
        omega
      · rw [place part]
        omega
    have more : idx < len := UInt32.lt_iff_toNat_lt.mpr finished
    simp only [writeAligned,more,if_true]
    by_cases none : n = 0
    · have zero : FLOOR_ALIGN (len - idx) FLASH_PROGRAM_UNIT = 0 := by rw [eq_iff_toNat,size,none]; rfl
      rw [zero,UInt32.add_zero] at last
      rw [zero,if_neg (by decide),last,none,programsOf_zero,List.nil_append]
    · have some : FLOOR_ALIGN (len - idx) FLASH_PROGRAM_UNIT > 0 := by
        rw [gt_iff_lt,UInt32.lt_iff_toNat_lt,size]
        simp; omega
      rw [if_pos some,last]
      show area.fa_driver.ProgramData (area.fa_off + off + idx) src 0 _ >>= _ = _
      rw [at_]
      refine program_then on (by omega) ?_ low (by omega) aligned src _
      rw [UInt32.toNat_div,size]
      simp; omega
  · have none : n = 0 ∧ r = 0 := by omega
    have past : ¬ idx < len := by rwa [UInt32.lt_iff_toNat_lt]
    simp [writeAligned,past,none]

/-! ### The programs of a write -/

/-- How many bytes of the source go into a first program unit that starts before `off`. -/
def firstTaken (off len : Nat) : Nat := min (8 - off % 8) len

theorem firstTaken_le (off len : Nat) : firstTaken off len ≤ 8 ∧ firstTaken off len ≤ len := by
  unfold firstTaken
  omega
theorem firstTaken_toNat (off len : Nat) : (UInt32.ofNat (firstTaken off len)).toNat = firstTaken off len :=
  UInt32.toNat_ofNat_of_lt' (Nat.lt_of_le_of_lt (firstTaken_le off len).1 (by decide))
theorem firstTaken_short {off len : Nat} (short : len ≤ 8 - off % 8) : firstTaken off len = len := Nat.min_eq_right short
theorem firstTaken_full {off len : Nat} (long : ¬ len ≤ 8 - off % 8) : firstTaken off len = 8 - off % 8 :=
  Nat.min_eq_left (Nat.le_of_not_le long)

/-- `add_padding` after the first program unit. -/
def firstUnit (off len : Nat) (src add_padding len_padding : Buffer) : Buffer :=
  copy (copy add_padding (off % 8) src 0 (firstTaken off len)) (off % 8 + firstTaken off len) len_padding 0
    (8 - off % 8 - firstTaken off len)

/-- `add_padding` after the last program unit, which takes the last `r` bytes of the source. -/
def lastUnit (len r : Nat) (src add_padding len_padding : Buffer) : Buffer :=
  copy (copy add_padding 0 src (len - r) r) r len_padding 0 (8 - r)

/-- The units after the first `taken` bytes of the source, where `add_padding` holds the buffer. The whole
    units are read from the start of `src` again. -/
def restPrograms (bsp : Bsp) (fa_off off len : UInt32) (src add_padding len_padding : Buffer) (taken : Nat) :
    List Call :=
  let n := (len.toNat - taken) / 8
  let r := (len.toNat - taken) % 8
  let addr := fa_off + off + UInt32.ofNat taken
  programsOf bsp src addr n ++ if r = 0 then [] else
    programsOf bsp (lastUnit len.toNat r src add_padding len_padding) (addr + UInt32.ofNat (8 * n)) 1

/-- All program steps of a write. -/
def writePrograms (bsp : Bsp) (fa_off off len : UInt32) (src add_padding len_padding : Buffer) : List Call :=
  if off.toNat % 8 = 0 then restPrograms bsp fa_off off len src add_padding len_padding 0 else
    let first := firstUnit off.toNat len.toNat src add_padding len_padding
    programsOf bsp first (fa_off + FLOOR_ALIGN off FLASH_PROGRAM_UNIT) 1 ++
      restPrograms bsp fa_off off len src first len_padding (firstTaken off.toNat len.toNat)

/-- The sizes that `flash_area_write` computes from its arguments. -/
structure Sizes (off len aligned_len add_padding_size len_padding_size : UInt32) : Prop where
  head : add_padding_size.toNat = off.toNat % 8
  total : aligned_len.toNat = 8 * ((off.toNat % 8 + len.toNat + 7) / 8)
  tail : off.toNat % 8 + len.toNat + len_padding_size.toNat = aligned_len.toNat

/-! What the sizes leave behind the first `taken` bytes. -/

section
variable {off len taken total tail : Nat}

theorem rest_split (part : taken ≤ len) : len = taken + 8 * ((len - taken) / 8) + (len - taken) % 8 := by omega

theorem rest_gap (total_eq : total = 8 * ((off % 8 + len + 7) / 8)) (tail_eq : off % 8 + len + tail = total)
    (start : (off + taken) % 8 = 0) (more : taken < len) : tail = (8 - (len - taken) % 8) % 8 ∧
      ((len - taken) % 8 ≠ 0 → total = off % 8 + taken + 8 * ((len - taken) / 8) + 8) := by
  omega

theorem rest_inside {fa_off fa_size : Nat} (off_aligned : fa_off % 8 = 0) (size_aligned : fa_size % 8 = 0)
    (fits : off + len ≤ fa_size) (total_eq : total = 8 * ((off % 8 + len + 7) / 8)) (tail_eq : off % 8 + len + tail = total)
    (start : (off + taken) % 8 = 0) (more : taken < len) : fa_off ≤ fa_off + off + taken ∧
      fa_off + off + taken + 8 * ((len - taken) / 8) + (len - taken) % 8 + tail ≤ fa_off + fa_size ∧
      (fa_off + off + taken) % 8 = 0 := by
  omega

end

/-- The padding of a write that ends in its first unit. -/
theorem first_gap {off len aligned_len add_padding_size len_padding_size : UInt32}
    (sizes : Sizes off len aligned_len add_padding_size len_padding_size) (short : len.toNat ≤ 8 - off.toNat % 8)
    (part : off.toNat % 8 ≠ 0) : len_padding_size.toNat = 8 - off.toNat % 8 - len.toNat := by
  obtain ⟨_,total,tail⟩ := sizes
  omega

/-- Behind a first program unit that starts before `off`. -/
theorem writeUnits_head {I : Interface} {area : flash_area I} {off len aligned_len add_padding_size len_padding_size : UInt32}
    (sizes : Sizes off len aligned_len add_padding_size len_padding_size) (part : off.toNat % 8 ≠ 0)
    (src add_padding len_padding : Buffer) :
    writeUnits area off src len 4 aligned_len add_padding_size len_padding_size len_padding
      (FLOOR_ALIGN off FLASH_PROGRAM_UNIT) add_padding =
      area.fa_driver.ProgramData (area.fa_off + FLOOR_ALIGN off FLASH_PROGRAM_UNIT)
        (firstUnit off.toNat len.toNat src add_padding len_padding) 0 (FLASH_PROGRAM_UNIT / 4) >>= fun status =>
          if status < 0 then .ret (-1) else
            writeAligned area off src len 4 aligned_len add_padding_size len_padding_size len_padding
              (firstUnit off.toNat len.toNat src add_padding len_padding)
              (UInt32.ofNat (firstTaken off.toNat len.toNat)) := by
  have head := sizes.head
  have some : add_padding_size ≠ 0 := ne_zero_iff.mpr (by rw [head]; exact part)
  have small := firstTaken_le off.toNat len.toNat
  have few := firstTaken_toNat off.toNat len.toNat
  have filled : (add_padding_size + UInt32.ofNat (firstTaken off.toNat len.toNat)).toNat =
      off.toNat % 8 + firstTaken off.toNat len.toNat := by
    rw [toNat_add_of_lt (by rw [few,head]; omega),few,head]
  have low : add_padding_size.toNat ≤ 8 := by
    rw [head]
    omega
  simp only [writeUnits,some,ne_eq,not_false_eq_true,if_true]
  rw [fill_unit src len _ _ _ (firstTaken off.toNat len.toNat) low (by simp) (by rw [head]; rfl)]
  simp only [UInt32.zero_add]
  by_cases short : len.toNat ≤ 8 - off.toNat % 8
  · have all := firstTaken_short short
    have finished : UInt32.ofNat (firstTaken off.toNat len.toNat) = len := by rw [all,UInt32.ofNat_toNat]
    have gap := first_gap sizes short part
    rw [finished,all] at filled
    have unit : add_padding_size + len + len_padding_size = FLASH_PROGRAM_UNIT := by
      rw [eq_iff_toNat,toNat_add_of_lt (by omega),filled,gap,program_unit_toNat]
      omega
    simp only [finished,if_true,true_and]
    rw [fill_unit len_padding len_padding_size _ _ _ len_padding_size.toNat (by omega) (by simp) (by simp; omega)]
    simp only [UInt32.ofNat_toNat,UInt32.zero_add,unit,not_true_eq_false,if_false]
    have same : copy (copy add_padding add_padding_size.toNat src 0 (firstTaken off.toNat len.toNat))
        (add_padding_size + len).toNat len_padding 0 len_padding_size.toNat =
        firstUnit off.toNat len.toNat src add_padding len_padding := by
      rw [firstUnit,filled,gap,head,all]
    rw [← same]
    rfl
  · have full := firstTaken_full short
    have unfinished : UInt32.ofNat (firstTaken off.toNat len.toNat) ≠ len := by
      rw [ne_iff_toNat,few]
      omega
    have unit : add_padding_size + UInt32.ofNat (firstTaken off.toNat len.toNat) = FLASH_PROGRAM_UNIT := by
      rw [eq_iff_toNat,filled,full,program_unit_toNat]
      omega
    have same : copy add_padding (off.toNat % 8) src 0 (firstTaken off.toNat len.toNat) =
        firstUnit off.toNat len.toNat src add_padding len_padding := by
      rw [firstUnit,full,Nat.sub_self,copy_zero]
    simp only [unfinished,if_false,false_and,unit,not_true_eq_false,head]
    rw [← same]
    rfl

section
variable (on : OnUnits bsp rom area) {off len aligned_len add_padding_size len_padding_size : UInt32}
  (sizes : Sizes off len aligned_len add_padding_size len_padding_size)
  (fits : off.toNat + len.toNat ≤ area.fa_size.toNat)
include on sizes fits

theorem writeRest_eq (src add_padding len_padding : Buffer) {taken : Nat} (part : taken ≤ len.toNat)
    (start : (off.toNat + taken) % 8 = 0 ∨ taken = len.toNat) :
    writeAligned area off src len 4 aligned_len add_padding_size len_padding_size len_padding add_padding
      (UInt32.ofNat taken) = planned (restPrograms bsp area.fa_off off len src add_padding len_padding taken) := by
  have index : (UInt32.ofNat taken).toNat = taken :=
    UInt32.toNat_ofNat_of_lt' (Nat.lt_of_le_of_lt part len.toNat_lt)
  have split : len.toNat = (UInt32.ofNat taken).toNat + 8 * ((len.toNat - taken) / 8) + (len.toNat - taken) % 8 := by
    rw [index]
    exact rest_split part
  rw [writeAligned_eq on rfl split (Nat.mod_lt _ (by decide))]
  · have last : (UInt32.ofNat taken).toNat + 8 * ((len.toNat - taken) / 8) = len.toNat - (len.toNat - taken) % 8 :=
      Nat.eq_sub_of_add_eq split.symm
    rw [last]
    rfl
  · intro more
    rw [index] at more ⊢
    rw [sizes.head]
    exact rest_gap sizes.total sizes.tail (start.resolve_right (Nat.ne_of_lt more)) more
  · intro more
    rw [index] at more
    rw [byte_place on fits more]
    exact rest_inside on.off_aligned on.size_aligned fits sizes.total sizes.tail (start.resolve_right (Nat.ne_of_lt more)) more

theorem writeUnits_eq (src add_padding len_padding : Buffer) :
    writeUnits area off src len 4 aligned_len add_padding_size len_padding_size len_padding
      (FLOOR_ALIGN off FLASH_PROGRAM_UNIT) add_padding =
      planned (writePrograms bsp area.fa_off off len src add_padding len_padding) := by
  have rest := writeRest_eq on sizes fits src
  by_cases aligned : off.toNat % 8 = 0
  · have none : add_padding_size = 0 := by rw [eq_iff_toNat,sizes.head,aligned]; rfl
    subst none
    simp only [writeUnits,writePrograms,aligned,if_true,ne_eq,not_true_eq_false,if_false]
    exact rest add_padding len_padding (Nat.zero_le _) (.inl aligned)
  · have program := program_first on (Nat.le_trans (Nat.le_add_right _ _) fits) aligned
      (firstUnit off.toNat len.toNat src add_padding len_padding)
    have start : (off.toNat + firstTaken off.toNat len.toNat) % 8 = 0 ∨ firstTaken off.toNat len.toNat = len.toNat := by
      by_cases short : len.toNat ≤ 8 - off.toNat % 8
      · exact .inr (firstTaken_short short)
      · rw [firstTaken_full short]
        omega
    rw [writeUnits_head sizes aligned,rest _ _ (firstTaken_le _ _).2 start,program,writePrograms,if_neg aligned]

end

/-- What ends up in the units: the padding around, and in between what is programmed for the source. -/
def unitData (off len : Nat) (data add_padding len_padding : Buffer) : Buffer := fun k =>
  if k < off % 8 then add_padding k
  else if k < off % 8 + len then data (k - off % 8)
  else len_padding (k - off % 8 - len)

/-- What is programmed for each byte of the source. Behind a first unit that is not aligned, the
    whole units take the source from its start again. -/
def written (off len : Nat) (src : Buffer) : Buffer := fun j =>
  let first := 8 - off % 8
  if off % 8 ≠ 0 ∧ first ≤ j ∧ j < first + 8 * ((len - first) / 8) then src (j - first) else src j

theorem written_middle {off len k : Nat} (src : Buffer) (part : off % 8 ≠ 0)
    (inside : k < 8 * ((len - (8 - off % 8)) / 8)) : written off len src (8 - off % 8 + k) = src k := by
  rw [written,if_pos (by omega)]
  congr 1
  omega
theorem written_around {off len j : Nat} (src : Buffer)
    (outside : j < 8 - off % 8 ∨ 8 - off % 8 + 8 * ((len - (8 - off % 8)) / 8) ≤ j) : written off len src j = src j := by
  rw [written,if_neg (by omega)]

/-! What the first and the last unit hold. -/

theorem firstUnit_data {off len k : Nat} (inside : k < 8) (src add_padding len_padding : Buffer) :
    firstUnit off len src add_padding len_padding k =
      unitData off len (written off len src) add_padding len_padding k := by
  have taken : firstTaken off len = min (8 - off % 8) len := rfl
  simp only [firstUnit,unitData,copy]
  by_cases head : k < off % 8
  · rw [if_neg (by omega),if_neg (by omega),if_pos head]
  · rw [if_neg head]
    by_cases source : k < off % 8 + len
    · rw [if_neg (by omega),if_pos (by omega),if_pos source,written_around src (by omega),Nat.zero_add]
    · rw [if_pos (by omega),if_neg source]
      congr 1
      omega

theorem lastUnit_data {len r k : Nat} (inside : k < 8) (src add_padding len_padding : Buffer) :
    lastUnit len r src add_padding len_padding k = if k < r then src (len - r + k) else len_padding (k - r) := by
  simp only [lastUnit,copy]
  by_cases source : k < r
  · rw [if_neg (by omega),if_pos (by omega),if_pos source,Nat.sub_zero]
  · rw [if_pos (by omega),if_neg source,Nat.zero_add]

theorem covers_rest {fa_off off len : UInt32} {src add_padding len_padding data : Buffer} {taken place : Nat}
    (part : taken ≤ len.toNat) (at_ : taken < len.toNat → (fa_off + off + UInt32.ofNat taken).toNat = place)
    (fits : place + 8 * ((len.toNat - taken + 7) / 8) ≤ 2 ^ 32)
    (middle : ∀ k < 8 * ((len.toNat - taken) / 8), data k = src k)
    (last : ∀ k < 8 * ((len.toNat - taken + 7) / 8), 8 * ((len.toNat - taken) / 8) ≤ k → data k =
      if taken + k < len.toNat then src (taken + k) else len_padding (taken + k - len.toNat)) :
    Covers bsp place (8 * ((len.toNat - taken + 7) / 8)) data
      (restPrograms bsp fa_off off len src add_padding len_padding taken) := by
  have bound := len.toNat_lt
  by_cases finished : taken = len.toNat
  · have none : len.toNat - taken = 0 := by omega
    simp only [restPrograms,none,Nat.zero_div,Nat.zero_mod,if_true,programsOf_zero,List.append_nil]
    exact covers_nil _ _
  have start := at_ (by omega)
  subst place
  have units : Covers bsp (fa_off + off + UInt32.ofNat taken).toNat (8 * ((len.toNat - taken) / 8)) data
      (programsOf bsp src (fa_off + off + UInt32.ofNat taken) ((len.toNat - taken) / 8)) :=
    covers_programsOf (by omega) fun k inside => (middle k inside).symm
  by_cases none : (len.toNat - taken) % 8 = 0
  · have total : 8 * ((len.toNat - taken + 7) / 8) = 8 * ((len.toNat - taken) / 8) := by omega
    simp only [restPrograms,none,if_true,List.append_nil,total]
    exact units
  · have few : (UInt32.ofNat (8 * ((len.toNat - taken) / 8))).toNat = 8 * ((len.toNat - taken) / 8) := by
      rw [UInt32.toNat_ofNat',Nat.mod_eq_of_lt (by omega)]
    have next : (fa_off + off + UInt32.ofNat taken + UInt32.ofNat (8 * ((len.toNat - taken) / 8))).toNat =
        (fa_off + off + UInt32.ofNat taken).toNat + 8 * ((len.toNat - taken) / 8) := by
      rw [toNat_add_of_lt (by omega),few]
    have total : 8 * ((len.toNat - taken + 7) / 8) = 8 * ((len.toNat - taken) / 8) + 8 * 1 := by omega
    simp only [restPrograms,none,if_false]
    rw [total]
    refine covers_append units ?_
    rw [← next]
    refine covers_programsOf (by rw [next]; omega) fun k inside => ?_
    rw [last _ (by omega) (by omega),lastUnit_data (by omega)]
    by_cases source : k < (len.toNat - taken) % 8
    · rw [if_pos source,if_pos (by omega)]
      congr 1
      omega
    · rw [if_neg source,if_neg (by omega)]
      congr 1
      omega

/-- The program steps of a write, unit by unit from the one that holds `off`. -/
theorem units_covers_write (on : OnUnits bsp rom area) {off len : UInt32} (fits : off.toNat + len.toNat ≤ area.fa_size.toNat)
    (src add_padding len_padding : Buffer) :
    Covers bsp (area.fa_off.toNat + 8 * (off.toNat / 8)) (8 * ((off.toNat % 8 + len.toNat + 7) / 8))
      (unitData off.toNat len.toNat (written off.toNat len.toNat src) add_padding len_padding)
      (writePrograms bsp area.fa_off off len src add_padding len_padding) := by
  have ends := units_ends on
  have wholeSize := on.size_aligned
  have bound := area.fa_size.toNat_lt
  by_cases aligned : off.toNat % 8 = 0
  · have same : written off.toNat len.toNat src = src := by
      funext j
      simp [written,aligned]
    simp only [writePrograms,aligned,if_true,same,Nat.zero_add]
    refine covers_rest (Nat.zero_le _) (fun more => ?_) (by omega) (fun k inside => ?_) (fun k inside _ => ?_)
    · rw [byte_place on fits more]
      omega
    · rw [unitData,if_neg (by omega),if_pos (by omega)]
      congr 1
      omega
    · rw [unitData,if_neg (by omega),aligned]
      simp only [Nat.zero_add,Nat.sub_zero]
  · have floor := unit_place on (by omega) aligned
    have taken : firstTaken off.toNat len.toNat = min (8 - off.toNat % 8) len.toNat := rfl
    have total : 8 * ((off.toNat % 8 + len.toNat + 7) / 8) =
        8 * 1 + 8 * ((len.toNat - firstTaken off.toNat len.toNat + 7) / 8) := by omega
    simp only [writePrograms,aligned,if_false]
    rw [total,← floor]
    refine covers_append ?_ ?_
    · exact covers_programsOf (by omega) fun k inside => firstUnit_data inside src add_padding len_padding
    · refine covers_rest (by omega) (fun more => ?_) (by omega) (fun k inside => ?_) (fun k inside around => ?_)
      · rw [byte_place on fits more]
        omega
      · rw [unitData,if_neg (by omega),if_pos (by omega)]
        have shifted : 8 * 1 + k - off.toNat % 8 = 8 - off.toNat % 8 + k := by omega
        rw [shifted,written_middle src aligned (by omega)]
      · rw [unitData,if_neg (by omega)]
        by_cases source : 8 * 1 + k < off.toNat % 8 + len.toNat
        · rw [if_pos source,if_pos (by omega),written_around src (by omega)]
          congr 1
          omega
        · rw [if_neg source,if_neg (by omega)]
          congr 1
          omega

/-! ### Writing -/

/-- `len_padding_size` of a write. -/
def tailSize (off len : UInt32) : UInt32 :=
  CEILING_ALIGN (len + (off - FLOOR_ALIGN off FLASH_PROGRAM_UNIT)) FLASH_PROGRAM_UNIT - len -
    (off - FLOOR_ALIGN off FLASH_PROGRAM_UNIT)

/-- The padding before a write, and the length with it. -/
theorem head_toNat (off : UInt32) : (off - FLOOR_ALIGN off FLASH_PROGRAM_UNIT).toNat = off.toNat % 8 := by
  have floor := floor_align_eight off
  rw [toNat_sub_of_le (by rw [floor]; omega),floor]
  omega
theorem padded_toNat {off len : UInt32} (small : off.toNat % 8 + len.toNat < 2 ^ 32) :
    (len + (off - FLOOR_ALIGN off FLASH_PROGRAM_UNIT)).toNat = len.toNat + off.toNat % 8 := by
  have head := head_toNat off
  rw [toNat_add_of_lt (by omega),head]

/-- The sizes are exact where rounding up does not leave 32 bits. -/
theorem sizes_of {off len : UInt32} (small : off.toNat % 8 + len.toNat + 7 < 2 ^ 32) : Sizes off len
      (CEILING_ALIGN (len + (off - FLOOR_ALIGN off FLASH_PROGRAM_UNIT)) FLASH_PROGRAM_UNIT)
      (off - FLOOR_ALIGN off FLASH_PROGRAM_UNIT) (tailSize off len) := by
  have head := head_toNat off
  have sum : (len + (off - FLOOR_ALIGN off FLASH_PROGRAM_UNIT)).toNat = len.toNat + off.toNat % 8 := padded_toNat (by omega)
  have total : (CEILING_ALIGN (len + (off - FLOOR_ALIGN off FLASH_PROGRAM_UNIT)) FLASH_PROGRAM_UNIT).toNat =
      8 * ((off.toNat % 8 + len.toNat + 7) / 8) := by
    rw [ceiling_align_eight (by rw [sum]; omega),sum]
    omega
  have left : (CEILING_ALIGN (len + (off - FLOOR_ALIGN off FLASH_PROGRAM_UNIT)) FLASH_PROGRAM_UNIT - len).toNat =
      8 * ((off.toNat % 8 + len.toNat + 7) / 8) - len.toNat := by rw [toNat_sub_of_le (by omega),total]
  refine ⟨head,total,?_⟩
  rw [tailSize,toNat_sub_of_le (by omega),left]
  omega

theorem units_write_rejects [Bootutil] {off len : UInt32}
    (outside : ¬ off.toNat + len.toNat ≤ area.fa_size.toNat) (src : Buffer) :
    flash_area_write area off src len = .ret (-1) := by
  simp only [flash_area_write,is_range_valid_eq]
  simp [outside]

/-- A write that fits reads the padding around its bytes and then programs its units. -/
theorem units_write_eq [Bootutil] (on : OnUnits bsp rom area) {off len : UInt32}
    (fits : off.toNat + len.toNat ≤ area.fa_size.toNat) (src : Buffer) :
    flash_area_write area off src len =
      flash_area_read area (FLOOR_ALIGN off FLASH_PROGRAM_UNIT) stackArray (off - FLOOR_ALIGN off FLASH_PROGRAM_UNIT)
        >>= fun r => if r.1 ≠ 0 then .ret (-1) else
          flash_area_read area (off + len) stackArray (tailSize off len) >>= fun r' => if r'.1 ≠ 0 then .ret (-1) else
            planned (writePrograms bsp area.fa_off off len src r.2 r'.2) := by
  have whole := on.size_aligned
  have bound := area.fa_size.toNat_lt
  have sizes : Sizes off len _ _ _ := sizes_of (by omega)
  have floor := floor_align_eight off
  have total := sizes.total
  have valid : is_range_valid area off len = true := range_valid fits
  have valid' : is_range_valid area (FLOOR_ALIGN off FLASH_PROGRAM_UNIT)
      (CEILING_ALIGN (len + (off - FLOOR_ALIGN off FLASH_PROGRAM_UNIT)) FLASH_PROGRAM_UNIT) = true := by
    rw [is_range_valid_eq]
    refine decide_eq_true ?_
    omega
  simp only [flash_area_write,valid,valid',Bool.not_true,Bool.false_eq_true,if_false,units_data_width on]
  congr 1
  funext r
  obtain ⟨status,add_padding⟩ := r
  refine if_congr Iff.rfl rfl ?_
  congr 1
  funext r'
  obtain ⟨status',len_padding⟩ := r'
  refine if_congr Iff.rfl rfl ?_
  exact writeUnits_eq on sizes fits src add_padding len_padding

/-! ### Areas made of whole sectors -/

theorem covers_write (a : InternalArea bsp) {off len : UInt32} (fits : off.toNat + len.toNat ≤ a.fa_size.toNat)
    (src add_padding len_padding : Buffer) :
    Covers bsp (a.fa_off.toNat + 8 * (off.toNat / 8)) (8 * ((off.toNat % 8 + len.toNat + 7) / 8))
      (unitData off.toNat len.toNat (written off.toNat len.toNat src) add_padding len_padding)
      (writePrograms bsp a.fa_off off len src add_padding len_padding) :=
  units_covers_write (internal_units a) fits src add_padding len_padding

theorem flash_area_write_rejects [Bootutil] (a : InternalArea bsp) {off len : UInt32}
    (outside : ¬ off.toNat + len.toNat ≤ a.fa_size.toNat) (src : Buffer) :
    flash_area_write a.area off src len = .ret (-1) := units_write_rejects outside src

theorem flash_area_write_eq [Bootutil] (a : InternalArea bsp) {off len : UInt32}
    (fits : off.toNat + len.toNat ≤ a.fa_size.toNat) (src : Buffer) :
    flash_area_write a.area off src len =
      flash_area_read a.area (FLOOR_ALIGN off FLASH_PROGRAM_UNIT) stackArray (off - FLOOR_ALIGN off FLASH_PROGRAM_UNIT)
        >>= fun r => if r.1 ≠ 0 then .ret (-1) else
          flash_area_read a.area (off + len) stackArray (tailSize off len) >>= fun r' => if r'.1 ≠ 0 then .ret (-1) else
            planned (writePrograms bsp a.fa_off off len src r.2 r'.2) :=
  units_write_eq (internal_units a) fits src

end NuMicroBoot.WritePlans
