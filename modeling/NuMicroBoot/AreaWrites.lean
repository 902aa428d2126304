import NuMicroBoot.DriverReads
import NuMicroBoot.WritePlans

/-!
Writing at any offset, over any driver that programs whole units: the units a
write programs, one after the other, change the bytes of its range alone.
-/

namespace NuMicroBoot.AreaWrites
open NuMicroBoot.Calls NuMicroBoot.Calls.Prog NuMicroBoot.Cells NuMicroBoot.Words NuMicroBoot.Driver NuMicroBoot.FlashMap
open NuMicroBoot.AreaPlans NuMicroBoot.WritePlans NuMicroBoot.ExternalBounds NuMicroBoot.DriverReads

/-! ### What a driver does -/

/-- In a ready state the driver delivers the memory, and programming whole units clears bits of it, where the range suits. -/
structure Stores {I : Interface} {σ : Type} (R : Device I σ) (J : σ → Prop) (driver : ARM_DRIVER_FLASH I)
    (memory : σ → Nat → UInt8) (Ready : σ → Prop) (inside suits : Nat → Nat → Prop) : Prop where
  now : ∀ s, Ready s → J s
  ReadData : ∀ s, Ready s → Delivers R J driver (memory s) inside s
  ProgramData : ∀ s addr data cnt, Ready s → addr.toNat % 8 = 0 → 0 < cnt.toNat → suits addr.toNat (4 * cnt.toNat) →
    (driver.ProgramData addr data 0 cnt).Wp R J (fun rc s' => ¬ rc < 0 ∧ Ready s' ∧
      memory s' = combine (· &&& ·) (memory s) addr.toNat data (4 * cnt.toNat)) s

/-- An area of whole program units of its device. -/
structure OnEights {I : Interface} (area : flash_area I) (inside : Nat → Nat → Prop) : Prop where
  words : OnWords area inside
  off_aligned : area.fa_off.toNat % 8 = 0
  size_aligned : area.fa_size.toNat % 8 = 0

/-- The runs that a write programs suit the driver: single units, and the whole units behind the first one. -/
structure SuitsWrite {I : Interface} (area : flash_area I) (suits : Nat → Nat → Prop) (off len : Nat) : Prop where
  unit : ∀ a, area.fa_off.toNat ≤ a → a + 8 ≤ area.fa_off.toNat + area.fa_size.toNat → a % 8 = 0 → suits a 8
  middle : ∀ taken, (off + taken) % 8 = 0 → taken < 8 → 0 < (len - taken) / 8 →
    suits (area.fa_off.toNat + off + taken) (8 * ((len - taken) / 8))

/-! ### Runs of units -/

/-- A program request: its address, its number of words and its data. -/
structure Run where
  addr : UInt32
  cnt : UInt32
  src : Buffer

/-- Program requests one after the other, which the flash map checks with `< 0`. -/
def programAll {I : Interface} (driver : ARM_DRIVER_FLASH I) : List Run → Prog I Int32
  | [] => .ret 0
  | run :: runs => do
    let status ← driver.ProgramData run.addr run.src 0 run.cnt
    if status < 0 then .ret (-1) else programAll driver runs

/-- The runs program the bytes `m` to `n` from `a` on with the data: whole units in ascending order, each run one that suits. -/
inductive Runs (suits : Nat → Nat → Prop) (a : Nat) (data : Nat → UInt8) : (m : Nat) → List Run → (n : Nat) → Prop
  | nil (m : Nat) : Runs suits a data m [] m
  | cons {m n k : Nat} {run : Run} {runs : List Run} (place : run.addr.toNat = a + m) (count : run.cnt.toNat = 2 * k) (some : 0 < k)
      (aligned : (a + m) % 8 = 0) (suitable : suits (a + m) (8 * k)) (same : ∀ i < 8 * k, run.src i = data (m + i))
      (rest : Runs suits a data (m + 8 * k) runs n) : Runs suits a data m (run :: runs) n

section
variable {I : Interface} {suits inside : Nat → Nat → Prop} {area : flash_area I} {a m n : Nat} {data : Nat → UInt8} {runs : List Run}

theorem runs_le (units : Runs suits a data m runs n) : m ≤ n := by
  induction units with
  | nil m => exact Nat.le_refl m
  | cons place count some aligned suitable same rest ih => omega

/-- The runs of a driver whose runs do not fail, one after the other. -/
theorem programAll_wp {σ : Type} {R : Device I σ} {J : σ → Prop} {memory : σ → Nat → UInt8} {Ready : σ → Prop}
    (stores : Stores R J area.fa_driver memory Ready inside suits) (units : Runs suits a data m runs n) {M : Nat → UInt8} :
    ∀ {s : σ}, Ready s → memory s = combine (· &&& ·) M a data m →
    (programAll area.fa_driver runs).Wp R J (fun rc s' => rc = 0 ∧ Ready s' ∧ memory s' = combine (· &&& ·) M a data n) s := by
  induction units with
  | nil m =>
    intro s ready content
    exact ⟨stores.now s ready,rfl,ready,content⟩
  | @cons m n k run runs place count some aligned suitable same rest ih =>
    intro s ready content
    have size : 4 * run.cnt.toNat = 8 * k := by omega
    rw [← place] at aligned suitable
    rw [← size] at suitable
    refine wp_bind (stores.ProgramData s run.addr run.src run.cnt ready aligned (by omega) suitable) fun status s' _ programmed => ?_
    obtain ⟨fine,ready',memory'⟩ := programmed
    rw [if_neg fine]
    refine ih ready' ?_
    rw [memory',content,size,place,← combine_append]
    exact combine_congr same

/-- The part of a write is a plan of runs that program the units from `m` on. -/
def Plans (suits : Nat → Nat → Prop) (driver : ARM_DRIVER_FLASH I) (a : Nat) (data : Nat → UInt8) (m n : Nat) (part : Prog I Int32) :
    Prop :=
  ∃ runs, part = programAll driver runs ∧ Runs suits a data m runs n

theorem plans_nil (driver : ARM_DRIVER_FLASH I) (a : Nat) (data : Nat → UInt8) (m : Nat) : Plans suits driver a data m m (.ret 0) :=
  ⟨[],rfl,.nil m⟩

/-- A program request and what follows it. -/
theorem plans_cons {k : Nat} {addr cnt : UInt32} {src : Buffer} {next : Prog I Int32} (place : addr.toNat = a + m)
    (count : cnt.toNat = 2 * k) (some : 0 < k) (aligned : (a + m) % 8 = 0) (suitable : suits (a + m) (8 * k))
    (same : ∀ i < 8 * k, src i = data (m + i)) (rest : Plans suits area.fa_driver a data (m + 8 * k) n next) :
    Plans suits area.fa_driver a data m n
      (area.fa_driver.ProgramData addr src 0 cnt >>= fun status => if status < 0 then .ret (-1) else next) := by
  obtain ⟨runs,rfl,units⟩ := rest
  exact ⟨⟨addr,cnt,src⟩ :: runs,rfl,.cons place count some aligned suitable same units⟩

/-! ### The plan of a write -/

/-- The last program unit, where a part of the source is left for it. -/
theorem writeLast_plans {r : Nat} {off len idx aligned_len add_padding_size len_padding_size : UInt32}
    {src len_padding add_padding : Buffer} (left : len.toNat = idx.toNat + r) (small : r < 8)
    (tail : len_padding_size.toNat = (8 - r) % 8) (total : r ≠ 0 → aligned_len.toNat = add_padding_size.toNat + idx.toNat + 8)
    (place : r ≠ 0 → (area.fa_off + off + idx).toNat = a + m ∧ (a + m) % 8 = 0 ∧ suits (a + m) 8)
    (same : r ≠ 0 → ∀ k < 8, lastUnit len.toNat r src add_padding len_padding k = data (m + k)) :
    Plans suits area.fa_driver a data m (if r = 0 then m else m + 8)
      (writeLast area off src len 4 aligned_len add_padding_size len_padding_size len_padding add_padding idx) := by
  have rest : len.toNat - idx.toNat = r := by omega
  have unit : len_padding_size ≠ 0 → r ≠ 0 ∧ r + len_padding_size.toNat = 8 := fun some => by
    have := ne_zero_iff.mp some
    omega
  have gap : len_padding_size ≠ 0 → len.toNat - idx.toNat + len_padding_size.toNat = 8 ∧
      aligned_len.toNat = add_padding_size.toNat + idx.toNat + 8 := fun some => by
    obtain ⟨part,whole⟩ := unit some
    exact ⟨rest ▸ whole,total part⟩
  rw [writeLast_program (by omega) gap,rest]
  by_cases none : r = 0
  · have nothing : len_padding_size = 0 := by rw [eq_iff_toNat,tail,none]; rfl
    rw [if_pos nothing,if_pos none]
    exact plans_nil _ _ _ _
  · have some : len_padding_size ≠ 0 := ne_zero_iff.mpr (by omega)
    have size : len_padding_size.toNat = 8 - r := by omega
    have index : idx.toNat = len.toNat - r := by omega
    obtain ⟨at_,aligned,suitable⟩ := place none
    rw [if_neg some,if_neg none,size,index]
    exact plans_cons at_ (k := 1) rfl (by decide) aligned suitable (same none) (plans_nil _ _ _ _)

/-- The data of the units behind the first `taken` bytes of the source, where `add_padding` holds the buffer. -/
structure RestData (off len taken : Nat) (src add_padding len_padding data : Buffer) : Prop where
  middle : ∀ k < 8 * ((len - taken) / 8), src k = data (off % 8 + taken + k)
  last : (len - taken) % 8 ≠ 0 → ∀ k < 8, lastUnit len ((len - taken) % 8) src add_padding len_padding k =
    data (off % 8 + taken + 8 * ((len - taken) / 8) + k)

theorem taken_toNat {taken : Nat} (few : taken < 8) : (UInt32.ofNat taken).toNat = taken := by
  rw [UInt32.toNat_ofNat',Nat.mod_eq_of_lt (by omega)]

/-- The bytes of the whole units behind the first `taken` ones. -/
theorem floor_rest {len : UInt32} {taken : Nat} (few : taken < 8) (more : taken < len.toNat) :
    (FLOOR_ALIGN (len - UInt32.ofNat taken) FLASH_PROGRAM_UNIT).toNat = 8 * ((len.toNat - taken) / 8) := by
  have index := taken_toNat few
  rw [floor_align_eight,toNat_sub_of_le (by omega),index]

/-- The whole units of the source and the last unit, behind `taken` bytes that end a unit. -/
theorem writeAligned_plans {taken : Nat} {off len aligned_len add_padding_size len_padding_size : UInt32}
    {src len_padding add_padding : Buffer} (on : OnEights area inside) (suitable : SuitsWrite area suits off.toNat len.toNat)
    (sizes : Sizes off len aligned_len add_padding_size len_padding_size) (fits : off.toNat + len.toNat ≤ area.fa_size.toNat)
    (start : a = area.fa_off.toNat + 8 * (off.toNat / 8)) (whole : (off.toNat + taken) % 8 = 0) (few : taken < 8)
    (more : taken < len.toNat) (bytes : RestData off.toNat len.toNat taken src add_padding len_padding data) :
    Plans suits area.fa_driver a data (off.toNat % 8 + taken) aligned_len.toNat
      (writeAligned area off src len 4 aligned_len add_padding_size len_padding_size len_padding add_padding (UInt32.ofNat taken)) := by
  have ends := on.words.ends
  have bound := area.fa_size.toNat_lt
  obtain ⟨head,total,tail⟩ := sizes
  obtain ⟨tailSize,totalSize⟩ := rest_gap total tail whole more
  obtain ⟨low,high,aligned⟩ := rest_inside on.off_aligned on.size_aligned fits total tail whole more
  have split := rest_split (Nat.le_of_lt more)
  have middle := suitable.middle taken whole few
  have small := Nat.mod_lt (len.toNat - taken) (show 0 < 8 by decide)
  have size := floor_rest few more
  have index := taken_toNat few
  obtain ⟨bulk,rest⟩ := bytes
  -- the number of whole units, and of the bytes that are left
  generalize (len.toNat - taken) / 8 = n at split totalSize high bulk rest middle size
  generalize (len.toNat - taken) % 8 = r at split tailSize totalSize high rest small
  have place : a + (off.toNat % 8 + taken) = area.fa_off.toNat + off.toNat + taken := by omega
  have first : (area.fa_off + off).toNat = area.fa_off.toNat + off.toNat := toNat_add_of_lt (by omega)
  have address : (area.fa_off + off + UInt32.ofNat taken).toNat = a + (off.toNat % 8 + taken) := by
    rw [toNat_add_of_lt (by omega),first,index,place]
  have count : (if r = 0 then off.toNat % 8 + taken + 8 * n else off.toNat % 8 + taken + 8 * n + 8) = aligned_len.toNat := by
    split_ifs with none
    · omega
    · have := totalSize none
      omega
  have last : ∀ idx : UInt32, idx.toNat = taken + 8 * n → Plans suits area.fa_driver a data (off.toNat % 8 + taken + 8 * n)
      aligned_len.toNat (writeLast area off src len 4 aligned_len add_padding_size len_padding_size len_padding add_padding idx) := by
    intro idx next
    rw [← count]
    refine writeLast_plans (by omega) small tailSize (fun part => ?_) (fun part => ?_) rest
    · rw [next,totalSize part]
      omega
    · refine ⟨?_,by omega,suitable.unit _ (by omega) (by omega) (by omega)⟩
      rw [toNat_add_of_lt (by omega),first,next]
      omega
  have unfinished : UInt32.ofNat taken < len := UInt32.lt_iff_toNat_lt.mpr (by omega)
  have zero : (0 : UInt32).toNat = 0 := rfl
  simp only [writeAligned,unfinished,if_true]
  by_cases many : n = 0
  · subst many
    rw [if_neg (by rw [gt_iff_lt,UInt32.lt_iff_toNat_lt,size]; omega)]
    exact last _ (by rw [index]; rfl)
  · rw [if_pos (by rw [gt_iff_lt,UInt32.lt_iff_toNat_lt,size]; omega)]
    refine plans_cons address (k := n) ?_ (by omega) (by omega) (by rw [place]; exact middle (by omega)) bulk ?_
    · rw [UInt32.toNat_div,size]
      show 8 * n / 4 = 2 * n
      omega
    · exact last _ (by rw [toNat_add_of_lt (by omega),index,size])

/-- What ends up in the units is what the whole and the last units are programmed with. -/
theorem restData_units {off len taken : Nat} (whole : (off + taken) % 8 = 0) (more : taken < len) (small : taken < 8)
    (src add_padding len_padding first : Buffer) : RestData off len taken src first len_padding
      (unitData off len (written off len src) add_padding len_padding) := by
  refine ⟨fun k inside => ?_,fun part k inside => ?_⟩
  · rw [unitData,if_neg (by omega),if_pos (by omega)]
    by_cases aligned : off % 8 = 0
    · have none : taken = 0 := by omega
      rw [written,if_neg (by omega),none]
      congr 1
      omega
    · have place : off % 8 + taken + k - off % 8 = 8 - off % 8 + k := by omega
      rw [place,written_middle src aligned (by omega)]
  · rw [unitData,if_neg (by omega),lastUnit_data inside]
    by_cases source : k < (len - taken) % 8
    · have around : written off len src (off % 8 + taken + 8 * ((len - taken) / 8) + k - off % 8) =
          src (off % 8 + taken + 8 * ((len - taken) / 8) + k - off % 8) := by
        by_cases aligned : off % 8 = 0
        · rw [written,if_neg (by omega)]
        · exact written_around src (by omega)
      rw [if_pos source,if_pos (by omega),around]
      congr 1
      omega
    · rw [if_neg source,if_neg (by omega)]
      congr 1
      omega

/-- All the units of a write. -/
theorem writeUnits_plans {off len aligned_len add_padding_size len_padding_size : UInt32} {src add_padding len_padding : Buffer}
    (on : OnEights area inside) (suitable : SuitsWrite area suits off.toNat len.toNat)
    (sizes : Sizes off len aligned_len add_padding_size len_padding_size) (fits : off.toNat + len.toNat ≤ area.fa_size.toNat) :
    Plans suits area.fa_driver (area.fa_off.toNat + 8 * (off.toNat / 8))
      (unitData off.toNat len.toNat (written off.toNat len.toNat src) add_padding len_padding) 0 aligned_len.toNat
      (writeUnits area off src len 4 aligned_len add_padding_size len_padding_size len_padding
        (FLOOR_ALIGN off FLASH_PROGRAM_UNIT) add_padding) := by
  have ends := on.words.ends
  have sizeAligned := on.size_aligned
  have offAligned := on.off_aligned
  have total := sizes.total
  have bound := len.toNat_lt
  by_cases aligned : off.toNat % 8 = 0
  · have none : add_padding_size = 0 := by rw [eq_iff_toNat,sizes.head,aligned]; rfl
    subst none
    simp only [writeUnits,ne_eq,not_true_eq_false,if_false]
    by_cases more : 0 < len.toNat
    · have bytes := restData_units aligned more (by decide) src add_padding len_padding add_padding
      have units := writeAligned_plans on suitable sizes fits rfl aligned (by decide) more bytes
      rw [aligned] at units
      exact units
    · have nothing : ¬ (0 : UInt32) < len := fun some => more (UInt32.lt_iff_toNat_lt.mp some)
      have empty : aligned_len.toNat = 0 := by omega
      rw [writeAligned,if_neg nothing,empty]
      exact plans_nil _ _ _ _
  · have floor := floor_align_eight off
    have place : (area.fa_off + FLOOR_ALIGN off FLASH_PROGRAM_UNIT).toNat = area.fa_off.toNat + 8 * (off.toNat / 8) + 0 := by
      rw [toNat_add_of_lt (by omega),floor]
      rfl
    have index := firstTaken_toNat off.toNat len.toNat
    rw [writeUnits_head sizes aligned]
    refine plans_cons place (k := 1) rfl (by decide) (by omega) (suitable.unit _ (by omega) (by omega) (by omega)) ?_ ?_
    · intro k inside
      rw [firstUnit_data inside,Nat.zero_add]
    · by_cases short : len.toNat ≤ 8 - off.toNat % 8
      · have all := firstTaken_short short
        have finished : ¬ UInt32.ofNat (firstTaken off.toNat len.toNat) < len := by
          rw [UInt32.lt_iff_toNat_lt,index,all]
          exact Nat.lt_irrefl _
        have one : aligned_len.toNat = 0 + 8 * 1 := by omega
        rw [writeAligned,if_neg finished,one]
        exact plans_nil _ _ _ _
      · have full := firstTaken_full short
        have one : off.toNat % 8 + (8 - off.toNat % 8) = 0 + 8 * 1 := by omega
        rw [full,← one]
        exact writeAligned_plans on suitable sizes fits rfl (by omega) (by omega) (by omega)
          (restData_units (by omega) (by omega) (by omega) _ _ _ _)

/-! ### Writing -/

/-- With the padding as it is read, the units change the range of the write alone. -/
theorem combine_units {M : Nat → UInt8} {off len p n m q : Nat} {data : Buffer} (head : n = off % 8)
    (tail : off % 8 + len + m = 8 * ((off % 8 + len + 7) / 8)) (start : p + off % 8 + len = q ∨ m = 0) :
    combine (· &&& ·) M p (unitData off len data (copy stackArray 0 M p n) (copy stackArray 0 M q m)) (8 * ((off % 8 + len + 7) / 8)) =
      combine (· &&& ·) M (p + off % 8) data len := by
  have same : ∀ k < 8 * ((off % 8 + len + 7) / 8), k < off % 8 ∨ off % 8 + len ≤ k →
      unitData off len data (copy stackArray 0 M p n) (copy stackArray 0 M q m) k = M (p + k) := by
    intro k inside around
    rw [unitData]
    by_cases head : k < off % 8
    · rw [if_pos head]
      simp only [copy]
      rw [if_pos (by omega),Nat.sub_zero]
    · rw [if_neg head,if_neg (by omega)]
      simp only [copy]
      rw [if_pos (by omega)]
      congr 1
      omega
  have all : min len (8 * ((off % 8 + len + 7) / 8) - off % 8) = len := by omega
  rw [combine_padded same,all]
  refine combine_congr fun k inside => ?_
  rw [unitData,if_neg (by omega),if_pos (by omega),Nat.add_sub_cancel_left]

section
variable [Bootutil] (on : OnEights area inside) {off len : UInt32} (fits : off.toNat + len.toNat ≤ area.fa_size.toNat)
  (suitable : SuitsWrite area suits off.toNat len.toNat)
include on fits suitable

/-- A write that fits reads the padding around its bytes, and then programs a plan of runs. -/
theorem write_plans (src : Buffer) : ∃ part : Buffer → Buffer → Prog I Int32,
    flash_area_write area off src len =
      (flash_area_read area (FLOOR_ALIGN off FLASH_PROGRAM_UNIT) stackArray (off - FLOOR_ALIGN off FLASH_PROGRAM_UNIT)
        >>= fun r => if r.1 ≠ 0 then .ret (-1) else
          flash_area_read area (off + len) stackArray (tailSize off len) >>= fun r' => if r'.1 ≠ 0 then .ret (-1) else
            part r.2 r'.2) ∧
    ∀ add_padding len_padding, Plans suits area.fa_driver (area.fa_off.toNat + 8 * (off.toNat / 8))
      (unitData off.toNat len.toNat (written off.toNat len.toNat src) add_padding len_padding) 0
      (8 * ((off.toNat % 8 + len.toNat + 7) / 8)) (part add_padding len_padding) := by
  have sizeAligned := on.size_aligned
  have bound := area.fa_size.toNat_lt
  have sizes : Sizes off len _ _ _ := sizes_of (by omega)
  have floor := floor_align_eight off
  have total := sizes.total
  have valid : is_range_valid area off len = true := range_valid fits
  have valid' : is_range_valid area (FLOOR_ALIGN off FLASH_PROGRAM_UNIT)
      (CEILING_ALIGN (len + (off - FLOOR_ALIGN off FLASH_PROGRAM_UNIT)) FLASH_PROGRAM_UNIT) = true := range_valid (by omega)
  refine ⟨fun add_padding len_padding => writeUnits area off src len 4
    (CEILING_ALIGN (len + (off - FLOOR_ALIGN off FLASH_PROGRAM_UNIT)) FLASH_PROGRAM_UNIT)
    (off - FLOOR_ALIGN off FLASH_PROGRAM_UNIT) (tailSize off len) len_padding (FLOOR_ALIGN off FLASH_PROGRAM_UNIT) add_padding,
    ?_,fun add_padding len_padding => ?_⟩
  · simp only [flash_area_write,valid,valid',Bool.not_true,Bool.false_eq_true,if_false,on.words.width]
    rfl
  · rw [← total]
    exact writeUnits_plans on suitable sizes fits

/-- On a driver that stores, it clears bits of the bytes of its range, and of no others. -/
theorem area_write_wp {σ : Type} {R : Device I σ} {J : σ → Prop} {memory : σ → Nat → UInt8} {Ready : σ → Prop}
    (stores : Stores R J area.fa_driver memory Ready inside suits) (src : Buffer) {s : σ} (ready : Ready s) :
    (flash_area_write area off src len).Wp R J (fun rc s' => rc = 0 ∧ Ready s' ∧ memory s' =
      combine (· &&& ·) (memory s) (area.fa_off.toNat + off.toNat) (written off.toNat len.toNat src) len.toNat) s := by
  have sizeAligned := on.size_aligned
  have bound := area.fa_size.toNat_lt
  have sizes : Sizes off len _ _ _ := sizes_of (by omega)
  have floor := floor_align_eight off
  have head := sizes.head
  have total := sizes.total
  have tail := sizes.tail
  have next : (off + len).toNat = off.toNat + len.toNat := toNat_add_of_lt (by omega)
  have delivers := stores.ReadData s ready
  have now := stores.now s ready
  obtain ⟨part,same,plans⟩ := write_plans on fits suitable src
  rw [same]
  refine wp_bind (read_wp delivers now on.words (by omega) stackArray) fun r s₁ _ read => ?_
  obtain ⟨rfl,rfl⟩ := read
  dsimp only
  rw [if_neg (by decide)]
  refine wp_bind (read_wp delivers now on.words (by omega) stackArray) fun r s₁ _ read => ?_
  obtain ⟨rfl,rfl⟩ := read
  dsimp only
  rw [if_neg (by decide)]
  obtain ⟨runs,program,units⟩ := plans _ _
  rw [program]
  refine wp_mono (programAll_wp stores units ready (combine_zero _ _ _ _).symm) ?_
  rintro rc s' ⟨rfl,ready',memory'⟩
  refine ⟨rfl,ready',?_⟩
  rw [memory',floor,combine_units head (by omega) (.inl (by omega))]
  congr 1
  omega

end

/-! ### The requests of a write -/

/-- The bytes from `b` on belong to the area. -/
def InArea (area : flash_area I) (b n : Nat) : Prop :=
  area.fa_off.toNat ≤ b ∧ b + n ≤ area.fa_off.toNat + area.fa_size.toNat

/-- A request inside the area. -/
def WithinArea (area : flash_area I) : Access → Prop
  | .ReadData addr _ _ cnt => InArea area addr.toNat (4 * cnt.toNat)
  | .ProgramData addr _ _ cnt => InArea area addr.toNat (4 * cnt.toNat)
  | .EraseSector addr => InArea area addr.toNat 1

theorem runs_within (units : Runs suits a data m runs n) (low : area.fa_off.toNat ≤ a)
    (high : a + n ≤ area.fa_off.toNat + area.fa_size.toNat) :
    (programAll (onCalls area).fa_driver runs).All (WithinArea area) fun _ => True := by
  induction units with
  | nil m => trivial
  | cons place count some aligned suitable same rest ih =>
    have past := runs_le rest
    exact ⟨⟨by omega,by omega⟩,fun status => all_ite (fun _ => trivial) fun _ => ih high⟩

/-- Whatever the driver answers, a write that fits reads and programs in its area only. -/
theorem write_within [Bootutil] (on : OnEights area inside) {off len : UInt32} (fits : off.toNat + len.toNat ≤ area.fa_size.toNat)
    (src : Buffer) : (flash_area_write (onCalls area) off src len).All (WithinArea area) fun _ => True := by
  have sizeAligned := on.size_aligned
  have bound := area.fa_size.toNat_lt
  have sizes : Sizes off len _ _ _ := sizes_of (by omega)
  have floor := floor_align_eight off
  have head := sizes.head
  have total := sizes.total
  have tail := sizes.tail
  have next : (off + len).toNat = off.toNat + len.toNat := toNat_add_of_lt (by omega)
  obtain ⟨⟨width,offWords,sizeWords,ends,_⟩,offUnits,sizeUnits⟩ := on
  have words : OnWords area (InArea area) := ⟨width,offWords,sizeWords,ends,fun _ _ => And.intro⟩
  have reads : ∀ {off len : UInt32} (dst : Buffer), off.toNat + len.toNat ≤ area.fa_size.toNat →
      (flash_area_read (onCalls area) off dst len).All (WithinArea area) fun _ => True := by
    intro off len dst fits
    refine all_mono (read_all words fits dst) (fun c word => ?_) fun _ => id
    cases c with
    | ReadData addr data p cnt => exact word.2
    | ProgramData addr data p cnt => exact word.elim
    | EraseSector addr => exact word.elim
  have calls : OnEights (onCalls area) (InArea area) := ⟨⟨width,offWords,sizeWords,ends,fun _ _ => And.intro⟩,offUnits,sizeUnits⟩
  have any : SuitsWrite (onCalls area) (fun _ _ => True) off.toNat len.toNat :=
    ⟨fun _ _ _ _ => trivial,fun _ _ _ _ => trivial⟩
  obtain ⟨part,same,plans⟩ := write_plans calls fits any src
  rw [same]
  refine all_bind (reads _ (by omega)) fun r _ => all_ite (fun _ => trivial) fun _ => ?_
  refine all_bind (reads _ (by omega)) fun r' _ => all_ite (fun _ => trivial) fun _ => ?_
  obtain ⟨runs,program,units⟩ := plans r.2 r'.2
  have start : (onCalls area).fa_off = area.fa_off := rfl
  rw [start] at units
  rw [program]
  exact runs_within units (Nat.le_add_right _ _) (by omega)

end
end NuMicroBoot.AreaWrites
