import NuMicroBoot.AreaPlans
import NuMicroBoot.ExternalBounds

/-!
Reading at any offset, over any driver: the functions of a driver as calls, and
a read of the flash map judged over a driver that can do nothing but read whole
words at aligned addresses of its device.
-/

namespace NuMicroBoot.DriverReads
open NuMicroBoot.Calls NuMicroBoot.Calls.Prog NuMicroBoot.Cells NuMicroBoot.Words NuMicroBoot.Driver
open NuMicroBoot.FlashMap NuMicroBoot.AreaPlans NuMicroBoot.ExternalBounds

/-! ### The functions of a driver as calls -/

abbrev AccessAnswer : Access → Type
  | .ReadData _ _ _ _ => Int32 × Buffer
  | .ProgramData _ _ _ _ => Int32
  | .EraseSector _ => Int32

abbrev functions : Interface := ⟨Access,AccessAnswer⟩

/-- The area with each function of its driver a call. -/
def onCalls {I : Interface} (area : flash_area I) : flash_area functions where
  fa_id := area.fa_id
  fa_device_id := area.fa_device_id
  fa_driver :=
    { GetCapabilities := area.fa_driver.GetCapabilities
      ReadData := fun addr data p cnt => .call (.ReadData addr data p cnt) .ret
      ProgramData := fun addr data p cnt => .call (.ProgramData addr data p cnt) .ret
      EraseSector := fun addr => .call (.EraseSector addr) .ret
      GetInfo := area.fa_driver.GetInfo }
  fa_off := area.fa_off
  fa_size := area.fa_size

/-- The functions that a driver has for the calls. -/
def carryOut {I : Interface} (driver : ARM_DRIVER_FLASH I) : (c : Access) → Prog I (AccessAnswer c)
  | .ReadData addr data p cnt => driver.ReadData addr data p cnt
  | .ProgramData addr data p cnt => driver.ProgramData addr data p cnt
  | .EraseSector addr => driver.EraseSector addr

section
variable {I : Interface} (area : flash_area I)

theorem translate_ite {J K : Interface} {α : Type} {impl : (c : J.Call) → Prog K (J.Answer c)} {c : Prop} [Decidable c]
    {p q : Prog J α} {p' q' : Prog K α} (yes : p.translate impl = p') (no : q.translate impl = q') :
    (if c then p else q).translate impl = if c then p' else q' := by
  by_cases h : c
  · rw [if_pos h,if_pos h,yes]
  · rw [if_neg h,if_neg h,no]

/-- A driver function and what follows it. -/
theorem translate_read {α : Type} {addr cnt : UInt32} {data : Buffer} {p : Nat} {next : Int32 × Buffer → Prog functions α}
    {next' : Int32 × Buffer → Prog I α} (rest : ∀ r, (next r).translate (carryOut area.fa_driver) = next' r) :
    ((onCalls area).fa_driver.ReadData addr data p cnt >>= next).translate (carryOut area.fa_driver) =
      area.fa_driver.ReadData addr data p cnt >>= next' := by
  show (area.fa_driver.ReadData addr data p cnt >>= fun r => (next r).translate (carryOut area.fa_driver)) = _
  rw [funext rest]

theorem readRest_calls (off data_width : UInt32) (dst temp : Buffer) (status : Int32) (i : UInt8) (items rem : UInt32) :
    (readRest (onCalls area) off data_width dst temp status i items rem).translate (carryOut area.fa_driver) =
      readRest area off data_width dst temp status i items rem := by
  unfold readRest
  refine translate_ite (translate_read area fun r => ?_) rfl
  exact translate_ite rfl rfl

theorem readItems_calls (off data_width : UInt32) (dst temp : Buffer) (status : Int32) (i : UInt8) (rem : UInt32) :
    (readItems (onCalls area) off data_width dst temp status i rem).translate (carryOut area.fa_driver) =
      readItems area off data_width dst temp status i rem := by
  unfold readItems
  refine translate_ite (translate_ite (translate_read area fun r => ?_) ?_) ?_
  · exact translate_ite rfl (readRest_calls area _ _ _ _ _ _ _ _)
  · exact readRest_calls area _ _ _ _ _ _ _ _
  · exact readRest_calls area _ _ _ _ _ _ _ _

/-- A read is the same program over the functions of its driver. -/
theorem read_calls [Bootutil] (off : UInt32) (dst : Buffer) (len : UInt32) :
    (flash_area_read (onCalls area) off dst len).translate (carryOut area.fa_driver) =
      flash_area_read area off dst len := by
  unfold flash_area_read
  refine translate_ite rfl (translate_ite (translate_read area fun r => ?_) ?_)
  · exact translate_ite rfl (readItems_calls area _ _ _ _ _ _ _)
  · exact readItems_calls area _ _ _ _ _ _ _

end

/-! ### Reading by whole words -/

/-- A read of whole words at an aligned address of the device, and no other request. -/
def WordRead (inside : Nat → Nat → Prop) : Access → Prop
  | .ReadData addr _ _ cnt => addr.toNat % 4 = 0 ∧ inside addr.toNat (4 * cnt.toNat)
  | .ProgramData _ _ _ _ => False
  | .EraseSector _ => False

/-- The words of the device that hold `len` bytes from an aligned address on. -/
structure WordsFrom (inside : Nat → Nat → Prop) (addr : UInt32) (a len : Nat) : Prop where
  place : addr.toNat = a
  aligned : a % 4 = 0
  ends : a + 4 * ((len + 3) / 4) ≤ 2 ^ 32
  part : ∀ b n, a ≤ b → b + n ≤ a + 4 * ((len + 3) / 4) → inside b n

/-- An area of whole words of its device, as the reads see it. -/
structure OnWords {I : Interface} (area : flash_area I) (inside : Nat → Nat → Prop) : Prop where
  width : data_width_byte area.fa_driver.GetCapabilities.data_width = 4
  off_aligned : area.fa_off.toNat % 4 = 0
  size_aligned : area.fa_size.toNat % 4 = 0
  ends : area.fa_off.toNat + area.fa_size.toNat ≤ 2 ^ 32
  part : ∀ a n, area.fa_off.toNat ≤ a → a + n ≤ area.fa_off.toNat + area.fa_size.toNat → inside a n

section
variable {I : Interface} {area : flash_area I} {inside : Nat → Nat → Prop}

theorem words_bulk {addr len : UInt32} {a : Nat} (words : WordsFrom inside addr a len.toNat) :
    inside a (4 * (len / 4).toNat) := by
  rw [(items_toNat len).1]
  exact words.part _ _ (Nat.le_refl _) (by omega)

theorem words_rest {addr len : UInt32} {a : Nat} (words : WordsFrom inside addr a len.toNat) (more : len - len / 4 * 4 ≠ 0) :
    WordsFrom inside (addr + len / 4 * 4) (a + 4 * (len.toNat / 4)) (len - len / 4 * 4).toNat := by
  obtain ⟨_,items,left⟩ := items_toNat len
  obtain ⟨place,aligned,ends,part⟩ := words
  have some := ne_zero_iff.mp more
  rw [left] at some ⊢
  refine ⟨?_,by omega,by omega,fun b n low high => part b n (by omega) (by omega)⟩
  rw [toNat_add_of_lt (by omega),items,place]

theorem words_head (on : OnWords area inside) {off len : UInt32} (fits : off.toNat + len.toNat ≤ area.fa_size.toNat)
    (part : off.toNat % 4 ≠ 0) :
    WordsFrom inside (area.fa_off + FLOOR_ALIGN off 4) (area.fa_off.toNat + 4 * (off.toNat / 4)) 4 := by
  have ends := on.ends
  have whole := on.size_aligned
  have start := on.off_aligned
  exact ⟨floor_add ends whole (by omega) part,by omega,by omega,fun b n low high => on.part b n (by omega) (by omega)⟩

theorem words_whole (on : OnWords area inside) {off len : UInt32} (fits : off.toNat + len.toNat ≤ area.fa_size.toNat)
    (aligned : off.toNat % 4 = 0) (more : len ≠ 0) :
    WordsFrom inside (area.fa_off + off + (0 : UInt8).toUInt32) (area.fa_off.toNat + off.toNat) len.toNat := by
  have ends := on.ends
  have whole := on.size_aligned
  have start := on.off_aligned
  have some := ne_zero_iff.mp more
  refine ⟨?_,by omega,by omega,fun b n low high => on.part b n (by omega) (by omega)⟩
  show (area.fa_off + off + 0).toNat = _
  rw [UInt32.add_zero,toNat_add_of_lt (by omega)]

/-- The bytes taken of the first word, and what they leave. -/
theorem head_taken (on : OnWords area inside) {off len : UInt32} (fits : off.toNat + len.toNat ≤ area.fa_size.toNat) :
    ∃ taken, (if off - FLOOR_ALIGN off 4 + len ≥ 4 then 4 - (off - FLOOR_ALIGN off 4) else len) = taken ∧
      taken.toNat ≤ 4 - off.toNat % 4 ∧ taken.toNat ≤ len.toNat ∧ (UInt8.ofNat taken.toNat).toNat = taken.toNat ∧
      (len - taken ≠ 0 → WordsFrom inside (area.fa_off + off + (UInt8.ofNat taken.toNat).toUInt32)
        (area.fa_off.toNat + off.toNat + taken.toNat) (len - taken).toNat) := by
  have ends := on.ends
  have whole := on.size_aligned
  have start := on.off_aligned
  have bound := area.fa_size.toNat_lt
  have length := @head_length off len (by omega)
  generalize (if off - FLOOR_ALIGN off 4 + len ≥ 4 then 4 - (off - FLOOR_ALIGN off 4) else len) = taken at length
  have index : (UInt8.ofNat taken.toNat).toNat = taken.toNat := by
    simp
    omega
  have counter : (UInt8.ofNat taken.toNat).toUInt32 = taken := by rw [eq_iff_toNat,UInt8.toNat_toUInt32,index]
  refine ⟨taken,rfl,by omega,by omega,index,fun more => ?_⟩
  have some := ne_zero_iff.mp more
  have left : (len - taken).toNat = len.toNat - taken.toNat := toNat_sub_of_le (by omega)
  rw [counter,left]
  refine ⟨?_,by omega,by omega,fun b n low high => on.part b n (by omega) (by omega)⟩
  rw [toNat_add_of_lt (by rw [toNat_add_of_lt (by omega)]; omega),toNat_add_of_lt (by omega)]

/-! ### The requests of a read -/

theorem all_words {α : Type} {addr cnt : UInt32} {a : Nat} (place : addr.toNat = a) (aligned : a % 4 = 0)
    (part : inside a (4 * cnt.toNat)) {data : Buffer} {p : Nat} {next : Int32 × Buffer → Prog functions α}
    (rest : ∀ r, (next r).All (WordRead inside) fun _ => True) :
    ((onCalls area).fa_driver.ReadData addr data p cnt >>= next).All (WordRead inside) fun _ => True := by
  subst place
  exact ⟨⟨aligned,part⟩,rest⟩

theorem readRest_all {off items rem : UInt32} {i : UInt8} {a : Nat} (small : rem.toNat < 4)
    (words : rem ≠ 0 → WordsFrom inside (area.fa_off + off + i.toUInt32 + items * 4) a rem.toNat)
    (dst temp : Buffer) (status : Int32) :
    (readRest (onCalls area) off 4 dst temp status i items rem).All (WordRead inside) fun _ => True := by
  unfold readRest
  refine all_ite (fun more => ?_) fun _ => trivial
  obtain ⟨place,aligned,_,part⟩ := words more
  have some := ne_zero_iff.mp more
  have one : (1 : UInt32).toNat = 1 := rfl
  refine all_words place aligned (part _ _ (Nat.le_refl _) (by omega)) fun r => ?_
  exact all_ite (fun _ => trivial) fun _ => trivial

theorem readItems_all {off len : UInt32} {i : UInt8} {a : Nat}
    (words : len ≠ 0 → WordsFrom inside (area.fa_off + off + i.toUInt32) a len.toNat) (dst temp : Buffer) (status : Int32) :
    (readItems (onCalls area) off 4 dst temp status i len).All (WordRead inside) fun _ => True := by
  have left := (items_toNat len).2.2
  unfold readItems
  refine all_ite (fun some => all_ite (fun _ => ?_) fun few => ?_) fun nothing => ?_
  · have from_ := words some
    refine all_words from_.place from_.aligned (words_bulk from_) fun r => ?_
    refine all_ite (fun _ => trivial) fun _ => readRest_all (by omega) (words_rest from_) _ _ _
  · have none := not_not.mp few
    have short : len.toNat < 4 := by
      have quotient := (items_toNat len).1
      rw [none,UInt32.toNat_zero] at quotient
      omega
    have from_ := words some
    rw [← UInt32.add_zero (_ + i.toUInt32),← @UInt32.zero_mul 4,← none] at from_
    exact readRest_all short (fun _ => from_) _ _ _
  · have none := not_not.mp nothing
    exact @readRest_all _ _ _ _ _ _ _ 0 (by rw [none]; decide) (fun more => absurd none more) _ _ _

/-- A read that fits makes no request but for whole words inside the device, whatever the driver answers. -/
theorem read_all [Bootutil] (on : OnWords area inside) {off len : UInt32} (fits : off.toNat + len.toNat ≤ area.fa_size.toNat)
    (dst : Buffer) : (flash_area_read (onCalls area) off dst len).All (WordRead inside) fun _ => True := by
  have valid : is_range_valid (onCalls area) off len = true := range_valid fits
  have width : data_width_byte (onCalls area).fa_driver.GetCapabilities.data_width = 4 := on.width
  unfold flash_area_read
  simp only [valid,Bool.not_true,Bool.false_eq_true,if_false,width]
  refine all_ite (fun part => ?_) fun aligned => ?_
  · have head := words_head on fits (floor_part part)
    have one : (1 : UInt32).toNat = 1 := rfl
    refine all_words head.place head.aligned (head.part _ _ (by omega) (by omega)) fun r => ?_
    refine all_ite (fun _ => trivial) fun _ => ?_
    obtain ⟨taken,same,below,_,_,words⟩ := head_taken on fits
    rw [same,copyHead_eq _ _ _ (by omega)]
    exact readItems_all words _ _ _
  · exact readItems_all (words_whole on fits (floor_whole (not_not.mp aligned))) _ _ _

/-! ### What a read delivers -/

section
variable {σ : Type} {R : Device I σ} {J : σ → Prop} {M : Nat → UInt8} {s : σ}

/-- A driver whose reads of whole words, in this state, return no error, deliver the bytes of `M` and change nothing. -/
def Delivers (R : Device I σ) (J : σ → Prop) (driver : ARM_DRIVER_FLASH I) (M : Nat → UInt8) (inside : Nat → Nat → Prop)
    (s : σ) : Prop :=
  ∀ addr data p cnt, addr.toNat % 4 = 0 → 0 < cnt.toNat → inside addr.toNat (4 * cnt.toNat) →
    (driver.ReadData addr data p cnt).Wp R J
      (fun r s' => ¬ r.1 < 0 ∧ r.2 = copy data p M addr.toNat (4 * cnt.toNat) ∧ s' = s) s

/-- The read has succeeded, left the bytes from `a` on at `d` and changed nothing. -/
abbrev Read (M : Nat → UInt8) (s : σ) (dst : Buffer) (d a n : Nat) (r : Int32 × Buffer) (s' : σ) : Prop :=
  r = (0,copy dst d M a n) ∧ s' = s

theorem wp_words (delivers : Delivers R J area.fa_driver M inside s) {α : Type} {Q : α → σ → Prop} {addr cnt : UInt32} {a : Nat}
    (place : addr.toNat = a) (aligned : a % 4 = 0) (some : 0 < cnt.toNat) (part : inside a (4 * cnt.toNat)) {data : Buffer}
    {p : Nat} {next : Int32 × Buffer → Prog I α}
    (rest : ∀ rc : Int32, ¬ rc < 0 → (next (rc,copy data p M a (4 * cnt.toNat))).Wp R J Q s) :
    (area.fa_driver.ReadData addr data p cnt >>= next).Wp R J Q s := by
  subst place
  refine wp_bind (delivers addr data p cnt aligned some part) fun r s' _ read => ?_
  obtain ⟨rc,read⟩ := r
  obtain ⟨fine,same,rfl⟩ := read
  dsimp only at same
  subst same
  exact rest rc fine

variable (delivers : Delivers R J area.fa_driver M inside s) (now : J s)
include delivers now

/-- The bytes after the last whole item. -/
theorem readRest_wp {off items rem : UInt32} {i : UInt8} {d a : Nat} (index : (i.toUInt32 + items * 4).toNat = d)
    (ends : d + 4 ≤ 2 ^ 32) (small : rem.toNat < 4)
    (words : rem ≠ 0 → WordsFrom inside (area.fa_off + off + i.toUInt32 + items * 4) a rem.toNat)
    {status : Int32} (fine : ¬ status < 0) (dst temp : Buffer) :
    (readRest area off 4 dst temp status i items rem).Wp R J (Read M s dst d a rem.toNat) s := by
  unfold readRest
  refine wp_ite (fun more => ?_) fun nothing => ?_
  · obtain ⟨place,aligned,_,part⟩ := words more
    have some := ne_zero_iff.mp more
    have one : (1 : UInt32).toNat = 1 := rfl
    refine wp_words delivers place aligned (by decide) (part _ _ (Nat.le_refl _) (by omega)) fun rc good => ?_
    dsimp only
    rw [if_neg good,if_neg good,copyLoop_eq _ _ _ _ _ d 0 (by omega)]
    · refine ⟨now,?_,rfl⟩
      congr 1
      refine copy_congr fun k few => ?_
      simp only [copy]
      rw [one,if_pos (by omega)]
      congr 1
      omega
    · intro j _
      have counter : j.toUInt32.toNat = j.toNat := by simp
      rw [toNat_add_of_lt (by rw [index]; omega),index,counter]
    · intro j _
      simp
  · have none := not_not.mp nothing
    subst none
    rw [if_neg fine]
    exact ⟨now,by simp,rfl⟩

/-- The whole items and the bytes after them. -/
theorem readItems_wp {off len : UInt32} {i : UInt8} {a : Nat} (head : i.toNat < 4) (short : i.toNat + len.toNat + 4 ≤ 2 ^ 32)
    (words : len ≠ 0 → WordsFrom inside (area.fa_off + off + i.toUInt32) a len.toNat)
    {status : Int32} (fine : ¬ status < 0) (dst temp : Buffer) :
    (readItems area off 4 dst temp status i len).Wp R J (Read M s dst i.toNat a len.toNat) s := by
  obtain ⟨quotient,items,left⟩ := items_toNat len
  have counter : i.toUInt32.toNat = i.toNat := by simp
  unfold readItems
  refine wp_ite (fun some => wp_ite (fun many => ?_) fun few => ?_) fun nothing => ?_
  · have from_ := words some
    have index : (i.toUInt32 + len / 4 * 4).toNat = i.toNat + 4 * (len.toNat / 4) := by
      rw [toNat_add_of_lt (by omega),items,counter]
    have positive := ne_zero_iff.mp many
    refine wp_words delivers from_.place from_.aligned (by omega) (words_bulk from_) fun rc good => ?_
    dsimp only
    rw [if_neg good,quotient]
    refine wp_mono (readRest_wp delivers now index (by omega) (by omega) (words_rest from_) good _ temp) ?_
    rintro r s' ⟨rfl,rfl⟩
    have split : len.toNat = 4 * (len.toNat / 4) + len.toNat % 4 := by omega
    rw [left,copy_append,← split]
    exact ⟨rfl,rfl⟩
  · have none := not_not.mp few
    rw [none,UInt32.toNat_zero] at quotient
    rw [none]
    refine readRest_wp delivers now (by simp) (by omega) (by omega) (fun more => ?_) fine dst temp
    rw [UInt32.zero_mul,UInt32.add_zero]
    exact words more
  · have none := not_not.mp nothing
    subst none
    exact readRest_wp delivers now (by simp) (by omega) (by decide) (fun more => absurd rfl more) fine dst temp

/-- A read that fits delivers the bytes of the device. -/
theorem read_wp [Bootutil] (on : OnWords area inside) {off len : UInt32} (fits : off.toNat + len.toNat ≤ area.fa_size.toNat)
    (dst : Buffer) :
    (flash_area_read area off dst len).Wp R J (Read M s dst 0 (area.fa_off.toNat + off.toNat) len.toNat) s := by
  have whole := on.size_aligned
  have bound := area.fa_size.toNat_lt
  have valid : is_range_valid area off len = true := range_valid fits
  unfold flash_area_read
  simp only [valid,Bool.not_true,Bool.false_eq_true,if_false,on.width]
  refine wp_ite (fun part => ?_) fun aligned => ?_
  · have head := words_head on fits (floor_part part)
    have one : (1 : UInt32).toNat = 1 := rfl
    refine wp_words delivers head.place head.aligned (by decide) (head.part _ _ (by omega) (by omega)) fun rc good => ?_
    dsimp only
    obtain ⟨taken,same,below,few,index,words⟩ := head_taken on fits
    rw [if_neg good,same,copyHead_eq _ _ _ (by omega)]
    have left : (len - taken).toNat = len.toNat - taken.toNat := toNat_sub_of_le few
    have copied : copy dst 0 (copy stackArray 0 M (area.fa_off.toNat + 4 * (off.toNat / 4)) (4 * (1 : UInt32).toNat))
        (off.toNat % 4) taken.toNat = copy dst 0 M (area.fa_off.toNat + off.toNat) taken.toNat := by
      refine copy_congr fun k inside => ?_
      simp only [copy]
      rw [one,if_pos (by omega)]
      congr 1
      omega
    have part := floor_part part
    refine wp_mono (readItems_wp delivers now (by omega) (by omega) words good _ _) ?_
    rintro r s' ⟨rfl,rfl⟩
    have joined := copy_append dst 0 M (area.fa_off.toNat + off.toNat) taken.toNat (len - taken).toNat
    have split : taken.toNat + (len - taken).toNat = len.toNat := by omega
    rw [Nat.zero_add,split] at joined
    rw [copied,index,joined]
    exact ⟨rfl,rfl⟩
  · have words := words_whole on fits (floor_whole (not_not.mp aligned))
    exact readItems_wp delivers now (by decide) (by simp; omega) words (by decide) dst _

end
end
end NuMicroBoot.DriverReads
