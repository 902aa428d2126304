import NuMicroBoot.WritePlans

/-!
What the flash map operations do to the content of the internal flash when no
controller step fails: a read copies bytes out, a write clears bits inside its
range only, an erase sets whole sectors.
-/

namespace NuMicroBoot.AreaRuns
open NuMicroBoot.Calls NuMicroBoot.Calls.Prog NuMicroBoot.Cells NuMicroBoot.Words NuMicroBoot.Driver
open NuMicroBoot.Nvmc NuMicroBoot.InternalDriver NuMicroBoot.FlashMap NuMicroBoot.AreaPlans NuMicroBoot.WritePlans

variable {bsp : Bsp}

/-! ### Reading -/

theorem run_plannedRead {addr : UInt32} {n shift len : Nat} (fits : addr.toNat + 4 * n ≤ 2 ^ 32)
    (enough : shift + len ≤ 4 * n) (dst : Buffer) (d : Nat) (M : Content) :
    (plannedRead addr n dst d shift len).run (machine bsp) M =
      some ((0,copy dst d M (addr.toNat + shift) len),M) := by
  rw [plannedRead,run_bind,run_issue (machine_succeeds bsp)]
  simp only [Option.bind_some,if_true,run_ret,after_wordReads]
  congr 3
  rw [delivered,events_wordReads_length,Nat.min_eq_left (by omega)]
  exact copy_congr fun k inside => by rw [heard_wordReads M fits _ (by omega),Nat.add_assoc]

theorem run_read [Bootutil] (a : InternalArea bsp) {off len : UInt32} (fits : off.toNat + len.toNat ≤ a.fa_size.toNat)
    (dst : Buffer) (M : Content) : (flash_area_read a.area off dst len).run (machine bsp) M =
      some ((0,copy dst 0 M (a.fa_off.toNat + off.toNat) len.toNat),M) := by
  have ends := area_ends a
  have whole := size_mod_eight a
  have bound := a.fa_size.toNat_lt
  rw [flash_area_read_eq a fits]
  by_cases nothing : (off.toNat % 4 + len.toNat + 3) / 4 = 0
  · have none : len.toNat = 0 := by omega
    rw [nothing,none]
    have part : off.toNat % 4 = 0 := by omega
    rw [part,plannedRead_zero]
    simp
  · have place : (a.fa_off + FLOOR_ALIGN off 4).toNat = a.fa_off.toNat + 4 * (off.toNat / 4) := by
      rw [toNat_add_of_lt (by rw [floor_align_four]; omega),floor_align_four]
    rw [run_plannedRead (by omega) (by omega),place]
    congr 4
    omega

theorem run_read_rejects [Bootutil] (a : InternalArea bsp) {off len : UInt32}
    (outside : ¬ off.toNat + len.toNat ≤ a.fa_size.toNat) (dst : Buffer) (M : Content) :
    (flash_area_read a.area off dst len).run (machine bsp) M = some ((-1,dst),M) := by
  rw [flash_area_read_rejects a outside]
  rfl

/-! ### Writing -/

theorem run_planned (cs : List Call) (M : Content) :
    (planned cs).run (machine bsp) M = some (0,after (machine bsp) cs M) := by
  rw [planned,run_bind,run_issue (machine_succeeds bsp)]
  rfl

/-- The bytes around the range that a write reads first. -/
structure Padding (a : InternalArea bsp) (off len : Nat) (M : Content) (add_padding len_padding : Buffer) : Prop where
  head : ∀ k < off % 8, add_padding k = M (a.fa_off.toNat + 8 * (off / 8) + k)
  tail : ∀ k, off % 8 + len + k < 8 * ((off % 8 + len + 7) / 8) →
    len_padding k = M (a.fa_off.toNat + off + len + k)

/-- With the padding as read, programming the first bytes of the units changes the range alone. -/
theorem combine_padding {a : InternalArea bsp} {off len n : Nat} {M : Content} {add_padding len_padding : Buffer}
    (padding : Padding a off len M add_padding len_padding) {data : Buffer} (part : n ≤ 8 * ((off % 8 + len + 7) / 8)) :
    combine (· &&& ·) M (a.fa_off.toNat + 8 * (off / 8)) (unitData off len data add_padding len_padding) n =
      combine (· &&& ·) M (a.fa_off.toNat + off) data (min len (n - off % 8)) := by
  have place : a.fa_off.toNat + 8 * (off / 8) + off % 8 = a.fa_off.toNat + off := by omega
  have same : ∀ k < n, k < off % 8 ∨ off % 8 + len ≤ k → unitData off len data add_padding len_padding k =
      M (a.fa_off.toNat + 8 * (off / 8) + k) := by
    intro k inside around
    rw [unitData]
    by_cases head : k < off % 8
    · rw [if_pos head]
      exact padding.head k head
    · rw [if_neg head,if_neg (by omega),padding.tail _ (by omega)]
      congr 1
      omega
  rw [combine_padded same,place]
  refine combine_congr fun k inside => ?_
  rw [unitData,if_neg (by omega),if_pos (by omega),Nat.add_sub_cancel_left]

/-- The two reads of a write give it the padding of the content they are made from. -/
theorem padding_read (a : InternalArea bsp) {off len : Nat} (M : Content) {n m : Nat} (head : n = off % 8)
    (tail : off % 8 + len + m = 8 * ((off % 8 + len + 7) / 8)) {p q : Nat}
    (at_ : p = a.fa_off.toNat + 8 * (off / 8)) (at' : 0 < m → q = a.fa_off.toNat + off + len) :
    Padding a off len M (copy stackArray 0 M p n) (copy stackArray 0 M q m) := by
  subst head at_
  refine ⟨fun k inside => ?_,fun k inside => ?_⟩
  · simp [copy,inside]
  · rw [← at' (by omega)]
    simp only [copy]
    rw [if_pos (by omega)]
    rfl

theorem reads_of_write [Bootutil] (a : InternalArea bsp) {off len : UInt32}
    (fits : off.toNat + len.toNat ≤ a.fa_size.toNat) (M : Content) : ∃ add_padding len_padding,
    Padding a off.toNat len.toNat M add_padding len_padding ∧
    (flash_area_read a.area (FLOOR_ALIGN off FLASH_PROGRAM_UNIT) stackArray (off - FLOOR_ALIGN off FLASH_PROGRAM_UNIT)).run
      (machine bsp) M = some ((0,add_padding),M) ∧
    (flash_area_read a.area (off + len) stackArray (tailSize off len)).run (machine bsp) M =
      some ((0,len_padding),M) := by
  have whole := size_mod_eight a
  have bound := a.fa_size.toNat_lt
  obtain ⟨head,total,tail⟩ : Sizes off len _ _ _ := sizes_of (by omega)
  have floor := floor_align_eight off
  have next : (off + len).toNat = off.toNat + len.toNat := toNat_add_of_lt (by omega)
  refine ⟨_,_,padding_read a M head (by omega) ?_ (fun _ => ?_),run_read a (by omega) _ _,run_read a (by omega) _ _⟩
  · rw [floor]
  · rw [next,Nat.add_assoc]

/-- A write that fits clears bits of the bytes of its range. -/
theorem run_write [Bootutil] (a : InternalArea bsp) {off len : UInt32} (fits : off.toNat + len.toNat ≤ a.fa_size.toNat)
    (src : Buffer) (M : Content) : (flash_area_write a.area off src len).run (machine bsp) M =
      some (0,combine (· &&& ·) M (a.fa_off.toNat + off.toNat) (written off.toNat len.toNat src) len.toNat) := by
  obtain ⟨add_padding,len_padding,padding,first,second⟩ := reads_of_write a fits M
  rw [flash_area_write_eq a fits,run_bind_of_eq first]
  simp only [ne_eq,not_true_eq_false,if_false]
  rw [run_bind_of_eq second]
  simp only [not_true_eq_false,if_false]
  rw [run_planned,after_covers (covers_write a fits src add_padding len_padding),combine_padding padding (Nat.le_refl _),
    Nat.min_eq_left (by omega)]

theorem run_write_rejects [Bootutil] (a : InternalArea bsp) {off len : UInt32}
    (outside : ¬ off.toNat + len.toNat ≤ a.fa_size.toNat) (src : Buffer) (M : Content) :
    (flash_area_write a.area off src len).run (machine bsp) M = some (-1,M) := by
  rw [flash_area_write_rejects a outside]
  rfl

/-! ### Erasing -/

theorem run_erase [Bootutil] (a : InternalArea bsp) {off len : UInt32} (fits : off.toNat + len.toNat ≤ a.fa_size.toNat)
    (aligned : off.toNat % bsp.FLASH_PAGE_SIZE.toNat = 0) (M : Content) :
    (flash_area_erase a.area off len).run (machine bsp) M = some (0,fill 0xFF M (a.fa_off.toNat + off.toNat)
      (bsp.FLASH_PAGE_SIZE.toNat * sectorsFor bsp.FLASH_PAGE_SIZE.toNat len.toNat)) := by
  have ends := area_ends a
  have inside := sectors_inside a aligned fits
  rw [flash_area_erase_eq a fits aligned,run_planned]
  by_cases nothing : sectorsFor bsp.FLASH_PAGE_SIZE.toNat len.toNat = 0
  · simp [nothing,sectorErases,after]
  · obtain ⟨place,start⟩ := sectors_place a aligned fits (Nat.pos_of_ne_zero nothing)
    rw [after_sectorErases a.sound.page.1 _ _ _ start (by rw [place]; omega),place]

theorem run_erase_rejects [Bootutil] (a : InternalArea bsp) {off len : UInt32}
    (outside : ¬ off.toNat + len.toNat ≤ a.fa_size.toNat) (M : Content) :
    (flash_area_erase a.area off len).run (machine bsp) M = some (-1,M) := by
  rw [flash_area_erase_rejects a outside]
  rfl

end NuMicroBoot.AreaRuns
