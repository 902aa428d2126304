import NuMicroBoot.AreaRuns

/-!
The emptiness check of the flash map on the internal flash: what each of its
results says about the bytes of the range, what an erase makes of it, and what a
write behind the erase does.
-/

namespace NuMicroBoot.Emptiness
open NuMicroBoot.Calls NuMicroBoot.Calls.Prog NuMicroBoot.Cells NuMicroBoot.Words NuMicroBoot.Driver NuMicroBoot.Nvmc
open NuMicroBoot.FlashMap NuMicroBoot.AreaPlans NuMicroBoot.WritePlans NuMicroBoot.AreaRuns

/-! ### The scan -/

section
variable {I : Interface} {fa : flash_area I} {u8dst : Buffer} {len : UInt32}

/-- The scan returns 1 when the bytes from `i` on are erased, and 0 at the first one that is not. -/
theorem emptyLoop_cases (rounds : Nat) : ∀ i : UInt32, i.toNat + rounds = len.toNat →
    emptyLoop fa u8dst len rounds i = 1 ∧ (∀ k, i.toNat ≤ k → k < len.toNat → u8dst k = flash_area_erased_val fa) ∨
    emptyLoop fa u8dst len rounds i = 0 ∧ ∃ k < len.toNat, u8dst k ≠ flash_area_erased_val fa := by
  have bound := len.toNat_lt
  induction rounds with
  | zero =>
    intro i left
    exact .inl ⟨rfl,fun k low high => by omega⟩
  | succ rounds ih =>
    intro i left
    have more : i < len := by
      rw [UInt32.lt_iff_toNat_lt]
      omega
    have one : (1 : UInt32).toNat = 1 := rfl
    have next : (i + 1).toNat = i.toNat + 1 := toNat_add_of_lt (by omega)
    unfold emptyLoop
    rw [if_pos more]
    by_cases same : u8dst i.toNat = flash_area_erased_val fa
    · rw [if_neg (not_not.mpr same)]
      rcases ih (i + 1) (by omega) with ⟨result,rest⟩ | found
      · refine .inl ⟨result,fun k low high => ?_⟩
        rcases Nat.eq_or_lt_of_le low with rfl | above
        · exact same
        · exact rest k (by omega) high
      · exact .inr found
    · rw [if_pos same]
      exact .inr ⟨rfl,i.toNat,by omega,same⟩

/-- The whole scan. -/
theorem emptyLoop_eq : emptyLoop fa u8dst len len.toNat 0 =
    if ∀ k < len.toNat, u8dst k = flash_area_erased_val fa then 1 else 0 := by
  rcases @emptyLoop_cases _ fa u8dst len len.toNat 0 (Nat.zero_add _) with ⟨result,all⟩ | ⟨result,k,inside,other⟩
  · exact result.trans (if_pos fun k inside => all k (Nat.zero_le k) inside).symm
  · exact result.trans (if_neg fun all => other (all k inside)).symm

end

variable {bsp : Bsp}

/-! ### The check -/

/-- Every byte of the range is what the driver tells for an erased one. -/
def Blank (a : InternalArea bsp) (off len : Nat) (M : Content) : Prop :=
  ∀ k < len, M (a.fa_off.toNat + off + k) = flash_area_erased_val a.area

/-- The value returned tells whether the range fits and whether it is blank, and a range that fits is in the buffer. -/
structure Decides (a : InternalArea bsp) (off len : Nat) (dst : Buffer) (M : Content) (rc : Int32) (dst' : Buffer) : Prop where
  rejected : rc = -1 ↔ a.fa_size.toNat < off + len
  empty : rc = 1 ↔ off + len ≤ a.fa_size.toNat ∧ Blank a off len M
  occupied : rc = 0 ↔ off + len ≤ a.fa_size.toNat ∧ ¬ Blank a off len M
  delivered : off + len ≤ a.fa_size.toNat → dst' = copy dst 0 M (a.fa_off.toNat + off) len

theorem erased_val_eq (a : InternalArea bsp) : flash_area_erased_val a.area = 0xFF := by
  obtain ⟨rom⟩ := a
  cases rom <;> rfl

theorem read_is_empty_decides [Bootutil] (a : InternalArea bsp) (off len : UInt32) (dst : Buffer) (M : Content) :
    ∃ rc dst', (flash_area_read_is_empty a.area off dst len).run (machine bsp) M = some ((rc,dst'),M) ∧
      Decides a off.toNat len.toNat dst M rc dst' := by
  unfold flash_area_read_is_empty
  by_cases fits : off.toNat + len.toNat ≤ a.fa_size.toNat
  · rw [run_bind_of_eq (run_read a fits dst M)]
    refine ⟨_,_,rfl,?_⟩
    have value : ∀ k < len.toNat, copy dst 0 M (a.fa_off.toNat + off.toNat) len.toNat k =
        M (a.fa_off.toNat + off.toNat + k) := by
      intro k inside
      rw [copy,if_pos (by omega),Nat.sub_zero]
    rcases @emptyLoop_cases _ a.area (copy dst 0 M (a.fa_off.toNat + off.toNat) len.toNat) len
      len.toNat 0 (Nat.zero_add _) with ⟨result,all⟩ | ⟨result,k,inside,other⟩
    · have blank : Blank a off.toNat len.toNat M := by
        intro k inside
        rw [← value k inside]
        exact all k (Nat.zero_le k) inside
      rw [result]
      refine ⟨by simp; omega,by simp [fits,blank],by simp [blank],fun _ => rfl⟩
    · have written : ¬ Blank a off.toNat len.toNat M := by
        intro blank
        rw [value k inside] at other
        exact other (blank k inside)
      rw [result]
      exact ⟨by simp; omega,by simp [written],by simp [fits,written],fun _ => rfl⟩
  · rw [run_bind_of_eq (run_read_rejects a fits dst M)]
    refine ⟨_,_,rfl,?_⟩
    exact ⟨by simp; omega,by simp [fits],by simp [fits],fun inside => absurd inside fits⟩

/-- The check returns `rc` on this content, whatever buffer it is given. -/
def Returns [Bootutil] (a : InternalArea bsp) (off len : UInt32) (M : Content) (rc : Int32) : Prop :=
  ∀ dst, ∃ dst', (flash_area_read_is_empty a.area off dst len).run (machine bsp) M = some ((rc,dst'),M)

theorem returns_one [Bootutil] {a : InternalArea bsp} {off len : UInt32} {M : Content}
    (fits : off.toNat + len.toNat ≤ a.fa_size.toNat) (blank : Blank a off.toNat len.toNat M) : Returns a off len M 1 := by
  intro dst
  obtain ⟨rc,dst',ran,decides⟩ := read_is_empty_decides a off len dst M
  obtain rfl := decides.empty.mpr ⟨fits,blank⟩
  exact ⟨dst',ran⟩

theorem returns_zero [Bootutil] {a : InternalArea bsp} {off len : UInt32} {M : Content}
    (fits : off.toNat + len.toNat ≤ a.fa_size.toNat) (written : ¬ Blank a off.toNat len.toNat M) : Returns a off len M 0 := by
  intro dst
  obtain ⟨rc,dst',ran,decides⟩ := read_is_empty_decides a off len dst M
  obtain rfl := decides.occupied.mpr ⟨fits,written⟩
  exact ⟨dst',ran⟩

/-! ### Erasing and writing -/

/-- An erase that returned 0 was for a range that fits, and left it blank. -/
theorem erase_blank [Bootutil] {a : InternalArea bsp} {o n : UInt32} {M M' : Content}
    (ran : (flash_area_erase a.area o n).run (machine bsp) M = some (0,M')) :
    o.toNat + n.toNat ≤ a.fa_size.toNat ∧ Blank a o.toNat n.toNat M' := by
  by_cases fits : o.toNat + n.toNat ≤ a.fa_size.toNat
  · refine ⟨fits,fun k inside => ?_⟩
    by_cases aligned : o.toNat % bsp.FLASH_PAGE_SIZE.toNat = 0
    · have enough := sectorsFor_enough n.toNat a.sound.page.1
      rw [run_erase a fits aligned] at ran
      cases ran
      rw [erased_val_eq,fill,if_pos (by omega)]
    · rw [flash_area_erase_misaligned a fits aligned,if_neg (ne_zero_iff.mpr (by omega))] at ran
      cases ran
  · rw [run_erase_rejects a fits] at ran
    cases ran

theorem blank_part {a : InternalArea bsp} {o n off len : Nat} {M : Content} (blank : Blank a o n M) (low : o ≤ off)
    (high : off + len ≤ o + n) : Blank a off len M := by
  intro k inside
  have whole := blank (off - o + k) (by omega)
  rw [← whole]
  congr 1
  omega

/-- A write that starts at a program unit leaves a byte that is not 0xFF where its source has one. -/
theorem write_blank [Bootutil] {a : InternalArea bsp} {off len w m : UInt32} {src : Buffer} {M : Content}
    (fits : off.toNat + len.toNat ≤ a.fa_size.toNat) (blank : Blank a off.toNat len.toNat M) (aligned : w.toNat % 8 = 0)
    (low : off.toNat ≤ w.toNat) (high : w.toNat + m.toNat ≤ off.toNat + len.toNat) (data : ∃ k < m.toNat, src k ≠ 0xFF) :
    ∃ M', (flash_area_write a.area w src m).run (machine bsp) M = some (0,M') ∧ ¬ Blank a off.toNat len.toNat M' := by
  obtain ⟨k,inside,other⟩ := data
  refine ⟨_,run_write a (by omega) src M,fun still => other ?_⟩
  have before := blank (w.toNat - off.toNat + k) (by omega)
  have after := still (w.toNat - off.toNat + k) (by omega)
  have place : a.fa_off.toNat + off.toNat + (w.toNat - off.toNat + k) = a.fa_off.toNat + w.toNat + k := by omega
  rw [place,erased_val_eq] at before after
  rw [combine,if_pos (by omega),before,erased_and,Nat.add_sub_cancel_left,written,if_neg (by simp [aligned])] at after
  exact after

/-- The check decides emptiness; an erase that returned 0 makes it answer 1 on each part of its range, until a write that
    starts at a program unit puts a byte there that is not 0xFF. -/
theorem emptiness_decided [Bootutil] (a : InternalArea bsp) :
    (∀ off len dst M, ∃ rc dst', (flash_area_read_is_empty a.area off dst len).run (machine bsp) M = some ((rc,dst'),M) ∧
      Decides a off.toNat len.toNat dst M rc dst') ∧
    ∀ o n M M', (flash_area_erase a.area o n).run (machine bsp) M = some (0,M') →
      ∀ off len, o.toNat ≤ off.toNat → off.toNat + len.toNat ≤ o.toNat + n.toNat → Returns a off len M' 1 ∧
        ∀ w src m, w.toNat % 8 = 0 → off.toNat ≤ w.toNat → w.toNat + m.toNat ≤ off.toNat + len.toNat →
          (∃ k < m.toNat, src k ≠ 0xFF) → ∃ M'', (flash_area_write a.area w src m).run (machine bsp) M' = some (0,M'') ∧
            Returns a off len M'' 0 := by
  refine ⟨read_is_empty_decides a,fun o n M M' ran off len low high => ?_⟩
  obtain ⟨fits,erased⟩ := erase_blank ran
  have inside : off.toNat + len.toNat ≤ a.fa_size.toNat := by omega
  have blank := blank_part erased low high
  refine ⟨returns_one inside blank,fun w src m aligned low' high' data => ?_⟩
  obtain ⟨M'',written,occupied⟩ := write_blank inside blank aligned low' high' data
  exact ⟨M'',written,returns_zero inside occupied⟩

/-- Two sectors of a slot are erased, and three bytes are written at the border between them. -/
theorem emptiness_decided_primary : ∃ M' M'',
    (@flash_area_erase _ bootutil primary.area 0 0x1000).run (machine board) (fun _ => 0) = some (0,M') ∧
    @Returns _ bootutil primary 0x7FD 0x10 M' 1 ∧
    (@flash_area_write _ bootutil primary.area 0x800 (fun _ => 5) 3).run (machine board) M' = some (0,M'') ∧
    @Returns _ bootutil primary 0x7FD 0x10 M'' 0 := by
  have ran := @run_erase _ bootutil primary 0 0x1000 (by decide) (by decide) fun _ => 0
  obtain ⟨blank,written⟩ := (@emptiness_decided _ bootutil primary).2 0 0x1000 _ _ ran 0x7FD 0x10 (by decide) (by decide)
  obtain ⟨M'',stored,occupied⟩ := written 0x800 (fun _ => 5) 3 (by decide) (by decide) (by decide) ⟨0,by decide,by decide⟩
  exact ⟨_,M'',ran,blank,stored,occupied⟩

end NuMicroBoot.Emptiness
