import NuMicroBoot.Requests
import NuMicroBoot.WritePlans

/-!
Isolation of the areas of the internal flash: whatever requests are made, and
whichever controller steps fail, no byte changes outside the areas that writes
and erases name.
-/

namespace NuMicroBoot.Isolation
open NuMicroBoot.Calls NuMicroBoot.Calls.Prog NuMicroBoot.Cells NuMicroBoot.Words NuMicroBoot.Driver NuMicroBoot.Nvmc
open NuMicroBoot.InternalDriver NuMicroBoot.FlashMap NuMicroBoot.AreaPlans NuMicroBoot.WritePlans NuMicroBoot.Requests

variable {bsp : Bsp}

/-! ### One call -/

/-- The call may change bytes of the set only. -/
def Confined (bsp : Bsp) (S : Nat → Prop) : Call → Prop
  | .NVT_NVMC_Read _ => True
  | .NVT_NVMC_Program addr _ => ∀ p, addr.toNat ≤ p → p < addr.toNat + (NVT_NVMC_PROGRAM_UNIT bsp).toNat → S p
  | .NVT_NVMC_Erase addr => ∀ p, pageStart bsp addr ≤ p → p < pageStart bsp addr + bsp.FLASH_PAGE_SIZE.toNat → S p

theorem confined_mono {S T : Nat → Prop} (wider : ∀ p, S p → T p) {c : Call} (confined : Confined bsp S c) :
    Confined bsp T c := by
  cases c with
  | NVT_NVMC_Read => trivial
  | NVT_NVMC_Program => exact fun p low high => wider p (confined p low high)
  | NVT_NVMC_Erase => exact fun p low high => wider p (confined p low high)

/-- A confined call leaves the other bytes alone, also where it fails. -/
theorem confined_kept {S : Nat → Prop} {c : Call} {M M' : Content} {a : Answer c} (confined : Confined bsp S c)
    (answered : Faulty bsp c M a M') {p : Nat} (outside : ¬ S p) : M' p = M p := by
  cases answered with
  | read => rfl
  | programDone addr dword => exact combine_outside _ _ _ _ _ p fun inside => outside (confined p inside.1 inside.2)
  | programFailed addr dword _ _ s failed rest => exact rest p fun inside => outside (confined p inside.1 inside.2)
  | eraseDone addr => exact fill_outside _ _ _ _ p fun inside => outside (confined p inside.1 inside.2)
  | eraseFailed addr _ _ s failed rest => exact rest p fun inside => outside (confined p inside.1 inside.2)

/-! ### One request -/

theorem wordReads_confined (S : Nat → Prop) (addr : UInt32) (n : Nat) : ∀ c ∈ wordReads addr n, Confined bsp S c := by
  induction n generalizing addr with
  | zero => simp [wordReads]
  | succ n ih =>
    intro c member
    rcases List.mem_cons.mp member with rfl | member
    · trivial
    · exact ih _ c member

theorem all_read [Bootutil] (a : InternalArea bsp) (S : Nat → Prop) (off : UInt32) (dst : Buffer) (len : UInt32) :
    (flash_area_read a.area off dst len).All (Confined bsp S) fun _ => True := by
  by_cases fits : off.toNat + len.toNat ≤ a.fa_size.toNat
  · rw [flash_area_read_eq a fits]
    exact all_bind (issue_all (wordReads_confined S _ _)) fun _ _ => trivial
  · rw [flash_area_read_rejects a fits]
    trivial

theorem all_planned {S : Nat → Prop} {cs : List Call} (confined : ∀ c ∈ cs, Confined bsp S c) :
    (planned cs).All (Confined bsp S) fun _ => True :=
  all_bind (issue_all confined) fun _ _ => trivial

theorem covers_confined {S : Nat → Prop} {a n : Nat} {data : Nat → UInt8} {cs : List Call}
    (covers : Covers bsp a n data cs) (inside : ∀ p, a ≤ p → p < a + n → S p) : ∀ c ∈ cs, Confined bsp S c := by
  obtain ⟨programs,rfl⟩ := covers
  intro c member
  obtain ⟨addr,dword,rfl,low,high⟩ := programs_inside programs c member
  exact fun p above below => inside p (by omega) (by omega)

theorem all_write [Bootutil] (a : InternalArea bsp) (off : UInt32) (src : Buffer) (len : UInt32) :
    (flash_area_write a.area off src len).All (Confined bsp a.Holds) fun _ => True := by
  by_cases fits : off.toNat + len.toNat ≤ a.fa_size.toNat
  · have whole := size_mod_eight a
    rw [flash_area_write_eq a fits]
    refine all_bind (all_read a _ _ _ _) fun r _ => ?_
    by_cases failed : r.1 ≠ 0
    · rw [if_pos failed]
      trivial
    rw [if_neg failed]
    refine all_bind (all_read a _ _ _ _) fun r' _ => ?_
    by_cases failed' : r'.1 ≠ 0
    · rw [if_pos failed']
      trivial
    rw [if_neg failed']
    exact all_planned (covers_confined (covers_write a fits src r.2 r'.2) fun p low high => ⟨by omega,by omega⟩)
  · rw [flash_area_write_rejects a fits]
    trivial

theorem sectorErases_confined {S : Nat → Prop} (page : 0 < bsp.FLASH_PAGE_SIZE.toNat) (n : Nat) : ∀ (addr : UInt32),
    addr.toNat % bsp.FLASH_PAGE_SIZE.toNat = 0 → addr.toNat + bsp.FLASH_PAGE_SIZE.toNat * n ≤ 2 ^ 32 →
    (∀ p, addr.toNat ≤ p → p < addr.toNat + bsp.FLASH_PAGE_SIZE.toNat * n → S p) →
    ∀ c ∈ sectorErases bsp.FLASH_PAGE_SIZE addr n, Confined bsp S c := by
  induction n with
  | zero => simp [sectorErases]
  | succ n ih =>
    intro addr aligned fits inside c member
    rw [Nat.mul_succ] at fits inside
    rcases List.mem_cons.mp member with rfl | member
    · rw [Confined,pageStart_aligned aligned]
      exact fun p low high => inside p low (by omega)
    · cases n with
      | zero => cases member
      | succ n =>
        have some : 0 < bsp.FLASH_PAGE_SIZE.toNat * (n + 1) := Nat.mul_pos page (Nat.succ_pos n)
        have next : (addr + bsp.FLASH_PAGE_SIZE).toNat = addr.toNat + bsp.FLASH_PAGE_SIZE.toNat :=
          toNat_add_of_lt (by omega)
        exact ih _ (by rw [next,Nat.add_mod,aligned]; simp) (by omega) (fun p low high => inside p (by omega) (by omega))
          c member

theorem all_erase [Bootutil] (a : InternalArea bsp) (off len : UInt32) :
    (flash_area_erase a.area off len).All (Confined bsp a.Holds) fun _ => True := by
  have ends := area_ends a
  by_cases fits : off.toNat + len.toNat ≤ a.fa_size.toNat
  · by_cases aligned : off.toNat % bsp.FLASH_PAGE_SIZE.toNat = 0
    · have inside := sectors_inside a aligned fits
      rw [flash_area_erase_eq a fits aligned]
      by_cases nothing : sectorsFor bsp.FLASH_PAGE_SIZE.toNat len.toNat = 0
      · simp only [nothing,sectorErases]
        trivial
      · obtain ⟨place,start⟩ := sectors_place a aligned fits (Nat.pos_of_ne_zero nothing)
        exact all_planned (sectorErases_confined a.sound.page.1 _ _ start (by omega) fun p low high => ⟨by omega,by omega⟩)
    · rw [flash_area_erase_misaligned a fits aligned]
      trivial
  · rw [flash_area_erase_rejects a fits]
    trivial

theorem all_is_empty [Bootutil] (a : InternalArea bsp) (S : Nat → Prop) (off : UInt32) (dst : Buffer) (len : UInt32) :
    (flash_area_read_is_empty a.area off dst len).All (Confined bsp S) fun _ => True := by
  refine all_bind (all_read a S off dst len) fun r _ => ?_
  obtain ⟨rc,dst⟩ := r
  dsimp only
  by_cases failed : rc ≠ 0
  · rw [if_pos failed]
    trivial
  · rw [if_neg failed]
    trivial

/-- A request is confined to its area, and to nothing where it changes nothing. -/
theorem all_perform [Bootutil] (a : InternalArea bsp) (request : Request) :
    (perform a.area request).All (Confined bsp fun p => request.changes = true ∧ a.Holds p) fun _ => True := by
  cases request with
  | flash_area_read off dst len => exact all_bind (all_read a _ off dst len) fun _ _ => trivial
  | flash_area_write off src len =>
    refine all_bind (all_mono (all_write a off src len) (fun c => confined_mono fun p holds => ?_) fun _ => id)
      fun _ _ => trivial
    exact ⟨rfl,holds⟩
  | flash_area_erase off len =>
    refine all_bind (all_mono (all_erase a off len) (fun c => confined_mono fun p holds => ?_) fun _ => id)
      fun _ _ => trivial
    exact ⟨rfl,holds⟩
  | flash_area_read_is_empty off dst len => exact all_bind (all_is_empty a _ off dst len) fun _ _ => trivial

/-! ### Sessions -/

/-- The bytes of the areas that the writes and erases of a session name. -/
def Named (map : InternalMap bsp) (requests : List (Fin map.flash_map_entry_num × Request)) (p : Nat) : Prop :=
  ∃ r ∈ requests, r.2.changes = true ∧ (map.flash_map r.1).Holds p

theorem all_session [Bootutil] (map : InternalMap bsp) (requests : List (Fin map.flash_map_entry_num × Request)) :
    (session map.areas requests).All (Confined bsp (Named map requests)) fun _ => True := by
  induction requests with
  | nil => trivial
  | cons r rest ih =>
    refine all_bind (all_mono (all_perform (map.flash_map r.1) r.2) (fun c => confined_mono fun p named => ?_)
      fun _ => id) fun _ _ => ?_
    · exact ⟨r,by simp,named⟩
    · refine all_bind (all_mono ih (fun c => confined_mono fun p => ?_) fun _ => id) fun _ _ => trivial
      rintro ⟨s,member,named⟩
      exact ⟨s,by simp [member],named⟩

/-- At every point of every session, over every outcome of the controller steps, the bytes outside the areas named by
    writes and erases are as before; so is every area that no write or erase has named. -/
theorem session_isolated [Bootutil] (map : InternalMap bsp) (requests : List (Fin map.flash_map_entry_num × Request))
    {M M' : Content} {t : List (Event interface)} {q : Prog interface (List Reply)}
    (exec : Exec (Faulty bsp) (session map.areas requests) M t q M') :
    (∀ p, ¬ Named map requests p → M' p = M p) ∧
    ∀ i, (∀ r ∈ requests, r.2.changes = true → r.1 ≠ i) → ∀ p, (map.flash_map i).Holds p → M' p = M p := by
  have kept : ∀ p, ¬ Named map requests p → M' p = M p := fun p outside =>
    exec_invariant (fun s => s p = M p) (fun c s a s' confined answered same =>
      (confined_kept confined answered outside).trans same) (all_session map requests) exec rfl
  refine ⟨kept,fun i spared p holds => kept p ?_⟩
  rintro ⟨r,member,changes,holds'⟩
  exact holds_one map (spared r member changes) holds' holds

/-- One erase of the primary slot. -/
def eraseFirst : List (Fin slots.flash_map_entry_num × Request) := [(primaryIndex,.flash_area_erase 0 0x800)]

/-- The content after the erase has failed and left its sector full of sevens. -/
def sevens : Content := fill 7 (fun _ => 0) 0x20000 0x800

theorem session_isolated_slots :
    (∀ p, ¬ Named slots eraseFirst p → sevens p = 0) ∧
    ∀ i, (∀ r ∈ eraseFirst, r.2.changes = true → r.1 ≠ i) → ∀ p, (slots.flash_map i).Holds p → sevens p = 0 :=
  @session_isolated _ bootutil slots eraseFirst (fun _ => 0) _ _ _
    (.step (Faulty.eraseFailed 0x20000 (fun _ => 0) sevens NVT_NVMC_TIMEOUT (by decide) (fill_outside 7 _ _ _))
      (.stop _ _))

end NuMicroBoot.Isolation
