import NuMicroBoot.AreaRuns
import NuMicroBoot.Failure
import NuMicroBoot.Isolation

/-!
Power loss during a write or an erase of the internal flash: the whole call,
made again from the content it was interrupted at, leaves the content that an
uninterrupted call leaves.
-/

namespace NuMicroBoot.Restart
open NuMicroBoot.Calls NuMicroBoot.Calls.Prog NuMicroBoot.Cells NuMicroBoot.Words NuMicroBoot.Driver NuMicroBoot.Nvmc
open NuMicroBoot.InternalDriver NuMicroBoot.FlashMap NuMicroBoot.AreaPlans NuMicroBoot.WritePlans NuMicroBoot.AreaRuns

variable {bsp : Bsp}

/-! ### Steps that succeed or change nothing -/

/-- The controller that never fails is one of the ways it may behave. -/
theorem machine_clean {c : Call} {M M' : Content} {a : Answer c} (answered : (machine bsp).device c M a M') :
    Clean bsp c M a M' := by
  have same : machine bsp c M = (a,M') := answered
  have step : Clean bsp c M _ _ := .done c M
  rw [same] at step
  exact step

theorem exec_clean {α : Type} {p q : Prog interface α} {M S : Content} {t : List (Event interface)}
    (exec : Exec (machine bsp).device p M t q S) : Exec (Clean bsp) p M t q S :=
  have allows : ∀ c M a M', True → (machine bsp).device c M a M' → Clean bsp c M a M' := fun _ _ _ _ _ => machine_clean
  exec_mono allows exec fun _ _ => trivial

theorem clean_faulty {c : Call} {M M' : Content} {a : Answer c} (answered : Clean bsp c M a M') : Faulty bsp c M a M' := by
  cases answered with
  | done =>
    cases c with
    | NVT_NVMC_Read addr => exact .read _ _ _
    | NVT_NVMC_Program addr dword => exact .programDone _ _ _
    | NVT_NVMC_Erase addr => exact .eraseDone _ _
  | failed _ _ _ bad =>
    cases c with
    | NVT_NVMC_Read addr => exact .read _ _ _
    | NVT_NVMC_Program addr dword =>
      refine .programFailed _ _ _ _ _ ?_ (sameOutside_refl _ _ _)
      rintro rfl
      cases bad
    | NVT_NVMC_Erase addr =>
      refine .eraseFailed _ _ _ _ ?_ (sameOutside_refl _ _ _)
      rintro rfl
      cases bad

/-- A step that succeeds is the one of the controller that never fails. -/
theorem clean_machine {c : Call} {M M' : Content} {a : Answer c} (fine : succeeded c a = true)
    (answered : Clean bsp c M a M') : (machine bsp).device c M a M' := by
  cases answered with
  | done => rfl
  | failed _ _ _ bad =>
    rw [fine] at bad
    cases bad

/-! ### Interrupted runs -/

theorem exec_read [Bootutil] (a : InternalArea bsp) {off len : UInt32} {dst : Buffer} {M S : Content}
    {t : List (Event interface)} {q : Prog interface (Int32 × Buffer)}
    (exec : Exec (Clean bsp) (flash_area_read a.area off dst len) M t q S) : S = M := by
  refine exec_invariant (fun s => s = M) (fun c s b s' confined answered same => ?_)
    (Isolation.all_read a (fun _ => False) off dst len) exec rfl
  funext p
  rw [Isolation.confined_kept confined (clean_faulty answered) id,same]

theorem exec_planned {cs : List Call} {M S : Content} {t : List (Event interface)} {q : Prog interface Int32}
    (exec : Exec (Clean bsp) (planned cs) M t q S) : ∃ n, S = after (machine bsp) (cs.take n) M := by
  have moves : ∀ c M a M', Clean bsp c M a M' → succeeded c a = true → M' = (machine bsp c M).2 := by
    intro c M a M' answered fine
    have same : machine bsp c M = (a,M') := clean_machine fine answered
    rw [same]
  have stays : ∀ c M a M', Clean bsp c M a M' → succeeded c a = false → M' = M := by
    intro c M a M' answered bad
    cases answered with
    | done =>
      rw [machine_succeeds] at bad
      cases bad
    | failed => rfl
  rcases exec_bind exec with ⟨_,first,_⟩ | ⟨_,_,_,_,_,first,second⟩
  · exact exec_issue moves stays first
  · obtain ⟨_,_,rfl⟩ := exec_ret second
    exact exec_issue moves stays first

/-- A read that ends returns what it returns when no step fails, or an error. -/
theorem exec_read_done [Bootutil] (a : InternalArea bsp) {off len : UInt32} {dst dst' : Buffer} {M S : Content}
    {t : List (Event interface)} {r : Int32 × Buffer}
    (ran : (flash_area_read a.area off dst len).run (machine bsp) M = some ((0,dst'),M))
    (exec : Exec (Clean bsp) (flash_area_read a.area off dst len) M t (.ret r) S) : r = (0,dst') ∨ r.1 ≠ 0 := by
  have fast : Failure.FailFast Failure.Fine (a.rom.driver bsp) := Failure.failFast_internal a.rom
  rcases failStop_exec (Failure.failStop_read fast off dst len) exec with ⟨fine,_⟩ | ⟨_,_,_,_,_,r',same,failed⟩
  · have complete := (run_iff_exec _ _ _ _ _).mpr ⟨t,exec_mono (fun _ _ _ _ => clean_machine) exec fine⟩
    rw [ran] at complete
    cases complete
    exact .inl rfl
  · cases same
    refine .inr ?_
    rw [failed]
    decide

/-- Past a read, an execution goes on with what the read returns. -/
theorem exec_past_read [Bootutil] (a : InternalArea bsp) {off len : UInt32} {dst dst' : Buffer} {M S : Content}
    {f : Int32 × Buffer → Prog interface Int32} {t : List (Event interface)} {q : Prog interface Int32}
    (ran : (flash_area_read a.area off dst len).run (machine bsp) M = some ((0,dst'),M))
    (exec : Exec (Clean bsp) (flash_area_read a.area off dst len >>= fun r => if r.1 ≠ 0 then .ret (-1) else f r) M t q S) :
    S = M ∨ ∃ t', Exec (Clean bsp) (f (0,dst')) M t' q S := by
  rcases exec_bind exec with ⟨_,first,_⟩ | ⟨t₁,t₂,r,M₁,_,first,second⟩
  · exact .inl (exec_read a first)
  · have same := exec_read a first
    subst same
    rcases exec_read_done a ran first with rfl | failed
    · exact .inr ⟨t₂,second⟩
    · rw [if_pos failed] at second
      obtain ⟨_,_,rfl⟩ := exec_ret second
      exact .inl rfl

/-- A write has cleared the bits of a first part of its range when it is interrupted or stopped by a failure. -/
theorem exec_write [Bootutil] (a : InternalArea bsp) {off len : UInt32} (fits : off.toNat + len.toNat ≤ a.fa_size.toNat)
    {src : Buffer} {M S : Content} {t : List (Event interface)} {q : Prog interface Int32}
    (exec : Exec (Clean bsp) (flash_area_write a.area off src len) M t q S) :
    ∃ j ≤ len.toNat, S = combine (· &&& ·) M (a.fa_off.toNat + off.toNat) (written off.toNat len.toNat src) j := by
  have none : ∃ j ≤ len.toNat, M = combine (· &&& ·) M (a.fa_off.toNat + off.toNat) (written off.toNat len.toNat src) j :=
    ⟨0,Nat.zero_le _,by simp⟩
  obtain ⟨add_padding,len_padding,padding,first,second⟩ := reads_of_write a fits M
  rw [flash_area_write_eq a fits] at exec
  rcases exec_past_read a first exec with rfl | ⟨t₁,exec⟩
  · exact none
  rcases exec_past_read a second exec with rfl | ⟨t₂,exec⟩
  · exact none
  obtain ⟨n,rfl⟩ := exec_planned exec
  obtain ⟨j,part,covers⟩ := covers_take (covers_write a fits src add_padding len_padding) n
  rw [after_covers covers]
  refine ⟨min len.toNat (j - off.toNat % 8),Nat.min_le_left _ _,?_⟩
  exact combine_padding padding part

/-- An erase has set a first part of its sectors when it is interrupted or stopped by a failure. -/
theorem exec_erase [Bootutil] (a : InternalArea bsp) {off len : UInt32} (fits : off.toNat + len.toNat ≤ a.fa_size.toNat)
    (aligned : off.toNat % bsp.FLASH_PAGE_SIZE.toNat = 0) {M S : Content} {t : List (Event interface)}
    {q : Prog interface Int32} (exec : Exec (Clean bsp) (flash_area_erase a.area off len) M t q S) :
    ∃ j ≤ bsp.FLASH_PAGE_SIZE.toNat * sectorsFor bsp.FLASH_PAGE_SIZE.toNat len.toNat,
      S = fill 0xFF M (a.fa_off.toNat + off.toNat) j := by
  have ends := area_ends a
  have inside := sectors_inside a aligned fits
  rw [flash_area_erase_eq a fits aligned] at exec
  obtain ⟨n,rfl⟩ := exec_planned exec
  rw [sectorErases_take]
  generalize least : min n (sectorsFor bsp.FLASH_PAGE_SIZE.toNat len.toNat) = m
  have part : m ≤ sectorsFor bsp.FLASH_PAGE_SIZE.toNat len.toNat := by omega
  have size := Nat.mul_le_mul_left bsp.FLASH_PAGE_SIZE.toNat part
  by_cases nothing : m = 0
  · exact ⟨0,Nat.zero_le _,by simp [nothing,sectorErases,after]⟩
  · obtain ⟨place,start⟩ := sectors_place a aligned fits (by omega)
    refine ⟨bsp.FLASH_PAGE_SIZE.toNat * m,size,?_⟩
    rw [after_sectorErases a.sound.page.1 _ _ _ start (by rw [place]; omega),place]

/-! ### Restarting -/

/-- Wherever a write in range, or an erase from the start of a sector on, is interrupted: the same call made again
    returns what the uninterrupted call returns and leaves the same content. -/
theorem restart_safe [Bootutil] (a : InternalArea bsp) (off len : UInt32) (src : Buffer) (M S : Content)
    (t : List (Event interface)) (q : Prog interface Int32) :
    (off.toNat + len.toNat ≤ a.fa_size.toNat → Exec (machine bsp).device (flash_area_write a.area off src len) M t q S →
      ∃ done, (flash_area_write a.area off src len).run (machine bsp) M = some (0,done) ∧
        (flash_area_write a.area off src len).run (machine bsp) S = some (0,done)) ∧
    (off.toNat % bsp.FLASH_PAGE_SIZE.toNat = 0 → Exec (machine bsp).device (flash_area_erase a.area off len) M t q S →
      ∃ rc done, (off.toNat + len.toNat ≤ a.fa_size.toNat → rc = 0) ∧
        (flash_area_erase a.area off len).run (machine bsp) M = some (rc,done) ∧
        (flash_area_erase a.area off len).run (machine bsp) S = some (rc,done)) := by
  refine ⟨fun fits exec => ?_,fun aligned exec => ?_⟩
  · obtain ⟨j,part,rfl⟩ := exec_write a fits (exec_clean exec)
    refine ⟨_,run_write a fits src M,?_⟩
    rw [run_write a fits,combine_again _ _ _ part]
  · by_cases fits : off.toNat + len.toNat ≤ a.fa_size.toNat
    · obtain ⟨j,part,rfl⟩ := exec_erase a fits aligned (exec_clean exec)
      refine ⟨0,_,fun _ => rfl,run_erase a fits aligned M,?_⟩
      rw [run_erase a fits aligned,fill_again _ _ _ part]
    · rw [flash_area_erase_rejects a fits] at exec ⊢
      obtain ⟨_,_,rfl⟩ := exec_ret exec
      exact ⟨-1,_,fun inside => absurd inside fits,rfl,rfl⟩

/-- Interrupted after the first of two program units, and after the first of two sectors. -/
theorem restart_safe_halfway :
    (∃ done, (@flash_area_write _ bootutil primary.area 0 (fun _ => 5) 16).run (machine board) (fun _ => 0xFF) =
        some (0,done) ∧
      (@flash_area_write _ bootutil primary.area 0 (fun _ => 5) 16).run (machine board)
        (programmed board (fun _ => 0xFF) 0x20000 (loadBytes 0 (fun _ => 5) 0 8)) = some (0,done)) ∧
    ∃ rc done, ((0 : UInt32).toNat + (0x1000 : UInt32).toNat ≤ primary.fa_size.toNat → rc = 0) ∧
      (@flash_area_erase _ bootutil primary.area 0 0x1000).run (machine board) (fun _ => 0) = some (rc,done) ∧
      (@flash_area_erase _ bootutil primary.area 0 0x1000).run (machine board) (erased board (fun _ => 0) 0x20000) =
        some (rc,done) :=
  ⟨(@restart_safe _ bootutil primary 0 16 (fun _ => 5) _ _ _ _).1 (by decide) (.step rfl (.stop _ _)),
    (@restart_safe _ bootutil primary 0 0x1000 (fun _ => 5) _ _ _ _).2 (by decide) (.step rfl (.stop _ _))⟩

end NuMicroBoot.Restart
