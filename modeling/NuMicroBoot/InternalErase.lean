import NuMicroBoot.AreaPlans

/-!
Erasing on the internal flash when any step may fail: the sectors of the range
are erased in ascending order, each once, up to the first failure.
-/

namespace NuMicroBoot.InternalErase
open NuMicroBoot.Calls NuMicroBoot.Calls.Prog NuMicroBoot.Cells NuMicroBoot.Words NuMicroBoot.Driver NuMicroBoot.Nvmc
open NuMicroBoot.InternalDriver NuMicroBoot.FlashMap NuMicroBoot.AreaPlans

variable {bsp : Bsp}

/-! ### The sectors one after the other -/

/-- The steps of a trace erase the sectors from `start` on in ascending order, at most `n` of them: all when none
    fails, otherwise those before the first that fails, which may leave anything in its own sector. -/
structure InOrder (bsp : Bsp) (start n : Nat) (M M' : Content) (t : List (Event interface)) (done : Bool) : Prop where
  ascending : ∀ i e, t[i]? = some e → ∃ addr : UInt32, e.call = .NVT_NVMC_Erase addr ∧
    addr.toNat = start + bsp.FLASH_PAGE_SIZE.toNat * i
  few : t.length ≤ n
  completed : (∀ e ∈ t, succeeded e.call e.answer = true) → done = true ∧ t.length = n ∧
    M' = fill 0xFF M start (bsp.FLASH_PAGE_SIZE.toNat * n)
  stopped : ∀ k e, t[k]? = some e → succeeded e.call e.answer = false → done = false ∧ t.length = k + 1 ∧
    SameOutside (start + bsp.FLASH_PAGE_SIZE.toNat * k) bsp.FLASH_PAGE_SIZE.toNat
      (fill 0xFF M start (bsp.FLASH_PAGE_SIZE.toNat * k)) M'

theorem inOrder_nil (start : Nat) (M : Content) : InOrder bsp start 0 M M [] true := by
  constructor
  · intro i e at_
    simp at at_
  · simp
  · intro _
    simp
  · intro k e at_
    simp at at_

/-- A sector erased before the others. -/
theorem inOrder_cons {addr : UInt32} {n : Nat} {M M' : Content} {t : List (Event interface)} {done : Bool}
    (rest : InOrder bsp (addr.toNat + bsp.FLASH_PAGE_SIZE.toNat) n (fill 0xFF M addr.toNat bsp.FLASH_PAGE_SIZE.toNat)
      M' t done) :
    InOrder bsp addr.toNat (n + 1) M M' (⟨.NVT_NVMC_Erase addr,NVT_NVMC_OK⟩ :: t) done := by
  have shape : ∀ k, bsp.FLASH_PAGE_SIZE.toNat * (k + 1) = bsp.FLASH_PAGE_SIZE.toNat + bsp.FLASH_PAGE_SIZE.toNat * k :=
    fun k => by rw [Nat.mul_succ,Nat.add_comm]
  constructor
  · intro i e at_
    cases i with
    | zero =>
      cases at_
      exact ⟨addr,rfl,by simp⟩
    | succ i =>
      obtain ⟨addr',same,place⟩ := rest.ascending i e (by simpa using at_)
      exact ⟨addr',same,by rw [place,shape]; omega⟩
  · simpa using rest.few
  · intro fine
    obtain ⟨all,count,content⟩ := rest.completed fun e member => fine e (by simp [member])
    refine ⟨all,by simp [count],?_⟩
    rw [content,fill_append,shape]
  · intro k e at_ failed
    cases k with
    | zero =>
      cases at_
      cases failed
    | succ k =>
      obtain ⟨stop,count,same⟩ := rest.stopped k e (by simpa using at_) failed
      rw [fill_append,Nat.add_assoc,← shape] at same
      exact ⟨stop,by simp [count],same⟩

/-- The first sector fails. -/
theorem inOrder_failed {addr : UInt32} {n : Nat} {M M' : Content} {s : Int32} (failed : s ≠ NVT_NVMC_OK)
    (rest : SameOutside addr.toNat bsp.FLASH_PAGE_SIZE.toNat M M') :
    InOrder bsp addr.toNat (n + 1) M M' [⟨.NVT_NVMC_Erase addr,s⟩] false := by
  have bad : succeeded (.NVT_NVMC_Erase addr) s = false := by simp [succeeded_erase,failed]
  constructor
  · intro i e at_
    cases i with
    | zero =>
      cases at_
      exact ⟨addr,rfl,by simp⟩
    | succ i => simp at at_
  · simp
  · intro fine
    have good := fine _ List.mem_cons_self
    rw [bad] at good
    cases good
  · intro k e at_ _
    cases k with
    | zero => exact ⟨rfl,rfl,by simpa using rest⟩
    | succ k => simp at at_

theorem exec_sectorErases (page : 0 < bsp.FLASH_PAGE_SIZE.toNat) (n : Nat) :
    ∀ (addr : UInt32) (M M' : Content) (t : List (Event interface)) (r : List (Event interface) × Bool),
    addr.toNat % bsp.FLASH_PAGE_SIZE.toNat = 0 → addr.toNat + bsp.FLASH_PAGE_SIZE.toNat * n ≤ 2 ^ 32 →
    Exec (Faulty bsp) (issue succeeded (sectorErases bsp.FLASH_PAGE_SIZE addr n)) M t (.ret r) M' →
    InOrder bsp addr.toNat n M M' t r.2 := by
  induction n with
  | zero =>
    intro addr M M' t r _ _ exec
    obtain ⟨rfl,same,rfl⟩ := exec_ret exec
    cases same
    exact inOrder_nil _ _
  | succ n ih =>
    intro addr M M' t r aligned fits exec
    rw [Nat.mul_succ] at fits
    cases exec with
    | @step _ _ _ s₁ _ a t _ answered rest =>
    cases answered with
    | eraseDone =>
      have good : succeeded (.NVT_NVMC_Erase addr) NVT_NVMC_OK = true := by simp [succeeded_erase]
      dsimp only at rest
      rw [if_pos good] at rest
      obtain ⟨t₁,t₂,r',s₂,rfl,first,second⟩ := exec_bind_done rest
      obtain ⟨rfl,same,rfl⟩ := exec_ret second
      cases same
      rw [List.append_nil]
      refine inOrder_cons ?_
      rw [erased,pageStart_aligned aligned] at first
      -- behind the last sector there may be no address left
      cases n with
      | zero =>
        obtain ⟨rfl,same,rfl⟩ := exec_ret first
        cases same
        exact inOrder_nil _ _
      | succ n =>
        rw [Nat.mul_succ] at fits
        have next : (addr + bsp.FLASH_PAGE_SIZE).toNat = addr.toNat + bsp.FLASH_PAGE_SIZE.toNat :=
          toNat_add_of_lt (by omega)
        rw [← next]
        refine ih _ _ _ _ r' ?_ ?_ first
        · rw [next,Nat.add_mod,aligned]
          simp
        · rw [next,Nat.mul_succ]
          omega
    | eraseFailed _ _ _ _ failed same =>
      have bad : ¬ succeeded (.NVT_NVMC_Erase addr) a = true := by simp [succeeded_erase,failed]
      dsimp only at rest
      rw [if_neg bad] at rest
      obtain ⟨rfl,returned,rfl⟩ := exec_ret rest
      cases returned
      rw [pageStart_aligned aligned] at same
      exact inOrder_failed failed same

/-! ### Whole erases -/

/-- `n` rounded up to whole sectors. -/
def ceilS (S n : Nat) : Nat := S * sectorsFor S n

theorem ceilS_add {S off : Nat} (len : Nat) (positive : 0 < S) (aligned : off % S = 0) :
    ceilS S (off + len) = off + S * sectorsFor S len := by
  have split := Nat.div_add_mod off S
  have shape : off + len + S - 1 = len + S - 1 + S * (off / S) := by omega
  rw [ceilS,sectorsFor,shape,Nat.add_mul_div_left _ _ positive,Nat.mul_add]
  unfold sectorsFor
  omega

/-- What an erase of whole sectors does and returns, by the answers of its steps. -/
structure Ordered (a : InternalArea bsp) (off len : Nat) (M M' : Content) (t : List (Event interface)) (rc : Int32) :
    Prop where
  inside : ceilS bsp.FLASH_PAGE_SIZE.toNat (off + len) ≤ a.fa_size.toNat
  ascending : ∀ i e, t[i]? = some e → ∃ addr : UInt32, e.call = .NVT_NVMC_Erase addr ∧
    addr.toNat = a.fa_off.toNat + off + bsp.FLASH_PAGE_SIZE.toNat * i
  few : off + bsp.FLASH_PAGE_SIZE.toNat * t.length ≤ ceilS bsp.FLASH_PAGE_SIZE.toNat (off + len)
  completed : (∀ e ∈ t, succeeded e.call e.answer = true) → rc = 0 ∧
    off + bsp.FLASH_PAGE_SIZE.toNat * t.length = ceilS bsp.FLASH_PAGE_SIZE.toNat (off + len) ∧
    M' = fill 0xFF M (a.fa_off.toNat + off) (ceilS bsp.FLASH_PAGE_SIZE.toNat (off + len) - off)
  stopped : ∀ k e, t[k]? = some e → succeeded e.call e.answer = false → rc ≠ 0 ∧ t.length = k + 1 ∧
    SameOutside (a.fa_off.toNat + off + bsp.FLASH_PAGE_SIZE.toNat * k) bsp.FLASH_PAGE_SIZE.toNat
      (fill 0xFF M (a.fa_off.toNat + off) (bsp.FLASH_PAGE_SIZE.toNat * k)) M'

theorem ordered_inOrder (a : InternalArea bsp) {off len : Nat} (fits : off + len ≤ a.fa_size.toNat)
    (aligned : off % bsp.FLASH_PAGE_SIZE.toNat = 0) {M M' : Content} {t : List (Event interface)} {done : Bool}
    (ordered : InOrder bsp (a.fa_off.toNat + off) (sectorsFor bsp.FLASH_PAGE_SIZE.toNat len) M M' t done) :
    Ordered a off len M M' t (if done then 0 else -1) := by
  have ceil := ceilS_add len a.sound.page.1 aligned
  constructor
  · rw [ceil]
    exact sectors_inside a aligned fits
  · exact ordered.ascending
  · rw [ceil]
    exact Nat.add_le_add_left (Nat.mul_le_mul_left _ ordered.few) off
  · intro fine
    obtain ⟨all,count,content⟩ := ordered.completed fine
    refine ⟨if_pos all,by rw [ceil,count],?_⟩
    rw [ceil,Nat.add_sub_cancel_left,content]
  · intro k e at_ failed
    obtain ⟨stop,count,same⟩ := ordered.stopped k e at_ failed
    refine ⟨?_,count,same⟩
    rw [stop]
    decide

theorem erase_terminates [Bootutil] (a : InternalArea bsp) (off len : UInt32) :
    (flash_area_erase a.area off len).All (fun _ => True) fun _ => True := by
  by_cases fits : off.toNat + len.toNat ≤ a.fa_size.toNat
  · by_cases aligned : off.toNat % bsp.FLASH_PAGE_SIZE.toNat = 0
    · rw [flash_area_erase_eq a fits aligned]
      exact all_bind (issue_terminates _) fun _ _ => trivial
    · rw [flash_area_erase_misaligned a fits aligned]
      trivial
  · rw [flash_area_erase_rejects a fits]
    trivial

/-- An erase that starts at a sector of the area. -/
theorem erase_ordered [Bootutil] (a : InternalArea bsp) {off len : UInt32} {M M' : Content}
    {t : List (Event interface)} {rc : Int32} (fits : off.toNat + len.toNat ≤ a.fa_size.toNat)
    (aligned : off.toNat % bsp.FLASH_PAGE_SIZE.toNat = 0)
    (exec : Exec (Faulty bsp) (flash_area_erase a.area off len) M t (.ret rc) M') :
    Ordered a off.toNat len.toNat M M' t rc := by
  have ends := area_ends a
  have page := a.sound.page.1
  have inside := sectors_inside a aligned fits
  rw [flash_area_erase_eq a fits aligned] at exec
  obtain ⟨t₁,t₂,r,s₁,rfl,first,second⟩ := exec_bind_done exec
  obtain ⟨rfl,returned,rfl⟩ := exec_ret second
  cases returned
  rw [List.append_nil]
  refine ordered_inOrder a fits aligned ?_
  by_cases nothing : sectorsFor bsp.FLASH_PAGE_SIZE.toNat len.toNat = 0
  · rw [nothing] at first ⊢
    obtain ⟨rfl,same,rfl⟩ := exec_ret first
    cases same
    exact inOrder_nil _ _
  · obtain ⟨place,start⟩ := sectors_place a aligned fits (Nat.pos_of_ne_zero nothing)
    rw [← place]
    exact exec_sectorErases page _ _ _ _ _ _ start (by omega) first

/-- Over every pattern of failing erase steps a call terminates. It is refused without any step where the range
    leaves the area or starts inside a sector, it does nothing where no bytes are asked for, and otherwise erases the
    sectors of the range in order. -/
theorem erase_exact [Bootutil] (a : InternalArea bsp) (off len : UInt32) (M : Content) :
    (flash_area_erase a.area off len).All (fun _ => True) (fun _ => True) ∧
    ∀ (t : List (Event interface)) (rc : Int32) (M' : Content),
      Exec (Faulty bsp) (flash_area_erase a.area off len) M t (.ret rc) M' →
      (a.fa_size.toNat < off.toNat + len.toNat ∨ 0 < len.toNat ∧ off.toNat % bsp.FLASH_PAGE_SIZE.toNat ≠ 0 →
        rc ≠ 0 ∧ t = [] ∧ M' = M) ∧
      (len = 0 → off.toNat ≤ a.fa_size.toNat → rc = 0 ∧ t = [] ∧ M' = M) ∧
      (off.toNat + len.toNat ≤ a.fa_size.toNat → off.toNat % bsp.FLASH_PAGE_SIZE.toNat = 0 →
        Ordered a off.toNat len.toNat M M' t rc) := by
  refine ⟨erase_terminates a off len,fun t rc M' exec => ⟨fun refused => ?_,fun none below => ?_,fun fits aligned =>
    erase_ordered a fits aligned exec⟩⟩
  · by_cases fits : off.toNat + len.toNat ≤ a.fa_size.toNat
    · obtain ⟨some,misaligned⟩ := refused.resolve_left (by omega)
      rw [flash_area_erase_misaligned a fits misaligned,if_neg (ne_zero_iff.mpr (by omega))] at exec
      obtain ⟨rfl,returned,rfl⟩ := exec_ret exec
      cases returned
      exact ⟨by decide,rfl,rfl⟩
    · rw [flash_area_erase_rejects a fits] at exec
      obtain ⟨rfl,returned,rfl⟩ := exec_ret exec
      cases returned
      exact ⟨by decide,rfl,rfl⟩
  · subst none
    have nothing : flash_area_erase a.area off 0 = .ret 0 := by
      simp [flash_area_erase,is_range_valid_eq,area_sector_info,eraseLoop]
      exact below
    rw [nothing] at exec
    obtain ⟨rfl,returned,rfl⟩ := exec_ret exec
    cases returned
    exact ⟨rfl,rfl,rfl⟩

/-- An erase of two sectors whose second step runs into a timeout and leaves its sector as it was. -/
theorem erase_exact_second :
    Ordered primary 0 0x1000 (fun _ => 0) (erased board (fun _ => 0) 0x20000)
      [⟨.NVT_NVMC_Erase 0x20000,NVT_NVMC_OK⟩,⟨.NVT_NVMC_Erase 0x20800,NVT_NVMC_TIMEOUT⟩] (-1) :=
  ((@erase_exact _ bootutil primary 0 0x1000 fun _ => 0).2 _ _ _
    (.step (.eraseDone 0x20000 _) (.step (.eraseFailed 0x20800 _ _ _ (by decide) (sameOutside_refl _ _ _))
      (.stop _ _)))).2.2 (by decide) (by decide)

end NuMicroBoot.InternalErase
