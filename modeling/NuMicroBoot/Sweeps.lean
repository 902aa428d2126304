import NuMicroBoot.AreaPlans

/-!
The erase loop of the flash map over any driver. The loop takes steps of the
sector size that the driver tells; every erase sets the aligned granule that
holds its address. Together the steps set one interval of whole granules.
-/

namespace NuMicroBoot.Sweeps
open NuMicroBoot.Calls NuMicroBoot.Calls.Prog NuMicroBoot.Cells NuMicroBoot.Words NuMicroBoot.Driver NuMicroBoot.FlashMap
open NuMicroBoot.AreaPlans

/-! ### Granules in order -/

section
variable {g step first last last' start d len : Nat} {M M₀ : Nat → UInt8}

theorem div_eq_of_between {n m : Nat} (low : g * m ≤ n) (high : n < g * m + g) : n / g = m :=
  Nat.div_eq_of_lt_le (Nat.mul_comm g m ▸ low) (by rw [Nat.mul_comm]; exact high)

/-- All granules from the one of an address to the one of another set. -/
def swept (g : Nat) (M : Nat → UInt8) (first last : Nat) : Nat → UInt8 :=
  fill 0xFF M (g * (first / g)) (g * (last / g) + g - g * (first / g))

/-- The next address is at most a granule ahead, so no granule is left out. -/
theorem swept_step (low : first ≤ last) (forward : last ≤ last') (near : last' ≤ last + g) (positive : 0 < g) :
    fill 0xFF (swept g M first last) (g * (last' / g)) g = swept g M first last' := by
  have one : g * (first / g) ≤ g * (last / g) := Nat.mul_le_mul_left g (Nat.div_le_div_right low)
  have two : g * (last / g) ≤ g * (last' / g) := Nat.mul_le_mul_left g (Nat.div_le_div_right forward)
  have three : last' / g ≤ last / g + 1 := Nat.add_div_right last positive ▸ Nat.div_le_div_right near
  have four : g * (last' / g) ≤ g * (last / g) + g := Nat.mul_le_mul_left g three
  have place : g * (last' / g) = g * (first / g) + (g * (last' / g) - g * (first / g)) := by omega
  rw [swept,swept,place,fill_extend _ _ _ (by omega) (by omega)]
  congr 1
  omega

/-- `d` bytes of the way are done. -/
def Progress (g step : Nat) (M₀ : Nat → UInt8) (start d : Nat) (M : Nat → UInt8) : Prop :=
  d = 0 ∧ M = M₀ ∨ ∃ last, start ≤ last ∧ last + step = start + d ∧ M = swept g M₀ start last

/-- The memory after a way of `len` bytes. -/
def afterErase (g step : Nat) (M : Nat → UInt8) (start len : Nat) : Nat → UInt8 :=
  if len = 0 then M else swept g M start (start + step * ((len - 1) / step))

theorem progress_step (positive : 0 < step) (small : step ≤ g) (progress : Progress g step M₀ start d M) :
    Progress g step M₀ start (d + step) (fill 0xFF M (g * ((start + d) / g)) g) := by
  refine .inr ⟨start + d,by omega,by omega,?_⟩
  rcases progress with ⟨rfl,rfl⟩ | ⟨last,low,place,rfl⟩
  · rw [swept,Nat.add_zero,Nat.add_sub_cancel_left]
  · exact swept_step low (by omega) (by omega) (by omega)

theorem progress_finish (positive : 0 < step) (whole : d % step = 0) (done : len ≤ d) (near : d < len + step)
    (progress : Progress g step M₀ start d M) : M = afterErase g step M₀ start len := by
  obtain ⟨n,rfl⟩ := Nat.dvd_of_mod_eq_zero whole
  rcases progress with ⟨none,rfl⟩ | ⟨last,low,place,rfl⟩
  · rw [afterErase,if_pos (by omega)]
  · have some : n ≠ 0 := by
      rintro rfl
      omega
    obtain ⟨n,rfl⟩ := Nat.exists_eq_succ_of_ne_zero some
    rw [Nat.mul_succ] at done near place
    have steps : (len - 1) / step = n := div_eq_of_between (by omega) (by omega)
    rw [afterErase,if_neg (by omega),steps]
    congr 1
    omega

/-- Where both ends are at a granule, just the way is set. -/
theorem afterErase_whole (positive : 0 < step) (small : step ≤ g) (start_whole : start % g = 0) (len_whole : len % g = 0) :
    afterErase g step M start len = fill 0xFF M start len := by
  obtain ⟨a,rfl⟩ := Nat.dvd_of_mod_eq_zero start_whole
  obtain ⟨b,rfl⟩ := Nat.dvd_of_mod_eq_zero len_whole
  have granule : 0 < g := by omega
  by_cases none : g * b = 0
  · rw [afterErase,if_pos none,none,fill_zero]
  · obtain ⟨b,rfl⟩ : ∃ c, b = c + 1 := Nat.exists_eq_succ_of_ne_zero fun zero => none (by rw [zero,Nat.mul_zero])
    have steps := Nat.div_add_mod (g * (b + 1) - 1) step
    have part := Nat.mod_lt (g * (b + 1) - 1) positive
    rw [Nat.mul_succ] at steps part
    have last : (g * a + step * ((g * (b + 1) - 1) / step)) / g = a + b := by
      rw [Nat.mul_succ]
      exact div_eq_of_between (by rw [Nat.mul_add]; omega) (by rw [Nat.mul_add]; omega)
    rw [afterErase,if_neg none,swept,last,Nat.mul_div_cancel_left a granule]
    congr 1
    rw [Nat.mul_add,Nat.mul_succ]
    omega

end

/-! ### What one erase sets -/

/-- In a ready state an erase at an accepted address sets the granule of the address alone and succeeds. Where waiting
    may be given up, `late`, it may fail instead. -/
structure Erases {I : Interface} {σ : Type} (R : Device I σ) (driver : ARM_DRIVER_FLASH I) (memory : σ → Nat → UInt8)
    (Ready : σ → Prop) (granule : Nat) (late : Prop) (Accepted : Nat → Prop) : Prop where
  sector_info : driver.GetInfo.sector_info = none
  positive : 0 < driver.GetInfo.sector_size.toNat
  small : driver.GetInfo.sector_size.toNat ≤ granule
  EraseSector : ∀ (s : σ) (addr : UInt32), Ready s → Accepted addr.toNat → (driver.EraseSector addr).Wp R (fun _ => True)
    (fun rc s' => rc = 0 ∧ Ready s' ∧ memory s' = fill 0xFF (memory s) (granule * (addr.toNat / granule)) granule ∨
      late ∧ rc ≠ 0) s

section
variable {I J : Interface} {σ τ : Type} {R : Device I σ} {R' : Device J τ} {granule : Nat} {late : Prop}
  {Accepted : Nat → Prop}

theorem erases_in_time {driver : ARM_DRIVER_FLASH I} {memory : σ → Nat → UInt8} {Ready : σ → Prop}
    (erases : Erases R driver memory Ready granule late Accepted) (inTime : ¬ late) :
    Erases R driver memory Ready granule False Accepted where
  sector_info := erases.sector_info
  positive := erases.positive
  small := erases.small
  EraseSector s addr ready accepted :=
    wp_mono (erases.EraseSector s addr ready accepted) fun _ _ after => after.imp_right (And.imp_left inTime)

theorem erases_left {driver : ARM_DRIVER_FLASH I} {memory : σ → Nat → UInt8} {Ready : σ → Prop}
    (erases : Erases R driver memory Ready granule late Accepted) : Erases (R.both R') (driver.translate left)
      (fun s => memory s.1) (fun s => Ready s.1) granule late Accepted where
  sector_info := erases.sector_info
  positive := erases.positive
  small := erases.small
  EraseSector s addr ready accepted :=
    wp_mono (wp_left (erases.EraseSector s.1 addr ready accepted)) fun _ _ after => after.1

theorem erases_right {driver : ARM_DRIVER_FLASH J} {memory : τ → Nat → UInt8} {Ready : τ → Prop}
    (erases : Erases R' driver memory Ready granule late Accepted) : Erases (R.both R') (driver.translate right)
      (fun s => memory s.2) (fun s => Ready s.2) granule late Accepted where
  sector_info := erases.sector_info
  positive := erases.positive
  small := erases.small
  EraseSector s addr ready accepted :=
    wp_mono (wp_right (erases.EraseSector s.2 addr ready accepted)) fun _ _ after => after.1

end

/-! ### The loop -/

section
variable {I : Interface} {σ : Type} {R : Device I σ} {memory : σ → Nat → UInt8} {Ready : σ → Prop} {granule : Nat}
  {late : Prop} {Accepted : Nat → Prop} {area : flash_area I}

/-- Every step of the loop is accepted, and its offset does not wrap. -/
def Steps (area : flash_area I) (Accepted : Nat → Prop) (off len : Nat) : Prop :=
  ∀ d, d % area.fa_driver.GetInfo.sector_size.toNat = 0 → d < len →
    off + d + area.fa_driver.GetInfo.sector_size.toNat < 2 ^ 32 ∧ Accepted (area.fa_off.toNat + off + d)

theorem eraseLoop_wp (erases : Erases R area.fa_driver memory Ready granule late Accepted) {o : Nat} {len : UInt32}
    (steps : Steps area Accepted o len.toNat) (ends : area.fa_off.toNat + o + len.toNat ≤ 2 ^ 32) (M₀ : Nat → UInt8)
    (rounds : Nat) : ∀ (off deleted : UInt32) (s : σ), len.toNat - deleted.toNat < rounds →
    deleted.toNat % area.fa_driver.GetInfo.sector_size.toNat = 0 →
    deleted.toNat < len.toNat + area.fa_driver.GetInfo.sector_size.toNat → off.toNat = o + deleted.toNat → Ready s →
    Progress granule area.fa_driver.GetInfo.sector_size.toNat M₀ (area.fa_off.toNat + o) deleted.toNat (memory s) →
    (eraseLoop area len rounds off deleted).Wp R (fun _ => True) (fun rc s' => rc = 0 ∧ Ready s' ∧
      memory s' = afterErase granule area.fa_driver.GetInfo.sector_size.toNat M₀ (area.fa_off.toNat + o) len.toNat ∨
      late ∧ rc ≠ 0) s := by
  have positive := erases.positive
  induction rounds with
  | zero => intro off deleted s enough; omega
  | succ rounds ih =>
    intro off deleted s enough whole near place ready progress
    refine wp_ite (fun more => ?_) fun finished => ⟨trivial,.inl ⟨rfl,ready,?_⟩⟩
    · have less := UInt32.lt_iff_toNat_lt.mp more
      obtain ⟨room,accepted⟩ := steps _ whole less
      have address : (area.fa_off + off).toNat = area.fa_off.toNat + o + deleted.toNat := by
        rw [toNat_add_of_lt (by omega),place,Nat.add_assoc]
      have next : (deleted + area.fa_driver.GetInfo.sector_size).toNat =
          deleted.toNat + area.fa_driver.GetInfo.sector_size.toNat := toNat_add_of_lt (by omega)
      have next' : (off + area.fa_driver.GetInfo.sector_size).toNat =
          off.toNat + area.fa_driver.GetInfo.sector_size.toNat := toNat_add_of_lt (by omega)
      rw [← address] at accepted
      refine wp_bind (erases.EraseSector s _ ready accepted) fun rc s' _ erased => ?_
      rcases erased with ⟨rfl,ready',memory'⟩ | ⟨isLate,failed⟩
      · rw [if_neg (by decide)]
        refine ih _ _ s' (by omega) (by rw [next,Nat.add_mod_right]; exact whole) (by omega) (by omega) ready' ?_
        rw [next,memory',address]
        exact progress_step positive erases.small progress
      · rw [if_pos failed]
        exact ⟨trivial,.inr ⟨isLate,failed⟩⟩
    · have done : len.toNat ≤ deleted.toNat := by
        rw [UInt32.lt_iff_toNat_lt] at finished
        omega
      exact progress_finish positive whole done near progress

/-- An erase that fits sets the granules on its way, and fails only if waiting is given up. -/
theorem area_erase_wp [Bootutil] (erases : Erases R area.fa_driver memory Ready granule late Accepted) {off len : UInt32}
    (fits : off.toNat + len.toNat ≤ area.fa_size.toNat) (ends : area.fa_off.toNat + area.fa_size.toNat ≤ 2 ^ 32)
    (steps : Steps area Accepted off.toNat len.toNat) {s : σ} (ready : Ready s) :
    (flash_area_erase area off len).Wp R (fun _ => True) (fun rc s' => rc = 0 ∧ Ready s' ∧
      memory s' = afterErase granule area.fa_driver.GetInfo.sector_size.toNat (memory s)
        (area.fa_off.toNat + off.toNat) len.toNat ∨ late ∧ rc ≠ 0) s := by
  have valid : is_range_valid area off len = true := range_valid fits
  simp only [flash_area_erase,valid,erases.sector_info,Bool.not_true,Bool.false_eq_true,if_false,Option.isNone_none,if_true]
  exact eraseLoop_wp erases steps (by omega) (memory s) _ off 0 s (Nat.lt_succ_self _) (Nat.zero_mod _)
    (Nat.add_pos_right _ erases.positive) rfl ready (.inl ⟨rfl,rfl⟩)

end
end NuMicroBoot.Sweeps
