import NuMicroBoot.ExternalBounds

/-!
Reading the external flash in chunks, over any device whose read function
delivers the bytes it is asked for.
-/

namespace NuMicroBoot.ExternalReads
open NuMicroBoot.Calls NuMicroBoot.Calls.Prog NuMicroBoot.Cells NuMicroBoot.Words NuMicroBoot.Driver
open NuMicroBoot.ExternalDriver NuMicroBoot.ExternalBounds

section
variable {σ : Type} {R : Device interface σ} {J : σ → Prop} {s : σ} {M : Nat → UInt8} {limit : Nat}

/-- In this state the read function delivers the bytes of `M` below the limit and changes nothing. -/
structure Serves (R : Device interface σ) (J : σ → Prop) (s : σ) (M : Nat → UInt8) (limit : Nat) : Prop where
  now : J s
  read : ∀ addr len a s', addr.toNat + len.toNat ≤ limit → R (.NVT_Read addr len) s a s' →
    a.1 = 0 ∧ (∀ k < len.toNat, a.2 k = M (addr.toNat + k)) ∧ s' = s

/-- The driver has returned OK with the bytes from `a` on at `p`, and nothing has changed. -/
abbrev Served (M : Nat → UInt8) (s : σ) (data : Buffer) (p a n : Nat) (r : Int32 × Buffer) (s' : σ) : Prop :=
  r = (ARM_DRIVER_OK,copy data p M a n) ∧ s' = s

theorem wp_served (serves : Serves R J s M limit) {α : Type} {Q : α → σ → Prop} {addr len : UInt32}
    (inside : addr.toNat + len.toNat ≤ limit) {next : Int32 × Buffer → Prog interface α}
    (rest : ∀ bytes, (∀ k < len.toNat, bytes k = M (addr.toNat + k)) → (next (0,bytes)).Wp R J Q s) :
    (NVT_Read addr len >>= next).Wp R J Q s := by
  refine ⟨serves.now,fun a s' answered => ?_⟩
  obtain ⟨status,bytes⟩ := a
  obtain ⟨fine,delivered,rfl⟩ := serves.read addr len _ s' inside answered
  dsimp only at fine
  subst fine
  exact rest bytes delivered

/-- A chunk and what follows it. -/
theorem copy_chunk {page_size addr sz : UInt32} {buffer bytes : Buffer} {data : Nat}
    (same : ∀ k < (chunk page_size sz).toNat, bytes k = M (addr.toNat + k))
    (next : (addr + chunk page_size sz).toNat = addr.toNat + (chunk page_size sz).toNat)
    (left : (sz - chunk page_size sz).toNat + (chunk page_size sz).toNat = sz.toNat) :
    copy (copy buffer data bytes 0 (chunk page_size sz).toNat) (data + (chunk page_size sz).toNat) M
      (addr + chunk page_size sz).toNat (sz - chunk page_size sz).toNat = copy buffer data M addr.toNat sz.toNat := by
  have first : copy buffer data bytes 0 (chunk page_size sz).toNat =
      copy buffer data M addr.toNat (chunk page_size sz).toNat :=
    copy_congr fun k part => by rw [Nat.zero_add,same k part]
  rw [first,next,copy_append,Nat.add_comm,left]

theorem readChunks_wp (serves : Serves R J s M limit) (small : limit < 2 ^ 32) {page_size : UInt32} (positive : page_size ≠ 0)
    (rounds : Nat) : ∀ (addr : UInt32) (buffer : Buffer) (data : Nat) (sz : UInt32), sz.toNat < rounds →
    addr.toNat + sz.toNat ≤ limit →
    (readChunks page_size rounds addr buffer data sz).Wp R J (Served M s buffer data addr.toNat sz.toNat) s := by
  induction rounds with
  | zero => intro addr buffer data sz enough; omega
  | succ rounds ih =>
    intro addr buffer data sz enough inside
    refine wp_ite (fun more => ?_) fun finished => ?_
    · obtain ⟨some,next,left⟩ := chunk_step positive more (Nat.lt_of_le_of_lt inside small)
      refine wp_served serves (show addr.toNat + (chunk page_size sz).toNat ≤ limit by omega) fun bytes same => ?_
      dsimp only
      rw [if_neg (by decide)]
      refine wp_mono (ih (addr + chunk page_size sz) _ _ (sz - chunk page_size sz) (by omega) (by omega)) ?_
      rintro r s' ⟨rfl,rfl⟩
      exact ⟨congrArg (Prod.mk _) (copy_chunk same next left),rfl⟩
    · have none : sz = 0 := not_not.mp finished
      exact ⟨serves.now,by rw [none]; simp,rfl⟩

theorem readChunks_SPIM_wp (serves : Serves R J s M limit) (small : limit < 2 ^ 32) (rounds : Nat) :
    ∀ (addr : UInt32) (buffer : Buffer) (data : Nat) (sz : UInt32), sz.toNat < rounds → addr.toNat + sz.toNat ≤ limit →
    (readChunks_SPIM rounds addr buffer data sz).Wp R J (Served M s buffer data addr.toNat sz.toNat) s := by
  induction rounds with
  | zero => intro addr buffer data sz enough; omega
  | succ rounds ih =>
    intro addr buffer data sz enough inside
    refine wp_ite (fun more => ?_) fun finished => ?_
    · have page : NVT_NVSPIM_PAGE_SIZE ≠ 0 := by decide
      obtain ⟨some,next,left⟩ := chunk_step page more (Nat.lt_of_le_of_lt inside small)
      have first : addr.toNat + (chunk NVT_NVSPIM_PAGE_SIZE sz).toNat ≤ limit := by omega
      refine wp_served serves first fun bytes same => ?_
      have rest := ih (addr + chunk NVT_NVSPIM_PAGE_SIZE sz) (copy buffer data bytes 0 (chunk NVT_NVSPIM_PAGE_SIZE sz).toNat)
        (data + (chunk NVT_NVSPIM_PAGE_SIZE sz).toNat) (sz - chunk NVT_NVSPIM_PAGE_SIZE sz) (by omega) (by omega)
      refine wp_mono rest ?_
      rintro r s' ⟨rfl,rfl⟩
      exact ⟨congrArg (Prod.mk _) (copy_chunk same next left),rfl⟩
    · have none : sz = 0 := not_not.mp finished
      exact ⟨serves.now,by rw [none]; simp,rfl⟩

theorem size_toNat {addr cnt : UInt32} (fits : addr.toNat + 4 * cnt.toNat < 2 ^ 32) :
    (cnt * data_width_byte DriverCapabilities.data_width).toNat = 4 * cnt.toNat := by
  rw [data_width_byte_driver,UInt32.toNat_mul]
  simp
  omega

/-- A read that starts in the device delivers the bytes of the memory. -/
theorem readDataOn_wp (serves : Serves R J s M limit) (small : limit < 2 ^ 32) {dev : arm_flash_dev_t} {addr cnt : UInt32}
    (valid : is_range_valid_internal dev addr = 0) (base : dev.memory_base = 0) (positive : dev.data.page_size ≠ 0)
    (inside : addr.toNat + 4 * cnt.toNat ≤ limit) (data : Buffer) (p : Nat) :
    (readDataOn dev addr data p cnt).Wp R J (Served M s data p addr.toNat (4 * cnt.toNat)) s := by
  have size := size_toNat (Nat.lt_of_le_of_lt inside small)
  have start : addr - dev.memory_base = addr := by rw [base,UInt32.sub_zero]
  simp only [readDataOn,valid,ne_eq,not_true_eq_false,if_false,start]
  rw [← size] at inside ⊢
  exact readChunks_wp serves small positive _ _ _ _ _ (Nat.lt_succ_self _) inside

theorem readData_SPIM_wp (serves : Serves R J s M limit) (small : limit ≤ SPIM_DMM_SIZE.toNat) {addr cnt : UInt32}
    (inside : addr.toNat + 4 * cnt.toNat ≤ limit) (data : Buffer) (p : Nat) :
    (ARM_Flash_ReadData_SPIM addr data p cnt).Wp R J (Served M s data p addr.toNat (4 * cnt.toNat)) s := by
  have window : SPIM_DMM_SIZE.toNat < 2 ^ 32 := SPIM_DMM_SIZE.toNat_lt
  have size := size_toNat (Nat.lt_of_le_of_lt inside (Nat.lt_of_le_of_lt small window))
  have start : addr - NVT_NVSPIM_MEMORY_BASE = addr := UInt32.sub_zero addr
  have passes : (addr.toNat + 4 * cnt.toNat) % 2 ^ 32 ≤ (FLASH2_DEV .SPIM).size :=
    Nat.le_trans (Nat.mod_le _ _) (Nat.le_trans inside small)
  unfold ARM_Flash_ReadData_SPIM
  rw [if_neg (mt (spim_check_iff addr cnt).mp (not_not.mpr passes)),start]
  rw [← size] at inside ⊢
  exact readChunks_SPIM_wp serves (Nat.lt_of_le_of_lt small window) _ _ _ _ _ (Nat.lt_succ_self _) inside

/-- Every variant of `Driver_FLASH2` delivers what it is asked for inside its device. -/
theorem readData_wp {variant : Variant} (serves : Serves R J s M (FLASH2_DEV variant).size) {addr cnt : UInt32}
    (some : 0 < cnt.toNat) (inside : (FLASH2_DEV variant).Inside addr.toNat (4 * cnt.toNat)) (data : Buffer) (p : Nat) :
    ((Driver_FLASH2 variant).ReadData addr data p cnt).Wp R J (Served M s data p addr.toNat (4 * cnt.toNat)) s := by
  rw [inside_iff] at inside
  have valid := (valid_iff variant addr).mpr (by omega)
  cases variant with
  | SPI => exact readDataOn_wp serves (by decide) valid rfl (by decide) inside data p
  | QSPI => exact readDataOn_wp serves (by decide) valid rfl (by decide) inside data p
  | SPIM => exact readData_SPIM_wp serves (Nat.le_refl _) inside data p

end
end NuMicroBoot.ExternalReads
