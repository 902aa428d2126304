import NuMicroBoot.Board

/-!
Erasing areas of the external flash. Neither the SPI and QSPI drivers nor the
SPIM driver look at the alignment of the address, and the chip ignores its low
bits: an erase that does not start at a sector of the chip, or a SPIM erase that
does not end at one, sets other bytes than it was asked for.
-/

namespace NuMicroBoot.ExternalErase
open NuMicroBoot.Calls NuMicroBoot.Calls.Prog NuMicroBoot.Cells NuMicroBoot.Words NuMicroBoot.Driver NuMicroBoot.FlashMap
open NuMicroBoot.AreaPlans NuMicroBoot.ExternalDriver NuMicroBoot.ExternalBounds NuMicroBoot.SerialChip NuMicroBoot.SpiPort
open NuMicroBoot.Sweeps NuMicroBoot.Board

/-! ### Areas of the external flash -/

/-- An area on `Driver_FLASH2`, inside the device and below 16 MiB. -/
structure ExternalArea (variant : Variant) where
  fa_id : UInt8
  fa_device_id : UInt8
  fa_off : UInt32
  fa_size : UInt32
  inside : Addressed variant fa_off.toNat fa_size.toNat

variable {variant : Variant}

def ExternalArea.area (a : ExternalArea variant) (setup : Setup) : flash_area (external variant) where
  fa_id := a.fa_id
  fa_device_id := a.fa_device_id
  fa_driver := externalDriver setup variant
  fa_off := a.fa_off
  fa_size := a.fa_size

theorem external_ends (a : ExternalArea variant) : a.fa_off.toNat + a.fa_size.toNat ≤ 2 ^ 32 :=
  Nat.le_trans a.inside.2 (by decide)

/-- The loop stays below 16 MiB, wherever it starts. -/
theorem external_steps (a : ExternalArea variant) {setup : Setup} {off len : Nat} (fits : off + len ≤ a.fa_size.toNat)
    (small : (a.area setup).fa_driver.GetInfo.sector_size.toNat ≤ 4096) :
    Steps (a.area setup) (fun p => Addressed variant p 1) off len := by
  intro d _ more
  obtain ⟨⟨low,high⟩,below⟩ := a.inside
  have fa_off : (a.area setup).fa_off = a.fa_off := rfl
  refine ⟨by omega,⟨?_,?_⟩,?_⟩
  · rw [fa_off]
    omega
  · rw [fa_off]
    omega
  · rw [fa_off]
    omega

/-- A chip whose erases are over at once, so that no wait runs out. -/
def prompt : Setup where
  bsp := board
  SystemCoreClock := 1000
  type := ⟨true,fun n => n = 0⟩
  depth := 8
  rounds := 1

theorem prompt_in_time : ¬ TimesOut prompt.type prompt.SystemCoreClock := by
  refine inTime_of_lt (by decide) ?_
  rintro n (rfl : n = 0)
  decide

/-- Flash full of zeros, between two calls. -/
def zeros : (variant : Variant) → External variant
  | .SPI => (⟨⟨fun _ => 0,false,0,false,[],[]⟩,[]⟩ : Port)
  | .QSPI => (⟨⟨fun _ => 0,false,0,false,[],[]⟩,[]⟩ : Port)
  | .SPIM => (⟨⟨fun _ => 0,false,0,false,[],[]⟩,none,0,0⟩ : SpimPort.Spim)

theorem zeros_ready (variant : Variant) : ExternalReady variant (zeros variant) := by
  have quiet : QuietLog [] := by
    intro e member
    cases member
  cases variant with
  | SPI => exact ⟨⟨quiet,rfl,rfl,rfl⟩,rfl⟩
  | QSPI => exact ⟨⟨quiet,rfl,rfl,rfl⟩,rfl⟩
  | SPIM => exact ⟨rfl,rfl,rfl⟩

theorem zeros_memory (variant : Variant) : (chip variant (zeros variant)).memory = fun _ => 0 := by
  cases variant <;> rfl

/-! ### SPI and QSPI -/

/-- Some bytes are to be erased from inside a sector on, which the drivers of the internal flash refuse. -/
def Misaligned (off len : UInt32) : Prop := off.toNat % 4096 ≠ 0 ∧ len ≠ 0

/-- On every chip, over every outcome of the waits: an erase returns, with 0 only when its range reads 0xFF, and with an
    error and the flash unchanged when it is misaligned. -/
def HonestErase [Bootutil] (a : ExternalArea variant) (off len : UInt32) : Prop :=
  ∀ (setup : Setup) (s : External variant), 8 ≤ setup.depth → ExternalReady variant s →
    (flash_area_erase (a.area setup) off len).Wp (externalDevice setup variant) (fun _ => True) (fun rc s' =>
      (rc = 0 → ∀ k < len.toNat, (chip variant s').memory (a.fa_off.toNat + off.toNat + k) = 0xFF) ∧
      (Misaligned off len → rc ≠ 0 ∧ (chip variant s').memory = (chip variant s).memory)) s

/-- In steps of whole granules from the start of one on, the way is covered. -/
theorem afterErase_covers {g start len k : Nat} (M : Nat → UInt8) (positive : 0 < g) (start_whole : start % g = 0)
    (inside : k < len) : afterErase g g M start len (start + k) = 0xFF := by
  obtain ⟨a,rfl⟩ := Nat.dvd_of_mod_eq_zero start_whole
  have split := Nat.div_add_mod (len - 1) g
  have part := Nat.mod_lt (len - 1) positive
  have last : g * a + g * ((len - 1) / g) = g * (a + (len - 1) / g) := (Nat.mul_add g a _).symm
  rw [afterErase,if_neg (by omega),swept,last,Nat.mul_div_cancel_left _ positive,Nat.mul_div_cancel_left _ positive,fill]
  apply if_pos
  rw [← last]
  omega

section
variable {a : ExternalArea variant} {off len : UInt32}

theorem port_sector_size (port : variant ≠ .SPIM) (setup : Setup) :
    (a.area setup).fa_driver.GetInfo.sector_size.toNat = 4096 := by
  cases variant with
  | SPI => rfl
  | QSPI => rfl
  | SPIM => exact absurd rfl port

variable [Bootutil]

/-- What an erase of an SPI or QSPI area does, at any alignment. -/
theorem port_erase_wp (port : variant ≠ .SPIM) (fits : off.toNat + len.toNat ≤ a.fa_size.toNat) {setup : Setup}
    {s : External variant} (deep : 8 ≤ setup.depth) (ready : ExternalReady variant s) :
    (flash_area_erase (a.area setup) off len).Wp (externalDevice setup variant) (fun _ => True) (fun rc s' =>
      rc = 0 ∧ (chip variant s').memory =
        afterErase 4096 4096 (chip variant s).memory (a.fa_off.toNat + off.toNat) len.toNat ∨
      TimesOut setup.type setup.SystemCoreClock ∧ rc ≠ 0) s := by
  have erases : Erases _ (a.area setup).fa_driver _ _ _ _ _ := erases_port_driver port deep
  have steps := external_steps a fits erases.small
  refine wp_mono (area_erase_wp erases fits (external_ends a) steps ready) fun rc s' after => ?_
  rw [port_sector_size port] at after
  exact after.imp_left fun done => ⟨done.1,done.2.2⟩

/-- An erase that starts at a sector, or of nothing, is honest. -/
theorem honest_of_aligned (port : variant ≠ .SPIM) (off_whole : a.fa_off.toNat % 4096 = 0)
    (fits : off.toNat + len.toNat ≤ a.fa_size.toNat) (aligned : off.toNat % 4096 = 0 ∨ len = 0) : HonestErase a off len := by
  intro setup s deep ready
  refine wp_mono (port_erase_wp port fits deep ready) fun rc s' after => ⟨fun success k inside => ?_,fun misaligned => ?_⟩
  · rcases after with ⟨_,memory⟩ | ⟨_,failed⟩
    · have start : off.toNat % 4096 = 0 := by
        rcases aligned with start | none
        · exact start
        · rw [none] at inside
          exact absurd inside (Nat.not_lt_zero k)
      rw [memory]
      exact afterErase_covers _ (by decide) (by omega) inside
    · exact absurd success failed
  · rcases aligned with start | none
    · exact absurd start misaligned.1
    · exact absurd none misaligned.2

/-- A misaligned erase of some bytes returns 0. -/
theorem not_honest (port : variant ≠ .SPIM) (fits : off.toNat + len.toNat ≤ a.fa_size.toNat) (misaligned : Misaligned off len) :
    ¬ HonestErase a off len := by
  intro honest
  have ends : ∃ n, prompt.type.lasts n := ⟨0,rfl⟩
  have erased : (flash_area_erase (a.area prompt) off len).Wp _ _ _ (zeros variant) :=
    port_erase_wp port fits (Nat.le_refl 8) (zeros_ready variant)
  have judged := honest prompt (zeros variant) (Nat.le_refl 8) (zeros_ready variant)
  obtain ⟨rc,s',after,_,refused⟩ := wp_both (externalDevice_total ends variant) erased judged
  obtain ⟨failed,_⟩ := refused misaligned
  rcases after with ⟨success,_⟩ | ⟨late,_⟩
  · exact failed success
  · exact prompt_in_time late

end

/-- An SPI or QSPI erase is honest exactly when it starts at a sector or has nothing to erase. -/
theorem honest_iff [Bootutil] (port : variant ≠ .SPIM) (a : ExternalArea variant) (off_whole : a.fa_off.toNat % 4096 = 0)
    (off len : UInt32) (fits : off.toNat + len.toNat ≤ a.fa_size.toNat) :
    HonestErase a off len ↔ off.toNat % 4096 = 0 ∨ len = 0 := by
  constructor
  · intro honest
    by_contra neither
    obtain ⟨inside,some⟩ := not_or.mp neither
    exact not_honest port fits ⟨inside,some⟩ honest
  · intro aligned
    exact honest_of_aligned port off_whole fits aligned

/-- A secondary slot at the start of the flash. -/
def slot (variant : Variant) : ExternalArea variant where
  fa_id := 2
  fa_device_id := 101
  fa_off := 0
  fa_size := 0x8000
  inside := by
    cases variant with
    | SPI => exact ⟨⟨by decide,by decide⟩,by decide⟩
    | QSPI => exact ⟨⟨by decide,by decide⟩,by decide⟩
    | SPIM => exact ⟨⟨by decide,by decide⟩,by decide⟩

theorem honest_iff_second_sector : @HonestErase .SPI bootutil (slot .SPI) 0x1000 0x1800 ↔
    (0x1000 : UInt32).toNat % 4096 = 0 ∨ (0x1800 : UInt32) = 0 :=
  @honest_iff .SPI bootutil nofun (slot .SPI) rfl 0x1000 0x1800 (by decide)

/-- Half a sector on, with one erase command for the 4 KiB that two sectors hold. -/
theorem not_honest_half : ¬ @HonestErase .SPI bootutil (slot .SPI) 0x800 0x1000 :=
  @not_honest .SPI (slot .SPI) 0x800 0x1000 bootutil nofun (by decide) ⟨by decide,by decide⟩

/-! ### SPIM -/

/-- On every chip whose erases end and which keeps its write enable latch: an erase succeeds, sets its range and changes no
    other byte of the device. -/
def ExactErase [Bootutil] (a : ExternalArea .SPIM) (off len : UInt32) : Prop :=
  ∀ (setup : Setup) (s : External .SPIM), InTime setup .SPIM → ExternalReady .SPIM s →
    (flash_area_erase (a.area setup) off len).Wp (externalDevice setup .SPIM) (fun _ => True) (fun rc s' => rc = 0 ∧
      (∀ k < len.toNat, (chip .SPIM s').memory (a.fa_off.toNat + off.toNat + k) = 0xFF) ∧
      SameOutside (a.fa_off.toNat + off.toNat) len.toNat (chip .SPIM s).memory (chip .SPIM s').memory) s

section
variable [Bootutil] {a : ExternalArea .SPIM} {off len : UInt32}

/-- What an erase of a SPIM area does: the loop takes steps of 256 bytes, each of which sets 4 KiB. -/
theorem spim_erase_wp (fits : off.toNat + len.toNat ≤ a.fa_size.toNat) {setup : Setup} {s : External .SPIM}
    (inTime : InTime setup .SPIM) (ready : ExternalReady .SPIM s) :
    (flash_area_erase (a.area setup) off len).Wp (externalDevice setup .SPIM) (fun _ => True) (fun rc s' => rc = 0 ∧
      (chip .SPIM s').memory = afterErase 4096 256 (chip .SPIM s).memory (a.fa_off.toNat + off.toNat) len.toNat) s := by
  have erases : Erases _ (a.area setup).fa_driver _ _ _ _ _ := erases_SPIM inTime
  have steps := external_steps a fits erases.small
  refine wp_mono (area_erase_wp erases fits (external_ends a) steps ready) fun rc s' after => ?_
  rcases after with ⟨success,_,memory⟩ | ⟨late,_⟩
  · exact ⟨success,memory⟩
  · exact late.elim

theorem exact_of_aligned (fits : off.toNat + len.toNat ≤ a.fa_size.toNat)
    (aligned : len = 0 ∨ (a.fa_off.toNat + off.toNat) % 4096 = 0 ∧ len.toNat % 4096 = 0) : ExactErase a off len := by
  intro setup s inTime ready
  refine wp_mono (spim_erase_wp fits inTime ready) fun rc s' after => ?_
  obtain ⟨success,memory⟩ := after
  have range : (chip .SPIM s').memory = fill 0xFF (chip .SPIM s).memory (a.fa_off.toNat + off.toNat) len.toNat := by
    rcases aligned with none | ⟨start,whole⟩
    · rw [memory,none]
      exact (fill_zero _ _ _).symm
    · rw [memory,afterErase_whole (by decide) (by decide) start whole]
  rw [range]
  refine ⟨success,?_,fill_outside _ _ _ _⟩
  intro k inside
  exact if_pos ⟨Nat.le_add_right _ _,Nat.add_lt_add_left inside _⟩

/-- Between the ends of the range and the next sectors of the chip there are bytes that are set too. -/
theorem not_exact (fits : off.toNat + len.toNat ≤ a.fa_size.toNat) (sectors : len.toNat % 256 = 0) (some : len ≠ 0)
    (misaligned : ¬ ((a.fa_off.toNat + off.toNat) % 4096 = 0 ∧ len.toNat % 4096 = 0)) : ¬ ExactErase a off len := by
  intro exact
  have ends : ∃ n, prompt.type.lasts n := ⟨0,rfl⟩
  have inTime : InTime prompt .SPIM := ⟨rfl,by decide,fun n zero => zero ▸ Nat.zero_lt_one⟩
  have erased : (flash_area_erase (a.area prompt) off len).Wp _ _ _ (zeros .SPIM) :=
    spim_erase_wp fits inTime (zeros_ready .SPIM)
  have judged := exact prompt (zeros .SPIM) inTime (zeros_ready .SPIM)
  obtain ⟨rc,s',⟨_,memory⟩,_,_,outside⟩ := wp_both (externalDevice_total ends .SPIM) erased judged
  have positive := ne_zero_iff.mp some
  rw [memory,zeros_memory,afterErase,if_neg positive] at outside
  -- the first byte of the first sector, or the one behind the range
  have set : ∃ p, ¬ (a.fa_off.toNat + off.toNat ≤ p ∧ p < a.fa_off.toNat + off.toNat + len.toNat) ∧
      swept 4096 (fun _ => 0) (a.fa_off.toNat + off.toNat)
        (a.fa_off.toNat + off.toNat + 256 * ((len.toNat - 1) / 256)) p = 0xFF := by
    by_cases start : (a.fa_off.toNat + off.toNat) % 4096 = 0
    · have part : len.toNat % 4096 ≠ 0 := fun whole => misaligned ⟨start,whole⟩
      exact ⟨a.fa_off.toNat + off.toNat + len.toNat,by omega,if_pos (by omega)⟩
    · exact ⟨4096 * ((a.fa_off.toNat + off.toNat) / 4096),by omega,if_pos (by omega)⟩
  obtain ⟨p,away,changed⟩ := set
  have same : (0 : UInt8) = 0xFF := (outside p away).symm.trans changed
  exact absurd same (by decide)

end

/-- A SPIM erase of whole advertised sectors changes its range alone exactly when the range is made of sectors of the chip. -/
theorem exact_iff [Bootutil] (a : ExternalArea .SPIM) (off len : UInt32) (fits : off.toNat + len.toNat ≤ a.fa_size.toNat)
    (len_sectors : len.toNat % SPIM_DEV.data.sector_size.toNat = 0) :
    ExactErase a off len ↔ len = 0 ∨ (a.fa_off.toNat + off.toNat) % 4096 = 0 ∧ len.toNat % 4096 = 0 := by
  constructor
  · intro exact
    by_contra neither
    obtain ⟨some,misaligned⟩ := not_or.mp neither
    exact not_exact fits len_sectors some misaligned exact
  · intro aligned
    exact exact_of_aligned fits aligned

theorem exact_iff_first_page : @ExactErase bootutil (slot .SPIM) 0 0x1000 ↔
    (0x1000 : UInt32) = 0 ∨ ((slot .SPIM).fa_off.toNat + (0 : UInt32).toNat) % 4096 = 0 ∧ (0x1000 : UInt32).toNat % 4096 = 0 :=
  @exact_iff bootutil (slot .SPIM) 0 0x1000 (by decide) (by decide)

/-- One sector of the size the driver tells. -/
theorem not_exact_one : ¬ @ExactErase bootutil (slot .SPIM) 0 0x100 :=
  @not_exact bootutil (slot .SPIM) 0 0x100 (by decide) (by decide) (by decide) (by decide)

end NuMicroBoot.ExternalErase
