import NuMicroBoot.AreaCalls
import NuMicroBoot.AreaWrites
import NuMicroBoot.ExternalErase
import NuMicroBoot.Refinement
import NuMicroBoot.SpimWrites

/-!
The SPIM driver and its areas over a NOR flash. A page program that runs over
the end of its page stays in its pages, so no request changes a byte outside
its area, and the requests that keep to pages and sectors do what they say.
-/

namespace NuMicroBoot.NorAreas
open NuMicroBoot.Calls NuMicroBoot.Calls.Prog NuMicroBoot.Cells NuMicroBoot.Words NuMicroBoot.Driver NuMicroBoot.FlashMap
open NuMicroBoot.ExternalDriver NuMicroBoot.ExternalBounds NuMicroBoot.ExternalReads NuMicroBoot.PageChunks NuMicroBoot.AreaPlans
open NuMicroBoot.WritePlans NuMicroBoot.DriverReads NuMicroBoot.WriteAlignment NuMicroBoot.AreaWrites NuMicroBoot.AreaCalls NuMicroBoot.Sweeps NuMicroBoot.Board
open NuMicroBoot.SerialFlash NuMicroBoot.SpimWrites NuMicroBoot.Requests NuMicroBoot.Refinement NuMicroBoot.Simulation

/-- The memory, where there is one. -/
abbrev memory (t : Option (Nat → UInt8)) : Nat → UInt8 := t.getD fun _ => 0

/-! ### The driver -/

/-- There is a memory. -/
abbrev There : Option (Nat → UInt8) → Prop := Left fun _ => True

section
variable {J : Option (Nat → UInt8) → Prop} {M : Nat → UInt8}

theorem nor_serves (now : J (some M)) : Serves Nor J (some M) M (2 ^ 24) :=
  ⟨now,fun _ _ _ _ inside answered => (if_pos inside).mp answered⟩

theorem nor_delivers (now : J (some M)) : Delivers Nor J (Driver_FLASH2 .SPIM) M (Addressed .SPIM) (some M) := by
  intro addr data p cnt _ _ inside
  refine wp_mono (readData_SPIM_wp (nor_serves now) (by decide) inside.2 data p) ?_
  rintro r t ⟨rfl,rfl⟩
  exact ⟨(by decide : ¬ ARM_DRIVER_OK < 0),rfl,rfl⟩

end

/-- The byte is in none of the pages of these bytes. -/
def Elsewhere (a n q : Nat) : Prop := ∀ b, a ≤ b → b < a + n → q / 256 ≠ b / 256

theorem store_elsewhere {M : Nat → UInt8} {c : Piece} {q : Nat} (elsewhere : q / 256 ≠ c.addr / 256) : store M c q = M q := by
  have outside : ∀ n, storeBytes M c.addr c.bytes n q = M q := by
    intro n
    induction n with
    | zero => rfl
    | succ n ih =>
      rw [storeBytes,combine,if_neg,ih]
      unfold place
      omega
  exact outside c.len

theorem chunk_toNat (sz : UInt32) : (chunk 256 sz).toNat = min 256 sz.toNat := by
  have page : (256 : UInt32).toNat = 256 := rfl
  unfold chunk
  split_ifs with whole
  · have := UInt32.lt_iff_toNat_lt.mp whole
    omega
  · have := mt UInt32.lt_iff_toNat_lt.mpr whole
    omega

/-- The chunks of the driver change nothing elsewhere at any point, and where the range is made of pages they program it. -/
theorem programChunks_wp {J : Option (Nat → UInt8) → Prop} (rounds : Nat) (data : Buffer) : ∀ (addr sz : UInt32) (p : Nat)
    (M : Nat → UInt8), sz.toNat < rounds → addr.toNat + sz.toNat ≤ 2 ^ 24 →
    (∀ M', (∀ q, Elsewhere addr.toNat sz.toNat q → M' q = M q) → J (some M')) →
    (programChunks_SPIM rounds addr data p sz).Wp Nor J (fun rc t => rc = ARM_DRIVER_OK ∧ ∃ M', t = some M' ∧
      (Paged addr.toNat sz.toNat → M' = combine (· &&& ·) M addr.toNat (fun k => data (p + k)) sz.toNat)) (some M) := by
  induction rounds with
  | zero => intro addr sz p M enough; omega
  | succ rounds ih =>
    intro addr sz p M enough inside now
    by_cases more : sz = 0
    · subst more
      exact ⟨now M fun _ _ => rfl,rfl,M,rfl,fun _ => (combine_zero _ _ _ _).symm⟩
    · obtain ⟨some_,next,left⟩ := chunk_step (show (256 : UInt32) ≠ 0 by decide) more (by omega : addr.toNat + sz.toNat < 2 ^ 32)
      have size := chunk_toNat sz
      rw [programChunks_SPIM_round more]
      refine ⟨now M fun _ _ => rfl,fun r t answered => ?_⟩
      obtain ⟨rfl,rfl⟩ := (if_pos ⟨by omega,by omega,by omega⟩).mp answered
      dsimp only
      rw [if_neg (not_not.mpr rfl)]
      refine wp_mono (ih (addr + chunk 256 sz) (sz - chunk 256 sz) (p + (chunk 256 sz).toNat) _ (by omega) (by omega)
        fun M' same => now M' fun q outside => ?_) ?_
      · rw [same q fun b low high => outside b (by omega) (by omega)]
        exact store_elsewhere (outside addr.toNat (Nat.le_refl _) (by omega))
      · rintro rc t ⟨rfl,M',rfl,paged⟩
        refine ⟨rfl,M',rfl,fun pages => ?_⟩
        have first := paged_first pages
        have rem : (sz - chunk 256 sz).toNat = sz.toNat - min 256 sz.toNat := by omega
        rw [next] at paged
        rw [← size] at first
        rw [paged (by rw [rem,size]; exact paged_next pages),store,storeBytes_inPage M _ first]
        have joined := combine_append (· &&& ·) M addr.toNat (fun k => data (p + k)) (chunk 256 sz).toNat (sz - chunk 256 sz).toNat
        rw [Nat.add_comm (chunk 256 sz).toNat,left] at joined
        simpa only [Nat.add_assoc] using joined

theorem programData_wp {J : Option (Nat → UInt8) → Prop} {addr cnt : UInt32} (inside : addr.toNat + 4 * cnt.toNat ≤ 2 ^ 24)
    (data : Buffer) (p : Nat) {M : Nat → UInt8}
    (now : ∀ M', (∀ q, Elsewhere addr.toNat (4 * cnt.toNat) q → M' q = M q) → J (some M')) :
    (ARM_Flash_ProgramData_SPIM addr data p cnt).Wp Nor J (fun rc t => rc = ARM_DRIVER_OK ∧ ∃ M', t = some M' ∧
      (Paged addr.toNat (4 * cnt.toNat) → M' = combine (· &&& ·) M addr.toNat (fun k => data (p + k)) (4 * cnt.toNat))) (some M) := by
  have size := size_toNat (Nat.lt_of_le_of_lt inside (by decide))
  have start : addr - NVT_NVSPIM_MEMORY_BASE = addr := UInt32.sub_zero addr
  have window : (FLASH2_DEV .SPIM).size = 2 ^ 25 := rfl
  have passes : (addr.toNat + 4 * cnt.toNat) % 2 ^ 32 ≤ (FLASH2_DEV .SPIM).size := by omega
  unfold ARM_Flash_ProgramData_SPIM
  rw [if_neg (mt (spim_check_iff addr cnt).mp (not_not.mpr passes)),start]
  rw [← size] at inside now ⊢
  exact programChunks_wp _ data _ _ _ _ (Nat.lt_succ_self _) inside now

theorem eraseSector_wp {J : Option (Nat → UInt8) → Prop} {addr : UInt32} (low : addr.toNat < 2 ^ 24) {M : Nat → UInt8}
    (before : J (some M)) (after : J (some (fill 0xFF M (sectorStart addr.toNat) 4096))) :
    (ARM_Flash_EraseSector_SPIM addr).Wp Nor J
      (fun rc t => rc = 0 ∧ t = some (fill 0xFF M (sectorStart addr.toNat) 4096)) (some M) := by
  have window : (FLASH2_DEV .SPIM).size = 2 ^ 25 := rfl
  have through := mt (spim_erase_check_iff addr).mp (not_not.mpr (by omega))
  rw [ARM_Flash_EraseSector_SPIM,if_neg through,show addr - NVT_NVSPIM_MEMORY_BASE = addr from UInt32.sub_zero _]
  refine ⟨before,fun rc t answered => ?_⟩
  obtain ⟨rfl,rfl⟩ := (if_pos low).mp answered
  exact ⟨after,rfl,rfl⟩

/-- Below 16 MiB, from the start of a page on or inside one. -/
def InPages (a n : Nat) : Prop := a + n ≤ 2 ^ 24 ∧ Paged a n

theorem nor_stores : Stores Nor (fun _ => True) (Driver_FLASH2 .SPIM) memory There (Addressed .SPIM) InPages where
  now := fun _ _ => trivial
  ReadData := by
    rintro _ ⟨M,rfl,_⟩
    exact nor_delivers trivial
  ProgramData := by
    rintro _ addr data cnt ⟨M,rfl,_⟩ _ _ pages
    refine wp_mono (programData_wp pages.1 data 0 fun _ _ => trivial) ?_
    rintro rc t ⟨rfl,M',rfl,stored⟩
    refine ⟨(by decide : ¬ ARM_DRIVER_OK < 0),⟨M',rfl,trivial⟩,?_⟩
    have content := stored pages.2
    simp only [Nat.zero_add] at content
    exact content

theorem nor_erases : Erases Nor (Driver_FLASH2 .SPIM) memory There 4096 False fun a => Addressed .SPIM a 1 where
  sector_info := rfl
  positive := by decide
  small := by decide
  EraseSector := by
    rintro _ addr ⟨M,rfl,_⟩ inside
    have low : addr.toNat < 2 ^ 24 := inside.2
    refine wp_mono (eraseSector_wp low trivial trivial) ?_
    rintro rc t ⟨rfl,rfl⟩
    exact .inl ⟨rfl,⟨_,rfl,trivial⟩,rfl⟩

/-! ### An array of bytes -/

/-- The range of the request is in an array of `size` bytes. -/
def Fits (size : Nat) (request : Request) : Prop := request.off.toNat + request.len.toNat ≤ size

instance (size : Nat) (request : Request) : Decidable (Fits size request) := inferInstanceAs (Decidable (_ ≤ _))

/-- The reply the array asks for, an error where the range does not fit. -/
def Expects (size : Nat) (bytes : Nat → UInt8) (request : Request) (reply : Reply) : Prop :=
  if Fits size request then Answered bytes request reply else reply.Error request

/-- What the request makes of the array. -/
def stepped (size : Nat) (bytes : Nat → UInt8) (request : Request) : Nat → UInt8 :=
  if Fits size request then applied bytes request else bytes

/-- How the bytes of a memory from `a` on answer a request: no others change, and a request that suits is answered by the
    array of these bytes. -/
structure Replies (a size : Nat) (suits : Prop) (request : Request) (M : Nat → UInt8) (reply : Reply) (M' : Nat → UInt8) : Prop where
  framed : ∀ p, ¬ (request.changes = true ∧ a ≤ p ∧ p < a + size) → M' p = M p
  exact : suits → Expects size (fun k => M (a + k)) request reply ∧
    ∀ k < size, M' (a + k) = stepped size (fun k => M (a + k)) request k

/-- Any read or check, writes from a program unit on whose whole units keep to pages, erases of whole sectors. -/
def Suited : Request → Prop
  | .flash_area_read _ _ _ => True
  | .flash_area_write off _ len => off.toNat % 8 = 0 ∧ Paged off.toNat (8 * (len.toNat / 8))
  | .flash_area_erase off len => off.toNat % 4096 = 0 ∧ len.toNat % 4096 = 0
  | .flash_area_read_is_empty _ _ _ => True

/-! ### Areas -/

/-- An area of whole sectors of the SPIM flash, below 16 MiB. -/
structure SpimArea where
  fa_id : UInt8
  fa_device_id : UInt8
  fa_off : UInt32
  fa_size : UInt32
  off_aligned : fa_off.toNat % 4096 = 0
  size_aligned : fa_size.toNat % 4096 = 0
  inside : Addressed .SPIM fa_off.toNat fa_size.toNat

def SpimArea.area (a : SpimArea) : flash_area ExternalDriver.interface where
  fa_id := a.fa_id
  fa_device_id := a.fa_device_id
  fa_driver := Driver_FLASH2 .SPIM
  fa_off := a.fa_off
  fa_size := a.fa_size

/-- The byte at `p` belongs to the area. -/
def SpimArea.Holds (a : SpimArea) (p : Nat) : Prop := a.fa_off.toNat ≤ p ∧ p < a.fa_off.toNat + a.fa_size.toNat

section
variable (a : SpimArea)

theorem area_eights : OnEights a.area (Addressed .SPIM) := by
  obtain ⟨⟨low,high⟩,below⟩ := a.inside
  have start := a.off_aligned
  have whole := a.size_aligned
  have fa_off : a.area.fa_off = a.fa_off := rfl
  have fa_size : a.area.fa_size = a.fa_size := rfl
  refine ⟨⟨rfl,?_,?_,?_,fun b n first last => ?_⟩,?_,?_⟩
  · rw [fa_off]
    omega
  · rw [fa_size]
    omega
  · rw [fa_off,fa_size]
    omega
  · rw [fa_off] at first last
    rw [fa_size] at last
    exact ⟨⟨by omega,by omega⟩,by omega⟩
  · rw [fa_off]
    omega
  · rw [fa_size]
    omega

/-! ### At every point of a request -/

/-- Outside the area the memory is as it was. -/
def Framed (M M' : Nat → UInt8) : Prop := ∀ p, ¬ a.Holds p → M' p = M p

/-- A program may run round in the pages of the area, and an erase takes whole sectors of it, but neither gets out of it. -/
theorem within_framed {c : Access} {M : Nat → UInt8} {t : Option (Nat → UInt8)} (within : WithinArea a.area c)
    (framed : Left (Framed a M) t) :
    (carryOut a.area.fa_driver c).Wp Nor (Left (Framed a M)) (fun _ t' => Left (Framed a M) t') t := by
  have start := a.off_aligned
  have whole := a.size_aligned
  have below := a.inside.2
  have fa_off : a.area.fa_off = a.fa_off := rfl
  have fa_size : a.area.fa_size = a.fa_size := rfl
  obtain ⟨M₁,rfl,same⟩ := framed
  cases c with
  | ReadData addr data p cnt =>
    obtain ⟨low,high⟩ := within
    rw [fa_off,fa_size] at high
    have inside : addr.toNat + 4 * cnt.toNat ≤ 2 ^ 24 := by omega
    have read := readData_SPIM_wp (nor_serves (left_some.mpr same)) (by decide) inside data p
    exact wp_mono (wp_last read) fun _ _ after => after.1
  | ProgramData addr data p cnt =>
    obtain ⟨low,high⟩ := within
    rw [fa_off] at low
    rw [fa_off,fa_size] at high
    refine wp_mono (wp_last (programData_wp (by omega) data p fun M₂ elsewhere => left_some.mpr fun q outside => ?_))
      fun _ _ after => after.1
    rw [← same q outside]
    -- a page with a byte of the area belongs to it
    refine elsewhere q fun b first last page => outside ⟨?_,?_⟩ <;> omega
  | EraseSector addr =>
    obtain ⟨low,high⟩ := within
    rw [fa_off] at low
    rw [fa_off,fa_size] at high
    refine wp_mono (wp_last (eraseSector_wp (by omega) (left_some.mpr same) (left_some.mpr fun q outside => ?_)))
      fun _ _ after => after.1
    rw [← same q outside]
    refine fill_outside _ _ _ _ q fun range => outside ⟨?_,?_⟩
    · unfold sectorStart at range
      omega
    · unfold sectorStart at range
      omega

theorem eraseLoop_within {len : UInt32} {o : Nat} (fits : o + len.toNat ≤ a.fa_size.toNat) (rounds : Nat) :
    ∀ off deleted : UInt32, len.toNat - deleted.toNat < rounds → off.toNat = o + deleted.toNat →
    (eraseLoop (onCalls a.area) len rounds off deleted).All (WithinArea a.area) fun _ => True := by
  have below := a.inside.2
  have sector : (onCalls a.area).fa_driver.GetInfo.sector_size.toNat = 256 := rfl
  induction rounds with
  | zero => intro off deleted enough; omega
  | succ rounds ih =>
    intro off deleted enough place
    refine all_ite (fun more => ?_) fun _ => trivial
    have less := UInt32.lt_iff_toNat_lt.mp more
    have address : (a.fa_off + off).toNat = a.fa_off.toNat + off.toNat := toNat_add_of_lt (by omega)
    have next : (deleted + (onCalls a.area).fa_driver.GetInfo.sector_size).toNat = deleted.toNat + 256 :=
      toNat_add_of_lt (by omega)
    have next' : (off + (onCalls a.area).fa_driver.GetInfo.sector_size).toNat = off.toNat + 256 := toNat_add_of_lt (by omega)
    have inArea : InArea a.area (a.fa_off + off).toNat 1 := by
      rw [address]
      exact ⟨Nat.le_add_right _ _,show _ ≤ a.fa_off.toNat + a.fa_size.toNat by omega⟩
    exact ⟨inArea,fun rc => all_ite (fun _ => trivial) fun _ => ih _ _ (by omega) (by omega)⟩

variable [Bootutil]

/-! ### Requests in place -/

theorem spim_read {J : Option (Nat → UInt8) → Prop} {off len : UInt32} (fits : off.toNat + len.toNat ≤ a.fa_size.toNat)
    (dst : Buffer) {M : Nat → UInt8} (now : J (some M)) :
    (flash_area_read a.area off dst len).Wp Nor J (Read M (some M) dst 0 (a.fa_off.toNat + off.toNat) len.toNat) (some M) := by
  have delivers : Delivers Nor J a.area.fa_driver M (Addressed .SPIM) (some M) := nor_delivers now
  exact read_wp delivers now (area_eights a).words fits dst

/-- A write that keeps to pages. -/
theorem spim_write {off len : UInt32} (fits : off.toNat + len.toNat ≤ a.fa_size.toNat) (aligned : off.toNat % 8 = 0)
    (pages : Paged off.toNat (8 * (len.toNat / 8))) (src : Buffer) (M : Nat → UInt8) :
    (flash_area_write a.area off src len).Wp Nor (fun _ => True) (fun rc t => rc = 0 ∧
      t = some (combine (· &&& ·) M (a.fa_off.toNat + off.toNat) src len.toNat)) (some M) := by
  have start := a.off_aligned
  have below := a.inside.2
  have fa_off : a.area.fa_off = a.fa_off := rfl
  have fa_size : a.area.fa_size = a.fa_size := rfl
  have suitable : SuitsWrite a.area InPages off.toNat len.toNat := by
    refine ⟨fun b low high whole => ⟨?_,?_⟩,fun taken whole few some => ⟨?_,?_⟩⟩
    · rw [fa_off,fa_size] at high
      omega
    · exact .inr (by omega)
    · rw [fa_off]
      omega
    · have none : taken = 0 := by omega
      subst none
      rw [fa_off]
      rcases pages with whole | short
      · exact .inl (by omega)
      · exact .inr (by omega)
  have same : written off.toNat len.toNat src = src := by
    funext k
    rw [written,if_neg (by omega)]
  refine wp_mono (area_write_wp (area_eights a) fits suitable nor_stores src ⟨M,rfl,trivial⟩) ?_
  rintro rc t ⟨rfl,⟨M',rfl,_⟩,content⟩
  rw [same] at content
  exact ⟨rfl,congrArg some content⟩

/-- An erase of whole sectors. -/
theorem spim_erase {off len : UInt32} (fits : off.toNat + len.toNat ≤ a.fa_size.toNat) (aligned : off.toNat % 4096 = 0)
    (sectors : len.toNat % 4096 = 0) (M : Nat → UInt8) :
    (flash_area_erase a.area off len).Wp Nor (fun _ => True) (fun rc t => rc = 0 ∧
      t = some (fill 0xFF M (a.fa_off.toNat + off.toNat) len.toNat)) (some M) := by
  have start := a.off_aligned
  have inside := a.inside
  have fa_off : a.area.fa_off = a.fa_off := rfl
  have sector : a.area.fa_driver.GetInfo.sector_size.toNat = 256 := rfl
  have steps : Steps a.area (fun p => Addressed .SPIM p 1) off.toNat len.toNat := by
    intro d _ more
    obtain ⟨⟨low,high⟩,below⟩ := inside
    rw [fa_off,sector]
    exact ⟨by omega,⟨by omega,by omega⟩,by omega⟩
  have erases : Erases Nor a.area.fa_driver memory There 4096 False fun p => Addressed .SPIM p 1 := nor_erases
  refine wp_mono (area_erase_wp erases fits (Nat.le_trans inside.2 (by decide)) steps ⟨M,rfl,trivial⟩) ?_
  rintro rc t (⟨rfl,⟨M',rfl,_⟩,content⟩ | ⟨never,_⟩)
  · have same : M' = afterErase 4096 256 M (a.fa_off.toNat + off.toNat) len.toNat := content
    subst same
    rw [afterErase_whole (by decide) (by decide) (by omega) sectors]
    exact ⟨rfl,rfl⟩
  · exact never.elim

/-! ### Every request -/

/-- Whatever the driver answers, an erase that fits erases in its area only. -/
theorem erase_within {off len : UInt32} (fits : off.toNat + len.toNat ≤ a.fa_size.toNat) :
    (flash_area_erase (onCalls a.area) off len).All (WithinArea a.area) fun _ => True :=
  all_ite (fun _ => trivial) fun _ => all_ite (fun _ => eraseLoop_within a fits _ _ _ (Nat.lt_succ_self _) rfl) fun _ => trivial

/-- No byte changes that the request must not change. -/
def Kept (request : Request) (M M' : Nat → UInt8) : Prop := ∀ p, ¬ (request.changes = true ∧ a.Holds p) → M' p = M p

theorem spim_kept (request : Request) (M : Nat → UInt8) :
    (perform a.area request).Wp Nor (Left (Kept a request M)) (fun _ _ => True) (some M) := by
  have unchanged : Left (Kept a request M) (some M) := left_some.mpr fun _ _ => rfl
  have framed : request.changes = true → ∀ t, Left (Framed a M) t → Left (Kept a request M) t := by
    rintro changes t ⟨M',rfl,same⟩
    exact left_some.mpr fun p outside => same p fun holds => outside ⟨changes,holds⟩
  have start : Left (Framed a M) (some M) := left_some.mpr fun _ _ => rfl
  by_cases fits : Fits a.fa_size.toNat request
  · cases request with
    | flash_area_read off dst len => exact wp_bind (spim_read a fits dst unchanged) fun _ _ now _ => ⟨now,trivial⟩
    | flash_area_write off src len =>
      have calls := all_translate_keeps (framed rfl) (fun c t within left => wp_weaken (within_framed a within left) (framed rfl))
        (write_within (area_eights a) fits src) start
      rw [write_calls] at calls
      exact wp_bind calls fun _ _ now _ => ⟨now,trivial⟩
    | flash_area_erase off len =>
      have calls := all_translate_keeps (framed rfl) (fun c t within left => wp_weaken (within_framed a within left) (framed rfl))
        (erase_within a fits) start
      rw [erase_calls] at calls
      exact wp_bind calls fun _ _ now _ => ⟨now,trivial⟩
    | flash_area_read_is_empty off dst len =>
      have looked : (FlashMap.flash_area_read_is_empty a.area off dst len).Wp Nor (Left (Kept a (.flash_area_read_is_empty off dst len) M))
          (fun _ _ => True) (some M) := by
        refine wp_bind (spim_read a fits dst unchanged) fun r t now read => ?_
        obtain ⟨rfl,rfl⟩ := read
        exact ⟨now,trivial⟩
      exact wp_bind looked fun _ _ now _ => ⟨now,trivial⟩
  · obtain ⟨dst,refused⟩ := @perform_rejects _ _ a.area _ fits
    rw [refused]
    exact ⟨unchanged,trivial⟩

omit [Bootutil] in
theorem delivered (off len : UInt32) (dst : Buffer) (M : Nat → UInt8) : copy dst 0 M (a.fa_off.toNat + off.toNat) len.toNat =
    copy dst 0 (fun k => M (a.fa_off.toNat + k)) off.toNat len.toNat :=
  copy_congr fun k _ => by rw [Nat.add_assoc]

/-- A request that suits is answered by the bytes of its area. -/
theorem spim_exact {request : Request} (suited : Suited request) (M : Nat → UInt8) :
    (perform a.area request).Wp Nor (fun _ => True) (fun reply t => ∃ M', t = some M' ∧
      Expects a.fa_size.toNat (fun k => M (a.fa_off.toNat + k)) request reply ∧
      ∀ k < a.fa_size.toNat, M' (a.fa_off.toNat + k) = stepped a.fa_size.toNat (fun k => M (a.fa_off.toNat + k)) request k) (some M) := by
  by_cases fits : Fits a.fa_size.toNat request
  · cases request with
    | flash_area_read off dst len =>
      refine wp_bind (spim_read a fits dst trivial) fun r t _ read => ?_
      obtain ⟨rfl,rfl⟩ := read
      exact ⟨trivial,M,rfl,(if_pos fits).mpr ⟨rfl,delivered a off len dst M⟩,fun k _ => by rw [stepped,if_pos fits]; rfl⟩
    | flash_area_write off src len =>
      refine wp_bind (spim_write a fits suited.1 suited.2 src M) fun rc t _ written => ?_
      obtain ⟨rfl,rfl⟩ := written
      refine ⟨trivial,_,rfl,(if_pos fits).mpr rfl,fun k inside => ?_⟩
      rw [stepped,if_pos fits]
      exact combine_shift (N := fun k => M (a.fa_off.toNat + k)) off.toNat src len.toNat rfl
    | flash_area_erase off len =>
      refine wp_bind (spim_erase a fits suited.1 suited.2 M) fun rc t _ erased => ?_
      obtain ⟨rfl,rfl⟩ := erased
      refine ⟨trivial,_,rfl,(if_pos fits).mpr rfl,fun k inside => ?_⟩
      rw [stepped,if_pos fits]
      exact fill_shift (N := fun k => M (a.fa_off.toNat + k)) off.toNat len.toNat rfl
    | flash_area_read_is_empty off dst len =>
      have looked : (FlashMap.flash_area_read_is_empty a.area off dst len).Wp Nor (fun _ => True) (fun r t =>
          t = some M ∧ Answered (fun k => M (a.fa_off.toNat + k)) (.flash_area_read_is_empty off dst len) ⟨r.1,r.2⟩) (some M) := by
        refine wp_bind (spim_read a fits dst trivial) fun r t _ read => ?_
        obtain ⟨rfl,rfl⟩ := read
        exact ⟨trivial,rfl,answered_empty rfl (delivered a off len dst M)⟩
      refine wp_bind looked fun r t _ checked => ?_
      obtain ⟨rfl,answered⟩ := checked
      exact ⟨trivial,M,rfl,(if_pos fits).mpr answered,fun k _ => by rw [stepped,if_pos fits]; rfl⟩
  · obtain ⟨dst,refused⟩ := @perform_rejects _ _ a.area _ fits
    rw [refused]
    refine ⟨trivial,M,rfl,(if_neg fits).mpr (error_refused request dst),fun k inside => ?_⟩
    rw [stepped,if_neg fits]

/-- Every request to an area of the NOR flash. -/
theorem spim_perform (request : Request) (M : Nat → UInt8) :
    (perform a.area request).Wp Nor (Left (Kept a request M)) (fun reply t => ∃ M', t = some M' ∧
      Replies a.fa_off.toNat a.fa_size.toNat (Suited request) request M reply M') (some M) := by
  by_cases suited : Suited request
  · refine wp_weaken (wp_mono (wp_last (wp_and (spim_kept a request M) (spim_exact a suited M))) ?_) fun _ way => way.1
    rintro reply _ ⟨⟨left,_⟩,_,M',rfl,exact_⟩
    exact ⟨M',rfl,left_some.mp left,fun _ => exact_⟩
  · refine wp_mono (wp_last (spim_kept a request M)) ?_
    rintro reply _ ⟨⟨M',rfl,kept⟩,_⟩
    exact ⟨M',rfl,kept,fun suits => absurd suits suited⟩

end
end NuMicroBoot.NorAreas
