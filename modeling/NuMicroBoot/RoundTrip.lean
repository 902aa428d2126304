import NuMicroBoot.AreaRuns

/-!
Writing into erased flash and reading back. The comment above `flash_area_write`
promises any alignment of `off` and `len`. Behind a first program unit that
starts before `off`, the call that programs the whole units passes `src` where
the bytes from `src_written_idx` on are due.
-/

namespace NuMicroBoot.RoundTrip
open NuMicroBoot.Calls NuMicroBoot.Calls.Prog NuMicroBoot.Cells NuMicroBoot.Driver NuMicroBoot.Nvmc
open NuMicroBoot.FlashMap NuMicroBoot.AreaPlans NuMicroBoot.WritePlans NuMicroBoot.AreaRuns

variable {bsp : Bsp}

def writeThenRead [Bootutil] (a : InternalArea bsp) (off : UInt32) (src dst : Buffer) (len : UInt32) :
    Prog interface (Int32 × Int32 × Buffer) := do
  let written ← flash_area_write a.area off src len
  let (read,dst) ← flash_area_read a.area off dst len
  .ret (written,read,dst)

/-- Both calls return 0 and the buffer holds the source. -/
def RoundTrips [Bootutil] (a : InternalArea bsp) (off : UInt32) (src dst : Buffer) (len : UInt32) (M : Content) : Prop :=
  ∃ dst' M', (writeThenRead a off src dst len).run (machine bsp) M = some ((0,0,dst'),M') ∧ ∀ k < len.toNat, dst' k = src k

/-- The bytes of the range are 0xFF. -/
def Erased (a : InternalArea bsp) (off len : UInt32) (M : Content) : Prop :=
  ∀ k < len.toNat, M (a.fa_off.toNat + off.toNat + k) = 0xFF

/-- The whole units behind the first one hold, in the source, what the source starts with. -/
def MiddleRepeats (off len : Nat) (src : Buffer) : Prop :=
  ∀ j < 8 * ((len - (8 - off % 8)) / 8), src (8 - off % 8 + j) = src j

theorem run_writeThenRead [Bootutil] (a : InternalArea bsp) {off len : UInt32}
    (fits : off.toNat + len.toNat ≤ a.fa_size.toNat) (src dst : Buffer) (M : Content) {M' : Content}
    (done : M' = combine (· &&& ·) M (a.fa_off.toNat + off.toNat) (written off.toNat len.toNat src) len.toNat) :
    (writeThenRead a off src dst len).run (machine bsp) M =
      some ((0,0,copy dst 0 M' (a.fa_off.toNat + off.toNat) len.toNat),M') := by
  rw [writeThenRead,run_bind_of_eq (run_write a fits src M),run_bind_of_eq (run_read a fits dst _),done]
  rfl

/-- On erased flash the bytes read back are the ones the write programs. -/
theorem roundTrips_iff_written [Bootutil] (a : InternalArea bsp) {off len : UInt32} {M : Content}
    (fits : off.toNat + len.toNat ≤ a.fa_size.toNat) (erased : Erased a off len M) (src dst : Buffer) :
    RoundTrips a off src dst len M ↔ ∀ k < len.toNat, written off.toNat len.toNat src k = src k := by
  have ran := run_writeThenRead a fits src dst M rfl
  have read : ∀ k < len.toNat, copy dst 0 (combine (· &&& ·) M (a.fa_off.toNat + off.toNat)
      (written off.toNat len.toNat src) len.toNat) (a.fa_off.toNat + off.toNat) len.toNat k =
      written off.toNat len.toNat src k := by
    intro k inside
    simp only [copy,combine]
    rw [if_pos (by omega),if_pos (by omega),Nat.sub_zero,erased k inside,erased_and,Nat.add_sub_cancel_left]
  constructor
  · rintro ⟨dst',M',ran',same⟩ k inside
    rw [ran] at ran'
    cases ran'
    rw [← read k inside,same k inside]
  · exact fun same => ⟨_,_,ran,fun k inside => (read k inside).trans (same k inside)⟩

theorem written_eq_iff (off len : Nat) (src : Buffer) : (∀ k < len, written off len src k = src k) ↔
    off % 8 = 0 ∨ len < 16 - off % 8 ∨ MiddleRepeats off len src := by
  have part := Nat.mod_lt off (show 0 < 8 by decide)
  constructor
  · intro same
    by_cases aligned : off % 8 = 0
    · exact .inl aligned
    · refine .inr (.inr fun j inside => ?_)
      rw [← same _ (by omega),written_middle src aligned inside]
  · intro condition k inside
    by_cases around : k < 8 - off % 8 ∨ 8 - off % 8 + 8 * ((len - (8 - off % 8)) / 8) ≤ k
    · exact written_around src around
    rcases condition with aligned | short | repeats
    · simp [written,aligned]
    · omega
    · have place : k = 8 - off % 8 + (k - (8 - off % 8)) := by omega
      by_cases aligned : off % 8 = 0
      · simp [written,aligned]
      · rw [place,written_middle src aligned (by omega),repeats _ (by omega)]

/-- A write into erased flash is read back exactly when it starts at a program unit, ends before a whole unit
    behind its first, or has a source that repeats there. -/
theorem round_trip_iff [Bootutil] (a : InternalArea bsp) (off len : UInt32) (src dst : Buffer) (M : Content)
    (fits : off.toNat + len.toNat ≤ a.fa_size.toNat) (erased : Erased a off len M) :
    RoundTrips a off src dst len M ↔
      off.toNat % 8 = 0 ∨ len.toNat < 16 - off.toNat % 8 ∨ MiddleRepeats off.toNat len.toNat src := by
  rw [roundTrips_iff_written a fits erased,written_eq_iff]

theorem round_trip_iff_at_four : @RoundTrips _ bootutil primary 4 (fun k => UInt8.ofNat k) (fun _ => 0) 11 (fun _ => 0xFF) ↔
    4 % 8 = 0 ∨ 11 < 16 - 4 % 8 ∨ MiddleRepeats 4 11 fun k => UInt8.ofNat k :=
  @round_trip_iff _ bootutil primary 4 11 (fun k => UInt8.ofNat k) (fun _ => 0) (fun _ => 0xFF) (by decide)
    (fun _ _ => rfl)

/-- Sixteen different bytes at offset 4 of an erased slot: bytes 4 to 11 come back as bytes 0 to 7. -/
theorem round_trip_lost : ¬ @RoundTrips _ bootutil primary 4 (fun k => UInt8.ofNat (k + 1)) (fun _ => 0) 16 (fun _ => 0xFF) := by
  rw [@roundTrips_iff_written _ bootutil primary 4 16 (fun _ => 0xFF) (by decide) (fun _ _ => rfl)]
  intro same
  exact absurd (same 4 (by decide)) (by decide)

end NuMicroBoot.RoundTrip
