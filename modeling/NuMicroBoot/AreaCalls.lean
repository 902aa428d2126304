import NuMicroBoot.Requests
import NuMicroBoot.WriteAlignment

/-!
Every operation of the flash map is one program over the functions of a driver.
So an area whose driver is carried out by other programs does what they make of
its requests.
-/

namespace NuMicroBoot.AreaCalls
open NuMicroBoot.Calls NuMicroBoot.Calls.Prog NuMicroBoot.Driver NuMicroBoot.FlashMap NuMicroBoot.DriverReads NuMicroBoot.Requests
open NuMicroBoot.AreaPlans NuMicroBoot.WriteAlignment

/-! ### Operations over the functions of a driver -/

section
variable {I : Interface} (area : flash_area I)

theorem eraseLoop_calls (len : UInt32) (rounds : Nat) : ∀ off deleted_len : UInt32,
    (eraseLoop (onCalls area) len rounds off deleted_len).translate (carryOut area.fa_driver) =
      eraseLoop area len rounds off deleted_len := by
  induction rounds with
  | zero =>
    intro off deleted_len
    rfl
  | succ rounds ih =>
    intro off deleted_len
    unfold eraseLoop
    refine translate_ite ?_ rfl
    show (area.fa_driver.EraseSector (area.fa_off + off) >>= fun rc => Prog.translate (carryOut area.fa_driver)
      (if rc ≠ 0 then .ret rc else eraseLoop (onCalls area) len rounds _ _)) = _
    congr 1
    funext rc
    exact translate_ite rfl (ih _ _)

theorem emptyLoop_calls (u8dst : Buffer) (len : UInt32) (rounds : Nat) : ∀ i : UInt32,
    emptyLoop (onCalls area) u8dst len rounds i = emptyLoop area u8dst len rounds i := by
  induction rounds with
  | zero =>
    intro i
    rfl
  | succ rounds ih =>
    intro i
    unfold emptyLoop
    rw [ih]
    rfl

variable [Bootutil]

theorem erase_calls (off len : UInt32) :
    (flash_area_erase (onCalls area) off len).translate (carryOut area.fa_driver) = flash_area_erase area off len := by
  unfold flash_area_erase
  exact translate_ite rfl (translate_ite (eraseLoop_calls area len _ _ _) rfl)

theorem is_empty_calls (off : UInt32) (dst : Buffer) (len : UInt32) :
    (FlashMap.flash_area_read_is_empty (onCalls area) off dst len).translate (carryOut area.fa_driver) =
      FlashMap.flash_area_read_is_empty area off dst len := by
  unfold FlashMap.flash_area_read_is_empty
  refine translate_area_read area _ _ fun r => translate_ite rfl ?_
  rw [emptyLoop_calls]
  rfl

/-- Every request is the same program over the functions of the driver of its area. -/
theorem perform_calls (request : Request) :
    (perform (onCalls area) request).translate (carryOut area.fa_driver) = perform area request := by
  cases request with
  | flash_area_read off dst len => exact translate_area_read area _ _ fun _ => rfl
  | flash_area_write off src len =>
    unfold perform
    rw [translate_bind,write_calls]
    rfl
  | flash_area_erase off len =>
    unfold perform
    rw [translate_bind,erase_calls]
    rfl
  | flash_area_read_is_empty off dst len =>
    unfold perform
    rw [translate_bind,is_empty_calls]
    rfl

end

/-- A request whose range does not fit is refused. -/
theorem perform_rejects [Bootutil] {I : Interface} {area : flash_area I} {request : Request}
    (outside : ¬ request.off.toNat + request.len.toNat ≤ area.fa_size.toNat) :
    ∃ dst, perform area request = .ret ⟨-1,dst⟩ := by
  have invalid : ∀ off len : UInt32, ¬ off.toNat + len.toNat ≤ area.fa_size.toNat → is_range_valid area off len = false := by
    intro off len outside
    rw [is_range_valid_eq]
    exact decide_eq_false outside
  cases request with
  | flash_area_read off dst len =>
    have refused : flash_area_read area off dst len = .ret (-1,dst) := read_rejects outside dst
    exact ⟨dst,by rw [perform,refused]; rfl⟩
  | flash_area_write off src len =>
    exact ⟨src,by rw [perform,FlashMap.flash_area_write,invalid off len outside]; rfl⟩
  | flash_area_erase off len =>
    exact ⟨stackArray,by rw [perform,FlashMap.flash_area_erase,invalid off len outside]; rfl⟩
  | flash_area_read_is_empty off dst len =>
    have refused : flash_area_read area off dst len = .ret (-1,dst) := read_rejects outside dst
    exact ⟨dst,by rw [perform,FlashMap.flash_area_read_is_empty,refused]; rfl⟩

/-! ### Areas carried out by other programs -/

section
variable {I J : Interface} {α : Type}

theorem translate_translate {K : Interface} (impl : (c : I.Call) → Prog J (I.Answer c)) (impl' : (c : J.Call) → Prog K (J.Answer c))
    (p : Prog I α) : (p.translate impl).translate impl' = p.translate fun c => (impl c).translate impl' := by
  induction p with
  | ret a => rfl
  | call c next ih =>
    show (impl c >>= fun a => (next a).translate impl).translate impl' = _
    rw [translate_bind,funext ih]
    rfl
  | spin => rfl

/-- The area on a driver whose calls are carried out by other programs. -/
def carried (impl : (c : I.Call) → Prog J (I.Answer c)) (area : flash_area I) : flash_area J where
  fa_id := area.fa_id
  fa_device_id := area.fa_device_id
  fa_driver := area.fa_driver.translate impl
  fa_off := area.fa_off
  fa_size := area.fa_size

/-- So are its requests. -/
theorem perform_carried [Bootutil] (impl : (c : I.Call) → Prog J (I.Answer c)) (area : flash_area I) (request : Request) :
    perform (carried impl area) request = (perform area request).translate impl := by
  have calls : onCalls (carried impl area) = onCalls area := rfl
  have functions : carryOut (carried impl area).fa_driver = fun c => (carryOut area.fa_driver c).translate impl := by
    funext c
    cases c <;> rfl
  rw [← perform_calls (carried impl area),calls,functions,← translate_translate,perform_calls]

end
end NuMicroBoot.AreaCalls
