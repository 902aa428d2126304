import Mathlib.Logic.Function.Basic
import NuMicroBoot.Emptiness
import NuMicroBoot.Requests

/-!
The flash map over the internal flash as a byte array for each area: a read
gives bytes, a write clears bits, an erase sets bytes to 0xFF, and a check tells
whether bytes are all 0xFF. Sessions on the flash and on the arrays agree.
-/

namespace NuMicroBoot.Refinement
open NuMicroBoot.Calls NuMicroBoot.Calls.Prog NuMicroBoot.Cells NuMicroBoot.Words NuMicroBoot.Driver NuMicroBoot.Nvmc
open NuMicroBoot.FlashMap NuMicroBoot.AreaPlans NuMicroBoot.WritePlans NuMicroBoot.AreaRuns NuMicroBoot.Requests

variable {bsp : Bsp}

/-! ### Byte arrays -/

/-- An array for each area, by offset, and the bytes that belong to no area. -/
structure Arrays (map : InternalMap bsp) where
  area : Fin map.flash_map_entry_num → Nat → UInt8
  rest : Content

/-- What a request makes of the array of its area. -/
def applied (bytes : Nat → UInt8) : Request → Nat → UInt8
  | .flash_area_read _ _ _ => bytes
  | .flash_area_write off src len => combine (· &&& ·) bytes off.toNat src len.toNat
  | .flash_area_erase off len => fill 0xFF bytes off.toNat len.toNat
  | .flash_area_read_is_empty _ _ _ => bytes

variable {map : InternalMap bsp}

def FitsIn (map : InternalMap bsp) (r : Fin map.flash_map_entry_num × Request) : Prop :=
  r.2.off.toNat + r.2.len.toNat ≤ (map.flash_map r.1).fa_size.toNat

instance (r : Fin map.flash_map_entry_num × Request) : Decidable (FitsIn map r) := inferInstanceAs (Decidable (_ ≤ _))

def Arrays.step (arrays : Arrays map) (r : Fin map.flash_map_entry_num × Request) : Arrays map :=
  if FitsIn map r then { arrays with area := Function.update arrays.area r.1 (applied (arrays.area r.1) r.2) } else arrays

def Arrays.run (arrays : Arrays map) (requests : List (Fin map.flash_map_entry_num × Request)) : Arrays map :=
  requests.foldl Arrays.step arrays

/-- The reply of an array to a request whose range it has: 0, and for a read the bytes. The check gives the bytes too, and
    returns 1 where all of them are erased. -/
def Answered (bytes : Nat → UInt8) : Request → Reply → Prop
  | .flash_area_read off dst len, reply => reply.rc = 0 ∧ reply.dst = copy dst 0 bytes off.toNat len.toNat
  | .flash_area_write _ _ _, reply => reply.rc = 0
  | .flash_area_erase _ _, reply => reply.rc = 0
  | .flash_area_read_is_empty off dst len, reply =>
    reply.rc = (if ∀ k < len.toNat, bytes (off.toNat + k) = 0xFF then 1 else 0) ∧
      reply.dst = copy dst 0 bytes off.toNat len.toNat

/-- The reply the arrays ask for, an error where the range does not fit. -/
def Arrays.Expects (arrays : Arrays map) (r : Fin map.flash_map_entry_num × Request) (reply : Reply) : Prop :=
  if FitsIn map r then Answered (arrays.area r.1) r.2 reply else reply.Error r.2

/-- The replies of a whole session, each by the arrays its request meets. -/
def Arrays.ExpectsAll : Arrays map → List (Fin map.flash_map_entry_num × Request) → List Reply → Prop
  | _, [], [] => True
  | arrays, r :: rest, reply :: replies => arrays.Expects r reply ∧ (arrays.step r).ExpectsAll rest replies
  | _, _, _ => False

/-- The requests that the arrays describe: any read or check, writes from a program unit on, erases of whole sectors. -/
def Aligned (bsp : Bsp) : Request → Prop
  | .flash_area_read _ _ _ => True
  | .flash_area_write off _ _ => off.toNat % 8 = 0
  | .flash_area_erase off len => off.toNat % bsp.FLASH_PAGE_SIZE.toNat = 0 ∧ len.toNat % bsp.FLASH_PAGE_SIZE.toNat = 0
  | .flash_area_read_is_empty _ _ _ => True

/-! ### Agreement -/

/-- The flash holds the arrays. -/
structure Agrees (arrays : Arrays map) (M : Content) : Prop where
  area : ∀ i, ∀ k < (map.flash_map i).fa_size.toNat, M ((map.flash_map i).fa_off.toNat + k) = arrays.area i k
  rest : ∀ p, (∀ i, ¬ (map.flash_map i).Holds p) → M p = arrays.rest p

/-- The check of a buffer that holds bytes of the array. -/
theorem answered_empty {I : Interface} {fa : flash_area I} (erased_val : flash_area_erased_val fa = 0xFF) {off len : UInt32}
    {dst dst' : Buffer} {bytes : Nat → UInt8} (delivered : dst' = copy dst 0 bytes off.toNat len.toNat) :
    Answered bytes (.flash_area_read_is_empty off dst len) ⟨emptyLoop fa dst' len len.toNat 0,dst'⟩ := by
  refine ⟨?_,delivered⟩
  have value : ∀ k < len.toNat, dst' k = bytes (off.toNat + k) := by
    intro k inside
    rw [delivered,copy,if_pos (by omega),Nat.sub_zero]
  have all : (∀ k < len.toNat, dst' k = 0xFF) ↔ ∀ k < len.toNat, bytes (off.toNat + k) = 0xFF :=
    forall₂_congr fun k inside => by rw [value k inside]
  dsimp only
  rw [Emptiness.emptyLoop_eq,erased_val]
  exact if_congr all rfl rfl

/-- A change of one area. -/
theorem agrees_update {arrays : Arrays map} {M M' : Content} (agrees : Agrees arrays M)
    (i : Fin map.flash_map_entry_num) (bytes : Nat → UInt8)
    (inside : ∀ k < (map.flash_map i).fa_size.toNat, M' ((map.flash_map i).fa_off.toNat + k) = bytes k)
    (outside : ∀ p, ¬ (map.flash_map i).Holds p → M' p = M p) :
    Agrees { arrays with area := Function.update arrays.area i bytes } M' := by
  refine ⟨fun j k below => ?_,fun p free => ?_⟩
  · by_cases same : j = i
    · subst same
      show M' _ = Function.update arrays.area j bytes j k
      rw [Function.update_self]
      exact inside k below
    · show M' _ = Function.update arrays.area i bytes j k
      rw [Function.update_of_ne same,outside _ (holds_one map same ⟨by omega,by omega⟩)]
      exact agrees.area j k below
  · rw [outside p (free i)]
    exact agrees.rest p free

theorem agrees_same {arrays : Arrays map} {M : Content} (agrees : Agrees arrays M) (i : Fin map.flash_map_entry_num) :
    Agrees { arrays with area := Function.update arrays.area i (arrays.area i) } M := by
  rw [Function.update_eq_self]
  exact agrees

/-! ### Sessions -/

theorem perform_refines [Bootutil] {arrays : Arrays map} {M : Content} (agrees : Agrees arrays M)
    (r : Fin map.flash_map_entry_num × Request) (aligned : Aligned bsp r.2) : ∃ reply M',
    (perform (map.areas r.1) r.2).run (machine bsp) M = some (reply,M') ∧ arrays.Expects r reply ∧
      Agrees (arrays.step r) M' := by
  obtain ⟨i,request⟩ := r
  by_cases fits : FitsIn map (i,request)
  · simp only [Arrays.step,Arrays.Expects,fits,if_true]
    have held := agrees.area i
    cases request with
    | flash_area_read off dst len =>
      have inside : off.toNat + len.toNat ≤ (map.flash_map i).fa_size.toNat := fits
      refine ⟨_,_,run_bind_of_eq (run_read (map.flash_map i) inside dst M) _,⟨rfl,?_⟩,agrees_same agrees i⟩
      exact copy_congr fun k below => by rw [Nat.add_assoc,held _ (by omega)]
    | flash_area_write off src len =>
      have inside : off.toNat + len.toNat ≤ (map.flash_map i).fa_size.toNat := fits
      have same : written off.toNat len.toNat src = src := by
        funext j
        rw [written,if_neg (by simp [show off.toNat % 8 = 0 from aligned])]
      refine ⟨_,_,run_bind_of_eq (run_write (map.flash_map i) inside src M) _,rfl,?_⟩
      rw [same]
      refine agrees_update agrees i _ (fun k below => ?_) fun p outside => combine_outside _ _ _ _ _ p fun range => ?_
      · exact combine_shift _ _ _ (held k below)
      · exact outside ⟨by omega,by omega⟩
    | flash_area_erase off len =>
      have inside : off.toNat + len.toNat ≤ (map.flash_map i).fa_size.toNat := fits
      have whole := sectorsFor_whole (map.flash_map i).sound.page.1 aligned.2
      refine ⟨_,_,run_bind_of_eq (run_erase (map.flash_map i) inside aligned.1 M) _,rfl,?_⟩
      rw [whole]
      refine agrees_update agrees i _ (fun k below => ?_) fun p outside => fill_outside _ _ _ _ p fun range => ?_
      · exact fill_shift _ _ (held k below)
      · exact outside ⟨by omega,by omega⟩
    | flash_area_read_is_empty off dst len =>
      have inside : off.toNat + len.toNat ≤ (map.flash_map i).fa_size.toNat := fits
      have delivered : copy dst 0 M ((map.flash_map i).fa_off.toNat + off.toNat) len.toNat =
          copy dst 0 (arrays.area i) off.toNat len.toNat := copy_congr fun k below => by rw [Nat.add_assoc,held _ (by omega)]
      have checked : (FlashMap.flash_area_read_is_empty (map.areas i) off dst len).run (machine bsp) M = some (_,M) :=
        run_bind_of_eq (run_read (map.flash_map i) inside dst M) _
      refine ⟨_,_,run_bind_of_eq checked _,?_,agrees_same agrees i⟩
      exact answered_empty (Emptiness.erased_val_eq (map.flash_map i)) delivered
  · simp only [Arrays.step,Arrays.Expects,fits,if_false]
    cases request with
    | flash_area_read off dst len =>
      exact ⟨_,_,run_bind_of_eq (run_read_rejects (map.flash_map i) fits dst M) _,by simp [Reply.Error],agrees⟩
    | flash_area_write off src len =>
      exact ⟨_,_,run_bind_of_eq (run_write_rejects (map.flash_map i) fits src M) _,by simp [Reply.Error],agrees⟩
    | flash_area_erase off len =>
      exact ⟨_,_,run_bind_of_eq (run_erase_rejects (map.flash_map i) fits M) _,by simp [Reply.Error],agrees⟩
    | flash_area_read_is_empty off dst len =>
      have refused : (FlashMap.flash_area_read_is_empty (map.areas i) off dst len).run (machine bsp) M = some ((-1,dst),M) :=
        run_bind_of_eq (run_read_rejects (map.flash_map i) fits dst M) _
      exact ⟨_,_,run_bind_of_eq refused _,rfl,agrees⟩

/-- Every session on the flash replies as the arrays do and leaves the flash with their bytes. -/
theorem session_refines [Bootutil] (map : InternalMap bsp) (requests : List (Fin map.flash_map_entry_num × Request))
    (aligned : ∀ r ∈ requests, Aligned bsp r.2) (arrays : Arrays map) (M : Content) (agrees : Agrees arrays M) :
    ∃ replies M', (session map.areas requests).run (machine bsp) M = some (replies,M') ∧
      arrays.ExpectsAll requests replies ∧ Agrees (arrays.run requests) M' := by
  induction requests generalizing arrays M with
  | nil => exact ⟨[],M,rfl,trivial,agrees⟩
  | cons r rest ih =>
    obtain ⟨reply,M₁,ran,expected,agrees₁⟩ := perform_refines agrees r (aligned r (by simp))
    obtain ⟨replies,M₂,ranRest,expectedRest,agrees₂⟩ :=
      ih (fun s member => aligned s (by simp [member])) (arrays.step r) M₁ agrees₁
    refine ⟨reply :: replies,M₂,?_,⟨expected,expectedRest⟩,agrees₂⟩
    rw [session,run_bind_of_eq ran,run_bind_of_eq ranRest]
    rfl

/-- The arrays that a content holds. -/
def held (map : InternalMap bsp) (M : Content) : Arrays map where
  area i k := M ((map.flash_map i).fa_off.toNat + k)
  rest := M

theorem agrees_held (M : Content) : Agrees (held map M) M := ⟨fun _ _ _ => rfl,fun _ _ => rfl⟩

/-- Erasing the secondary slot, writing four bytes into it, reading it at an odd place and checking a part of it. -/
def update : List (Fin slots.flash_map_entry_num × Request) :=
  [(secondaryIndex,.flash_area_erase 0 0x8000),(secondaryIndex,.flash_area_write 8 (fun _ => 5) 4),
    (secondaryIndex,.flash_area_read 5 stackArray 9),(secondaryIndex,.flash_area_read_is_empty 3 stackArray 6),
    (primaryIndex,.flash_area_read 0xFFFFFFFF stackArray 2)]

theorem session_refines_update : ∃ replies M',
    (@session _ bootutil _ slots.areas update).run (machine board) (fun _ => 0) = some (replies,M') ∧
      (held slots fun _ => 0).ExpectsAll update replies ∧ Agrees ((held slots fun _ => 0).run update) M' :=
  @session_refines _ bootutil slots update (by
    intro r member
    simp only [update,List.mem_cons,List.not_mem_nil,or_false] at member
    rcases member with rfl | rfl | rfl | rfl | rfl
    · simp [Aligned]
      decide
    all_goals simp [Aligned]) _ _ (agrees_held _)

end NuMicroBoot.Refinement
