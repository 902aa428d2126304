import NuMicroBoot.FlashMap

/-!
Requests to the flash map and sessions of them: any number of reads, writes,
erases and emptiness checks on areas of one map, one after the other.
-/

namespace NuMicroBoot.Requests
open NuMicroBoot.Calls NuMicroBoot.Driver NuMicroBoot.FlashMap

/-- A call of the flash map on an area, with its data. -/
inductive Request
  | flash_area_read (off : UInt32) (dst : Buffer) (len : UInt32)
  | flash_area_write (off : UInt32) (src : Buffer) (len : UInt32)
  | flash_area_erase (off len : UInt32)
  | flash_area_read_is_empty (off : UInt32) (dst : Buffer) (len : UInt32)

/-- What the caller gets: the returned value, and the buffer where there is one to fill. -/
structure Reply where
  rc : Int32
  dst : Buffer

/-- The range of a request. -/
def Request.off : Request → UInt32
  | .flash_area_read off _ _ => off
  | .flash_area_write off _ _ => off
  | .flash_area_erase off _ => off
  | .flash_area_read_is_empty off _ _ => off
def Request.len : Request → UInt32
  | .flash_area_read _ _ len => len
  | .flash_area_write _ _ len => len
  | .flash_area_erase _ len => len
  | .flash_area_read_is_empty _ _ len => len

/-- Writes and erases name the area they may change. -/
def Request.changes : Request → Bool
  | .flash_area_read _ _ _ => false
  | .flash_area_write _ _ _ => true
  | .flash_area_erase _ _ => true
  | .flash_area_read_is_empty _ _ _ => false

variable {I : Interface} [Bootutil]

def perform (area : flash_area I) : Request → Prog I Reply
  | .flash_area_read off dst len => do
    let (rc,dst) ← FlashMap.flash_area_read area off dst len
    .ret ⟨rc,dst⟩
  | .flash_area_write off src len => do
    let rc ← FlashMap.flash_area_write area off src len
    .ret ⟨rc,src⟩
  | .flash_area_erase off len => do
    let rc ← FlashMap.flash_area_erase area off len
    .ret ⟨rc,stackArray⟩
  | .flash_area_read_is_empty off dst len => do
    let (rc,dst) ← FlashMap.flash_area_read_is_empty area off dst len
    .ret ⟨rc,dst⟩

/-- Requests one after the other, each with the place of its area in the map. -/
def session {n : Nat} (areas : Fin n → flash_area I) : List (Fin n × Request) → Prog I (List Reply)
  | [] => .ret []
  | (i,request) :: rest => do
    let reply ← perform (areas i) request
    let replies ← session areas rest
    .ret (reply :: replies)

/-- The request reports success. -/
def Reply.Success (request : Request) (reply : Reply) : Prop :=
  match request with
  | .flash_area_read_is_empty _ _ _ => reply.rc = 0 ∨ reply.rc = 1
  | _ => reply.rc = 0

/-- The request reports an error. -/
def Reply.Error (request : Request) (reply : Reply) : Prop :=
  match request with
  | .flash_area_read_is_empty _ _ _ => reply.rc = -1
  | _ => reply.rc ≠ 0

omit [Bootutil] in
theorem error_refused (request : Request) (dst : Buffer) : Reply.Error request ⟨-1,dst⟩ := by
  cases request <;> simp [Reply.Error]

end NuMicroBoot.Requests
