import NuMicroBoot.Driver

/-!
The flash map layer of `flash_map.c`: reading, writing and erasing at an offset
of a flash area, over whatever driver the area has. `flash_area_read_is_empty`
is from `flash_map_extended.c`.
-/

namespace NuMicroBoot.FlashMap
open NuMicroBoot.Calls NuMicroBoot.Cells NuMicroBoot.Words NuMicroBoot.Driver

/-- What the flash map uses of MCUboot's `bootutil`, which is not part of this repository:
    the sum of two 32-bit numbers, refused exactly when it overflows. -/
class Bootutil where
  boot_u32_safe_add : UInt32 → UInt32 → Option UInt32
  safe_add_spec : ∀ a b, boot_u32_safe_add a b = if a.toNat + b.toNat < 2 ^ 32 then some (a + b) else none

/-- The sum as MCUboot computes it. -/
@[reducible] def bootutil : Bootutil where
  boot_u32_safe_add a b := if a > 0xFFFFFFFF - b then none else some (a + b)
  safe_add_spec a b := by
    have bound := b.toNat_lt
    have rest : ((0xFFFFFFFF : UInt32) - b).toNat = 2 ^ 32 - 1 - b.toNat := toNat_sub_of_le (by simp; omega)
    by_cases fits : a.toNat + b.toNat < 2 ^ 32
    · rw [if_pos fits,if_neg]
      rw [gt_iff_lt,UInt32.lt_iff_toNat_lt,rest]
      omega
    · rw [if_neg fits,if_pos]
      rw [gt_iff_lt,UInt32.lt_iff_toNat_lt,rest]
      omega

/-- `TFM_HAL_FLASH_PROGRAM_UNIT` is 0x8 in the `flash_layout.h` of every platform. -/
def FLASH_PROGRAM_UNIT : UInt32 := 0x8

def FLOOR_ALIGN (value alignment : UInt32) : UInt32 := value &&& ~~~(alignment - 1)
def CEILING_ALIGN (value alignment : UInt32) : UInt32 := (value + (alignment - 1)) &&& ~~~(alignment - 1)

structure flash_area (I : Interface) where
  fa_id : UInt8
  fa_device_id : UInt8
  fa_driver : ARM_DRIVER_FLASH I
  fa_off : UInt32
  fa_size : UInt32

variable {I : Interface}

/-- The area is never NULL here. -/
def is_range_valid [Bootutil] (area : flash_area I) (off len : UInt32) : Bool :=
  match Bootutil.boot_u32_safe_add off len with
  | none => false
  | some size => if area.fa_size < size then false else true

/-- An array on the stack before anything is stored in it; no byte is used before that. -/
def stackArray : Buffer := fun _ => 0

/-! ### Reading -/

/-- `for (i = start; i < limit; i++) dst[to] = src[from]` with an 8-bit counter. -/
def copyLoop (src : Buffer) (dstIdx srcIdx : UInt8 → UInt32) (limit : UInt32) :
    (rounds : Nat) → (dst : Buffer) → (i : UInt8) → Buffer × UInt8
  | 0, dst, i => (dst,i)
  | rounds + 1, dst, i =>
    if i.toUInt32 < limit then
      copyLoop src dstIdx srcIdx limit rounds (copy dst (dstIdx i).toNat src (srcIdx i).toNat 1) (i + 1)
    else (dst,i)

section
variable (area : flash_area I) (off : UInt32) (data_width : UInt32)

/-- Third part of `flash_area_read`: the bytes after the last whole item. -/
def readRest (dst temp_buffer : Buffer) (status : Int32) (i : UInt8) (item_number remaining_len : UInt32) :
    Prog I (Int32 × Buffer) :=
  if remaining_len ≠ 0 then do
    let (status,temp_buffer) ← area.fa_driver.ReadData
      (area.fa_off + off + i.toUInt32 + item_number * data_width) temp_buffer 0 1
    if status < 0 then .ret (status,dst) else
      let (dst,_) := copyLoop temp_buffer (fun j => i.toUInt32 + item_number * data_width + j.toUInt32)
        (fun j => j.toUInt32) remaining_len 256 dst 0
      .ret (if status < 0 then status else 0,dst)
  else .ret (if status < 0 then status else 0,dst)

/-- Second part of `flash_area_read`: the whole items. `item_number` is left unset where
    nothing remains, and is then not used. -/
def readItems (dst temp_buffer : Buffer) (status : Int32) (i : UInt8) (remaining_len : UInt32) :
    Prog I (Int32 × Buffer) :=
  if remaining_len ≠ 0 then
    let item_number := remaining_len / data_width
    if item_number ≠ 0 then do
      let (status,dst) ← area.fa_driver.ReadData (area.fa_off + off + i.toUInt32) dst i.toNat item_number
      if status < 0 then .ret (status,dst) else
        readRest area off data_width dst temp_buffer status i item_number (remaining_len - item_number * data_width)
    else readRest area off data_width dst temp_buffer status i item_number remaining_len
  else readRest area off data_width dst temp_buffer status i 0 remaining_len
end

def flash_area_read [Bootutil] (area : flash_area I) (off : UInt32) (dst : Buffer) (len : UInt32) :
    Prog I (Int32 × Buffer) :=
  if !is_range_valid area off len then .ret (-1,dst) else
    let data_width := data_width_byte area.fa_driver.GetCapabilities.data_width
    let aligned_off := FLOOR_ALIGN off data_width
    if aligned_off ≠ off then do
      let (status,temp_buffer) ← area.fa_driver.ReadData (area.fa_off + aligned_off) stackArray 0 1
      if status < 0 then .ret (status,dst) else
        let read_length := if off - aligned_off + len ≥ data_width then data_width - (off - aligned_off) else len
        let (dst,i) := copyLoop temp_buffer (fun i => i.toUInt32) (fun i => i.toUInt32 + off - aligned_off)
          read_length 256 dst 0
        readItems area off data_width dst temp_buffer status i (len - read_length)
    else readItems area off data_width dst stackArray 0 0 len

/-! ### Writing -/

/-- `for (; i < FLASH_PROGRAM_UNIT && k < limit; i++, k++) add_padding[i] = from[k]`. -/
def fillLoop (src : Buffer) (limit : UInt32) :
    (rounds : Nat) → (add_padding : Buffer) → (i k : UInt32) → Buffer × UInt32 × UInt32
  | 0, add_padding, i, k => (add_padding,i,k)
  | rounds + 1, add_padding, i, k =>
    if i < FLASH_PROGRAM_UNIT ∧ k < limit then
      fillLoop src limit rounds (copy add_padding i.toNat src k.toNat 1) (i + 1) (k + 1)
    else (add_padding,i,k)

section
variable (area : flash_area I) (off : UInt32) (src : Buffer) (len data_width : UInt32)
  (aligned_len add_padding_size len_padding_size : UInt32) (len_padding : Buffer)

/-- Last part of `flash_area_write`: the last program unit. -/
def writeLast (add_padding : Buffer) (src_written_idx : UInt32) : Prog I Int32 :=
  let last_unit_start_off := src_written_idx
  if len_padding_size ≠ 0 then
    let (add_padding,i,src_written_idx) := fillLoop src len FLASH_PROGRAM_UNIT.toNat add_padding 0 src_written_idx
    if src_written_idx ≠ len then .ret (-1) else
      let (add_padding,i,k) := fillLoop len_padding len_padding_size FLASH_PROGRAM_UNIT.toNat add_padding i 0
      let write_size := add_padding_size + last_unit_start_off + FLASH_PROGRAM_UNIT
      if i ≠ FLASH_PROGRAM_UNIT ∨ k ≠ len_padding_size ∨ aligned_len ≠ write_size then .ret (-1) else do
        let status ← area.fa_driver.ProgramData (area.fa_off + off + last_unit_start_off) add_padding 0
          (FLASH_PROGRAM_UNIT / data_width)
        if status < 0 then .ret (-1) else .ret 0
  else .ret 0

/-- The part of `flash_area_write` after the first program unit: the whole units of `src`. -/
def writeAligned (add_padding : Buffer) (src_written_idx : UInt32) : Prog I Int32 :=
  if src_written_idx < len then
    let write_size := FLOOR_ALIGN (len - src_written_idx) FLASH_PROGRAM_UNIT
    if write_size > 0 then do
      let status ← area.fa_driver.ProgramData (area.fa_off + off + src_written_idx) src 0 (write_size / data_width)
      if status < 0 then .ret (-1) else
        writeLast area off src len data_width aligned_len add_padding_size len_padding_size len_padding
          add_padding (src_written_idx + write_size)
    else
      writeLast area off src len data_width aligned_len add_padding_size len_padding_size len_padding
        add_padding src_written_idx
  else .ret 0

/-- The part of `flash_area_write` after its two reads: the first program unit where `off` is
    not aligned, then the rest. -/
def writeUnits (aligned_off : UInt32) (add_padding : Buffer) : Prog I Int32 :=
  if add_padding_size ≠ 0 then
    let (add_padding,i,src_written_idx) :=
      fillLoop src len FLASH_PROGRAM_UNIT.toNat add_padding add_padding_size 0
    let (add_padding,i,k) :=
      if src_written_idx = len then fillLoop len_padding len_padding_size FLASH_PROGRAM_UNIT.toNat add_padding i 0
      else (add_padding,i,0)
    if src_written_idx = len ∧ k ≠ len_padding_size then .ret (-1)
    else if i ≠ FLASH_PROGRAM_UNIT then .ret (-1)
    else do
      let status ← area.fa_driver.ProgramData (area.fa_off + aligned_off) add_padding 0
        (FLASH_PROGRAM_UNIT / data_width)
      if status < 0 then .ret (-1) else
        writeAligned area off src len data_width aligned_len add_padding_size len_padding_size len_padding
          add_padding src_written_idx
  else
    writeAligned area off src len data_width aligned_len add_padding_size len_padding_size len_padding add_padding 0
end

def flash_area_write [Bootutil] (area : flash_area I) (off : UInt32) (src : Buffer) (len : UInt32) : Prog I Int32 :=
  let aligned_off := FLOOR_ALIGN off FLASH_PROGRAM_UNIT
  let add_padding_size := off - aligned_off
  if !is_range_valid area off len then .ret (-1) else
    let data_width := data_width_byte area.fa_driver.GetCapabilities.data_width
    do
      let (status,add_padding) ← flash_area_read area aligned_off stackArray add_padding_size
      if status ≠ 0 then .ret (-1) else
        let aligned_len := CEILING_ALIGN (len + add_padding_size) FLASH_PROGRAM_UNIT
        let len_padding_size := aligned_len - len - add_padding_size
        if !is_range_valid area aligned_off aligned_len then .ret (-1) else
          let (status,len_padding) ← flash_area_read area (off + len) stackArray len_padding_size
          if status ≠ 0 then .ret (-1) else
            writeUnits area off src len data_width aligned_len add_padding_size len_padding_size len_padding
              aligned_off add_padding

/-! ### Erasing -/

def eraseLoop (area : flash_area I) (len : UInt32) :
    (rounds : Nat) → (off deleted_len : UInt32) → Prog I Int32
  | 0, _, _ => .spin
  | rounds + 1, off, deleted_len =>
    if deleted_len < len then do
      let rc ← area.fa_driver.EraseSector (area.fa_off + off)
      if rc ≠ 0 then .ret rc else
        eraseLoop area len rounds (off + area.fa_driver.GetInfo.sector_size)
          (deleted_len + area.fa_driver.GetInfo.sector_size)
    else .ret 0

/-- Each round of the loop deletes at least one byte, so `len + 1` rounds are enough. -/
def flash_area_erase [Bootutil] (area : flash_area I) (off len : UInt32) : Prog I Int32 :=
  if !is_range_valid area off len then .ret (-1)
  else if area.fa_driver.GetInfo.sector_info.isNone then eraseLoop area len (len.toNat + 1) off 0
  else .ret 0

/-! ### Queries -/

def flash_area_align (area : flash_area I) : UInt32 := area.fa_driver.GetInfo.program_unit

def flash_area_erased_val (fap : flash_area I) : UInt8 := fap.fa_driver.GetInfo.erased_value

def emptyLoop (fa : flash_area I) (u8dst : Buffer) (len : UInt32) : (rounds : Nat) → (i : UInt32) → Int32
  | 0, _ => 1
  | rounds + 1, i =>
    if i < len then
      if u8dst i.toNat ≠ flash_area_erased_val fa then 0 else emptyLoop fa u8dst len rounds (i + 1)
    else 1

/-- Returns the buffer the caller finds at `dst` too. -/
def flash_area_read_is_empty [Bootutil] (fa : flash_area I) (off : UInt32) (dst : Buffer) (len : UInt32) :
    Prog I (Int32 × Buffer) := do
  let (rc,dst) ← flash_area_read fa off dst len
  if rc ≠ 0 then .ret (-1,dst) else .ret (emptyLoop fa dst len len.toNat 0,dst)

end NuMicroBoot.FlashMap
