import NuMicroBoot.SerialFlash

/-!
The serial flash chip on its bus. Bytes between two changes of the chip select
are a frame; its first byte is the command, which the chip carries out when it
is deselected. A busy chip answers status reads and nothing else.
-/

namespace NuMicroBoot.SerialChip
open NuMicroBoot.Cells NuMicroBoot.Words NuMicroBoot.SerialFlash

/-- `keeps` tells whether a status read leaves the write enable latch as it is, `lasts` which numbers of status
    reads an erase may last for. -/
structure ChipType where
  keeps : Bool
  lasts : Nat → Prop

/-- `busy` is the number of status reads that are still answered with busy; `frame` holds the bytes received since
    the chip was selected; `sent` records the first byte of every frame, and whether the chip was busy then. -/
structure Chip where
  memory : Nat → UInt8
  enabled : Bool
  busy : Nat
  selected : Bool
  frame : List UInt8
  sent : List (UInt8 × Bool)

namespace Chip

/-- Three bytes of an address, highest first. -/
def addressOf (a b c : UInt8) : Nat := 65536 * a.toNat + 256 * b.toNat + c.toNat

/-- What the chip may answer while it receives the next byte: its status to the command 0x05 (bit 0 is busy, bit 1
    the write enable latch), its memory to 0x03, anything else otherwise. -/
def Answers (c : Chip) (answer : UInt8) : Prop :=
  match c.frame with
  | 0x05 :: _ => (answer &&& 1 = if c.busy = 0 then 0 else 1) ∧ (c.busy = 0 → answer &&& 2 = if c.enabled then 2 else 0)
  | 0x03 :: a :: b :: d :: bytes => c.busy = 0 → answer = c.memory (addressOf a b d + bytes.length)
  | _ => True

/-- The chip after it has received a byte. -/
def received (c : Chip) (b : UInt8) : Chip :=
  if c.selected then
    { c with
      busy := if c.frame.head? = some 0x05 then c.busy - 1 else c.busy
      frame := c.frame ++ [b]
      sent := if c.frame = [] then c.sent ++ [(b,decide (c.busy ≠ 0))] else c.sent }
  else c

def released (c : Chip) : Chip := { c with selected := false, frame := [] }

/-- What an idle chip does at the end of a frame. 0x20 erases the sector of the address directly after 0x06; after a
    command that is not explained here the chip may be in any state. -/
def Executed (type : ChipType) (c c' : Chip) : Prop :=
  match c.frame with
  | [] => c' = c.released
  | [0x06] => c' = { c.released with enabled := true }
  | 0x05 :: _ => c' = { c.released with enabled := c.enabled && type.keeps }
  | 0x03 :: _ => c' = { c.released with enabled := false }
  | [0x20,a,b,d] =>
    if c.enabled then
      ∃ n, type.lasts n ∧ c' =
        { c.released with memory := fill 0xFF c.memory (sectorStart (addressOf a b d)) 4096, enabled := false, busy := n }
    else c' = { c.released with enabled := false }
  | _ => c'.sent = c.sent

/-- The end of a frame. A busy chip takes no notice of it. -/
def Deselected (type : ChipType) (c c' : Chip) : Prop :=
  if c.selected ∧ c.busy = 0 then c.Executed type c' else c' = c.released

end Chip

/-! ### Answers and ends of frames -/

theorem answers_exists (c : Chip) : ∃ answer, c.Answers answer := by
  unfold Chip.Answers
  split
  · by_cases idle : c.busy = 0
    · rw [if_pos idle]
      cases c.enabled
      · exact ⟨0,rfl,fun _ => rfl⟩
      · exact ⟨2,rfl,fun _ => rfl⟩
    · rw [if_neg idle]
      exact ⟨1,rfl,fun busy => absurd busy idle⟩
  · exact ⟨_,fun _ => rfl⟩
  · exact ⟨0,trivial⟩

/-- Where an erase can end at all, so does every frame. -/
theorem deselected_exists {type : ChipType} (ends : ∃ n, type.lasts n) (c : Chip) : ∃ c', c.Deselected type c' := by
  obtain ⟨n,lasts⟩ := ends
  unfold Chip.Deselected
  by_cases taken : c.selected ∧ c.busy = 0
  · simp only [taken,and_self,if_true]
    unfold Chip.Executed
    split
    · exact ⟨_,rfl⟩
    · exact ⟨_,rfl⟩
    · exact ⟨_,rfl⟩
    · exact ⟨_,rfl⟩
    · by_cases enabled : c.enabled
      · simp only [enabled,if_true]
        exact ⟨_,n,lasts,rfl⟩
      · simp only [enabled]
        exact ⟨_,rfl⟩
    · exact ⟨c,rfl⟩
  · simp only [taken,if_false]
    exact ⟨_,rfl⟩

section
variable {type : ChipType} {M : Nat → UInt8} {en : Bool} {n : Nat} {bs : List UInt8} {sent : List (UInt8 × Bool)} {c : Chip}

theorem deselected_status (ended : Chip.Deselected type ⟨M,en,n,true,0x05 :: bs,sent⟩ c) :
    ∃ en', c = ⟨M,en',n,false,[],sent⟩ := by
  by_cases idle : n = 0
  · have executed := (if_pos ⟨rfl,idle⟩).mp ended
    exact ⟨_,executed⟩
  · have executed := (if_neg fun both => idle both.2).mp ended
    exact ⟨_,executed⟩

theorem deselected_status_idle (ended : Chip.Deselected type ⟨M,en,0,true,0x05 :: bs,sent⟩ c) :
    c = ⟨M,en && type.keeps,0,false,[],sent⟩ := (if_pos ⟨rfl,rfl⟩).mp ended

theorem deselected_read (ended : Chip.Deselected type ⟨M,en,0,true,0x03 :: bs,sent⟩ c) :
    c = ⟨M,false,0,false,[],sent⟩ := (if_pos ⟨rfl,rfl⟩).mp ended

theorem deselected_enable (ended : Chip.Deselected type ⟨M,en,0,true,[0x06],sent⟩ c) :
    c = ⟨M,true,0,false,[],sent⟩ := (if_pos ⟨rfl,rfl⟩).mp ended

theorem deselected_erase {a b d : UInt8} (ended : Chip.Deselected type ⟨M,true,0,true,[0x20,a,b,d],sent⟩ c) :
    ∃ n, type.lasts n ∧ c = ⟨fill 0xFF M (sectorStart (Chip.addressOf a b d)) 4096,false,n,false,[],sent⟩ :=
  (if_pos ⟨rfl,rfl⟩).mp ended

end

/-- No other command than a status read has been sent to a busy chip. -/
def QuietLog (sent : List (UInt8 × Bool)) : Prop := ∀ e ∈ sent, e.2 = true → e.1 = 0x05

theorem quietLog_append {sent : List (UInt8 × Bool)} (quiet : QuietLog sent) {b : UInt8} {n : Nat}
    (allowed : n ≠ 0 → b = 0x05) : QuietLog (sent ++ [(b,decide (n ≠ 0))]) := by
  intro e member busy
  rcases List.mem_append.mp member with earlier | last
  · exact quiet e earlier busy
  · rw [List.mem_singleton] at last
    subst last
    exact allowed (of_decide_eq_true busy)

/-- The address bytes a driver sends. -/
theorem addressOf_bytes {addr : UInt32} (inside : addr.toNat < 2 ^ 24) :
    Chip.addressOf ((addr >>> 16) &&& 0xFF).toUInt8 ((addr >>> 8) &&& 0xFF).toUInt8 (addr &&& 0xFF).toUInt8 = addr.toNat := by
  have high : (addr >>> 16).toNat = addr.toNat / 65536 := Nat.shiftRight_eq_div_pow addr.toNat 16
  have middle : (addr >>> 8).toNat = addr.toNat / 256 := Nat.shiftRight_eq_div_pow addr.toNat 8
  rw [Chip.addressOf,low_byte,low_byte,low_byte,high,middle]
  omega

end NuMicroBoot.SerialChip
