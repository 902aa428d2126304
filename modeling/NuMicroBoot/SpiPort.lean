import NuMicroBoot.SerialChip
import NuMicroBoot.SpiBus
import NuMicroBoot.Simulation

/-!
The functions of `spi_drv.c` and `qspi_drv.c` on a controller with a chip. The
controller is a full-duplex FIFO: every byte written pushes the answer of the
chip. Between two calls the FIFO is empty and the chip is not selected; from
there each function does what the abstract serial flash does.
-/

namespace NuMicroBoot.SpiPort
open NuMicroBoot.Calls NuMicroBoot.Calls.Prog NuMicroBoot.Cells NuMicroBoot.Words NuMicroBoot.Driver
open NuMicroBoot.ExternalDriver NuMicroBoot.SerialFlash NuMicroBoot.SerialChip NuMicroBoot.SpiBus NuMicroBoot.Simulation

/-! ### The controller -/

/-- The chip and the RX FIFO. -/
structure Port where
  chip : Chip
  rx : List UInt8

/-- An answer that comes when the FIFO is full is lost. -/
def push (depth : Nat) (rx : List UInt8) (answer : UInt8) : List UInt8 :=
  if rx.length < depth then rx ++ [answer] else rx

/-- Reading an empty FIFO gives anything, and the flags may tell anything. -/
def device (type : ChipType) (depth : Nat) : Device bus Port
  | .SET_SS_LOW, s, _, s' => s' = { s with chip := { s.chip with selected := true } }
  | .SET_SS_HIGH, s, _, s' => s'.rx = s.rx ∧ s.chip.Deselected type s'.chip
  | .WRITE_TX data, s, _, s' =>
    ∃ answer, s.chip.Answers answer ∧ s' = ⟨s.chip.received data.toUInt8,push depth s.rx answer⟩
  | .READ_RX, s, a, s' =>
    match s.rx with
    | [] => s' = s
    | b :: rest => UInt32.toUInt8 a = b ∧ s' = ⟨s.chip,rest⟩
  | .IS_BUSY, s, _, s' => s' = s
  | .ClearRxFIFO, s, _, s' => s' = ⟨s.chip,[]⟩
  | .GET_TX_FIFO_FULL_FLAG, s, _, s' => s' = s

theorem device_total {type : ChipType} (ends : ∃ n, type.lasts n) (depth : Nat) (c : BusCall) (s : Port) :
    ∃ a s', device type depth c s a s' := by
  cases c with
  | SET_SS_LOW => exact ⟨(),_,rfl⟩
  | SET_SS_HIGH =>
    obtain ⟨chip,deselected⟩ := deselected_exists ends s.chip
    exact ⟨(),⟨chip,s.rx⟩,rfl,deselected⟩
  | WRITE_TX data =>
    obtain ⟨answer,answers⟩ := answers_exists s.chip
    exact ⟨(),_,answer,answers,rfl⟩
  | READ_RX =>
    obtain ⟨chip,rx⟩ := s
    cases rx with
    | nil => exact ⟨(0 : UInt32),_,rfl⟩
    | cons b rest => exact ⟨b.toUInt32,_,by simp,rfl⟩
  | IS_BUSY => exact ⟨false,_,rfl⟩
  | ClearRxFIFO => exact ⟨(),_,rfl⟩
  | GET_TX_FIFO_FULL_FLAG => exact ⟨false,_,rfl⟩

def Quiet (s : Port) : Prop := QuietLog s.chip.sent

/-- Between two calls. -/
structure Resting (s : Port) : Prop where
  quiet : Quiet s
  selected : s.chip.selected = false
  frame : s.chip.frame = []
  empty : s.rx = []

/-! ### A device with a port inside -/

/-- What a device does to the port in it as the controller does. `e` makes a state of a port; a byte is written as on the
    controller where the chip understands it, and its answer tells more. -/
structure Inside {σ : Type} (depth : Nat) (R : Device bus σ) (J : σ → Prop) (e : Port → σ) (understood : Port → Prop)
    (told : Port → UInt8 → Prop) : Prop where
  now : ∀ s, Quiet s → J (e s)
  selects : ∀ s a s', R .SET_SS_LOW (e s) a s' → s' = e { s with chip := { s.chip with selected := true } }
  writes : ∀ data s a s', understood s → R (.WRITE_TX data) (e s) a s' → ∃ answer, s.chip.Answers answer ∧ told s answer ∧
    s' = e ⟨s.chip.received data.toUInt8,push depth s.rx answer⟩
  reads : ∀ chip b rest a s', R .READ_RX (e ⟨chip,b :: rest⟩) a s' → UInt32.toUInt8 a = b ∧ s' = e ⟨chip,rest⟩
  still : ∀ a s s', R .IS_BUSY s a s' → s' = s
  clears : ∀ s a s', R .ClearRxFIFO (e s) a s' → s' = e ⟨s.chip,[]⟩

/-- The frame is that of a command over one line. -/
def Common : List UInt8 → Prop
  | [] => True
  | b :: _ => b = 0x03 ∨ b = 0x05 ∨ b = 0x06 ∨ b = 0x20

/-- The chip understands these commands, and ends their frames as on the controller. -/
structure OneLine {σ : Type} (type : ChipType) (depth : Nat) (R : Device bus σ) (J : σ → Prop) (e : Port → σ)
    (understood : Port → Prop) (told : Port → UInt8 → Prop) : Prop extends Inside depth R J e understood told where
  common : ∀ s, Common s.chip.frame → understood s
  ends : ∀ s a s', Common s.chip.frame → R .SET_SS_HIGH (e s) a s' → ∃ chip, s.chip.Deselected type chip ∧ s' = e ⟨chip,s.rx⟩

/-- The controller itself. -/
theorem port_line (type : ChipType) (depth : Nat) :
    OneLine type depth (device type depth) Quiet (fun s => s) (fun _ => True) (fun _ _ => True) where
  now := fun _ => id
  selects := fun _ _ _ => id
  writes := fun data s a s' _ moved => by
    obtain ⟨answer,answers,same⟩ := moved
    exact ⟨answer,answers,trivial,same⟩
  reads := fun _ _ _ _ _ => id
  still := fun _ _ _ => id
  clears := fun _ _ _ => id
  common := fun _ _ => trivial
  ends := fun s a s' _ moved => by
    obtain ⟨chip,rx⟩ := s'
    obtain ⟨rfl,deselected⟩ := moved
    exact ⟨chip,deselected,rfl⟩

/-! ### One call -/

/-- On a controller that is not touched by being asked, the wait ends and changes nothing. -/
theorem wp_busyLoop {σ : Type} {R : Device bus σ} {J : σ → Prop} (still : ∀ a s s', R .IS_BUSY s a s' → s' = s) (rounds : Nat) :
    ∀ (cnt : UInt32) {s : σ}, (cnt - 1).toNat < rounds → J s → (busyLoop rounds cnt).Wp R J (fun _ s' => s' = s) s := by
  induction rounds with
  | zero => intro cnt s enough; omega
  | succ rounds ih =>
    intro cnt s enough now
    refine ⟨now,fun busy s' moved => ?_⟩
    obtain rfl := still busy s s' moved
    refine wp_ite (fun _ => wp_ite (fun _ => ⟨now,rfl⟩) fun more => ih _ ?_ now) fun _ => ⟨now,rfl⟩
    have some := ne_zero_iff.mp more
    rw [toNat_sub_of_le (show (1 : UInt32).toNat ≤ (cnt - 1).toNat by simp; omega)]
    simp; omega

section
variable {type : ChipType} {depth : Nat} {σ α : Type} {R : Device bus σ} {J : σ → Prop} {e : Port → σ} {understood : Port → Prop}
  {told : Port → UInt8 → Prop} {Q : α → σ → Prop} {M : Nat → UInt8} {en sel : Bool} {n : Nat} {frame rx : List UInt8}
  {sent : List (UInt8 × Bool)} {SystemCoreClock : UInt32}

section
variable (inside : Inside depth R J e understood told) (quiet : QuietLog sent)
include inside quiet

theorem wp_low {next : Unit → Prog bus α} (rest : (next ()).Wp R J Q (e ⟨⟨M,en,n,true,frame,sent⟩,rx⟩)) :
    (SET_SS_LOW >>= next).Wp R J Q (e ⟨⟨M,en,n,sel,frame,sent⟩,rx⟩) :=
  wp_moves (inside.selects _) (inside.now _ quiet) fun _ => rest

/-- The first byte of a frame. -/
theorem wp_command {next : Unit → Prog bus α} {data : UInt32} (takes : understood ⟨⟨M,en,n,true,[],sent⟩,rx⟩)
    (rest : ∀ answer, (next ()).Wp R J Q
      (e ⟨⟨M,en,n,true,[data.toUInt8],sent ++ [(data.toUInt8,decide (n ≠ 0))]⟩,push depth rx answer⟩)) :
    (WRITE_TX data >>= next).Wp R J Q (e ⟨⟨M,en,n,true,[],sent⟩,rx⟩) := by
  refine ⟨inside.now _ quiet,fun a s moved => ?_⟩
  obtain ⟨answer,_,_,rfl⟩ := inside.writes _ _ _ _ takes moved
  exact rest answer

/-- The byte that gets the status. -/
theorem wp_status {next : Unit → Prog bus α} {data : UInt32} (takes : understood ⟨⟨M,en,n,true,[0x05],sent⟩,rx⟩)
    (rest : ∀ answer : UInt8, (answer &&& 1 = if n = 0 then 0 else 1) → told ⟨⟨M,en,n,true,[0x05],sent⟩,rx⟩ answer →
      (next ()).Wp R J Q (e ⟨⟨M,en,n - 1,true,[0x05,data.toUInt8],sent⟩,push depth rx answer⟩)) :
    (WRITE_TX data >>= next).Wp R J Q (e ⟨⟨M,en,n,true,[0x05],sent⟩,rx⟩) := by
  refine ⟨inside.now _ quiet,fun a s moved => ?_⟩
  obtain ⟨answer,answers,more,rfl⟩ := inside.writes _ _ _ _ takes moved
  exact rest answer answers.1 more

/-- A further byte of another frame. -/
theorem wp_write {next : Unit → Prog bus α} {data : UInt32} {b : UInt8} (other : b ≠ 0x05)
    (takes : understood ⟨⟨M,en,n,true,b :: frame,sent⟩,rx⟩)
    (rest : ∀ answer, Chip.Answers ⟨M,en,n,true,b :: frame,sent⟩ answer → told ⟨⟨M,en,n,true,b :: frame,sent⟩,rx⟩ answer →
      (next ()).Wp R J Q (e ⟨⟨M,en,n,true,b :: (frame ++ [data.toUInt8]),sent⟩,push depth rx answer⟩)) :
    (WRITE_TX data >>= next).Wp R J Q (e ⟨⟨M,en,n,true,b :: frame,sent⟩,rx⟩) := by
  refine ⟨inside.now _ quiet,fun a s moved => ?_⟩
  obtain ⟨answer,answers,more,rfl⟩ := inside.writes _ _ _ _ takes moved
  have received : (⟨M,en,n,true,b :: frame,sent⟩ : Chip).received data.toUInt8 =
      ⟨M,en,n,true,b :: (frame ++ [data.toUInt8]),sent⟩ := by simp [Chip.received,other]
  rw [received]
  exact rest answer answers more

theorem wp_rx {next : UInt32 → Prog bus α} {b : UInt8}
    (rest : ∀ a : UInt32, a.toUInt8 = b → (next a).Wp R J Q (e ⟨⟨M,en,n,sel,frame,sent⟩,rx⟩)) :
    (READ_RX >>= next).Wp R J Q (e ⟨⟨M,en,n,sel,frame,sent⟩,b :: rx⟩) := by
  refine ⟨inside.now _ quiet,fun a s moved => ?_⟩
  obtain ⟨same,rfl⟩ := inside.reads _ _ _ _ _ moved
  exact rest a same

theorem wp_clear {next : Unit → Prog bus α} (rest : (next ()).Wp R J Q (e ⟨⟨M,en,n,sel,frame,sent⟩,[]⟩)) :
    (ClearRxFIFO >>= next).Wp R J Q (e ⟨⟨M,en,n,sel,frame,sent⟩,rx⟩) :=
  wp_moves (inside.clears _) (inside.now _ quiet) fun _ => rest

theorem wait_wp : (wait_IS_BUSY SystemCoreClock).Wp R J (fun _ s' => s' = e ⟨⟨M,en,n,sel,frame,sent⟩,rx⟩)
    (e ⟨⟨M,en,n,sel,frame,sent⟩,rx⟩) := wp_busyLoop inside.still _ _ (UInt32.toNat_lt _) (inside.now _ quiet)

theorem wp_busy {next : Unit → Prog bus α} (rest : (next ()).Wp R J Q (e ⟨⟨M,en,n,sel,frame,sent⟩,rx⟩)) :
    (wait_IS_BUSY SystemCoreClock >>= next).Wp R J Q (e ⟨⟨M,en,n,sel,frame,sent⟩,rx⟩) := by
  refine wp_bind (wait_wp inside quiet) fun _ s' _ same => ?_
  rw [same]
  exact rest

/-- The three bytes of an address. -/
theorem wp_address {next : Unit → Prog bus α} {b : UInt8} {addr : UInt32} (other : b ≠ 0x05)
    (takes : ∀ {bs rx}, bs.length < 3 → understood ⟨⟨M,en,n,true,b :: bs,sent⟩,rx⟩)
    (rest : ∀ rx', (next ()).Wp R J Q (e ⟨⟨M,en,n,true,
      [b,((addr >>> 16) &&& 0xFF).toUInt8,((addr >>> 8) &&& 0xFF).toUInt8,(addr &&& 0xFF).toUInt8],sent⟩,rx'⟩)) :
    (writeAddress addr >>= next).Wp R J Q (e ⟨⟨M,en,n,true,[b],sent⟩,rx⟩) :=
  wp_write inside quiet other (takes (by simp)) fun _ _ _ => wp_write inside quiet other (takes (by simp)) fun _ _ _ =>
    wp_write inside quiet other (takes (by simp)) fun _ _ _ => rest _

end

section
variable (deep : 8 ≤ depth)
include deep

theorem push_one (a : UInt8) : push depth [] a = [a] := if_pos (show 0 < depth by omega)
theorem push_two (a b : UInt8) : push depth (push depth [] a) b = [a,b] := by
  rw [push_one deep]
  exact if_pos (show 1 < depth by omega)

/-- A byte of a read frame, from and to an empty FIFO. -/
theorem wp_exchange (inside : Inside depth R J e understood told) (quiet : QuietLog sent) {b : UInt8} (other : b ≠ 0x05)
    (takes : understood ⟨⟨M,en,n,true,b :: frame,sent⟩,[]⟩) : (do WRITE_TX 0x00; wait_IS_BUSY SystemCoreClock; READ_RX).Wp R J
      (fun a s' => Chip.Answers ⟨M,en,n,true,b :: frame,sent⟩ (UInt32.toUInt8 a) ∧
        told ⟨⟨M,en,n,true,b :: frame,sent⟩,[]⟩ (UInt32.toUInt8 a) ∧ s' = e ⟨⟨M,en,n,true,b :: (frame ++ [0]),sent⟩,[]⟩)
      (e ⟨⟨M,en,n,true,b :: frame,sent⟩,[]⟩) := by
  refine wp_write inside quiet other takes fun answer answers more => wp_busy inside quiet ?_
  rw [push_one deep]
  refine wp_rx inside quiet fun a same => ⟨inside.now _ quiet,?_,?_,rfl⟩
  · rw [same]
    exact answers
  · rw [same]
    exact more

end

/-! ### Frames of common commands -/

section
variable (line : OneLine type depth R J e understood told)
include line

theorem wp_high {next : Unit → Prog bus α} (quiet : QuietLog sent) (common : Common frame)
    (rest : ∀ chip, Chip.Deselected type ⟨M,en,n,true,frame,sent⟩ chip → (next ()).Wp R J Q (e ⟨chip,rx⟩)) :
    (SET_SS_HIGH >>= next).Wp R J Q (e ⟨⟨M,en,n,true,frame,sent⟩,rx⟩) := by
  refine ⟨line.now _ quiet,fun a s moved => ?_⟩
  obtain ⟨chip,deselected,rfl⟩ := line.ends _ _ _ common moved
  exact rest chip deselected

/-- A status read, from the chip select on. -/
theorem wp_statusFrame (deep : 8 ≤ depth) {p : Prog bus α} (quiet : QuietLog sent) (rest : ∀ en' first second,
      QuietLog (sent ++ [(0x05,decide (n ≠ 0))]) → (second &&& 1 = if n = 0 then 0 else 1) →
      (∃ rx, told ⟨⟨M,en,n,true,[0x05],sent ++ [(0x05,decide (n ≠ 0))]⟩,rx⟩ second) →
      p.Wp R J Q (e ⟨⟨M,en',n - 1,false,[],sent ++ [(0x05,decide (n ≠ 0))]⟩,[first,second]⟩)) :
    (do
      SET_SS_LOW
      WRITE_TX 0x05
      WRITE_TX 0x00
      wait_IS_BUSY SystemCoreClock
      SET_SS_HIGH
      p).Wp R J Q (e ⟨⟨M,en,n,false,[],sent⟩,[]⟩) := by
  have quiet' : QuietLog (sent ++ [(0x05,decide (n ≠ 0))]) := quietLog_append quiet fun _ => rfl
  have inside := line.toInside
  refine wp_low inside quiet (wp_command inside quiet (line.common _ trivial) fun first => ?_)
  refine wp_status inside quiet' (line.common _ (.inr (.inl rfl))) fun second status more => wp_busy inside quiet' ?_
  rw [push_two deep]
  refine wp_high line quiet' (.inr (.inl rfl)) fun chip ended => ?_
  obtain ⟨en',rfl⟩ := deselected_status ended
  exact rest en' first second quiet' status ⟨_,more⟩

/-- The status read of `qspi_drv.c`. -/
theorem readStatusReg_QSPI_wp (deep : 8 ≤ depth) (quiet : QuietLog sent) :
    (SpiFlash_ReadStatusReg_QSPI SystemCoreClock).Wp R J (fun v s' => (v &&& 1 = if n = 0 then 0 else 1) ∧
      (∃ rx, told ⟨⟨M,en,n,true,[0x05],sent ++ [(0x05,decide (n ≠ 0))]⟩,rx⟩ v) ∧
        ∃ en' sent', QuietLog sent' ∧ s' = e ⟨⟨M,en',n - 1,false,[],sent'⟩,[]⟩) (e ⟨⟨M,en,n,false,[],sent⟩,rx⟩) := by
  refine wp_clear line.toInside quiet (wp_statusFrame line deep quiet fun en' first second quiet' status more => ?_)
  refine wp_rx line.toInside quiet' fun _ _ => wp_rx line.toInside quiet' fun a same => ?_
  refine ⟨line.now _ quiet',?_,?_,en',_,quiet',rfl⟩
  · rw [same]
    exact status
  · rw [same]
    exact more

/-- The write enable frame sets the latch of an idle chip. -/
theorem wp_writeEnable {next : Unit → Prog bus α} (quiet : QuietLog sent)
    (rest : ∀ rx', (next ()).Wp R J Q (e ⟨⟨M,true,0,false,[],sent ++ [(0x06,false)]⟩,rx'⟩)) :
    (writeEnable SystemCoreClock >>= next).Wp R J Q (e ⟨⟨M,en,0,false,[],sent⟩,rx⟩) := by
  have quiet' : QuietLog (sent ++ [(0x06,false)]) := quietLog_append quiet fun busy => absurd rfl busy
  have inside := line.toInside
  refine wp_bind (Q := fun _ s' => ∃ rx', s' = e ⟨⟨M,true,0,false,[],sent ++ [(0x06,false)]⟩,rx'⟩)
    (wp_low inside quiet (wp_command inside quiet (line.common _ trivial) fun answer => wp_busy inside quiet'
      (wp_high line quiet' (.inr (.inr (.inl rfl))) fun chip ended => ?_))) fun _ s' _ after => ?_
  · obtain rfl := deselected_enable ended
    exact ⟨line.now _ quiet',_,rfl⟩
  · obtain ⟨rx',rfl⟩ := after
    exact rest rx'

/-- An erase has cleared the sector and leaves the chip busy for as long as that may last. -/
theorem eraseSector_wp (quiet : QuietLog sent) {addr : UInt32} (low : addr.toNat < 2 ^ 24) :
    (eraseSector SystemCoreClock addr).Wp R J (fun rc s' => rc = 0 ∧ ∃ n sent', type.lasts n ∧ QuietLog sent' ∧
      s' = e ⟨⟨fill 0xFF M (sectorStart addr.toNat) 4096,false,n,false,[],sent'⟩,[]⟩) (e ⟨⟨M,en,0,false,[],sent⟩,rx⟩) := by
  have first : QuietLog (sent ++ [(0x06,false)]) := quietLog_append quiet fun busy => absurd rfl busy
  have second : QuietLog (sent ++ [(0x06,false)] ++ [(0x20,false)]) := quietLog_append first fun busy => absurd rfl busy
  have inside := line.toInside
  have erase : ∀ bs, Common (0x20 :: bs) := fun _ => .inr (.inr (.inr rfl))
  refine wp_writeEnable line quiet fun _ => wp_low inside first (wp_command inside first (line.common _ trivial) fun _ => ?_)
  refine wp_address inside second (by decide) (fun _ => line.common _ (erase _)) fun _ => wp_busy inside second ?_
  refine wp_clear inside second (wp_high line second (erase _) fun chip ended => ?_)
  obtain ⟨n,lasts,rfl⟩ := deselected_erase ended
  rw [addressOf_bytes low]
  exact ⟨line.now _ second,rfl,n,_,lasts,second,rfl⟩

end
end

/-! ### Status and ready -/

section
variable {type : ChipType} {depth : Nat}

/-- A status read tells whether the chip is busy, and uses up one of its busy answers. -/
def Polls (type : ChipType) (depth : Nat) (SpiFlash_ReadStatusReg : Prog bus UInt8) : Prop :=
  ∀ s : Port, Resting s → SpiFlash_ReadStatusReg.Wp (device type depth) Quiet (fun v s' => (v &&& 1 = if s.chip.busy = 0 then 0 else 1) ∧
    Resting s' ∧ s'.chip.memory = s.chip.memory ∧ s'.chip.busy = s.chip.busy - 1) s

theorem polls_SPI (deep : 8 ≤ depth) (SystemCoreClock : UInt32) : Polls type depth (SpiFlash_ReadStatusReg_SPI SystemCoreClock) := by
  rintro ⟨⟨M,en,n,_,_,sent⟩,_⟩ ⟨quiet,rfl,rfl,rfl⟩
  refine wp_statusFrame (port_line type depth) deep quiet fun en' first second quiet' status _ => ?_
  refine wp_rx (port_line type depth).toInside quiet' fun _ _ => wp_rx (port_line type depth).toInside quiet' fun a same => ?_
  refine ⟨quiet',?_,⟨quiet',rfl,rfl,rfl⟩,rfl,rfl⟩
  rw [mask_byte,same]
  exact status

theorem polls_QSPI (deep : 8 ≤ depth) (SystemCoreClock : UInt32) : Polls type depth (SpiFlash_ReadStatusReg_QSPI SystemCoreClock) := by
  rintro ⟨⟨M,en,n,_,_,sent⟩,_⟩ ⟨quiet,rfl,rfl,rfl⟩
  refine wp_mono (readStatusReg_QSPI_wp (port_line type depth) deep quiet) fun v s' read => ?_
  obtain ⟨status,_,en',sent',quiet',rfl⟩ := read
  exact ⟨status,⟨quiet',rfl,rfl,rfl⟩,rfl,rfl⟩

/-- The counter of the ready loop runs out only when the chip is busy for longer. A status read may start in the states
    `I` and ends in the states `E`. -/
theorem wp_readyLoop {σ : Type} {R : Device bus σ} {J I E : σ → Prop} {busy : σ → Nat} {SpiFlash_ReadStatusReg : Prog bus UInt8}
    (now : ∀ s, I s → J s) (again : ∀ s, E s → I s)
    (polls : ∀ s, I s → SpiFlash_ReadStatusReg.Wp R J (fun v s' => (v &&& 1 = if busy s = 0 then 0 else 1) ∧ E s' ∧
      busy s' = busy s - 1) s) (rounds : Nat) : ∀ (cnt : UInt32) {s : σ}, (cnt - 1).toNat < rounds → I s →
    (readyLoop SpiFlash_ReadStatusReg rounds cnt).Wp R J (fun rc s' => busy s' ≤ busy s ∧
      (rc = 0 ∧ E s' ∧ busy s' = 0 ∨ rc = -1 ∧ I s' ∧ (cnt - 1).toNat ≤ busy s)) s := by
  induction rounds with
  | zero => intro cnt s enough; omega
  | succ rounds ih =>
    intro cnt s enough start
    refine wp_ite (fun none => ⟨now s start,Nat.le_refl _,.inr ⟨rfl,start,?_⟩⟩) fun more => ?_
    · rw [none]
      exact Nat.zero_le _
    · have left : (cnt - 1 - 1).toNat = (cnt - 1).toNat - 1 := toNat_sub_of_le (Nat.pos_of_ne_zero (ne_zero_iff.mp more))
      have some := ne_zero_iff.mp more
      refine wp_bind (polls s start) fun v s₁ there read => ?_
      obtain ⟨status,ended₁,used⟩ := read
      refine wp_ite (fun stillBusy => ?_) fun ready => ⟨there,by omega,.inl ⟨rfl,ended₁,?_⟩⟩
      · refine wp_mono (ih (cnt - 1) (by omega) (again s₁ ended₁)) fun rc s' ended => ?_
        obtain ⟨less,outcome⟩ := ended
        refine ⟨by omega,outcome.imp id fun late => ⟨late.1,late.2.1,?_⟩⟩
        have late := late.2.2
        have wasBusy : busy s ≠ 0 := fun idle => stillBusy (by rw [status,if_pos idle])
        omega
      · have wasIdle : busy s = 0 := by
          by_contra wasBusy
          rw [status,if_neg wasBusy] at ready
          exact ready (by decide)
        omega

end

/-! ### Reading and erasing -/

section
variable {type : ChipType} {depth : Nat} {SystemCoreClock : UInt32}

/-- Where every byte written brings the next byte of the memory, the loop gets them all. `At k` tells that `k` bytes
    have come. -/
theorem wp_dataLoop {σ : Type} {R : Device bus σ} {J : σ → Prop} {At : Nat → σ → Prop} {M : Nat → UInt8} {base : Nat}
    (now : ∀ k s, At k s → J s)
    (byte : ∀ k s, At k s → (do WRITE_TX 0x00; wait_IS_BUSY SystemCoreClock; READ_RX).Wp R J
      (fun rx s' => UInt32.toUInt8 rx = M (base + k) ∧ At (k + 1) s') s)
    (len : UInt32) (rounds : Nat) : ∀ (cnt : UInt32) (data : Buffer) (s : σ), At cnt.toNat s →
    cnt.toNat ≤ len.toNat → len.toNat - cnt.toNat < rounds → (dataLoop SystemCoreClock len rounds cnt data).Wp R J
      (fun r s' => r = copy data cnt.toNat M (base + cnt.toNat) (len.toNat - cnt.toNat) ∧ At len.toNat s') s := by
  induction rounds with
  | zero => intro cnt data s _ _ enough; omega
  | succ rounds ih =>
    intro cnt data s there below enough
    refine wp_ite (fun more => ?_) fun finished => ?_
    · have less := UInt32.lt_iff_toNat_lt.mp more
      have bound := len.toNat_lt
      have next : (cnt + 1).toNat = cnt.toNat + 1 := toNat_add_of_lt (by simp; omega)
      show (WRITE_TX 0x00 >>= fun _ => wait_IS_BUSY SystemCoreClock >>= fun _ => READ_RX >>= fun rx =>
        dataLoop SystemCoreClock len rounds (cnt + 1) (copy data cnt.toNat (fun _ => UInt32.toUInt8 rx) 0 1)).Wp R J _ s
      simp only [← bind_bind]
      refine wp_bind (byte _ s there) fun rx s₁ _ come => ?_
      obtain ⟨came,there₁⟩ := come
      refine wp_mono (ih (cnt + 1) _ s₁ (next ▸ there₁) (by omega) (by omega)) fun r s' read => ?_
      obtain ⟨rfl,after⟩ := read
      refine ⟨?_,after⟩
      have first : copy data cnt.toNat (fun _ => UInt32.toUInt8 rx) 0 1 = copy data cnt.toNat M (base + cnt.toNat) 1 :=
        copy_congr fun k part => by
          obtain rfl : k = 0 := by omega
          exact came
      have size : len.toNat - cnt.toNat = 1 + (len.toNat - (cnt.toNat + 1)) := by omega
      rw [first,next,size,← copy_append,Nat.add_assoc]
    · have all : len.toNat - cnt.toNat = 0 := by
        rw [UInt32.lt_iff_toNat_lt] at finished
        omega
      exact ⟨now _ s there,by rw [all,copy_zero],by rwa [show len.toNat = cnt.toNat by omega]⟩

/-- Inside a read frame that has brought `k` bytes. -/
def Reading (M : Nat → UInt8) (en : Bool) (sent : List (UInt8 × Bool)) (a b d : UInt8) (k : Nat) (s : Port) : Prop :=
  QuietLog sent ∧ ∃ bytes : List UInt8, bytes.length = k ∧ s = ⟨⟨M,en,0,true,0x03 :: a :: b :: d :: bytes,sent⟩,[]⟩

theorem reading_quiet {M : Nat → UInt8} {en : Bool} {sent : List (UInt8 × Bool)} {a b d : UInt8} (k : Nat) (s : Port)
    (reading : Reading M en sent a b d k s) : Quiet s := by
  obtain ⟨quiet,bytes,_,rfl⟩ := reading
  exact quiet

theorem reading_byte (deep : 8 ≤ depth) {M : Nat → UInt8} {en : Bool} {sent : List (UInt8 × Bool)} {a b d : UInt8} (k : Nat) (s : Port)
    (reading : Reading M en sent a b d k s) : (do WRITE_TX 0x00; wait_IS_BUSY SystemCoreClock; READ_RX).Wp (device type depth) Quiet
      (fun rx s' => UInt32.toUInt8 rx = M (Chip.addressOf a b d + k) ∧ Reading M en sent a b d (k + 1) s') s := by
  obtain ⟨quiet,bytes,rfl,rfl⟩ := reading
  refine wp_mono (wp_exchange deep (port_line type depth).toInside quiet (by decide) trivial) fun rx s' come => ?_
  obtain ⟨answers,_,rfl⟩ := come
  exact ⟨answers rfl,quiet,bytes ++ [0],by simp,rfl⟩

/-- The byte of the memory that a read from `addr` on leaves at index `k`. -/
theorem read_byte (M : Nat → UInt8) {addr len : UInt32} (inside : addr.toNat + len.toNat ≤ 2 ^ 24) {k : Nat} (part : k < len.toNat) :
    copy (fun _ => 0) (0 : UInt32).toNat M (Chip.addressOf ((addr >>> 16) &&& 0xFF).toUInt8 ((addr >>> 8) &&& 0xFF).toUInt8
      (addr &&& 0xFF).toUInt8 + (0 : UInt32).toNat) (len.toNat - (0 : UInt32).toNat) k = M (addr.toNat + k) := by
  rw [addressOf_bytes (by omega)]
  simp [copy,part]

/-- Both read functions from the address on. -/
theorem wp_receive (deep : 8 ≤ depth) {M : Nat → UInt8} {en : Bool} {rx : List UInt8} {sent : List (UInt8 × Bool)}
    {addr len : UInt32} (quiet : QuietLog sent) (inside : addr.toNat + len.toNat ≤ 2 ^ 24) :
    (do
      writeAddress addr
      wait_IS_BUSY SystemCoreClock
      ClearRxFIFO
      let data ← dataLoop SystemCoreClock len (len.toNat + 1) 0 fun _ => 0
      wait_IS_BUSY SystemCoreClock
      SET_SS_HIGH
      .ret ((0 : Int32),data)).Wp (device type depth) Quiet (fun r s' => r.1 = 0 ∧
        (∀ k < len.toNat, r.2 k = M (addr.toNat + k)) ∧ Resting s' ∧ s'.chip.memory = M ∧ s'.chip.busy = 0)
      ⟨⟨M,en,0,true,[0x03],sent⟩,rx⟩ := by
  have line := port_line type depth
  have port := line.toInside
  refine wp_address port quiet (by decide) (fun _ => trivial) fun _ => wp_busy port quiet (wp_clear port quiet ?_)
  refine wp_bind (wp_dataLoop reading_quiet (reading_byte deep) len _ 0 _ _ ⟨quiet,[],rfl,rfl⟩ (Nat.zero_le _)
    (Nat.lt_succ_self _)) fun r s' _ read => ?_
  obtain ⟨rfl,_,bytes,_,rfl⟩ := read
  refine wp_busy port quiet (wp_high line quiet (.inl rfl) fun chip ended => ?_)
  obtain rfl := deselected_read ended
  exact ⟨quiet,rfl,fun k part => read_byte M inside part,⟨quiet,rfl,rfl,rfl⟩,rfl,rfl⟩

/-- A read function delivers the bytes of an idle chip and leaves it as it is. -/
def Reads (type : ChipType) (depth : Nat) (NVT_Read : UInt32 → UInt32 → Prog bus (Int32 × Buffer)) : Prop :=
  ∀ (s : Port) (addr len : UInt32), Resting s → s.chip.busy = 0 → addr.toNat + len.toNat ≤ 2 ^ 24 →
    (NVT_Read addr len).Wp (device type depth) Quiet (fun r s' => r.1 = 0 ∧
      (∀ k < len.toNat, r.2 k = s.chip.memory (addr.toNat + k)) ∧ Resting s' ∧ s'.chip.memory = s.chip.memory ∧
      s'.chip.busy = 0) s

theorem reads_SPI (deep : 8 ≤ depth) : Reads type depth (NVT_NVSPI_Read SystemCoreClock) := by
  rintro ⟨⟨M,en,n,_,_,sent⟩,_⟩ addr len ⟨quiet,rfl,rfl,rfl⟩ (rfl : n = 0) inside
  have quiet' : QuietLog (sent ++ [(0x03,false)]) := quietLog_append quiet fun busy => absurd rfl busy
  have port := (port_line type depth).toInside
  exact wp_low port quiet (wp_command port quiet trivial fun _ => wp_receive deep quiet' inside)

theorem reads_QSPI (deep : 8 ≤ depth) : Reads type depth (NVT_NVQSPI_Read SystemCoreClock) := by
  rintro ⟨⟨M,en,n,_,_,sent⟩,_⟩ addr len ⟨quiet,rfl,rfl,rfl⟩ (rfl : n = 0) inside
  have quiet' : QuietLog (sent ++ [(0x03,false)]) := quietLog_append quiet fun busy => absurd rfl busy
  have port := (port_line type depth).toInside
  exact wp_low port quiet (wp_command port quiet trivial fun _ => wp_busy port quiet' (wp_receive deep quiet' inside))

/-! ### The abstract serial flash -/

/-- The counter may run out before an erase is over. -/
def TimesOut (type : ChipType) (SystemCoreClock : UInt32) : Prop :=
  ∃ n, (n = 0 ∨ type.lasts n) ∧ (SystemCoreClock - 1).toNat ≤ n

/-- A counter that starts above every number of busy answers does not run out. -/
theorem inTime_of_lt (some : 0 < (SystemCoreClock - 1).toNat) (less : ∀ n, type.lasts n → n < (SystemCoreClock - 1).toNat) :
    ¬ TimesOut type SystemCoreClock := by
  rintro ⟨n,zero | lasts,late⟩
  · omega
  · exact absurd (less n lasts) (Nat.not_lt.mpr late)

/-- The abstract flash says what the chip holds; when it is not busy neither is the chip. -/
structure Explains (type : ChipType) (s : Port) (f : Flash) : Prop where
  resting : Resting s
  memory : s.chip.memory = f.memory
  idle : f.busy = false → s.chip.busy = 0
  lasts : ∃ n, (n = 0 ∨ type.lasts n) ∧ s.chip.busy ≤ n

/-- Functions that do on a device what those of a serial flash do. `At M n` tells that the chip rests with the memory `M` and
    is busy for `n` more status reads. -/
structure Implements {K : Interface} {σ : Type} (type : ChipType) (SystemCoreClock : UInt32) (R : Device K σ) (J : σ → Prop)
    (At : (Nat → UInt8) → Nat → σ → Prop) (impl : (c : Call) → Prog K (Answer c)) : Prop where
  quiet : ∀ M n s, At M n s → J s
  reads : ∀ M s addr len, At M 0 s → addr.toNat + len.toNat ≤ 2 ^ 24 → (impl (.NVT_Read addr len)).Wp R J
    (fun r s' => r.1 = 0 ∧ (∀ k < len.toNat, r.2 k = M (addr.toNat + k)) ∧ At M 0 s') s
  erases : ∀ M s addr, At M 0 s → addr.toNat < 2 ^ 24 → (impl (.NVT_Erase addr)).Wp R J
    (fun rc s' => rc = (0 : Int32) ∧ ∃ n, type.lasts n ∧ At (fill 0xFF M (sectorStart addr.toNat) 4096) n s') s
  waits : ∀ M n s, At M n s → (impl .NVT_WaitReady).Wp R J
    (fun rc s' => ∃ n' ≤ n, At M n' s' ∧ (rc = (0 : Int32) ∧ n' = 0 ∨ rc = (-1 : Int32) ∧ (SystemCoreClock - 1).toNat ≤ n)) s

/-- The abstract flash says what the chip holds; when it is not busy neither is the chip. -/
def ExplainedBy {σ : Type} (type : ChipType) (At : (Nat → UInt8) → Nat → σ → Prop) (s : σ) (f : Flash) : Prop :=
  ∃ n, At f.memory n s ∧ (f.busy = false → n = 0) ∧ ∃ longest, (longest = 0 ∨ type.lasts longest) ∧ n ≤ longest

/-- A driver over functions that read, erase and wait as these do is one over the abstract serial flash. -/
theorem implements_simulates {K : Interface} {σ : Type} {R : Device K σ} {J : σ → Prop} {At : (Nat → UInt8) → Nat → σ → Prop}
    {impl : (c : Call) → Prog K (Answer c)} (implements : Implements type SystemCoreClock R J At impl) :
    Simulates (fun s t => ∃ f, t = some f ∧ ExplainedBy type At s f) (Serial false (TimesOut type SystemCoreClock)) Left R J impl := by
  refine ⟨fun s t related => ?_,fun c s t related proper => ?_⟩
  · obtain ⟨f,rfl,n,there,_⟩ := related
    exact implements.quiet _ _ _ there
  obtain ⟨f,rfl,n,there,idle,longest,possible,bound⟩ := related
  cases c with
  | NVT_Read addr len =>
    have used : f.busy = false ∧ addr.toNat + len.toNat ≤ 2 ^ 24 := by
      by_contra misused
      exact proper (0,fun _ => 0) none ((if_neg misused).mpr rfl) rfl
    obtain rfl := idle used.1
    refine wp_mono (implements.reads f.memory s addr len there used.2) fun r s' read => ?_
    obtain ⟨status,bytes,there'⟩ := read
    exact ⟨some f,(if_pos used).mpr ⟨status,bytes,rfl⟩,f,rfl,0,there',fun _ => rfl,0,.inl rfl,Nat.le_refl 0⟩
  | NVT_Program addr len buf p => exact (proper 0 none rfl rfl).elim
  | NVT_Erase addr =>
    have used : f.busy = false ∧ addr.toNat < 2 ^ 24 := by
      by_contra misused
      exact proper (0 : Int32) none ((if_neg misused).mpr rfl) rfl
    obtain rfl := idle used.1
    refine wp_mono (implements.erases f.memory s addr there used.2) fun rc s' erased => ?_
    obtain ⟨status,n,lasts,there'⟩ := erased
    exact ⟨some (f.erased addr.toNat true),(if_pos used).mpr ⟨status,rfl⟩,_,rfl,n,there',nofun,n,.inr lasts,Nat.le_refl n⟩
  | NVT_WaitReady =>
    refine wp_mono (implements.waits f.memory n s there) fun rc s' ended => ?_
    obtain ⟨n',less,there',⟨status,zero⟩ | ⟨status,late⟩⟩ := ended
    · exact ⟨some ⟨f.memory,false⟩,.inl ⟨status,rfl⟩,_,rfl,n',there',fun _ => zero,0,.inl rfl,Nat.le_of_eq zero⟩
    · refine ⟨some f,.inr ⟨⟨longest,possible,Nat.le_trans late bound⟩,by rw [status]; decide,rfl⟩,f,rfl,n',there',
        fun ready => ?_,longest,possible,Nat.le_trans less bound⟩
      have zero := idle ready
      omega

/-- A controller between two calls. -/
def Rests (M : Nat → UInt8) (n : Nat) (s : Port) : Prop := Resting s ∧ s.chip.memory = M ∧ s.chip.busy = n

theorem explained_iff {s : Port} {f : Flash} : ExplainedBy type Rests s f ↔ Explains type s f := by
  constructor
  · rintro ⟨n,⟨resting,memory,rfl⟩,idle,lasts⟩
    exact ⟨resting,memory,idle,lasts⟩
  · rintro ⟨resting,memory,idle,lasts⟩
    exact ⟨_,⟨resting,memory,rfl⟩,idle,lasts⟩

/-- Functions over a status read and a read. -/
theorem implements_port {impl : (c : Call) → Prog bus (Answer c)} {SpiFlash_ReadStatusReg : Prog bus UInt8}
    (reads : Reads type depth fun addr len => impl (.NVT_Read addr len)) (polls : Polls type depth SpiFlash_ReadStatusReg)
    (erases : ∀ addr, impl (.NVT_Erase addr) = eraseSector SystemCoreClock addr)
    (waits : impl .NVT_WaitReady = readyLoop SpiFlash_ReadStatusReg (2 ^ 32) SystemCoreClock) :
    Implements type SystemCoreClock (device type depth) Quiet Rests impl where
  quiet := fun M n s there => there.1.quiet
  reads := by
    rintro M s addr len ⟨resting,rfl,idle⟩ inside
    exact wp_mono (reads s addr len resting idle inside) fun r s' read => ⟨read.1,read.2.1,read.2.2⟩
  erases := by
    rintro M s addr ⟨resting,rfl,idle⟩ inside
    rw [erases]
    obtain ⟨⟨M,en,n,_,_,sent⟩,_⟩ := s
    obtain ⟨quiet,rfl,rfl,rfl⟩ := resting
    obtain rfl : n = 0 := idle
    refine wp_mono (eraseSector_wp (port_line type depth) quiet inside) fun rc s' erased => ?_
    obtain ⟨status,n,sent',lasts,quiet',rfl⟩ := erased
    exact ⟨status,n,lasts,⟨quiet',rfl,rfl,rfl⟩,rfl,rfl⟩
  waits := by
    rintro M n s ⟨resting,rfl,rfl⟩
    rw [waits]
    have polled : ∀ s' : Port, Resting s' ∧ s'.chip.memory = s.chip.memory → SpiFlash_ReadStatusReg.Wp (device type depth) Quiet
        (fun v s'' => (v &&& 1 = if s'.chip.busy = 0 then 0 else 1) ∧ (Resting s'' ∧ s''.chip.memory = s.chip.memory) ∧
          s''.chip.busy = s'.chip.busy - 1) s' := by
      rintro s' ⟨resting',same⟩
      refine wp_mono (polls s' resting') fun v s'' read => ?_
      obtain ⟨status,resting'',memory,busy⟩ := read
      exact ⟨status,⟨resting'',memory.trans same⟩,busy⟩
    refine wp_mono (wp_readyLoop (fun s' start => start.1.quiet) (fun _ => id) polled _ _ (UInt32.toNat_lt _) ⟨resting,rfl⟩)
      fun rc s' ended => ?_
    obtain ⟨less,⟨status,⟨resting',memory⟩,zero⟩ | ⟨status,⟨resting',memory⟩,late⟩⟩ := ended
    · exact ⟨_,less,⟨resting',memory,rfl⟩,.inl ⟨status,zero⟩⟩
    · exact ⟨_,less,⟨resting',memory,rfl⟩,.inr ⟨status,late⟩⟩

/-- What holds of a program over the abstract serial flash holds of it over such functions. -/
theorem wp_port {impl : (c : Call) → Prog bus (Answer c)}
    (implements : Implements type SystemCoreClock (device type depth) Quiet Rests impl)
    {α : Type} {Q : α → Option Flash → Prop} {p : Prog interface α} {s : Port} {f : Flash}
    (holds : p.Wp (Serial false (TimesOut type SystemCoreClock)) Left Q (some f)) (explains : Explains type s f) :
    (p.translate impl).Wp (device type depth) Quiet (fun a s' => ∃ t, Q a t ∧ ∃ f', t = some f' ∧ Explains type s' f') s := by
  have related := simulates_wp (implements_simulates implements) holds ⟨f,rfl,explained_iff.mpr explains⟩
  refine wp_mono related fun a s' after => ?_
  obtain ⟨t,result,f',same,explained⟩ := after
  exact ⟨t,result,f',same,explained_iff.mp explained⟩

/-- What holds of a program over the abstract serial flash holds of it over `spi_drv.c`. -/
theorem wp_spi_drv (deep : 8 ≤ depth) (rounds : Nat) {α : Type} {Q : α → Option Flash → Prop} {p : Prog interface α}
    {s : Port} {f : Flash} (holds : p.Wp (Serial false (TimesOut type SystemCoreClock)) Left Q (some f))
    (explains : Explains type s f) : (p.translate (spi_drv SystemCoreClock rounds)).Wp (device type depth) Quiet
      (fun a s' => ∃ t, Q a t ∧ ∃ f', t = some f' ∧ Explains type s' f') s :=
  wp_port (implements_port (reads_SPI deep) (polls_SPI deep SystemCoreClock) (fun _ => rfl) rfl) holds explains

/-- The same for `qspi_drv.c`. -/
theorem wp_qspi_drv (deep : 8 ≤ depth) (rounds : Nat) {α : Type} {Q : α → Option Flash → Prop} {p : Prog interface α}
    {s : Port} {f : Flash} (holds : p.Wp (Serial false (TimesOut type SystemCoreClock)) Left Q (some f))
    (explains : Explains type s f) : (p.translate (qspi_drv SystemCoreClock rounds)).Wp (device type depth) Quiet
      (fun a s' => ∃ t, Q a t ∧ ∃ f', t = some f' ∧ Explains type s' f') s :=
  wp_port (implements_port (reads_QSPI deep) (polls_QSPI deep SystemCoreClock) (fun _ => rfl) rfl) holds explains

end
end NuMicroBoot.SpiPort
