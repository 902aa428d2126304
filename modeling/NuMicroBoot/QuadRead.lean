import NuMicroBoot.SpiPort

/-!
The read of `qspi_drv.c` as it is with `ENABLE_QUAD_MODE`, over four data lines,
on a chip with two status registers. It gives what the read over one line gives,
and leaves the lines, the pins and the quad enable bit as other commands need
them.
-/

namespace NuMicroBoot.QuadRead
open NuMicroBoot.Calls NuMicroBoot.Calls.Prog NuMicroBoot.Cells NuMicroBoot.Words NuMicroBoot.Driver
open NuMicroBoot.ExternalDriver NuMicroBoot.SerialFlash NuMicroBoot.SerialChip NuMicroBoot.SpiBus NuMicroBoot.SpiPort
open NuMicroBoot.Simulation NuMicroBoot.ExternalReads

/-! ### The driver -/

inductive LineCall
  | QSPI_ENABLE_QUAD_OUTPUT_MODE
  | QSPI_ENABLE_QUAD_INPUT_MODE
  | QSPI_DISABLE_QUAD_MODE
  /-- D2 and D3 are outputs that are set, or data lines. -/
  | D2D3_SwitchToNormalMode
  | D2D3_SwitchToQuadMode

abbrev lines : Interface := ⟨LineCall,fun _ => Unit⟩
abbrev quad : Interface := bus.both lines

def onBus {α : Type} (p : Prog bus α) : Prog quad α := p.translate left
def onLines (c : LineCall) : Prog quad Unit := right (I := bus) c

section
variable (SystemCoreClock : UInt32)

/-- `SpiFlash_ReadStatusReg` but for the command. -/
def SpiFlash_ReadStatusReg2 : Prog bus UInt8 := do
  ClearRxFIFO
  SET_SS_LOW
  WRITE_TX 0x35
  WRITE_TX 0x00
  wait_IS_BUSY SystemCoreClock
  SET_SS_HIGH
  let _ ← READ_RX
  let rx ← READ_RX
  .ret rx.toUInt8

def SpiFlash_WriteStatusReg (u8Value1 u8Value2 : UInt8) : Prog bus Unit := do
  writeEnable SystemCoreClock
  SET_SS_LOW
  WRITE_TX 0x01
  WRITE_TX u8Value1.toUInt32
  WRITE_TX u8Value2.toUInt32
  wait_IS_BUSY SystemCoreClock
  SET_SS_HIGH

/-- The function has the body of `NVT_NVQSPI_WaitReady`. -/
def SpiFlash_WaitReady : Prog bus Int32 := readyLoop (SpiFlash_ReadStatusReg_QSPI SystemCoreClock) (2 ^ 32) SystemCoreClock

/-- `spiFlash_EnableQEBit` and `spiFlash_DisableQEBit` but for the change of the second register. -/
def changeQEBit (change : UInt8 → UInt8) : Prog bus Unit := do
  let u8Status1 ← SpiFlash_ReadStatusReg_QSPI SystemCoreClock
  let u8Status2 ← SpiFlash_ReadStatusReg2 SystemCoreClock
  SpiFlash_WriteStatusReg SystemCoreClock u8Status1 (change u8Status2)
  let _ ← SpiFlash_WaitReady SystemCoreClock
  .ret ()

def spiFlash_EnableQEBit : Prog bus Unit := changeQEBit SystemCoreClock fun u8Status2 => u8Status2 ||| 0x2
def spiFlash_DisableQEBit : Prog bus Unit := changeQEBit SystemCoreClock fun u8Status2 => u8Status2 &&& ~~~0x2

/-- `NVT_NVQSPI_Read` with `ENABLE_QUAD_MODE`. -/
def NVT_NVQSPI_Read_quad (addr len : UInt32) : Prog quad (Int32 × Buffer) := do
  onBus do
    spiFlash_EnableQEBit SystemCoreClock
    SET_SS_LOW
    WRITE_TX 0xEB
    wait_IS_BUSY SystemCoreClock
  onLines .D2D3_SwitchToQuadMode
  onLines .QSPI_ENABLE_QUAD_OUTPUT_MODE
  onBus do
    writeAddress addr
    -- the mode byte, and the dummy bytes
    WRITE_TX 0x00
    WRITE_TX 0x00
    WRITE_TX 0x00
    wait_IS_BUSY SystemCoreClock
  onLines .QSPI_ENABLE_QUAD_INPUT_MODE
  let data ← onBus do
    ClearRxFIFO
    let data ← dataLoop SystemCoreClock len (len.toNat + 1) 0 fun _ => 0
    wait_IS_BUSY SystemCoreClock
    SET_SS_HIGH
    .ret data
  onLines .QSPI_DISABLE_QUAD_MODE
  onLines .D2D3_SwitchToNormalMode
  onBus (spiFlash_DisableQEBit SystemCoreClock)
  .ret (0,data)

/-- `qspi_drv.c` with `ENABLE_QUAD_MODE`. -/
def qspi_drv_quad (rounds : Nat) : (c : Call) → Prog quad (Answer c)
  | .NVT_Read addr len => NVT_NVQSPI_Read_quad SystemCoreClock addr len
  | c => onBus (qspi_drv SystemCoreClock rounds c)

end

/-! ### The chip and its lines -/

inductive Direction
  | single
  | quadOutput
  | quadInput

/-- The controller with the chip, the status registers of the chip, the mode of the controller, and whether D2 and D3 are
    data lines. -/
structure QuadPort where
  port : Port
  status1 : UInt8
  status2 : UInt8
  direction : Direction
  quadPins : Bool

/-- `settles` tells which numbers of status reads a write of the status registers may last for, the others which of their
    bits it sets. -/
structure QuadType where
  type : ChipType
  settles : Nat → Prop
  writable1 : UInt8
  writable2 : UInt8

/-- The bits of the mask come from the new value. -/
def merged (mask old new : UInt8) : UInt8 := (old &&& ~~~mask) ||| (new &&& mask)

/-- The next byte is on the lines on which the chip has it: behind the command 0xEB, which the quad enable bit allows, on
    four, six times to the chip and then from it; otherwise on one, with D2 and D3 set. -/
def Understood (s : QuadPort) : Prop :=
  match s.port.chip.frame with
  | 0xEB :: rest =>
    s.status2 &&& 2 ≠ 0 ∧ s.quadPins = true ∧ s.direction = if rest.length < 6 then .quadOutput else .quadInput
  | _ => s.direction = .single ∧ s.quadPins = false

/-- What an idle chip tells beside what `Chip.Answers` says: the other bits of its status registers, and its memory behind
    an address, a mode byte of 0 and two dummy bytes. -/
def Told (s : QuadPort) (answer : UInt8) : Prop :=
  s.port.chip.busy = 0 → match s.port.chip.frame with
    | 0x05 :: _ => answer &&& 0xFC = s.status1 &&& 0xFC
    | 0x35 :: _ => answer = s.status2
    | 0xEB :: a :: b :: d :: 0 :: _ :: _ :: bytes => answer = s.port.chip.memory (Chip.addressOf a b d + bytes.length)
    | _ => True

/-- What an idle chip does at the end of a frame. -/
def Executed (q : QuadType) (s s' : QuadPort) : Prop :=
  match s.port.chip.frame with
  | [0x01,u8Value1,u8Value2] =>
    if s.port.chip.enabled then
      ∃ n, q.settles n ∧ s'.port.chip = { s.port.chip.released with enabled := false, busy := n } ∧
        s'.status1 = merged q.writable1 s.status1 u8Value1 ∧ s'.status2 = merged q.writable2 s.status2 u8Value2
    else s'.port.chip = { s.port.chip.released with enabled := false } ∧ s'.status1 = s.status1 ∧ s'.status2 = s.status2
  | 0x35 :: _ =>
    s'.port.chip = { s.port.chip.released with enabled := s.port.chip.enabled && q.type.keeps } ∧
      s'.status1 = s.status1 ∧ s'.status2 = s.status2
  | 0xEB :: _ :: _ :: _ :: 0 :: _ =>
    s'.port.chip = { s.port.chip.released with enabled := false } ∧ s'.status1 = s.status1 ∧ s'.status2 = s.status2
  | _ => s.port.chip.Executed q.type s'.port.chip ∧ s'.status1 = s.status1 ∧ s'.status2 = s.status2

/-- The end of a frame. -/
def Deselected (q : QuadType) (s s' : QuadPort) : Prop :=
  if s.port.chip.selected ∧ s.port.chip.busy = 0 then Executed q s s'
  else s'.port.chip = s.port.chip.released ∧ s'.status1 = s.status1 ∧ s'.status2 = s.status2

/-- The controller on its bus. A byte on other lines than the chip has it on may do anything. -/
def busDevice (q : QuadType) (depth : Nat) : Device bus QuadPort
  | .SET_SS_LOW, s, _, s' => s' = { s with port := { s.port with chip := { s.port.chip with selected := true } } }
  | .SET_SS_HIGH, s, _, s' =>
    s'.port.rx = s.port.rx ∧ s'.direction = s.direction ∧ s'.quadPins = s.quadPins ∧ Deselected q s s'
  | .WRITE_TX data, s, _, s' => Understood s → ∃ answer, s.port.chip.Answers answer ∧ Told s answer ∧
      s' = { s with port := ⟨s.port.chip.received data.toUInt8,push depth s.port.rx answer⟩ }
  | c, s, a, s' => SpiPort.device q.type depth c s.port a s'.port ∧ s' = { s with port := s'.port }

def lineDevice : Device lines QuadPort
  | .QSPI_ENABLE_QUAD_OUTPUT_MODE, s, _, s' => s' = { s with direction := .quadOutput }
  | .QSPI_ENABLE_QUAD_INPUT_MODE, s, _, s' => s' = { s with direction := .quadInput }
  | .QSPI_DISABLE_QUAD_MODE, s, _, s' => s' = { s with direction := .single }
  | .D2D3_SwitchToNormalMode, s, _, s' => s' = { s with quadPins := false }
  | .D2D3_SwitchToQuadMode, s, _, s' => s' = { s with quadPins := true }

/-- Both sides of the controller. -/
def device (q : QuadType) (depth : Nat) : Device quad QuadPort
  | .inl c => busDevice q depth c
  | .inr c => lineDevice c

/-! ### Masks -/

def bit (v : UInt8) (i : Nat) : Bool := v.toBitVec.getLsbD i

theorem eq_of_bits {a b : UInt8} (same : ∀ i < 8, bit a i = bit b i) : a = b :=
  UInt8.toBitVec_inj.mp (BitVec.eq_of_getLsbD_eq same)

@[simp] theorem bit_and (a b : UInt8) (i : Nat) : bit (a &&& b) i = (bit a i && bit b i) := by simp [bit]
@[simp] theorem bit_or (a b : UInt8) (i : Nat) : bit (a ||| b) i = (bit a i || bit b i) := by simp [bit]
theorem bit_not (a : UInt8) {i : Nat} (inside : i < 8) : bit (~~~a) i = !bit a i := by simp [bit,inside]

theorem bit_merged (mask old new : UInt8) {i : Nat} (inside : i < 8) :
    bit (merged mask old new) i = if bit mask i then bit new i else bit old i := by
  rw [merged,bit_or,bit_and,bit_and,bit_not mask inside]
  cases bit mask i <;> simp

/-- Where the values differ on bits only that are not written. -/
theorem merged_old {mask old new c : UInt8} (readOnly : mask &&& c = 0) (elsewhere : new &&& ~~~c = old &&& ~~~c) :
    merged mask old new = old := by
  refine eq_of_bits fun i inside => ?_
  have without := congrArg (bit · i) readOnly
  have same := congrArg (bit · i) elsewhere
  simp only [bit_and,bit_not c inside] at without same
  rw [bit_merged mask old new inside]
  rw [show bit 0 i = false by simp [bit]] at without
  grind

/-- Where the values differ on bits only that are written. -/
theorem merged_new {mask old new c : UInt8} (writable : mask &&& c = c) (elsewhere : new &&& ~~~c = old &&& ~~~c) :
    merged mask old new = new := by
  refine eq_of_bits fun i inside => ?_
  have within := congrArg (bit · i) writable
  have same := congrArg (bit · i) elsewhere
  simp only [bit_and,bit_not c inside] at within same
  rw [bit_merged mask old new inside]
  grind

theorem merged_within {mask m : UInt8} (old new : UInt8) (part : m &&& mask = m) : merged mask old new &&& m = new &&& m := by
  refine eq_of_bits fun i inside => ?_
  have within := congrArg (bit · i) part
  simp only [bit_and] at within
  rw [bit_and,bit_and,bit_merged mask old new inside]
  grind

theorem merged_without (mask old new : UInt8) : merged mask old new &&& ~~~mask = old &&& ~~~mask := by
  refine eq_of_bits fun i inside => ?_
  rw [bit_and,bit_and,bit_not mask inside,bit_merged mask old new inside]
  cases bit mask i <;> simp

theorem or_elsewhere (v c : UInt8) : (v ||| c) &&& ~~~c = v &&& ~~~c := by
  refine eq_of_bits fun i inside => ?_
  simp only [bit_and,bit_or,bit_not c inside]
  cases bit v i <;> cases bit c i <;> rfl

theorem and_elsewhere (v c : UInt8) : (v &&& ~~~c) &&& ~~~c = v &&& ~~~c := by
  rw [UInt8.and_assoc,UInt8.and_self]

/-! ### One call on the bus -/

/-- No command but a status read goes to a busy chip. -/
def Undisturbed (s : QuadPort) : Prop := Quiet s.port

section
variable {q : QuadType} {depth : Nat} {α : Type} {Q : α → QuadPort → Prop} {M : Nat → UInt8} {en pins : Bool} {n : Nat}
  {frame rx : List UInt8} {sent : List (UInt8 × Bool)} {s1 s2 : UInt8} {dir : Direction}

/-- What is on the bus does not touch the status registers and the lines. -/
theorem quad_inside (q : QuadType) (depth : Nat) (s1 s2 : UInt8) (dir : Direction) (pins : Bool) :
    Inside depth (busDevice q depth) Undisturbed (fun p => ⟨p,s1,s2,dir,pins⟩) (fun p => Understood ⟨p,s1,s2,dir,pins⟩)
      (fun p => Told ⟨p,s1,s2,dir,pins⟩) where
  now := fun _ => id
  selects := fun _ _ _ => id
  writes := fun _ _ _ _ understood moved => moved understood
  reads := fun chip b rest a s' moved => by
    obtain ⟨⟨same,port⟩,others⟩ := moved
    rw [others,port]
    exact ⟨same,rfl⟩
  still := fun a s s' moved => by
    obtain ⟨port,others⟩ := moved
    rw [others,port]
  clears := fun s a s' moved => by
    obtain ⟨port,others⟩ := moved
    rw [others,port]

/-- Over one line the commands of a serial flash do what they do on the controller. -/
theorem quad_line (s1 s2 : UInt8) : OneLine q.type depth (busDevice q depth) Undisturbed (fun p => ⟨p,s1,s2,.single,false⟩)
    (fun p => Understood ⟨p,s1,s2,.single,false⟩) (fun p => Told ⟨p,s1,s2,.single,false⟩) where
  toInside := quad_inside q depth s1 s2 .single false
  common := by
    rintro ⟨⟨M,en,n,sel,frame,sent⟩,rx⟩ common
    rcases frame with _ | ⟨b,bs⟩
    · exact ⟨rfl,rfl⟩
    · rcases common with rfl | rfl | rfl | rfl <;> exact ⟨rfl,rfl⟩
  ends := by
    rintro ⟨⟨M,en,n,sel,frame,sent⟩,rx⟩ a ⟨⟨chip,rx'⟩,s1',s2',dir',pins'⟩ common
      ⟨(rfl : rx' = rx),(rfl : dir' = .single),(rfl : pins' = false),ended⟩
    by_cases taken : sel ∧ n = 0
    · have executed := (if_pos taken).mp ended
      have plain : Chip.Executed q.type ⟨M,en,n,sel,frame,sent⟩ chip ∧ s1' = s1 ∧ s2' = s2 := by
        rcases frame with _ | ⟨b,bs⟩
        · exact executed
        · rcases common with rfl | rfl | rfl | rfl <;> exact executed
      obtain ⟨same,rfl,rfl⟩ := plain
      exact ⟨chip,(if_pos taken).mpr same,rfl⟩
    · obtain ⟨released,rfl,rfl⟩ := (if_neg taken).mp ended
      exact ⟨chip,(if_neg taken).mpr released,rfl⟩

/-- The end of a frame of the commands that a serial flash with one line does not have. -/
theorem wp_end {next : Unit → Prog bus α} (quiet : QuietLog sent)
    (rest : ∀ chip s1' s2', Deselected q ⟨⟨⟨M,en,n,true,frame,sent⟩,rx⟩,s1,s2,dir,pins⟩ ⟨⟨chip,rx⟩,s1',s2',dir,pins⟩ →
      (next ()).Wp (busDevice q depth) Undisturbed Q ⟨⟨chip,rx⟩,s1',s2',dir,pins⟩) :
    (SET_SS_HIGH >>= next).Wp (busDevice q depth) Undisturbed Q ⟨⟨⟨M,en,n,true,frame,sent⟩,rx⟩,s1,s2,dir,pins⟩ := by
  refine ⟨quiet,fun _ s moved => ?_⟩
  obtain ⟨⟨chip,rx'⟩,s1',s2',dir',pins'⟩ := s
  obtain ⟨rfl,rfl,rfl,deselected⟩ := moved
  exact rest chip s1' s2' deselected

theorem deselected_status2 {chip : Chip} {s1' s2' v : UInt8}
    (ended : Deselected q ⟨⟨⟨M,en,0,true,[0x35,v],sent⟩,rx⟩,s1,s2,dir,pins⟩ ⟨⟨chip,rx⟩,s1',s2',dir,pins⟩) :
    chip = ⟨M,en && q.type.keeps,0,false,[],sent⟩ ∧ s1' = s1 ∧ s2' = s2 := (if_pos ⟨rfl,rfl⟩).mp ended

theorem deselected_write {chip : Chip} {s1' s2' v1 v2 : UInt8}
    (ended : Deselected q ⟨⟨⟨M,true,0,true,[0x01,v1,v2],sent⟩,rx⟩,s1,s2,dir,pins⟩ ⟨⟨chip,rx⟩,s1',s2',dir,pins⟩) :
    ∃ n, q.settles n ∧ chip = ⟨M,false,n,false,[],sent⟩ ∧ s1' = merged q.writable1 s1 v1 ∧ s2' = merged q.writable2 s2 v2 :=
  (if_pos ⟨rfl,rfl⟩).mp ended

theorem deselected_quad {chip : Chip} {s1' s2' a b d : UInt8} {bytes : List UInt8}
    (ended : Deselected q ⟨⟨⟨M,en,0,true,0xEB :: a :: b :: d :: 0 :: bytes,sent⟩,rx⟩,s1,s2,dir,pins⟩
      ⟨⟨chip,rx⟩,s1',s2',dir,pins⟩) :
    chip = ⟨M,false,0,false,[],sent⟩ ∧ s1' = s1 ∧ s2' = s2 := (if_pos ⟨rfl,rfl⟩).mp ended

end

/-! ### The status registers -/

/-- Between two frames on one line. -/
def Between (M : Nat → UInt8) (s1 s2 : UInt8) (n : Nat) (rx : List UInt8) (s : QuadPort) : Prop :=
  ∃ en sent, QuietLog sent ∧ s = ⟨⟨⟨M,en,n,false,[],sent⟩,rx⟩,s1,s2,.single,false⟩

theorem between_undisturbed {M : Nat → UInt8} {s1 s2 : UInt8} {n : Nat} {rx : List UInt8} {s : QuadPort}
    (there : Between M s1 s2 n rx s) : Undisturbed s := by
  obtain ⟨en,sent,quiet,rfl⟩ := there
  exact quiet

theorem between_busy {M : Nat → UInt8} {s1 s2 : UInt8} {n : Nat} {rx : List UInt8} {s : QuadPort}
    (there : Between M s1 s2 n rx s) : s.port.chip.busy = n := by
  obtain ⟨en,sent,quiet,rfl⟩ := there
  rfl

section
variable {q : QuadType} {depth : Nat} {SystemCoreClock : UInt32} {M : Nat → UInt8} {s1 s2 : UInt8} {n : Nat} {rx : List UInt8}
  {s : QuadPort}

theorem readStatusReg_wp (deep : 8 ≤ depth) (there : Between M s1 s2 n rx s) :
    (SpiFlash_ReadStatusReg_QSPI SystemCoreClock).Wp (busDevice q depth) Undisturbed (fun v s' =>
      (v &&& 1 = if n = 0 then 0 else 1) ∧ (n = 0 → v &&& 0xFC = s1 &&& 0xFC) ∧ Between M s1 s2 (n - 1) [] s') s := by
  obtain ⟨en,sent,quiet,rfl⟩ := there
  refine wp_mono (readStatusReg_QSPI_wp (quad_line s1 s2) deep quiet) fun v s' read => ?_
  obtain ⟨status,⟨_,others⟩,en',sent',quiet',rfl⟩ := read
  exact ⟨status,others,en',sent',quiet',rfl⟩

theorem readStatusReg2_wp (deep : 8 ≤ depth) (there : Between M s1 s2 0 rx s) :
    (SpiFlash_ReadStatusReg2 SystemCoreClock).Wp (busDevice q depth) Undisturbed
      (fun v s' => v = s2 ∧ Between M s1 s2 0 [] s') s := by
  obtain ⟨en,sent,quiet,rfl⟩ := there
  have quiet' : QuietLog (sent ++ [(0x35,decide (0 ≠ 0))]) := quietLog_append quiet fun busy => absurd rfl busy
  have inside := quad_inside q depth s1 s2 .single false
  refine wp_clear inside quiet (wp_low inside quiet (wp_command inside quiet ⟨rfl,rfl⟩ fun first => ?_))
  refine wp_write inside quiet' (by decide) ⟨rfl,rfl⟩ fun second _ told => wp_busy inside quiet' ?_
  rw [push_two deep]
  refine wp_end quiet' fun chip s1' s2' ended => ?_
  obtain ⟨rfl,rfl,rfl⟩ := deselected_status2 ended
  refine wp_rx inside quiet' fun _ _ => wp_rx inside quiet' fun a same => ⟨quiet',?_,_,_,quiet',rfl⟩
  rw [same]
  exact told rfl

theorem writeStatusReg_wp (there : Between M s1 s2 0 rx s) (v1 v2 : UInt8) :
    (SpiFlash_WriteStatusReg SystemCoreClock v1 v2).Wp (busDevice q depth) Undisturbed (fun _ s' => ∃ n rx', q.settles n ∧
      Between M (merged q.writable1 s1 v1) (merged q.writable2 s2 v2) n rx' s') s := by
  obtain ⟨en,sent,quiet,rfl⟩ := there
  have first : QuietLog (sent ++ [(0x06,false)]) := quietLog_append quiet fun busy => absurd rfl busy
  have second : QuietLog (sent ++ [(0x06,false)] ++ [(0x01,false)]) := quietLog_append first fun busy => absurd rfl busy
  have inside := quad_inside q depth s1 s2 .single false
  refine wp_writeEnable (quad_line s1 s2) quiet fun _ => wp_low inside first (wp_command inside first ⟨rfl,rfl⟩ fun _ => ?_)
  refine wp_write inside second (by decide) ⟨rfl,rfl⟩ fun _ _ _ => wp_write inside second (by decide) ⟨rfl,rfl⟩ fun _ _ _ => ?_
  refine wp_busy inside second (wp_end second fun chip s1' s2' ended => ?_)
  rw [UInt8.toUInt8_toUInt32,UInt8.toUInt8_toUInt32] at ended
  obtain ⟨n,settles,rfl,rfl,rfl⟩ := deselected_write ended
  exact ⟨second,n,_,settles,_,_,second,rfl⟩

/-- A loop that gives up before its first status read has left the RX FIFO as it was. -/
theorem waitReady_wp (deep : 8 ≤ depth) (there : Between M s1 s2 n rx s) :
    (SpiFlash_WaitReady SystemCoreClock).Wp (busDevice q depth) Undisturbed (fun rc s' =>
      rc = 0 ∧ Between M s1 s2 0 [] s' ∨
      rc = -1 ∧ (SystemCoreClock - 1).toNat ≤ n ∧ ∃ n' ≤ n, ∃ rx', (rx' = [] ∨ rx' = rx) ∧ Between M s1 s2 n' rx' s') s := by
  have polls : ∀ s : QuadPort, (∃ n rx', (rx' = [] ∨ rx' = rx) ∧ Between M s1 s2 n rx' s) →
      (SpiFlash_ReadStatusReg_QSPI SystemCoreClock).Wp (busDevice q depth) Undisturbed (fun v s' =>
        (v &&& 1 = if s.port.chip.busy = 0 then 0 else 1) ∧ (∃ n, Between M s1 s2 n [] s') ∧
        s'.port.chip.busy = s.port.chip.busy - 1) s := by
    rintro s ⟨n,rx',_,there⟩
    refine wp_mono (readStatusReg_wp deep there) fun v s' read => ?_
    obtain ⟨status,_,there'⟩ := read
    rw [between_busy there,between_busy there']
    exact ⟨status,⟨_,there'⟩,rfl⟩
  have start : ∃ n rx', (rx' = [] ∨ rx' = rx) ∧ Between M s1 s2 n rx' s := ⟨n,rx,.inr rfl,there⟩
  refine wp_mono (wp_readyLoop (fun s start => ?_) (fun s ended => ?_) polls _ _ (UInt32.toNat_lt _) start) fun rc s' ended => ?_
  · obtain ⟨_,_,_,there⟩ := start
    exact between_undisturbed there
  · obtain ⟨n,there⟩ := ended
    exact ⟨n,[],.inl rfl,there⟩
  · rw [between_busy there] at ended
    obtain ⟨less,⟨status,⟨n',there'⟩,zero⟩ | ⟨status,⟨n',rx',left,there'⟩,late⟩⟩ := ended
    · rw [between_busy there'] at zero
      subst zero
      exact .inl ⟨status,there'⟩
    · rw [between_busy there'] at less
      exact .inr ⟨status,late,n',less,rx',left,there'⟩

theorem changeQEBit_wp (deep : 8 ≤ depth) (readOnly : q.writable1 &&& 3 = 0)
    (inTime : ∀ n, q.settles n → n < (SystemCoreClock - 1).toNat) {change : UInt8 → UInt8}
    (written : merged q.writable2 s2 (change s2) = change s2) (there : Between M s1 s2 0 rx s) :
    (changeQEBit SystemCoreClock change).Wp (busDevice q depth) Undisturbed (fun _ s' => Between M s1 (change s2) 0 [] s') s := by
  refine wp_bind (readStatusReg_wp deep there) fun u8Status1 s₁ _ read => ?_
  obtain ⟨_,others,there₁⟩ := read
  refine wp_bind (readStatusReg2_wp deep there₁) fun u8Status2 s₂ _ read => ?_
  obtain ⟨rfl,there₂⟩ := read
  refine wp_bind (writeStatusReg_wp there₂ u8Status1 _) fun _ s₃ _ wrote => ?_
  obtain ⟨n,rx',settles,there₃⟩ := wrote
  rw [merged_old readOnly (others rfl),written] at there₃
  refine wp_bind (waitReady_wp deep there₃) fun rc s₄ quiet ended => ⟨quiet,?_⟩
  obtain ⟨_,there₄⟩ | ⟨_,late,_⟩ := ended
  · exact there₄
  · have := inTime n settles
    omega

theorem eraseSector_wp (there : Between M s1 s2 0 rx s) {addr : UInt32} (inside : addr.toNat < 2 ^ 24) :
    (eraseSector SystemCoreClock addr).Wp (busDevice q depth) Undisturbed (fun rc s' => rc = 0 ∧ ∃ n, q.type.lasts n ∧
      Between (fill 0xFF M (sectorStart addr.toNat) 4096) s1 s2 n [] s') s := by
  obtain ⟨en,sent,quiet,rfl⟩ := there
  refine wp_mono (SpiPort.eraseSector_wp (quad_line s1 s2) quiet inside) fun rc s' erased => ?_
  obtain ⟨status,n,sent',lasts,quiet',rfl⟩ := erased
  exact ⟨status,n,lasts,false,sent',quiet',rfl⟩

/-! ### Reading over four lines -/

/-- The bus side of both sides. -/
theorem wp_onBus {α : Type} {Q : α → QuadPort → Prop} {p : Prog bus α} (holds : p.Wp (busDevice q depth) Undisturbed Q s) :
    (onBus p).Wp (device q depth) Undisturbed Q s := by
  induction p generalizing s with
  | ret a => exact holds
  | call c next ih => exact ⟨holds.1,fun a s' moved => ih a (holds.2 a s' moved)⟩
  | spin => exact holds


/-- Inside a frame. -/
def Within (M : Nat → UInt8) (s1 s2 : UInt8) (frame : List UInt8) (dir : Direction) (pins : Bool) (s : QuadPort) : Prop :=
  ∃ en sent rx, QuietLog sent ∧ s = ⟨⟨⟨M,en,0,true,frame,sent⟩,rx⟩,s1,s2,dir,pins⟩

/-- Inside a read frame that has brought `k` bytes. -/
def Reading (M : Nat → UInt8) (s1 s2 a b d : UInt8) (k : Nat) (s : QuadPort) : Prop :=
  ∃ en sent, ∃ bytes : List UInt8, QuietLog sent ∧ bytes.length = k ∧
    s = ⟨⟨⟨M,en,0,true,0xEB :: a :: b :: d :: 0 :: 0 :: 0 :: bytes,sent⟩,[]⟩,s1,s2,.quadInput,true⟩

theorem quadCommand_wp (deep : 8 ≤ depth) (readOnly : q.writable1 &&& 3 = 0) (quadBit : q.writable2 &&& 2 = 2)
    (inTime : ∀ n, q.settles n → n < (SystemCoreClock - 1).toNat) (there : Between M s1 s2 0 rx s) :
    (do
      spiFlash_EnableQEBit SystemCoreClock
      SET_SS_LOW
      WRITE_TX 0xEB
      wait_IS_BUSY SystemCoreClock).Wp (busDevice q depth) Undisturbed
        (fun _ s' => Within M s1 (s2 ||| 2) [0xEB] .single false s') s := by
  refine wp_bind (changeQEBit_wp deep readOnly inTime (merged_new quadBit (or_elsewhere s2 2)) there) fun _ s₁ _ there₁ => ?_
  obtain ⟨en,sent,quiet,rfl⟩ := there₁
  have quiet' : QuietLog (sent ++ [(0xEB,false)]) := quietLog_append quiet fun busy => absurd rfl busy
  have inside := quad_inside q depth s1 (s2 ||| 2) .single false
  refine wp_low inside quiet (wp_command inside quiet ⟨rfl,rfl⟩ fun _ => ?_)
  exact wp_mono (wait_wp inside quiet') fun _ _ same => ⟨_,_,_,quiet',same⟩

theorem quadAddress_wp (enabled : s2 &&& 2 ≠ 0) {addr : UInt32} (there : Within M s1 s2 [0xEB] .quadOutput true s) :
    (do
      writeAddress addr
      WRITE_TX 0x00
      WRITE_TX 0x00
      WRITE_TX 0x00
      wait_IS_BUSY SystemCoreClock).Wp (busDevice q depth) Undisturbed (fun _ s' => Within M s1 s2
        [0xEB,((addr >>> 16) &&& 0xFF).toUInt8,((addr >>> 8) &&& 0xFF).toUInt8,(addr &&& 0xFF).toUInt8,0,0,0]
        .quadOutput true s') s := by
  obtain ⟨en,sent,rx,quiet,rfl⟩ := there
  have dummy : ∀ {bs : List UInt8} {rx}, bs.length < 6 →
      Understood ⟨⟨⟨M,en,0,true,0xEB :: bs,sent⟩,rx⟩,s1,s2,.quadOutput,true⟩ := fun few => ⟨enabled,rfl,(if_pos few).symm⟩
  have inside := quad_inside q depth s1 s2 .quadOutput true
  refine wp_address inside quiet (by decide) (fun few => dummy (by omega)) fun _ => ?_
  refine wp_write inside quiet (by decide) (dummy (by simp)) fun _ _ _ => wp_write inside quiet (by decide) (dummy (by simp))
    fun _ _ _ => wp_write inside quiet (by decide) (dummy (by simp)) fun _ _ _ => ?_
  exact wp_mono (wait_wp inside quiet) fun _ _ same => ⟨_,_,_,quiet,same⟩

theorem quadByte_wp (deep : 8 ≤ depth) (enabled : s2 &&& 2 ≠ 0) {a b d : UInt8} (k : Nat) (s : QuadPort)
    (reading : Reading M s1 s2 a b d k s) :
    (do WRITE_TX 0x00; wait_IS_BUSY SystemCoreClock; READ_RX).Wp (busDevice q depth) Undisturbed
      (fun rx s' => UInt32.toUInt8 rx = M (Chip.addressOf a b d + k) ∧ Reading M s1 s2 a b d (k + 1) s') s := by
  obtain ⟨en,sent,bytes,quiet,rfl,rfl⟩ := reading
  refine wp_mono (wp_exchange deep (quad_inside q depth s1 s2 .quadInput true) quiet (by decide) ⟨enabled,rfl,(if_neg (by simp)).symm⟩)
    fun rx s' come => ?_
  obtain ⟨_,told,rfl⟩ := come
  exact ⟨told rfl,en,sent,bytes ++ [0],quiet,by simp,rfl⟩

theorem quadData_wp (deep : 8 ≤ depth) (enabled : s2 &&& 2 ≠ 0) {a b d : UInt8} {len : UInt32}
    (there : Within M s1 s2 [0xEB,a,b,d,0,0,0] .quadInput true s) :
    (do
      ClearRxFIFO
      let data ← dataLoop SystemCoreClock len (len.toNat + 1) 0 fun _ => 0
      wait_IS_BUSY SystemCoreClock
      SET_SS_HIGH
      .ret data).Wp (busDevice q depth) Undisturbed (fun data s' =>
        data = copy (fun _ => 0) (0 : UInt32).toNat M (Chip.addressOf a b d + (0 : UInt32).toNat) (len.toNat - (0 : UInt32).toNat) ∧
        ∃ en sent, QuietLog sent ∧ s' = (⟨⟨⟨M,en,0,false,[],sent⟩,[]⟩,s1,s2,.quadInput,true⟩ : QuadPort)) s := by
  obtain ⟨en,sent,rx,quiet,rfl⟩ := there
  have now : ∀ k s, Reading M s1 s2 a b d k s → Undisturbed s := by
    rintro k s ⟨en,sent,bytes,quiet,_,rfl⟩
    exact quiet
  have inside := quad_inside q depth s1 s2 .quadInput true
  refine wp_clear inside quiet ?_
  refine wp_bind (wp_dataLoop now (quadByte_wp deep enabled) len _ 0 _ _ ⟨en,sent,[],quiet,rfl,rfl⟩ (Nat.zero_le _)
    (Nat.lt_succ_self _)) fun data s' _ read => ?_
  obtain ⟨rfl,en',sent',bytes,quiet',_,rfl⟩ := read
  refine wp_busy inside quiet' (wp_end quiet' fun chip s1' s2' ended => ?_)
  obtain ⟨rfl,rfl,rfl⟩ := deselected_quad ended
  exact ⟨quiet',rfl,_,_,quiet',rfl⟩

/-- The read gives the bytes of the memory; the quad enable bit is cleared behind it. -/
theorem read_quad_wp (deep : 8 ≤ depth) (readOnly : q.writable1 &&& 3 = 0) (quadBit : q.writable2 &&& 2 = 2)
    (inTime : ∀ n, q.settles n → n < (SystemCoreClock - 1).toNat) (there : Between M s1 s2 0 rx s) {addr len : UInt32}
    (inside : addr.toNat + len.toNat ≤ 2 ^ 24) :
    (NVT_NVQSPI_Read_quad SystemCoreClock addr len).Wp (device q depth) Undisturbed (fun r s' => r.1 = 0 ∧
      (∀ k < len.toNat, r.2 k = M (addr.toNat + k)) ∧ Between M s1 (s2 &&& ~~~2) 0 [] s') s := by
  have enabled : (s2 ||| 2) &&& 2 ≠ 0 := fun clear => by
    have second := congrArg (bit · 1) clear
    simp [bit] at second
  refine wp_bind (wp_onBus (quadCommand_wp deep readOnly quadBit inTime there)) fun _ s₁ _ there₁ => ?_
  obtain ⟨en,sent,rx₁,quiet,rfl⟩ := there₁
  refine wp_moves (fun _ _ => id) quiet fun _ => wp_moves (fun _ _ => id) quiet fun _ => ?_
  refine wp_bind (wp_onBus (quadAddress_wp enabled ⟨en,sent,rx₁,quiet,rfl⟩)) fun _ s₂ _ there₂ => ?_
  obtain ⟨en,sent,rx₂,quiet,rfl⟩ := there₂
  refine wp_moves (fun _ _ => id) quiet fun _ => ?_
  refine wp_bind (wp_onBus (quadData_wp deep enabled ⟨en,sent,rx₂,quiet,rfl⟩)) fun data s₃ _ there₃ => ?_
  obtain ⟨rfl,en,sent,quiet,rfl⟩ := there₃
  refine wp_moves (fun _ _ => id) quiet fun _ => wp_moves (fun _ _ => id) quiet fun _ => ?_
  refine wp_bind (wp_onBus (changeQEBit_wp deep readOnly inTime (merged_new quadBit (and_elsewhere _ 2))
    ⟨en,sent,quiet,rfl⟩)) fun _ s₄ quiet₄ there₄ => ⟨quiet₄,rfl,fun k part => read_byte M inside part,?_⟩
  rwa [or_elsewhere] at there₄

/-! ### The abstract serial flash -/

/-- The chip rests; the first status register and the bits of the second one but the quad enable bit are these. -/
def Rests (status1 others : UInt8) (M : Nat → UInt8) (n : Nat) (s : QuadPort) : Prop :=
  ∃ s2, s2 &&& ~~~2 = others ∧ Between M status1 s2 n [] s

theorem implements_quad (deep : 8 ≤ depth) (readOnly : q.writable1 &&& 3 = 0) (quadBit : q.writable2 &&& 2 = 2)
    (inTime : ∀ n, q.settles n → n < (SystemCoreClock - 1).toNat) (rounds : Nat) (status1 others : UInt8) :
    Implements q.type SystemCoreClock (device q depth) Undisturbed (Rests status1 others) (qspi_drv_quad SystemCoreClock rounds) where
  quiet := by
    rintro M n s ⟨s2,_,there⟩
    exact between_undisturbed there
  reads := by
    rintro M s addr len ⟨s2,rfl,there⟩ inside
    refine wp_mono (read_quad_wp deep readOnly quadBit inTime there inside) fun r s' read => ?_
    obtain ⟨status,bytes,there'⟩ := read
    exact ⟨status,bytes,_,and_elsewhere s2 2,there'⟩
  erases := by
    rintro M s addr ⟨s2,same,there⟩ inside
    refine wp_onBus (wp_mono (eraseSector_wp there inside) fun rc s' erased => ?_)
    obtain ⟨status,n,lasts,there'⟩ := erased
    exact ⟨status,n,lasts,s2,same,there'⟩
  waits := by
    rintro M n s ⟨s2,same,there⟩
    refine wp_onBus (wp_mono (waitReady_wp deep there) fun rc s' ended => ?_)
    rcases ended with ⟨status,there'⟩ | ⟨status,late,n',less,rx',left,there'⟩
    · exact ⟨0,Nat.zero_le n,⟨s2,same,there'⟩,.inl ⟨status,rfl⟩⟩
    · obtain rfl : rx' = [] := left.elim id id
      exact ⟨n',less,⟨s2,same,there'⟩,.inr ⟨status,late⟩⟩

/-- The abstract flash explains the chip, and the lines are those of a single-line command. -/
structure Explains (q : QuadType) (s : QuadPort) (f : Flash) : Prop where
  port : SpiPort.Explains q.type s.port f
  direction : s.direction = .single
  quadPins : s.quadPins = false

theorem explained_iff {f : Flash} {status1 others : UInt8} : ExplainedBy q.type (Rests status1 others) s f ↔
    Explains q s f ∧ s.status1 = status1 ∧ s.status2 &&& ~~~2 = others := by
  constructor
  · rintro ⟨n,⟨s2,same,en,sent,quiet,rfl⟩,idle,lasts⟩
    exact ⟨⟨⟨⟨quiet,rfl,rfl,rfl⟩,rfl,idle,lasts⟩,rfl,rfl⟩,rfl,same⟩
  · obtain ⟨⟨⟨M,en,n,sel,frame,sent⟩,rx⟩,s1,s2,dir,pins⟩ := s
    rintro ⟨⟨⟨⟨quiet,rfl,rfl,rfl⟩,rfl,idle,lasts⟩,rfl,rfl⟩,rfl,same⟩
    exact ⟨n,⟨s2,same,en,sent,quiet,rfl⟩,idle,lasts⟩

/-- With `ENABLE_QUAD_MODE` the driver does what is right over the abstract serial flash, at every point without a command
    to a busy chip; behind it the lines, the pins and the status registers are as before, the quad enable bit apart. -/
theorem quad_driver (deep : 8 ≤ depth) (readOnly : q.writable1 &&& 3 = 0) (quadBit : q.writable2 &&& 2 = 2)
    (inTime : ∀ n, q.settles n → n < (SystemCoreClock - 1).toNat) (rounds : Nat) {α : Type} {Q : α → Option Flash → Prop}
    {p : Prog interface α} {f : Flash} (holds : p.Wp (Serial false (TimesOut q.type SystemCoreClock)) Left Q (some f))
    (explains : Explains q s f) {t : List (Event quad)} {p' : Prog quad α} {s' : QuadPort}
    (exec : Exec (device q depth) (p.translate (qspi_drv_quad SystemCoreClock rounds)) s t p' s') :
    p' ≠ .spin ∧ QuietLog s'.port.chip.sent ∧ ∀ a, p' = .ret a → ∃ f', Q a (some f') ∧ Explains q s' f' ∧
      s'.status1 = s.status1 ∧ s'.status2 &&& ~~~2 = s.status2 &&& ~~~2 := by
  have simulates := implements_simulates (implements_quad deep readOnly quadBit inTime rounds s.status1 (s.status2 &&& ~~~2))
  have related := simulates_wp simulates holds ⟨f,rfl,explained_iff.mpr ⟨explains,rfl,rfl⟩⟩
  obtain ⟨running,quiet,result⟩ := wp_all_points related exec
  refine ⟨running,quiet,fun a returned => ?_⟩
  obtain ⟨_,fine,f',rfl,explained⟩ := result a returned
  exact ⟨f',fine,explained_iff.mp explained⟩

end

/-! ### A chip -/

theorem busDevice_high {q : QuadType} (ends : ∃ n, q.type.lasts n) (settled : ∃ n, q.settles n) (s : QuadPort) :
    ∃ chip s1 s2, Deselected q s ⟨⟨chip,s.port.rx⟩,s1,s2,s.direction,s.quadPins⟩ := by
  obtain ⟨chip,deselected⟩ := deselected_exists ends s.port.chip
  obtain ⟨n,settles⟩ := settled
  by_cases taken : s.port.chip.selected ∧ s.port.chip.busy = 0
  · have executed := (if_pos taken).mp deselected
    simp only [Deselected,taken,and_self,if_true]
    unfold Executed
    split
    · by_cases enabled : s.port.chip.enabled
      · simp only [enabled,if_true]
        exact ⟨_,_,_,n,settles,rfl,rfl,rfl⟩
      · simp only [enabled]
        exact ⟨_,_,_,rfl,rfl,rfl⟩
    · exact ⟨_,_,_,rfl,rfl,rfl⟩
    · exact ⟨_,_,_,rfl,rfl,rfl⟩
    · exact ⟨chip,_,_,executed,rfl,rfl⟩
  · simp only [Deselected,taken,if_false]
    exact ⟨_,_,_,rfl,rfl,rfl⟩

theorem told_exists (s : QuadPort) : ∃ answer, s.port.chip.Answers answer ∧ Told s answer := by
  obtain ⟨⟨⟨M,en,n,sel,frame,sent⟩,rx⟩,s1,s2,dir,pins⟩ := s
  unfold Chip.Answers Told
  dsimp only
  split
  · by_cases idle : n = 0
    · refine ⟨merged 3 s1 (if en then 2 else 0),⟨?_,fun _ => ?_⟩,fun _ => merged_without 3 _ _⟩
      · rw [if_pos idle,merged_within s1 _ (show 1 &&& 3 = 1 by decide)]
        cases en <;> rfl
      · rw [merged_within s1 _ (show 2 &&& 3 = 2 by decide)]
        cases en <;> rfl
    · rw [if_neg idle]
      exact ⟨1,⟨rfl,fun none => absurd none idle⟩,fun none => absurd none idle⟩
  · exact ⟨_,fun _ => rfl,fun _ => trivial⟩
  · split
    · exact ⟨0,trivial,fun _ => by simp_all⟩
    · exact ⟨_,trivial,fun _ => rfl⟩
    · exact ⟨_,trivial,fun _ => rfl⟩
    · exact ⟨0,trivial,fun _ => trivial⟩

theorem device_total {q : QuadType} (ends : ∃ n, q.type.lasts n) (settled : ∃ n, q.settles n) (depth : Nat)
    (c : quad.Call) (s : QuadPort) : ∃ a s', device q depth c s a s' := by
  rcases c with c | c
  · cases c with
    | SET_SS_LOW => exact ⟨(),_,rfl⟩
    | SET_SS_HIGH =>
      obtain ⟨chip,s1,s2,deselected⟩ := busDevice_high ends settled s
      exact ⟨(),⟨⟨chip,s.port.rx⟩,s1,s2,s.direction,s.quadPins⟩,rfl,rfl,rfl,deselected⟩
    | WRITE_TX data =>
      obtain ⟨answer,answers,told⟩ := told_exists s
      exact ⟨(),_,fun _ => ⟨answer,answers,told,rfl⟩⟩
    | READ_RX =>
      obtain ⟨a,port,moved⟩ := SpiPort.device_total ends depth .READ_RX s.port
      exact ⟨a,{ s with port := port },moved,rfl⟩
    | IS_BUSY => exact ⟨false,s,rfl,rfl⟩
    | ClearRxFIFO => exact ⟨(),{ s with port := ⟨s.port.chip,[]⟩ },rfl,rfl⟩
    | GET_TX_FIFO_FULL_FLAG => exact ⟨false,s,rfl,rfl⟩
  · cases c <;> exact ⟨(),_,rfl⟩

def quadType : QuadType := ⟨⟨false,(· = 3)⟩,(· = 1),0x7C,0x02⟩
def fresh : QuadPort := ⟨⟨⟨fun _ => 7,false,0,false,[],[]⟩,[]⟩,0x1C,0x40,.single,false⟩

/-- Erases a sector, waits, and reads a byte of it. -/
def eraseAndRead : Prog interface (Int32 × Int32 × Buffer) := do
  let _ ← NVT_Erase 0x1000
  let rc ← NVT_WaitReady
  let r ← NVT_Read 0x1234 1
  .ret (rc,r)

theorem quadType_inTime : ¬ TimesOut quadType.type 12000000 := by
  refine inTime_of_lt (by decide) ?_
  rintro n (rfl : n = 3)
  decide

theorem eraseAndRead_wp : eraseAndRead.Wp (Serial false (TimesOut quadType.type 12000000)) Left
    (fun r t => r.1 = 0 ∧ r.2.2 0 = 0xFF ∧ t = some ⟨fill 0xFF (fun _ => 7) 0x1000 4096,false⟩) (some ⟨fun _ => 7,false⟩) := by
  refine wp_erase rfl (by decide) (wp_wait ?_ fun rc _ late => absurd late quadType_inTime)
  refine wp_served (serves_idle rfl) (by decide) fun bytes delivered => ⟨Option.some_ne_none _,rfl,?_,rfl⟩
  exact (delivered 0 (by decide)).trans rfl

theorem fresh_explains : Explains quadType fresh ⟨fun _ => 7,false⟩ :=
  ⟨⟨⟨nofun,rfl,rfl,rfl⟩,rfl,fun _ => rfl,0,.inl rfl,Nat.le_refl 0⟩,rfl,rfl⟩

theorem quad_driver_erased : ∃ t a s', Exec (device quadType 8) (eraseAndRead.translate (qspi_drv_quad 12000000 0)) fresh t (.ret a) s' ∧
    a.1 = 0 ∧ a.2.2 0 = 0xFF ∧ QuietLog s'.port.chip.sent ∧ s'.direction = .single ∧ s'.status1 = 0x1C ∧
      s'.status2 &&& ~~~2 = 0x40 := by
  have inTime : ∀ n, quadType.settles n → n < (12000000 - 1 : UInt32).toNat := by
    rintro n (rfl : n = 1)
    decide
  have simulates := implements_simulates (implements_quad (q := quadType) (Nat.le_refl 8) (by decide) (by decide) inTime 0
    fresh.status1 (fresh.status2 &&& ~~~2))
  obtain ⟨t,a,s',exec,_⟩ := wp_exists (device_total ⟨3,rfl⟩ ⟨1,rfl⟩ 8)
    (simulates_wp simulates eraseAndRead_wp ⟨_,rfl,explained_iff.mpr ⟨fresh_explains,rfl,rfl⟩⟩)
  obtain ⟨_,quiet,result⟩ := quad_driver (Nat.le_refl 8) (by decide) (by decide) inTime 0 eraseAndRead_wp fresh_explains exec
  obtain ⟨f,⟨waited,byte,_⟩,explains,same,others⟩ := result a rfl
  exact ⟨t,a,s',exec,waited,byte,quiet,explains.direction,same,others⟩

end NuMicroBoot.QuadRead
