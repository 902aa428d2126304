import NuMicroBoot.SpimWrites

/-!
The functions of `spim_drv.c` down to the registers of the SPIM controller, with
its DMA transfers. A controller that works by its registers carries out what the
calls of those functions stand for.
-/

namespace NuMicroBoot.SpimRegisters
open NuMicroBoot.Calls NuMicroBoot.Calls.Prog NuMicroBoot.Words NuMicroBoot.Driver NuMicroBoot.ExternalDriver
open NuMicroBoot.SerialChip NuMicroBoot.SpimBus NuMicroBoot.SpimPort NuMicroBoot.SpimWrites NuMicroBoot.Simulation

/-! ### Registers -/

/-- Those of `SPIM`, `SYS` and `CLK` that `spim_drv.c` names. -/
inductive Register
  | CTL0
  | CTL1
  | DMACNT
  | FADDR
  | TX
  | RX
  | REGLCTL
  | IPRST0
  | GPA_MFP0
  | GPA_MFP1
  | GPA_MFP3
  | GPC_MFP0
  | GPE_MFP0
  | GPE_MFP1
  | GPG_MFP2
  | GPG_MFP3
  | GPI_MFP3
  | GPJ_MFP0
  | GPJ_MFP2
  | GPJ_MFP3
  | STATUS
  | PWRCTL
  | CLKSEL0
  | CLKDIV0
  | AHBCLK0
  deriving DecidableEq

/-- Reading and writing registers, with the three macros of the board support package. `SRAMADDR` is given the address of a
    byte of a buffer, `pu8Buf` answers what is in the memory from there on. -/
inductive RegisterCall
  | load (r : Register)
  | store (r : Register) (v : UInt32)
  | SRAMADDR (pu8Buf : Buffer) (p : Nat)
  | pu8Buf
  | SPIM_SET_SS_EN (on : Bool)
  | SPIM_SET_GO
  | SPIM_WAIT_FREE

abbrev RegisterAnswer : RegisterCall → Type
  | .load _ => UInt32
  | .pu8Buf => Buffer
  | _ => Unit

abbrev registers : Interface := ⟨RegisterCall,RegisterAnswer⟩

abbrev load (r : Register) : Prog registers UInt32 := .call (.load r) .ret
abbrev store (r : Register) (v : UInt32) : Prog registers Unit := .call (.store r v) .ret
abbrev ask (c : RegisterCall) : Prog registers (RegisterAnswer c) := .call c .ret

/-- `r = change(r)`. -/
def update (r : Register) (change : UInt32 → UInt32) : Prog registers Unit := do
  let v ← load r
  store r (change v)

/-- The constants of the board support package that the transfers use. -/
structure SpimMasks where
  SPIM_CTL0_OPMODE_Msk : UInt32
  SPIM_CTL0_OPMODE_IO : UInt32
  SPIM_CTL0_OPMODE_PAGEWRITE : UInt32
  SPIM_CTL0_OPMODE_PAGEREAD : UInt32
  SPIM_CTL0_QDIODIR_Msk : UInt32
  SPIM_CTL0_QDIODIR_Pos : UInt32
  SPIM_CTL0_CMDCODE_Msk : UInt32
  CMD_NORMAL_PAGE_PROGRAM : UInt32
  CMD_DMA_NORMAL_READ : UInt32
  SPIM_CTL1_SS_Msk : UInt32
  CLK_STATUS_HIRCSTB_Msk : UInt32

variable (masks : SpimMasks)

/-! ### What the calls write -/

/-- The statement on `CTL0` before bytes go out or come in. -/
def ctl0_io_dir (dir : Bool) : Prog registers Unit :=
  update .CTL0 fun v => (v &&& ~~~(masks.SPIM_CTL0_OPMODE_Msk ||| masks.SPIM_CTL0_QDIODIR_Msk)) |||
    (masks.SPIM_CTL0_OPMODE_IO ||| ((if dir then 1 else 0) <<< masks.SPIM_CTL0_QDIODIR_Pos))

def NVT_SPIM_DMA_Write (u32Addr u32Size : UInt32) (pu8Buf : Buffer) (p : Nat) : Prog registers Unit := do
  update .CTL0 fun v => (v &&& ~~~(masks.SPIM_CTL0_CMDCODE_Msk ||| masks.SPIM_CTL0_OPMODE_Msk)) |||
    (masks.CMD_NORMAL_PAGE_PROGRAM ||| masks.SPIM_CTL0_OPMODE_PAGEWRITE)
  ask (.SRAMADDR pu8Buf p)
  store .DMACNT u32Size
  store .FADDR u32Addr
  ask .SPIM_SET_GO
  ask .SPIM_WAIT_FREE

/-- Returns the bytes at `pu8Buf`. -/
def NVT_SPIM_DMA_Read (u32Addr u32Size : UInt32) (pu8Buf : Buffer) (p : Nat) : Prog registers Buffer := do
  update .CTL0 fun v => (v &&& ~~~(masks.SPIM_CTL0_CMDCODE_Msk ||| masks.SPIM_CTL0_OPMODE_Msk)) |||
    (masks.CMD_DMA_NORMAL_READ ||| masks.SPIM_CTL0_OPMODE_PAGEREAD)
  ask (.SRAMADDR pu8Buf p)
  store .DMACNT u32Size
  store .FADDR u32Addr
  ask .SPIM_SET_GO
  ask .SPIM_WAIT_FREE
  ask .pu8Buf

/-- The calls of the functions of `spim_drv.c`; `held` is what the buffer of a read holds before. -/
def spim_registers (held : Buffer) : (c : SpimCall) → Prog registers (SpimAnswer c)
  | .SPIM_SET_SS_EN on => ask (.SPIM_SET_SS_EN on)
  | .CTL0_IO_DIR dir => ctl0_io_dir masks dir
  | .TX u8Data => store .TX u8Data.toUInt32
  | .SPIM_SET_GO => ask .SPIM_SET_GO
  | .SPIM_WAIT_FREE => ask .SPIM_WAIT_FREE
  | .RX => load .RX
  | .DMA_Read u32Addr u32Size => NVT_SPIM_DMA_Read masks u32Addr u32Size held 0
  | .DMA_Write u32Addr u32Size pu8Buf p => NVT_SPIM_DMA_Write masks u32Addr u32Size pu8Buf p

/-! ### The controller -/

/-- What is connected: the chip, its status bits that are neither busy nor the latch, and for how many reads of its status
    HIRC may be unstable once it is enabled. -/
structure Setup where
  chip : ChipType
  other : UInt8
  settles : Nat → Prop

/-- The registers that take part in a transfer; `SRAM` is the memory from `SRAMADDR` on. -/
structure Transfer where
  CTL0 : UInt32
  DMACNT : UInt32
  FADDR : UInt32
  TX : UInt8
  RX : UInt8
  SRAM : Buffer

/-- The chip, the controller, and for how many reads HIRC is still unstable. -/
structure Controller where
  chip : Chip
  spim : Transfer
  settling : Nat

/-- The direction of the data line, where `CTL0` asks for bytes. -/
def direction (CTL0 : UInt32) : Option Bool :=
  if CTL0 &&& masks.SPIM_CTL0_OPMODE_Msk = masks.SPIM_CTL0_OPMODE_IO then
    some (decide (CTL0 &&& masks.SPIM_CTL0_QDIODIR_Msk ≠ 0))
  else none

/-- The controller as the functions of `spim_drv.c` see it. -/
def Controller.seen (s : Controller) : Spim := ⟨s.chip,direction masks s.spim.CTL0,s.spim.TX,s.spim.RX⟩

/-- `CTL0` asks for a DMA transfer of this kind. -/
def Asked (CTL0 mode command : UInt32) : Prop :=
  CTL0 &&& masks.SPIM_CTL0_OPMODE_Msk = mode ∧ CTL0 &&& masks.SPIM_CTL0_CMDCODE_Msk = command

instance (CTL0 mode command : UInt32) : Decidable (Asked masks CTL0 mode command) := inferInstanceAs (Decidable (_ ∧ _))

/-- The chip can take a command. -/
def Waiting (c : Chip) : Prop := c.selected = true ∧ c.frame = [] ∧ c.busy = 0

instance (c : Chip) : Decidable (Waiting c) := inferInstanceAs (Decidable (_ ∧ _ ∧ _))

/-- A transfer: a byte goes out or comes in, or a page program or a read by DMA. Any other is not explained here. -/
def Transferred (setup : Setup) (s s' : Controller) : Prop :=
  match direction masks s.spim.CTL0 with
  | some true => s' = { s with chip := s.chip.received s.spim.TX }
  | some false => ∃ answer floating, s.chip.Answers answer ∧
    (s.chip.frame.head? = some 0x05 → answer &&& 0xFC = setup.other &&& 0xFC) ∧
    s' = { s with chip := s.chip.received floating, spim := { s.spim with RX := answer } }
  | none =>
    if Asked masks s.spim.CTL0 masks.SPIM_CTL0_OPMODE_PAGEWRITE masks.CMD_NORMAL_PAGE_PROGRAM ∧ Waiting s.chip then
      s' = { s with
        chip := { s.chip with
          frame := pageProgram s.spim.FADDR s.spim.DMACNT s.spim.SRAM 0
          sent := s.chip.sent ++ [(0x02,false)] } }
    else if Asked masks s.spim.CTL0 masks.SPIM_CTL0_OPMODE_PAGEREAD masks.CMD_DMA_NORMAL_READ ∧ Waiting s.chip ∧
        s.spim.FADDR.toNat + s.spim.DMACNT.toNat ≤ 2 ^ 24 then
      s' = { s with
        spim := { s.spim with
          SRAM := fun k => if k < s.spim.DMACNT.toNat then s.chip.memory (s.spim.FADDR.toNat + k) else s.spim.SRAM k } }
    else True

/-- The hardware. No transfer starts but by `SPIM_SET_GO`; a reset may leave anything in the registers of the SPIM; the
    registers of `SYS` and `CLK` read anything, except that HIRC is stable in the end. -/
def controller (setup : Setup) : Device registers Controller
  | .SPIM_SET_SS_EN true, s, _, s' => s' = { s with chip := { s.chip with selected := true } }
  | .SPIM_SET_SS_EN false, s, _, s' => ∃ chip, Ended setup.chip s.chip chip ∧ s' = { s with chip := chip }
  | .SPIM_SET_GO, s, _, s' => Transferred masks setup s s'
  | .SPIM_WAIT_FREE, s, _, s' => s' = s
  | .SRAMADDR pu8Buf p, s, _, s' => s' = { s with spim := { s.spim with SRAM := fun k => pu8Buf (p + k) } }
  | .pu8Buf, s, a, s' => a = s.spim.SRAM ∧ s' = s
  | .load .CTL0, s, a, s' => a = s.spim.CTL0 ∧ s' = s
  | .load .RX, s, a, s' => UInt32.toUInt8 a = s.spim.RX ∧ s' = s
  | .load .STATUS, s, a, s' =>
    if s.settling = 0 then a &&& masks.CLK_STATUS_HIRCSTB_Msk ≠ 0 ∧ s' = s
    else s' = { s with settling := s.settling - 1 }
  | .load _, s, _, s' => s' = s
  | .store .CTL0 v, s, _, s' => s' = { s with spim := { s.spim with CTL0 := v } }
  | .store .CTL1 v, s, _, s' =>
    if v &&& masks.SPIM_CTL1_SS_Msk ≠ 0 then ∃ chip, Ended setup.chip s.chip chip ∧ s' = { s with chip := chip }
    else s' = { s with chip := { s.chip with selected := true } }
  | .store .DMACNT v, s, _, s' => s' = { s with spim := { s.spim with DMACNT := v } }
  | .store .FADDR v, s, _, s' => s' = { s with spim := { s.spim with FADDR := v } }
  | .store .TX v, s, _, s' => s' = { s with spim := { s.spim with TX := v.toUInt8 } }
  | .store .IPRST0 _, s, _, s' => ∃ spim, s' = { s with spim := spim }
  | .store .PWRCTL _, s, _, s' => ∃ n, setup.settles n ∧ s' = { s with settling := n }
  | .store _ _, s, _, s' => s' = s

/-- The modes and the commands are different numbers in fields of their own, the direction is a bit, and so are the chip
    select and the flag of HIRC. -/
structure Proper : Prop where
  modes : masks.SPIM_CTL0_OPMODE_IO &&& masks.SPIM_CTL0_OPMODE_Msk = masks.SPIM_CTL0_OPMODE_IO ∧
    masks.SPIM_CTL0_OPMODE_PAGEWRITE &&& masks.SPIM_CTL0_OPMODE_Msk = masks.SPIM_CTL0_OPMODE_PAGEWRITE ∧
    masks.SPIM_CTL0_OPMODE_PAGEREAD &&& masks.SPIM_CTL0_OPMODE_Msk = masks.SPIM_CTL0_OPMODE_PAGEREAD
  different : masks.SPIM_CTL0_OPMODE_PAGEWRITE ≠ masks.SPIM_CTL0_OPMODE_IO ∧
    masks.SPIM_CTL0_OPMODE_PAGEREAD ≠ masks.SPIM_CTL0_OPMODE_IO ∧
    masks.SPIM_CTL0_OPMODE_PAGEREAD ≠ masks.SPIM_CTL0_OPMODE_PAGEWRITE
  commands : masks.CMD_NORMAL_PAGE_PROGRAM &&& masks.SPIM_CTL0_CMDCODE_Msk = masks.CMD_NORMAL_PAGE_PROGRAM ∧
    masks.CMD_DMA_NORMAL_READ &&& masks.SPIM_CTL0_CMDCODE_Msk = masks.CMD_DMA_NORMAL_READ
  apart : masks.SPIM_CTL0_CMDCODE_Msk &&& masks.SPIM_CTL0_OPMODE_Msk = 0 ∧
    masks.SPIM_CTL0_QDIODIR_Msk &&& masks.SPIM_CTL0_OPMODE_Msk = 0
  direction : 1 <<< masks.SPIM_CTL0_QDIODIR_Pos = masks.SPIM_CTL0_QDIODIR_Msk ∧ masks.SPIM_CTL0_QDIODIR_Msk ≠ 0
  select : masks.SPIM_CTL1_SS_Msk ≠ 0
  stable : masks.CLK_STATUS_HIRCSTB_Msk ≠ 0

variable {masks} {setup : Setup}

theorem transferred_exists (s : Controller) : ∃ s', Transferred masks setup s s' := by
  unfold Transferred
  split
  · exact ⟨_,rfl⟩
  · obtain ⟨answer,answers,shown⟩ := shown_exists s.chip setup.other
    exact ⟨_,answer,0,answers,shown,rfl⟩
  · split_ifs
    · exact ⟨_,rfl⟩
    · exact ⟨_,rfl⟩
    · exact ⟨s,trivial⟩

theorem controller_total (stable : masks.CLK_STATUS_HIRCSTB_Msk ≠ 0) (ends : ∃ n, setup.chip.lasts n)
    (settles : ∃ n, setup.settles n) (c : RegisterCall) (s : Controller) : ∃ a s', controller masks setup c s a s' := by
  obtain ⟨chip,ended⟩ := ended_exists ends s.chip
  cases c with
  | load r =>
    cases r with
    | CTL0 => exact ⟨_,_,rfl,rfl⟩
    | RX => exact ⟨s.spim.RX.toUInt32,s,by simp,rfl⟩
    | STATUS =>
      by_cases settled : s.settling = 0
      · refine ⟨masks.CLK_STATUS_HIRCSTB_Msk,s,(if_pos settled).mpr ⟨?_,rfl⟩⟩
        rwa [UInt32.and_self]
      · exact ⟨(0 : UInt32),_,(if_neg settled).mpr rfl⟩
    | _ => exact ⟨(0 : UInt32),_,rfl⟩
  | store r v =>
    cases r with
    | CTL1 =>
      by_cases inactive : v &&& masks.SPIM_CTL1_SS_Msk ≠ 0
      · exact ⟨(),_,(if_pos inactive).mpr ⟨chip,ended,rfl⟩⟩
      · exact ⟨(),_,(if_neg inactive).mpr rfl⟩
    | IPRST0 => exact ⟨(),_,s.spim,rfl⟩
    | PWRCTL =>
      obtain ⟨n,possible⟩ := settles
      exact ⟨(),_,n,possible,rfl⟩
    | _ => exact ⟨(),_,rfl⟩
  | SRAMADDR pu8Buf p => exact ⟨(),_,rfl⟩
  | pu8Buf => exact ⟨_,_,rfl,rfl⟩
  | SPIM_SET_SS_EN on =>
    cases on with
    | true => exact ⟨(),_,rfl⟩
    | false => exact ⟨(),_,chip,ended,rfl⟩
  | SPIM_SET_GO =>
    obtain ⟨s',transferred⟩ := @transferred_exists masks setup s
    exact ⟨(),s',transferred⟩
  | SPIM_WAIT_FREE => exact ⟨(),_,rfl⟩

/-! ### Fields of `CTL0` -/

section
variable (proper : Proper masks)
include proper

theorem direction_io (v : UInt32) (dir : Bool) : direction masks ((v &&& ~~~(masks.SPIM_CTL0_OPMODE_Msk |||
    masks.SPIM_CTL0_QDIODIR_Msk)) ||| (masks.SPIM_CTL0_OPMODE_IO ||| ((if dir then 1 else 0) <<< masks.SPIM_CTL0_QDIODIR_Pos))) =
      some dir := by
  obtain ⟨pos,bit⟩ := proper.direction
  have value : (if dir then 1 else 0 : UInt32) <<< masks.SPIM_CTL0_QDIODIR_Pos = if dir then masks.SPIM_CTL0_QDIODIR_Msk else 0 := by
    cases dir
    · exact UInt32.zero_shiftLeft
    · exact pos
  have mode : (if dir then masks.SPIM_CTL0_QDIODIR_Msk else 0) &&& masks.SPIM_CTL0_OPMODE_Msk = 0 := by
    cases dir
    · exact UInt32.zero_and
    · exact proper.apart.2
  have other : masks.SPIM_CTL0_OPMODE_IO &&& masks.SPIM_CTL0_QDIODIR_Msk = 0 := by
    rw [← proper.modes.1,UInt32.and_assoc,UInt32.and_comm masks.SPIM_CTL0_OPMODE_Msk,proper.apart.2,UInt32.and_zero]
  unfold direction
  rw [value,field_written (and_or_left _ _),field_written (and_or_right _ _),or_and,or_and,mode,other,proper.modes.1,
    UInt32.or_zero,UInt32.zero_or,if_pos rfl]
  cases dir
  · simp
  · simp [bit]

/-- Neither transfer by DMA asks for bytes. -/
theorem asked_dma {mode command : UInt32} (modes : mode &&& masks.SPIM_CTL0_OPMODE_Msk = mode)
    (commands : command &&& masks.SPIM_CTL0_CMDCODE_Msk = command) (v : UInt32) :
    Asked masks ((v &&& ~~~(masks.SPIM_CTL0_CMDCODE_Msk ||| masks.SPIM_CTL0_OPMODE_Msk)) ||| (command ||| mode)) mode command := by
  have first : command &&& masks.SPIM_CTL0_OPMODE_Msk = 0 := by
    rw [← commands,UInt32.and_assoc,proper.apart.1,UInt32.and_zero]
  have second : mode &&& masks.SPIM_CTL0_CMDCODE_Msk = 0 := by
    rw [← modes,UInt32.and_assoc,UInt32.and_comm masks.SPIM_CTL0_OPMODE_Msk,proper.apart.1,UInt32.and_zero]
  constructor
  · rw [field_written (and_or_right _ _),or_and,first,modes,UInt32.zero_or]
  · rw [field_written (and_or_left _ _),or_and,commands,second,UInt32.or_zero]

omit proper in
theorem direction_dma {CTL0 mode command : UInt32} (asked : Asked masks CTL0 mode command) (different : mode ≠ masks.SPIM_CTL0_OPMODE_IO) :
    direction masks CTL0 = none := by
  unfold direction
  rw [asked.1,if_neg different]

end

/-! ### Transfers -/

section
variable {s s' : Controller}

theorem transferred_out (out : direction masks s.spim.CTL0 = some true) :
    Transferred masks setup s s' ↔ s' = { s with chip := s.chip.received s.spim.TX } := by
  unfold Transferred
  rw [out]

theorem transferred_in (input : direction masks s.spim.CTL0 = some false) : Transferred masks setup s s' ↔
    ∃ answer floating, s.chip.Answers answer ∧ (s.chip.frame.head? = some 0x05 → answer &&& 0xFC = setup.other &&& 0xFC) ∧
      s' = { s with chip := s.chip.received floating, spim := { s.spim with RX := answer } } := by
  unfold Transferred
  rw [input]

variable (proper : Proper masks) (waiting : Waiting s.chip)
include proper waiting

theorem transferred_program (asked : Asked masks s.spim.CTL0 masks.SPIM_CTL0_OPMODE_PAGEWRITE masks.CMD_NORMAL_PAGE_PROGRAM) :
    Transferred masks setup s s' ↔ s' = { s with
      chip := { s.chip with
        frame := pageProgram s.spim.FADDR s.spim.DMACNT s.spim.SRAM 0
        sent := s.chip.sent ++ [(0x02,false)] } } := by
  unfold Transferred
  rw [direction_dma asked proper.different.1]
  exact Eq.to_iff (if_pos ⟨asked,waiting⟩)

theorem transferred_read (asked : Asked masks s.spim.CTL0 masks.SPIM_CTL0_OPMODE_PAGEREAD masks.CMD_DMA_NORMAL_READ)
    (fits : s.spim.FADDR.toNat + s.spim.DMACNT.toNat ≤ 2 ^ 24) : Transferred masks setup s s' ↔ s' = { s with
      spim := { s.spim with
        SRAM := fun k => if k < s.spim.DMACNT.toNat then s.chip.memory (s.spim.FADDR.toNat + k) else s.spim.SRAM k } } := by
  have program : ¬ (Asked masks s.spim.CTL0 masks.SPIM_CTL0_OPMODE_PAGEWRITE masks.CMD_NORMAL_PAGE_PROGRAM ∧ Waiting s.chip) :=
    fun both => proper.different.2.2 (asked.1.symm.trans both.1.1)
  unfold Transferred
  rw [direction_dma asked proper.different.2.1]
  exact (Eq.to_iff (if_neg program)).trans (Eq.to_iff (if_pos ⟨asked,waiting,fits⟩))

end

/-! ### Simulation -/

section
variable {K : (Nat → UInt8) → Prop} {s : Controller} {α : Type} {Q : α → Controller → Prop}

/-- The memory of the chip keeps a property. -/
def Keeps (K : (Nat → UInt8) → Prop) (s : Controller) : Prop := K s.chip.memory

theorem wp_ctl0 {change : UInt32 → UInt32} {next : Unit → Prog registers α} (kept : Keeps K s)
    (rest : (next ()).Wp (controller masks setup) (Keeps K) Q { s with spim := { s.spim with CTL0 := change s.spim.CTL0 } }) :
    (update .CTL0 change >>= next).Wp (controller masks setup) (Keeps K) Q s := by
  refine ⟨kept,fun v s₁ loaded => ?_⟩
  obtain ⟨rfl,rfl⟩ := loaded
  exact wp_moves (fun _ _ => id) kept fun _ => rest

/-- The registers of a transfer by DMA. -/
def Controller.prepared (s : Controller) (CTL0 DMACNT FADDR : UInt32) (SRAM : Buffer) : Controller :=
  { s with spim := { s.spim with CTL0 := CTL0, DMACNT := DMACNT, FADDR := FADDR, SRAM := SRAM } }

theorem wp_prepared {change : UInt32 → UInt32} {u32Addr u32Size : UInt32} {pu8Buf : Buffer} {p : Nat}
    {rest : Prog registers α} (kept : Keeps K s)
    (go : rest.Wp (controller masks setup) (Keeps K) Q
      (s.prepared (change s.spim.CTL0) u32Size u32Addr fun k => pu8Buf (p + k))) :
    (do update .CTL0 change
        ask (.SRAMADDR pu8Buf p)
        store .DMACNT u32Size
        store .FADDR u32Addr
        rest : Prog registers α).Wp (controller masks setup) (Keeps K) Q s := by
  refine wp_ctl0 kept (wp_moves (fun _ _ => id) kept fun _ => ?_)
  exact wp_moves (fun _ _ => id) kept fun _ => wp_moves (fun _ _ => id) kept fun _ => go

theorem seen_eq {dir : Option Bool} (way : direction masks s.spim.CTL0 = dir) :
    s.seen masks = ⟨s.chip,dir,s.spim.TX,s.spim.RX⟩ := by
  rw [Controller.seen,way]

/-- What the controller has done is an outcome of the call as the functions see it. -/
theorem seen_outcome {c : SpimCall} {t : Spim}
    (keeps : ∀ a t', programming setup.chip setup.other c t a t' → SpimPort.Keeps K t') {a : SpimAnswer c} {s' : Controller}
    (answered : programming setup.chip setup.other c t a (s'.seen masks)) : Keeps K s' ∧ Keeps K s' ∧
      ∃ t', programming setup.chip setup.other c t a t' ∧ t' = s'.seen masks ∧ Keeps K s' :=
  have kept := keeps a _ answered
  ⟨kept,kept,_,answered,rfl,kept⟩

variable (masks setup) in
/-- The registers carry out the calls of the functions. -/
theorem registers_simulate (proper : Proper masks) (held : Buffer) (K : (Nat → UInt8) → Prop) :
    Simulates (fun s t => t = s.seen masks ∧ Keeps K s) (programming setup.chip setup.other) (SpimPort.Keeps K)
      (controller masks setup) (Keeps K) (spim_registers masks held) := by
  refine ⟨fun _ _ related => related.2,?_⟩
  rintro c s _ ⟨rfl,kept⟩ keeps
  cases c with
  | SPIM_SET_SS_EN on =>
    refine ⟨kept,fun _ s' moved => (seen_outcome keeps ?_).2⟩
    cases on with
    | true =>
      obtain rfl := moved
      exact rfl
    | false =>
      obtain ⟨chip,ended,rfl⟩ := moved
      exact ⟨chip,ended,rfl⟩
  | CTL0_IO_DIR dir =>
    refine ⟨kept,fun v s₁ loaded => ?_⟩
    obtain ⟨rfl,rfl⟩ := loaded
    refine ⟨kept,fun _ s' stored => (seen_outcome keeps ?_).2⟩
    obtain rfl := stored
    exact seen_eq (direction_io proper _ dir)
  | TX u8Data =>
    refine ⟨kept,fun _ s' stored => (seen_outcome keeps ?_).2⟩
    obtain rfl := stored
    show Spim.mk _ _ u8Data.toUInt32.toUInt8 _ = { s.seen masks with tx := u8Data }
    rw [UInt8.toUInt8_toUInt32]
    rfl
  | SPIM_SET_GO =>
    refine ⟨kept,fun _ s' gone => (seen_outcome keeps ?_).2⟩
    cases way : direction masks s.spim.CTL0 with
    | none =>
      obtain ⟨answer,answers⟩ := answers_exists s.chip
      rw [seen_eq way]
      exact ⟨⟨answer,answers,trivial⟩,nofun⟩
    | some out =>
      cases out with
      | true =>
        obtain rfl := (transferred_out way).mp gone
        obtain ⟨answer,answers⟩ := answers_exists s.chip
        rw [seen_eq way]
        exact ⟨⟨answer,answers,seen_eq way⟩,nofun⟩
      | false =>
        obtain ⟨answer,floating,answers,shown,rfl⟩ := (transferred_in way).mp gone
        rw [seen_eq way]
        exact ⟨⟨answer,answers,floating,seen_eq way⟩,fun _ => shown⟩
  | SPIM_WAIT_FREE =>
    refine ⟨kept,fun _ s' free => (seen_outcome keeps ?_).2⟩
    obtain rfl := free
    exact rfl
  | RX =>
    refine ⟨kept,fun _ s' loaded => (seen_outcome keeps ?_).2⟩
    obtain ⟨heard,rfl⟩ := loaded
    exact ⟨heard,rfl⟩
  | DMA_Read u32Addr u32Size =>
    refine wp_prepared kept ?_
    refine ⟨kept,fun _ s' gone => ?_⟩
    have asked := asked_dma proper proper.modes.2.2 proper.commands.2 s.spim.CTL0
    have answered : programming setup.chip setup.other (.DMA_Read u32Addr u32Size) (s.seen masks) s'.spim.SRAM (s'.seen masks) := by
      intro selected frame busy inside
      obtain rfl := (@transferred_read masks setup (s.prepared _ u32Size u32Addr _) s' proper ⟨selected,frame,busy⟩ asked inside).mp gone
      exact ⟨fun k less => if_pos less,seen_eq (direction_dma asked proper.different.2.1)⟩
    obtain ⟨now,outcome⟩ := seen_outcome keeps answered
    refine wp_moves (fun _ _ => id) now fun _ => ⟨now,fun a s'' read => ?_⟩
    obtain ⟨rfl,rfl⟩ := read
    exact outcome
  | DMA_Write u32Addr u32Size pu8Buf p =>
    refine wp_prepared kept ?_
    refine ⟨kept,fun _ s' gone => ?_⟩
    have asked := asked_dma proper proper.modes.2.1 proper.commands.1 s.spim.CTL0
    have answered : programming setup.chip setup.other (.DMA_Write u32Addr u32Size pu8Buf p) (s.seen masks) () (s'.seen masks) := by
      intro selected frame busy
      obtain rfl := (@transferred_program masks setup (s.prepared _ u32Size u32Addr _) s' proper ⟨selected,frame,busy⟩ asked).mp gone
      have shifted : pageProgram u32Addr u32Size (fun k => pu8Buf (p + k)) 0 = pageProgram u32Addr u32Size pu8Buf p := by
        unfold pageProgram
        simp only [Nat.zero_add]
      refine (seen_eq (direction_dma asked proper.different.1)).trans ?_
      show Spim.mk { s.chip with frame := pageProgram u32Addr u32Size (fun k => pu8Buf (p + k)) 0, sent := _ } none _ _ = _
      rw [shifted]
      rfl
    obtain ⟨now,outcome⟩ := seen_outcome keeps answered
    refine ⟨now,fun _ s'' free => ?_⟩
    obtain rfl := free
    exact outcome

end

end NuMicroBoot.SpimRegisters
