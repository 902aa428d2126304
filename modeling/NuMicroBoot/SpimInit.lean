import NuMicroBoot.SpimRegisters

/-!
`NVT_NVSPIM_Init`: the clock of the SPIM controller, its registers and its pins,
and the ID of the chip. Whatever it is asked for, it ends, and it leaves the
chip as it is.
-/

namespace NuMicroBoot.SpimInit
open NuMicroBoot.Calls NuMicroBoot.Calls.Prog NuMicroBoot.Words NuMicroBoot.Driver NuMicroBoot.SerialChip NuMicroBoot.SpimBus
open NuMicroBoot.SpimPort NuMicroBoot.SpimWrites NuMicroBoot.SpimRegisters NuMicroBoot.Simulation

/-! ### The function -/

/-- The pins that can be the select, clock and data lines. -/
inductive Pin
  | PA0
  | PA1
  | PA2
  | PA3
  | PA4
  | PA5
  | PA15
  | PC0
  | PC1
  | PC2
  | PC3
  | PE2
  | PE3
  | PE4
  | PE5
  | PG11
  | PG12
  | PG13
  | PG14
  | PI12
  | PI13
  | PJ0
  | PJ1
  | PJ8
  | PJ9
  | PJ12
  | PJ13
  deriving DecidableEq

/-- The constants that the initialisation uses too; a pin has a field in its multi-function register. -/
structure InitMasks extends SpimMasks where
  CLK_PWRCTL_HIRCEN_Msk : UInt32
  CLK_CLKSEL0_HCLKSEL_Pos : UInt32
  CLK_CLKDIV0_HCLKDIV_Msk : UInt32
  CLK_AHBCLK0_SPIMCKEN_Msk : UInt32
  SYS_IPRST0_SPIMRST_Msk : UInt32
  SPIM_CTL0_BITMODE_SING : UInt32
  SPIM_CTL0_BURSTNUM_Pos : UInt32
  SPIM_CTL0_DWIDTH_Pos : UInt32
  SPIM_CTL1_DIVIDER_Msk : UInt32
  SPIM_CTL1_SSACTPOL_Msk : UInt32
  MFP_Msk : Pin → UInt32
  MFP_Pos : Pin → UInt32

/-- A case of one of the four switches: the register and the pin it sets, and the function it gives the pin. -/
structure Case where
  register : Register
  pin : Pin
  function : UInt32

def u32SS_SEL : UInt32 → Option Case
  | 0 => some ⟨.GPA_MFP0,.PA3,0x2⟩
  | 1 => some ⟨.GPC_MFP0,.PC3,0x3⟩
  | 2 => some ⟨.GPE_MFP1,.PE5,0x4⟩
  | 3 => some ⟨.GPG_MFP2,.PG11,0x4⟩
  | 4 => some ⟨.GPI_MFP3,.PI12,0x3⟩
  | 5 => some ⟨.GPJ_MFP2,.PJ8,0x4⟩
  | _ => none

def u32CLK_SEL : UInt32 → Option Case
  | 0 => some ⟨.GPA_MFP0,.PA2,0x2⟩
  | 1 => some ⟨.GPC_MFP0,.PC2,0x3⟩
  | 2 => some ⟨.GPE_MFP1,.PE4,0x4⟩
  | 3 => some ⟨.GPG_MFP3,.PG12,0x4⟩
  | 4 => some ⟨.GPJ_MFP0,.PJ0,0x3⟩
  | 5 => some ⟨.GPJ_MFP3,.PJ12,0x4⟩
  | _ => none

def u32MISO_SEL : UInt32 → Option Case
  | 0 => some ⟨.GPA_MFP0,.PA1,0x2⟩
  | 1 => some ⟨.GPC_MFP0,.PC1,0x3⟩
  | 2 => some ⟨.GPE_MFP0,.PE3,0x4⟩
  | 3 => some ⟨.GPG_MFP3,.PG13,0x4⟩
  | 4 => some ⟨.GPI_MFP3,.PI13,0x3⟩
  | 5 => some ⟨.GPJ_MFP2,.PJ9,0x4⟩
  | _ => none

def u32MOSI_SEL : UInt32 → Option Case
  | 0 => some ⟨.GPA_MFP0,.PA0,0x2⟩
  | 1 => some ⟨.GPC_MFP0,.PC0,0x3⟩
  | 2 => some ⟨.GPE_MFP0,.PE2,0x4⟩
  | 3 => some ⟨.GPG_MFP3,.PG14,0x4⟩
  | 4 => some ⟨.GPJ_MFP0,.PJ1,0x3⟩
  | 5 => some ⟨.GPJ_MFP3,.PJ13,0x4⟩
  | 6 => some ⟨.GPA_MFP3,.PA15,0x4⟩
  | _ => none

section
variable (masks : InitMasks)

/-- The loop of the wait for HIRC, which has no bound of its own. -/
def stableLoop : (rounds : Nat) → Prog registers Unit
  | 0 => .spin
  | rounds + 1 => do
    let status ← load .STATUS
    if status &&& masks.CLK_STATUS_HIRCSTB_Msk = 0 then stableLoop rounds else .ret ()

/-- HIRC is enabled where the status does not show it, and waited for, followed for a number of status reads. -/
def enable_HIRC (rounds : Nat) : Prog registers Unit := do
  let status ← load .STATUS
  if status &&& masks.CLK_PWRCTL_HIRCEN_Msk = 0 then do
    update .PWRCTL (· ||| masks.CLK_PWRCTL_HIRCEN_Msk)
    stableLoop masks rounds
  else .ret ()

/-- The clocks of the controller, its reset and its control registers. -/
def setUp : Prog registers Unit := do
  update .CLKSEL0 (· ||| (0x07 <<< masks.CLK_CLKSEL0_HCLKSEL_Pos))
  update .CLKDIV0 (· &&& ~~~masks.CLK_CLKDIV0_HCLKDIV_Msk)
  update .AHBCLK0 (· ||| masks.CLK_AHBCLK0_SPIMCKEN_Msk)
  update .IPRST0 (· ||| masks.SYS_IPRST0_SPIMRST_Msk)
  update .IPRST0 (· &&& ~~~masks.SYS_IPRST0_SPIMRST_Msk)
  store .CTL0 (masks.SPIM_CTL0_OPMODE_IO ||| masks.SPIM_CTL0_BITMODE_SING ||| (1 <<< masks.SPIM_CTL0_QDIODIR_Pos) |||
    (0 <<< masks.SPIM_CTL0_BURSTNUM_Pos) ||| ((8 - 1) <<< masks.SPIM_CTL0_DWIDTH_Pos))
  update .CTL1 fun v => (v &&& ~~~(masks.SPIM_CTL1_DIVIDER_Msk ||| masks.SPIM_CTL1_SSACTPOL_Msk)) ||| masks.SPIM_CTL1_SS_Msk

/-- One of the switches, which returns 1 in its default case. -/
def select (chosen : Option Case) (rest : Prog registers Int32) : Prog registers Int32 :=
  match chosen with
  | none => .ret 1
  | some c => do
    update c.register fun v => (v &&& ~~~masks.MFP_Msk c.pin) ||| (c.function <<< masks.MFP_Pos c.pin)
    rest

/-- The pins that `fnc` asks for, or else those of the port A. -/
def pins (fnc : UInt32) (rest : Prog registers Int32) : Prog registers Int32 :=
  let u32Reg := (fnc >>> 24) &&& 0xFF
  if u32Reg = 0xAD then
    select masks (u32SS_SEL ((fnc >>> 0) &&& 0x0F)) <| select masks (u32CLK_SEL ((fnc >>> 4) &&& 0x0F)) <|
      select masks (u32MISO_SEL ((fnc >>> 8) &&& 0x0F)) <| select masks (u32MOSI_SEL ((fnc >>> 12) &&& 0x0F)) rest
  else do
    update .GPA_MFP0 fun v =>
      (v &&& ~~~(masks.MFP_Msk .PA0 ||| masks.MFP_Msk .PA1 ||| masks.MFP_Msk .PA2 ||| masks.MFP_Msk .PA3)) |||
        ((0x2 <<< masks.MFP_Pos .PA0) ||| (0x2 <<< masks.MFP_Pos .PA1) ||| (0x2 <<< masks.MFP_Pos .PA2) |||
          (0x2 <<< masks.MFP_Pos .PA3))
    update .GPA_MFP1 fun v => (v &&& ~~~(masks.MFP_Msk .PA4 ||| masks.MFP_Msk .PA5)) |||
      ((0x2 <<< masks.MFP_Pos .PA4) ||| (0x2 <<< masks.MFP_Pos .PA5))
    rest

/-- The chip has to have an ID. -/
def checkID (held : Buffer) : Prog registers Int32 := do
  let u32JEDEC_ID ← SPIFLASH_ReadID.translate (spim_registers masks.toSpimMasks held)
  if u32JEDEC_ID = 0x000000 ∨ u32JEDEC_ID = 0xFFFFFF then .ret 1 else .ret 0

def NVT_NVSPIM_Init (held : Buffer) (rounds : Nat) (fnc : UInt32) : Prog registers Int32 := do
  store .REGLCTL 0x59
  store .REGLCTL 0x16
  store .REGLCTL 0x88
  let unlocked ← load .REGLCTL
  if unlocked ≠ 1 then .ret 1 else do
    enable_HIRC masks rounds
    setUp masks
    pins masks fnc (checkID masks held)

end

/-! ### Calls that leave the chip alone -/

variable {masks : InitMasks} {setup : Setup} {M : Nat → UInt8} {s s' : Controller} {α : Type} {Q : α → Controller → Prop}

/-- The chip is free and holds this memory. -/
structure Rests (M : Nat → UInt8) (s : Controller) : Prop where
  selected : s.chip.selected = false
  frame : s.chip.frame = []
  idle : s.chip.busy = 0
  memory : s.chip.memory = M

variable (masks) in
/-- Registers are read and written, with the chip select inactive. -/
def Quiet : RegisterCall → Prop
  | .load _ => True
  | .store .CTL1 v => v &&& masks.SPIM_CTL1_SS_Msk ≠ 0
  | .store _ _ => True
  | _ => False

theorem rests_ended (rests : Rests M s) {chip : Chip} (ended : Ended setup.chip s.chip chip) :
    Rests M { s with chip := chip } := by
  obtain ⟨⟨memory,en,n,selected,frame,sent⟩,spim,settling⟩ := s
  obtain ⟨rfl,rfl,rfl,rfl⟩ := rests
  obtain rfl := (if_neg (by simp)).mp ended
  exact ⟨rfl,rfl,rfl,rfl⟩

theorem quiet_kept (c : RegisterCall) (s : Controller) (a : RegisterAnswer c) (s' : Controller) (quiet : Quiet masks c)
    (answered : controller masks.toSpimMasks setup c s a s') (rests : Rests M s) : Rests M s' := by
  have same : ∀ spim settling, Rests M ⟨s.chip,spim,settling⟩ := fun _ _ => ⟨rests.selected,rests.frame,rests.idle,rests.memory⟩
  cases c with
  | load r =>
    cases r with
    | CTL0 =>
      obtain ⟨_,rfl⟩ := answered
      exact rests
    | RX =>
      obtain ⟨_,rfl⟩ := answered
      exact rests
    | STATUS =>
      by_cases settled : s.settling = 0
      · obtain ⟨_,rfl⟩ := (if_pos settled).mp answered
        exact rests
      · obtain rfl := (if_neg settled).mp answered
        exact same _ _
    | _ =>
      obtain rfl := answered
      exact rests
  | store r v =>
    cases r with
    | CTL1 =>
      obtain ⟨chip,ended,rfl⟩ := (if_pos quiet).mp answered
      exact rests_ended rests ended
    | IPRST0 =>
      obtain ⟨spim,rfl⟩ := answered
      exact same _ _
    | PWRCTL =>
      obtain ⟨n,_,rfl⟩ := answered
      exact same _ _
    | _ =>
      obtain rfl := answered
      exact same _ _
  | SRAMADDR pu8Buf p => exact quiet.elim
  | pu8Buf => exact quiet.elim
  | SPIM_SET_SS_EN on => exact quiet.elim
  | SPIM_SET_GO => exact quiet.elim
  | SPIM_WAIT_FREE => exact quiet.elim

theorem quiet_update {r : Register} {change : UInt32 → UInt32} (other : r ≠ .CTL1) :
    (update r change).All (Quiet masks) fun _ => True := by
  have stores : ∀ v, Quiet masks (.store r v) := by
    intro v
    cases r with
    | CTL1 => exact absurd rfl other
    | _ => exact trivial
  exact ⟨trivial,fun v => ⟨stores _,fun _ => trivial⟩⟩

/-- A part that leaves the chip alone, and what follows. -/
theorem wp_quiet {β : Type} {p : Prog registers β} {next : β → Prog registers α} (quiet : p.All (Quiet masks) fun _ => True)
    (rests : Rests M s) (rest : ∀ a s', Rests M s' →
      (next a).Wp (controller masks.toSpimMasks setup) (Keeps (· = M)) Q s') :
    (p >>= next).Wp (controller masks.toSpimMasks setup) (Keeps (· = M)) Q s := by
  have kept := wp_last (all_keeps (@quiet_kept masks setup M) quiet rests)
  exact wp_bind (wp_weaken kept fun _ now => now.memory) fun a s' _ after => rest a s' after.1

/-! ### The initialisation -/

theorem wp_update_quiet {r : Register} {change : UInt32 → UInt32} {rest : Prog registers α} (other : r ≠ .CTL1) (rests : Rests M s)
    (behind : ∀ s', Rests M s' → rest.Wp (controller masks.toSpimMasks setup) (Keeps (· = M)) Q s') :
    (update r change >>= fun _ => rest).Wp (controller masks.toSpimMasks setup) (Keeps (· = M)) Q s :=
  wp_quiet (quiet_update other) rests fun _ => behind

/-- The loop ends when HIRC is stable. -/
theorem wp_stableLoop (rounds : Nat) : ∀ s : Controller, s.settling < rounds → Rests M s →
    (stableLoop masks rounds).Wp (controller masks.toSpimMasks setup) (Keeps (· = M)) (fun _ s' => Rests M s') s := by
  induction rounds with
  | zero => intro s enough; omega
  | succ rounds ih =>
    intro s enough rests
    refine ⟨rests.memory,fun status s' loaded => ?_⟩
    have rests' : Rests M s' := quiet_kept (.load .STATUS) s status s' trivial loaded rests
    show (if status &&& masks.CLK_STATUS_HIRCSTB_Msk = 0 then _ else _ : Prog registers Unit).Wp _ _ _ _
    refine wp_ite (fun unstable => ?_) fun _ => ⟨rests'.memory,rests'⟩
    by_cases settled : s.settling = 0
    · exact absurd unstable ((if_pos settled).mp loaded).1
    · obtain rfl := (if_neg settled).mp loaded
      exact ih _ (by dsimp only; omega) rests'

theorem wp_enable_HIRC {rounds : Nat} (settles : ∀ n, setup.settles n → n < rounds) (rests : Rests M s) :
    (enable_HIRC masks rounds).Wp (controller masks.toSpimMasks setup) (Keeps (· = M)) (fun _ s' => Rests M s') s := by
  refine ⟨rests.memory,fun status s₁ loaded => ?_⟩
  have rests₁ : Rests M s₁ := quiet_kept (.load .STATUS) s status s₁ trivial loaded rests
  show (if status &&& masks.CLK_PWRCTL_HIRCEN_Msk = 0 then _ else _ : Prog registers Unit).Wp _ _ _ _
  refine wp_ite (fun _ => ?_) fun _ => ⟨rests₁.memory,rests₁⟩
  -- from the store on it is bounded how long HIRC takes
  refine ⟨rests₁.memory,fun v s₂ read => ?_⟩
  obtain rfl := read
  refine ⟨rests₁.memory,fun _ s₃ stored => ?_⟩
  have rests₃ : Rests M s₃ := quiet_kept (.store .PWRCTL _) s₂ () s₃ trivial stored rests₁
  obtain ⟨n,possible,rfl⟩ := stored
  exact wp_stableLoop rounds _ (settles n possible) rests₃

theorem quiet_setUp (proper : Proper masks.toSpimMasks) : (setUp masks).All (Quiet masks) fun _ => True := by
  refine all_bind (quiet_update nofun) fun _ _ => all_bind (quiet_update nofun) fun _ _ => all_bind (quiet_update nofun) fun _ _ => ?_
  refine all_bind (quiet_update nofun) fun _ _ => all_bind (quiet_update nofun) fun _ _ => ⟨trivial,fun _ => ?_⟩
  exact ⟨trivial,fun v => ⟨bit_set proper.select _,fun _ => trivial⟩⟩

/-- The chip is asked for its ID and is free again. -/
theorem wp_ReadID {type : ChipType} {other : UInt8} {K : (Nat → UInt8) → Prop} {t : Spim} (free : Free t)
    (kept : K t.chip.memory) : SPIFLASH_ReadID.Wp (programming type other) (SpimPort.Keeps K)
      (fun _ t' => Free t' ∧ t'.chip.memory = t.chip.memory) t := by
  obtain ⟨⟨memory,en,n,_,_,sent⟩,dir,tx,rx⟩ := t
  obtain ⟨rfl,rfl,rfl⟩ := free
  have kept : K memory := kept
  refine wp_select kept (wp_direction kept true (wp_IO_Write kept (wp_direction kept false ?_)))
  refine wp_byte kept fun _ _ _ _ => wp_byte kept fun _ _ _ _ => wp_byte kept fun _ _ _ _ => ⟨kept,fun _ t' left => ?_⟩
  obtain ⟨chip,ended,rfl⟩ := left
  obtain rfl := (if_pos ⟨rfl,rfl⟩).mp ended
  exact ⟨kept,⟨rfl,rfl,rfl⟩,rfl⟩

theorem wp_checkID (proper : Proper masks.toSpimMasks) (held : Buffer) (rests : Rests M s) :
    (checkID masks held).Wp (controller masks.toSpimMasks setup) (Keeps (· = M))
      (fun rc s' => (rc = 0 ∨ rc = 1) ∧ Rests M s') s := by
  have read := @wp_ReadID setup.chip setup.other (· = M) (s.seen masks.toSpimMasks) ⟨rests.selected,rests.frame,rests.idle⟩ rests.memory
  refine wp_bind (simulates_wp (registers_simulate masks.toSpimMasks setup proper held (· = M)) read ⟨rfl,rests.memory⟩)
    fun id s' kept after => ?_
  obtain ⟨_,⟨free,_⟩,rfl,now⟩ := after
  have rests' : Rests M s' := ⟨free.selected,free.frame,free.idle,now⟩
  exact wp_ite (fun _ => ⟨kept,.inr rfl,rests'⟩) fun _ => ⟨kept,.inl rfl,rests'⟩

/-- The cases set no register of the SPIM. -/
theorem case_register {n : UInt32} {c : Case} (chosen : u32SS_SEL n = some c ∨ u32CLK_SEL n = some c ∨
    u32MISO_SEL n = some c ∨ u32MOSI_SEL n = some c) : c.register ≠ .CTL1 := by
  obtain chosen | chosen | chosen | chosen := chosen
  · unfold u32SS_SEL at chosen
    split at chosen <;> cases chosen <;> exact nofun
  · unfold u32CLK_SEL at chosen
    split at chosen <;> cases chosen <;> exact nofun
  · unfold u32MISO_SEL at chosen
    split at chosen <;> cases chosen <;> exact nofun
  · unfold u32MOSI_SEL at chosen
    split at chosen <;> cases chosen <;> exact nofun

section
variable {rest : Prog registers Int32} (rests : Rests M s) (behind : ∀ s', Rests M s' →
  rest.Wp (controller masks.toSpimMasks setup) (Keeps (· = M)) (fun rc s' => (rc = 0 ∨ rc = 1) ∧ Rests M s') s')
include rests behind

theorem wp_select_pin {chosen : Option Case} (other : ∀ c, chosen = some c → c.register ≠ .CTL1) :
    (select masks chosen rest).Wp (controller masks.toSpimMasks setup) (Keeps (· = M))
      (fun rc s' => (rc = 0 ∨ rc = 1) ∧ Rests M s') s := by
  cases chosen with
  | none => exact ⟨rests.memory,.inr rfl,rests⟩
  | some c => exact wp_update_quiet (other c rfl) rests behind

theorem wp_pins (fnc : UInt32) : (pins masks fnc rest).Wp (controller masks.toSpimMasks setup) (Keeps (· = M))
    (fun rc s' => (rc = 0 ∨ rc = 1) ∧ Rests M s') s := by
  refine wp_ite (fun _ => ?_) fun _ => wp_update_quiet nofun rests fun s₁ rests₁ => wp_update_quiet nofun rests₁ behind
  refine wp_select_pin rests (fun s₁ rests₁ => ?_) fun _ chosen => case_register (.inl chosen)
  refine wp_select_pin rests₁ (fun s₂ rests₂ => ?_) fun _ chosen => case_register (.inr (.inl chosen))
  refine wp_select_pin rests₂ (fun s₃ rests₃ => ?_) fun _ chosen => case_register (.inr (.inr (.inl chosen)))
  exact wp_select_pin rests₃ behind fun _ chosen => case_register (.inr (.inr (.inr chosen)))

end

/-- Whatever the registers read, the initialisation ends, returns 0 or 1, and the chip is free and has kept its memory. -/
theorem wp_NVT_NVSPIM_Init (proper : Proper masks.toSpimMasks) {rounds : Nat} (settles : ∀ n, setup.settles n → n < rounds)
    (held : Buffer) (fnc : UInt32) (rests : Rests M s) :
    (NVT_NVSPIM_Init masks held rounds fnc).Wp (controller masks.toSpimMasks setup) (Keeps (· = M))
      (fun rc s' => (rc = 0 ∨ rc = 1) ∧ Rests M s') s := by
  refine wp_moves (fun _ _ => id) rests.memory fun _ => wp_moves (fun _ _ => id) rests.memory fun _ => ?_
  refine wp_moves (fun _ _ => id) rests.memory fun _ => ⟨rests.memory,fun unlocked s₁ loaded => ?_⟩
  obtain rfl := loaded
  show (if unlocked ≠ 1 then _ else _ : Prog registers Int32).Wp _ _ _ _
  refine wp_ite (fun _ => ⟨rests.memory,.inr rfl,rests⟩) fun _ => ?_
  refine wp_bind (wp_enable_HIRC settles rests) fun _ s₂ _ rests₂ => ?_
  refine wp_quiet (quiet_setUp proper) rests₂ fun _ s₃ rests₃ => ?_
  exact wp_pins rests₃ (fun s₄ rests₄ => wp_checkID proper held rests₄) fnc

end NuMicroBoot.SpimInit
