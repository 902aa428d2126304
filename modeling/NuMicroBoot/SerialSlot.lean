import NuMicroBoot.Platforms
import NuMicroBoot.SpimInit
import NuMicroBoot.TwoFlashes

/-!
The boot loader of the M460 built with `SECONDARY_SLOT_IN_SPI_FLASH`, from reset
on over the registers of both controllers.
-/

namespace NuMicroBoot.SerialSlot
open NuMicroBoot.Calls NuMicroBoot.Calls.Prog NuMicroBoot.Cells NuMicroBoot.Words NuMicroBoot.Driver NuMicroBoot.Nvmc NuMicroBoot.FlashMap
open NuMicroBoot.FlashLayout NuMicroBoot.AreaPlans NuMicroBoot.Requests NuMicroBoot.Simulation NuMicroBoot.FmcDrv NuMicroBoot.FmcParts
open NuMicroBoot.FailingParts NuMicroBoot.BackEnds NuMicroBoot.BootLoader NuMicroBoot.Platforms NuMicroBoot.SerialChip NuMicroBoot.SpimBus
open NuMicroBoot.SpimPort NuMicroBoot.NorAreas NuMicroBoot.SpimRegisters NuMicroBoot.SpimInit NuMicroBoot.TwoFlashes

/-! ### The boot loader -/

def ARM_Flash_Initialize_SPIM (masks : InitMasks) (held : Buffer) (rounds : Nat) : Prog SpimRegisters.registers Int32 :=
  if DriverCapabilities.data_width ≥ DATA_WIDTH_ENUM_SIZE then .ret ARM_DRIVER_ERROR else do
    let rc ← NVT_NVSPIM_Init masks held rounds 0xAD004444
    if rc ≠ 0 then .ret ARM_DRIVER_ERROR else .ret ARM_DRIVER_OK

/-- The part with its two controllers; the serial flash is not in the address space. -/
def boardPart {bsp : Bsp} (b : BackEnd bsp) (masks : InitMasks) (setup : Setup) : FlashPart where
  registers := b.registers.both SpimRegisters.registers
  State := b.State × SpimRegisters.Controller
  device := controllers b masks.toSpimMasks setup
  content s := b.content s.1

/-- `main` of the M460. -/
def m460Main {bsp : Bsp} (config : Config) (b : BackEnd bsp) (masks : InitMasks) (held : Buffer) (rounds : Nat) (garbage : UInt32)
    (mcuboot : Prog (b.registers.both SpimRegisters.registers) ((Int32 × boot_rsp) × Content)) :
    Prog (boot.both (b.registers.both SpimRegisters.registers)) Int32 :=
  main config layout (own_abort .m460_SPI) bsp (((ARM_Flash_Initialize_SPIM masks held rounds).translate right).translate right)
    garbage (boot_go mcuboot)

section
variable {bsp : Bsp} (suits : SuitsM460 bsp)

theorem boot_loader_apart {p : Nat} (own : OfBootLoader .m460_SPI p) (i : Fin 3) : ¬ ((m460Map suits).flash_map i).Holds (.inl p) := by
  have below : ∀ offset : UInt32, offset = layout.FLASH_AREA_0_OFFSET ∨ offset = layout.FLASH_AREA_SCRATCH_OFFSET →
      (FLASH_AREA_BL2_OFFSET .m460_SPI).toNat + FLASH_AREA_BL2_SIZE.toNat ≤ offset.toNat := by
    rintro offset (rfl | rfl) <;> decide
  obtain ⟨_,high⟩ := own
  match i with
  | 0 => exact fun holds => absurd (below _ (.inl rfl)) (Nat.not_le.mpr (Nat.lt_of_le_of_lt holds.1 high))
  | 1 => exact fun holds => holds
  | 2 => exact fun holds => absurd (below _ (.inr rfl)) (Nat.not_le.mpr (Nat.lt_of_le_of_lt holds.1 high))

/-- The byte of the chip is in the secondary slot. -/
theorem slot_of_serial {p : Nat} {i : Fin 3} (holds : ((m460Map suits).flash_map i).Holds (.inr p)) : p < FLASH_AREA_2_SIZE.toNat := by
  match i with
  | 0 => exact holds.elim
  | 1 =>
    have high : p < (0 : UInt32).toNat + FLASH_AREA_2_SIZE.toNat := holds.2
    exact Nat.lt_of_lt_of_eq high (Nat.zero_add _)
  | 2 => exact holds.elim

section
variable [Bootutil] (config : Config) (b : BackEnd bsp) {masks : InitMasks} {setup : Setup} {rounds : Nat}
  (proper : SpimRegisters.Proper masks.toSpimMasks) (timely : Timely setup rounds) (held : Buffer)
  {client : Prog (TwoFlashes.flash_map_backend (m460Map suits)) ((Int32 × boot_rsp) × Content)}
  (ends : client.All (fun _ => True) fun _ => True) {bytes : Fin 3 → Nat → UInt8} {garbage : UInt32} {core : Core}
  {st : b.State × SpimRegisters.Controller} (ready : b.ready st.1) (free : Free (st.2.seen masks.toSpimMasks))
  (agrees : Agrees (m460Map suits) bytes (Sum.elim (b.content st.1) st.2.chip.memory))

/-- The bytes of both flashes outside the areas are as they were. -/
def Preserved (st st' : b.State × SpimRegisters.Controller) : Prop :=
  TwoFlashes.Untouched (fun p => ChangedBy (m460Map suits) (fun _ => True) (.inl p)) (b.content st.1) (b.content st'.1) ∧
    TwoFlashes.Untouched (fun p => ChangedBy (m460Map suits) (fun _ => True) (.inr p)) st.2.chip.memory st'.2.chip.memory

/-- How MCUboot may end, by a run on byte arrays. -/
def Concluded (masks : InitMasks) (client : Prog (TwoFlashes.flash_map_backend (m460Map suits)) ((Int32 × boot_rsp) × Content))
    (bytes : Fin 3 → Nat → UInt8) (n : Nat) (a : (Int32 × boot_rsp) × Content) (st' : b.State × SpimRegisters.Controller) : Prop :=
  b.ready st'.1 ∧ Free (st'.2.seen masks.toSpimMasks) ∧ ∃ bytes',
    TwoFlashes.Explained (m460Map suits) client (bytes,n) a (bytes',b.failures st'.1) ∧
      Agrees (m460Map suits) bytes' (Sum.elim (b.content st'.1) st'.2.chip.memory)

omit [Bootutil] in
include proper timely in
theorem wp_ARM_Flash_Initialize_SPIM {M : Nat → UInt8} {s : SpimRegisters.Controller} (rests : Rests M s) :
    (ARM_Flash_Initialize_SPIM masks held rounds).Wp (controller masks.toSpimMasks setup) (SpimRegisters.Keeps (· = M))
      (fun _ s' => Rests M s') s := by
  refine wp_ite (fun _ => ⟨rests.memory,rests⟩) fun _ => ?_
  refine wp_bind (wp_NVT_NVSPIM_Init proper timely.settles held 0xAD004444 rests) fun rc s' kept after => ?_
  exact wp_ite (fun _ => ⟨kept,after.2⟩) fun _ => ⟨kept,after.2⟩

include proper timely ends ready free agrees

theorem boots_m460 : Boots config (boardPart b masks setup) (own_abort .m460_SPI) (Concluded suits b masks client bytes (b.failures st.1))
    (Preserved suits b st) (m460Main config b masks held rounds garbage (onBoard b masks.toSpimMasks held rounds client))
    (fun _ _ => False) (core,st) := by
  have rests : Rests st.2.chip.memory st.2 := ⟨free.selected,free.frame,free.idle,rfl⟩
  refine boots_main config (boardPart b masks setup) (fun st' => st'.1 = st.1 ∧ Rests st.2.chip.memory st'.2) ?_ ?_ ⟨rfl,rests⟩
    layout bsp garbage core
  · intro core enabled
    have beside := wp_beside_right (R := b.device) (G := fun u => u = st.1) (s := st)
      (wp_ARM_Flash_Initialize_SPIM proper timely held rests) rfl
    have kept : ∀ st' : b.State × SpimRegisters.Controller, st'.1 = st.1 ∧ st'.2.chip.memory = st.2.chip.memory →
        Preserved suits b st st' := by
      rintro ⟨_,_⟩ ⟨rfl,memory⟩
      exact ⟨fun _ _ => rfl,fun p _ => congrFun memory p⟩
    refine asks_mono (boots_registers (wp_weaken beside kept) enabled) fun rc s' after => ?_
    obtain ⟨⟨rests',same⟩,again⟩ := after
    exact ⟨again ▸ enabled,same,rests'⟩
  · rintro ⟨u,c⟩ ⟨same,rests'⟩
    dsimp only at same rests'
    subst same
    have memory := rests'.memory
    have judged := onBoard_wp (s := (st.1,c)) b proper timely held ends ready ⟨rests'.selected,rests'.frame,rests'.idle⟩
      (show Agrees _ _ (Sum.elim (b.content st.1) c.chip.memory) by rw [memory]; exact agrees)
    dsimp only at judged
    rw [memory] at judged
    exact judged

/-- At every point from reset, whatever MCUboot requests and whichever commands of the internal flash fail or outlast their
    time-outs: the boot loader has neither returned nor run forever by itself, its own region is as it was, and so is the chip
    behind the secondary slot. Where it comes to jump, MCUboot has succeeded by a run on byte arrays that are the slots and the
    scratch area, and the image it has chosen is entered. -/
theorem boot_with_serial_slot {s' : Core × b.State × SpimRegisters.Controller}
    {t : List (Event (boot.both (b.registers.both SpimRegisters.registers)))}
    {q : Prog (boot.both (b.registers.both SpimRegisters.registers)) Int32}
    (exec : Exec (BootLoader.hardware config (boardPart b masks setup)) (m460Main config b masks held rounds garbage
      (onBoard b masks.toSpimMasks held rounds client)) (core,st) t q s') :
    q ≠ .spin ∧ (∀ a, q ≠ .ret a) ∧ (∀ p, OfBootLoader .m460_SPI p → b.content s'.2.1 p = b.content st.1 p) ∧
      (∀ p, FLASH_AREA_2_SIZE.toNat ≤ p → s'.2.2.chip.memory p = st.2.chip.memory p) ∧
      ∀ reset_handler_addr next, q = .call (.inl (.boot_jump_to_next_image reset_handler_addr)) next →
        Chosen config (boardPart b masks setup) (Concluded suits b masks client bytes (b.failures st.1)) s' reset_handler_addr ∧
        EntersClean (memory config (boardPart b masks setup) s') reset_handler_addr := by
  have points := asks_points (boots_m460 suits config b proper timely held ends ready free agrees) exec
  obtain ⟨going,⟨internal,serial⟩,allowed,returned⟩ := points
  refine ⟨?_,fun a same => returned a same,fun p own => internal p ?_,fun p behind => serial p ?_,fun handler next same => ?_⟩
  · -- the M460 has no loop for a failed assertion
    rintro rfl
    exact absurd (going rfl).1 (by decide)
  · rintro ⟨r,_,_,holds⟩
    exact boot_loader_apart suits own r.1 holds
  · rintro ⟨r,_,_,holds⟩
    exact absurd (slot_of_serial suits holds) (Nat.not_lt.mpr behind)
  · exact ⟨allowed _ _ same,enters_clean _ _⟩

end
end

/-! ### A boot -/

/-- Where the multi-function register of a pin has its field. -/
def field : Pin → UInt32
  | .PA0 | .PA4 | .PC0 | .PE4 | .PG12 | .PI12 | .PJ0 | .PJ8 | .PJ12 => 0
  | .PA1 | .PA5 | .PC1 | .PE5 | .PG13 | .PI13 | .PJ1 | .PJ9 | .PJ13 => 8
  | .PA2 | .PC2 | .PE2 | .PG14 => 16
  | .PA3 | .PA15 | .PC3 | .PE3 | .PG11 => 24

/-- The constants of the M460. -/
def m460Masks : InitMasks where
  toSpimMasks := m460Spim
  CLK_PWRCTL_HIRCEN_Msk := 0x4
  CLK_CLKSEL0_HCLKSEL_Pos := 0
  CLK_CLKDIV0_HCLKDIV_Msk := 0xF
  CLK_AHBCLK0_SPIMCKEN_Msk := 0x4000
  SYS_IPRST0_SPIMRST_Msk := 0x40
  SPIM_CTL0_BITMODE_SING := 0
  SPIM_CTL0_BURSTNUM_Pos := 13
  SPIM_CTL0_DWIDTH_Pos := 8
  SPIM_CTL1_DIVIDER_Msk := 0xFFFF0000
  SPIM_CTL1_SSACTPOL_Msk := 0x20
  MFP_Msk pin := 0x1F <<< field pin
  MFP_Pos := field

/-- An MCUboot that erases the scratch area, reads a word of the secondary slot and takes the image in the primary one as it
    is. -/
def takePrimary : Prog (TwoFlashes.flash_map_backend (m460Map m460Part_suits)) ((Int32 × boot_rsp) × Content) :=
  .call (⟨2,scratch_listed⟩,.flash_area_erase 0 0x1000) fun _ => .call (⟨1,secondary_listed⟩,.flash_area_read 0 (fun _ => 0) 4) fun _ =>
    .ret ((0,⟨⟨0,0x400,0⟩,100,0x20000⟩),fun _ => 1)

/-- The internal flash holds an image, the serial one nothing. -/
def delivered : Failing × SpimRegisters.Controller := (⟨⟨0,0,0,0,0,0,tabled⟩,false,0,false⟩,⟨zeros,⟨0,0,0,0,0,fun _ => 0⟩,0⟩)

section
variable {core : Core} {α : Type} {P : Prog (boot.both (FmcDrv.registers.both SpimRegisters.registers)) α →
  Core × Failing × SpimRegisters.Controller → Prop} {st : Failing} {u : SpimRegisters.Controller}

theorem reaches_internal {c : FmcCall} {a : FmcAnswer c} {st' : Failing}
    {next : FmcAnswer c → Prog (boot.both (FmcDrv.registers.both SpimRegisters.registers)) α}
    (took : failing fmcRegisters m460Part c st a st')
    (rest : Reaches (BootLoader.hardware quiet (boardPart m460BackEnd m460Masks m460Setup)) (next a) (core,st',u) P) :
    Reaches (BootLoader.hardware quiet (boardPart m460BackEnd m460Masks m460Setup)) (.call (.inr (.inl c)) next) (core,st,u) P := by
  have moved : controllers m460BackEnd m460Spim m460Setup (.inl c) (st,u) a (st',u) := ⟨took,rfl⟩
  exact reaches_register moved rest

theorem reaches_serial {c : RegisterCall} {a : RegisterAnswer c} {u' : SpimRegisters.Controller}
    {next : RegisterAnswer c → Prog (boot.both (FmcDrv.registers.both SpimRegisters.registers)) α}
    (took : controller m460Spim m460Setup c u a u')
    (rest : Reaches (BootLoader.hardware quiet (boardPart m460BackEnd m460Masks m460Setup)) (next a) (core,st,u') P) :
    Reaches (BootLoader.hardware quiet (boardPart m460BackEnd m460Masks m460Setup)) (.call (.inr (.inr c)) next) (core,st,u) P := by
  have moved : controllers m460BackEnd m460Spim m460Setup (.inr c) (st,u) a (st,u') := ⟨took,rfl⟩
  exact reaches_register moved rest

end

section
variable {chip : Chip} {spim : Transfer} {CTL0 DMACNT FADDR v : UInt32} {TX RX : UInt8} {SRAM : Buffer} {n : Nat}

theorem read_as (v : UInt32) {r : SpimRegisters.Register} {u u' : SpimRegisters.Controller}
    (loaded : controller m460Spim m460Setup (.load r) u v u') : controller m460Spim m460Setup (.load r) u v u' := loaded

/-- HIRC is enabled, unstable for one read of the status, and stable. -/
theorem hirc_enabled (v : UInt32) : controller m460Spim m460Setup (.store .PWRCTL v) ⟨chip,spim,n⟩ () ⟨chip,spim,1⟩ :=
  ⟨1,show 1 < 1000 by decide,rfl⟩
theorem hirc_unstable : controller m460Spim m460Setup (.load .STATUS) ⟨chip,spim,1⟩ 0 ⟨chip,spim,0⟩ := rfl
theorem hirc_stable : controller m460Spim m460Setup (.load .STATUS) ⟨chip,spim,0⟩ 0x10 ⟨chip,spim,0⟩ :=
  ⟨show 0x10 &&& m460Spim.CLK_STATUS_HIRCSTB_Msk ≠ 0 by decide,rfl⟩

/-- The reset changes nothing here, and neither does an inactive chip select. -/
theorem spim_reset (v : UInt32) : controller m460Spim m460Setup (.store .IPRST0 v) ⟨chip,spim,n⟩ () ⟨chip,spim,n⟩ := ⟨spim,rfl⟩
theorem inactive : controller m460Spim m460Setup (.store .CTL1 0x10) ⟨zeros,spim,n⟩ () ⟨zeros,spim,n⟩ := ⟨zeros,rfl,rfl⟩

theorem ctl0_stored : controller m460Spim m460Setup (.store .CTL0 v) ⟨chip,⟨CTL0,DMACNT,FADDR,TX,RX,SRAM⟩,n⟩ ()
    ⟨chip,⟨v,DMACNT,FADDR,TX,RX,SRAM⟩,n⟩ := rfl
theorem tx_stored : controller m460Spim m460Setup (.store .TX v) ⟨chip,⟨CTL0,DMACNT,FADDR,TX,RX,SRAM⟩,n⟩ ()
    ⟨chip,⟨CTL0,DMACNT,FADDR,v.toUInt8,RX,SRAM⟩,n⟩ := rfl
theorem byte_out (out : direction m460Spim CTL0 = some true) : controller m460Spim m460Setup .SPIM_SET_GO
    ⟨chip,⟨CTL0,DMACNT,FADDR,TX,RX,SRAM⟩,n⟩ () ⟨chip.received TX,⟨CTL0,DMACNT,FADDR,TX,RX,SRAM⟩,n⟩ :=
  (transferred_out out).mpr rfl
theorem byte_in (input : direction m460Spim CTL0 = some false) (answer : UInt8) (answers : chip.Answers answer)
    (other : chip.frame.head? ≠ some 0x05) : controller m460Spim m460Setup .SPIM_SET_GO
    ⟨chip,⟨CTL0,DMACNT,FADDR,TX,RX,SRAM⟩,n⟩ () ⟨chip.received 0,⟨CTL0,DMACNT,FADDR,TX,answer,SRAM⟩,n⟩ :=
  (transferred_in input).mpr ⟨answer,0,answers,fun status => absurd status other,rfl⟩

end

/-- The chip after the question for its ID. -/
def known : Chip := { zeros with sent := [(0x9F,false)] }

theorem asked {spim : Transfer} {n : Nat} : controller m460Spim m460Setup (.SPIM_SET_SS_EN false)
    ⟨⟨fun _ => 0,false,0,true,[0x9F,0,0,0],[(0x9F,false)]⟩,spim,n⟩ () ⟨known,spim,n⟩ := ⟨known,rfl,rfl⟩

theorem selected {spim : Transfer} {n : Nat} : controller m460Spim m460Setup (.SPIM_SET_SS_EN true) ⟨known,spim,n⟩ ()
    ⟨{ known with selected := true },spim,n⟩ := rfl
theorem released {spim : Transfer} {n : Nat} : controller m460Spim m460Setup (.SPIM_SET_SS_EN false)
    ⟨{ known with selected := true },spim,n⟩ () ⟨known,spim,n⟩ := ⟨known,rfl,rfl⟩

/-- The scratch area is left full of sevens, and HIRC is waited for. -/
theorem boot_with_serial_slot_primary : ∃ s' : Core × Failing × SpimRegisters.Controller, s'.2.1.failures = 1 ∧
    s'.1.MSP = 0x20008000 ∧ (∀ p, OfBootLoader .m460_SPI p → s'.2.1.content p = tabled p) ∧
      (∀ p, FLASH_AREA_2_SIZE.toNat ≤ p → s'.2.2.chip.memory p = 0) ∧
      Chosen quiet (boardPart m460BackEnd m460Masks m460Setup) (Concluded m460Part_suits m460BackEnd m460Masks takePrimary
        (fun i k => Sum.elim tabled (fun _ => 0) (((m460Map m460Part_suits).flash_map i).place k)) 0) s' 0x20501 ∧
      EntersClean (memory quiet (boardPart m460BackEnd m460Masks m460Setup) s') 0x20501 := by
  have reached : Reaches (BootLoader.hardware quiet (boardPart m460BackEnd m460Masks m460Setup))
      (m460Main quiet m460BackEnd m460Masks (fun _ => 0) 1000 0
        (@onBoard _ bootutil (m460Map m460Part_suits) _ m460BackEnd m460Spim (fun _ => 0) 1000 takePrimary))
      (reset,delivered) fun q s' => s'.2.1.failures = 1 ∧ s'.1.MSP = 0x20008000 ∧
        ∃ next, q = .call (.inl (.boot_jump_to_next_image 0x20501)) next := by
    refine reaches_core (a := ()) trivial (reaches_core (a := ()) trivial (reaches_core (a := ()) trivial ?_))
    refine reaches_core (a := ()) trivial (reaches_core (a := ()) trivial ?_)
    -- `NVT_NVSPIM_Init` up to the pins
    refine reaches_serial (a := ()) rfl (reaches_serial (a := ()) rfl (reaches_serial (a := ()) rfl (reaches_serial (read_as 1 rfl) ?_)))
    refine reaches_serial hirc_stable (reaches_serial (read_as 0 rfl) (reaches_serial (a := ()) (hirc_enabled 4) ?_))
    refine reaches_serial hirc_unstable (reaches_serial hirc_stable ?_)
    refine reaches_serial (read_as 0 rfl) (reaches_serial (a := ()) rfl (reaches_serial (read_as 0 rfl) (reaches_serial (a := ()) rfl ?_)))
    refine reaches_serial (read_as 0 rfl) (reaches_serial (a := ()) rfl (reaches_serial (read_as 0 rfl) ?_))
    refine reaches_serial (a := ()) (spim_reset 0x40) (reaches_serial (read_as 0 rfl) (reaches_serial (a := ()) (spim_reset 0) ?_))
    refine reaches_serial (a := ()) ctl0_stored (reaches_serial (read_as 0 rfl) (reaches_serial (a := ()) inactive ?_))
    refine reaches_serial (read_as 0 rfl) (reaches_serial (a := ()) rfl (reaches_serial (read_as 0 rfl) (reaches_serial (a := ()) rfl ?_)))
    refine reaches_serial (read_as 0 rfl) (reaches_serial (a := ()) rfl (reaches_serial (read_as 0 rfl) (reaches_serial (a := ()) rfl ?_)))
    -- the ID
    refine reaches_serial (a := ()) rfl (reaches_serial (read_as 0x8700 ⟨rfl,rfl⟩) (reaches_serial (a := ()) ctl0_stored ?_))
    refine reaches_serial (a := ()) tx_stored (reaches_serial (a := ()) (byte_out rfl) (reaches_serial (a := ()) rfl ?_))
    refine reaches_serial (read_as 0x8700 ⟨rfl,rfl⟩) (reaches_serial (a := ()) ctl0_stored ?_)
    refine reaches_serial (a := ()) (byte_in rfl 0xEF trivial nofun) (reaches_serial (a := ()) rfl (reaches_serial (read_as 0xEF ⟨rfl,rfl⟩) ?_))
    refine reaches_serial (a := ()) (byte_in rfl 0x40 trivial nofun) (reaches_serial (a := ()) rfl (reaches_serial (read_as 0x40 ⟨rfl,rfl⟩) ?_))
    refine reaches_serial (a := ()) (byte_in rfl 0x18 trivial nofun) (reaches_serial (a := ()) rfl (reaches_serial (read_as 0x18 ⟨rfl,rfl⟩) ?_))
    refine reaches_serial (a := ()) asked ?_
    -- MCUboot
    refine reaches_internal (a := ()) (@command_stored m460Part _) (reaches_internal (a := ()) (@address_stored m460Part _ _) ?_)
    refine reaches_internal (a := ()) (erase_fails (fill_outside 7 _ _ _)) (reaches_internal (flag_seen rfl rfl) ?_)
    refine reaches_internal (flag_seen rfl rfl) (reaches_internal (flag_seen rfl rfl) (reaches_internal (a := ()) (@flag_cleared m460Part _) ?_))
    refine reaches_serial (a := ()) selected (reaches_serial (read_as 0x0700 ⟨rfl,rfl⟩) (reaches_serial (a := ()) ctl0_stored ?_))
    refine reaches_serial (a := ()) rfl (reaches_serial (a := ()) rfl (reaches_serial (a := ()) rfl ?_))
    refine reaches_serial (a := ()) rfl (reaches_serial (a := ()) rfl (reaches_serial (a := fun k => if k < 4 then 0 else 0) ⟨rfl,rfl⟩ ?_))
    refine reaches_serial (a := ()) released (reaches_core (a := ()) trivial ?_)
    -- `boot_platform_quit`
    refine reaches_core (a := ()) trivial (reaches_core (a := (0x20400 : UInt32)) (load_vt_cpy _ _ _ _).symm ?_)
    refine reaches_core (a := ()) trivial (reaches_core (a := ()) trivial (reaches_core (a := (0x20400 : UInt32)) rfl ?_))
    refine reaches_core (a := (0x20008000 : UInt32)) rfl (reaches_core (a := ()) trivial (reaches_core (a := ()) trivial ?_))
    refine reaches_core (a := ()) trivial (reaches_core (a := (0x20400 : UInt32)) rfl (reaches_core (a := (0x20501 : UInt32)) rfl ?_))
    exact reaches_here ⟨rfl,rfl,_,rfl⟩
  obtain ⟨t,_,s',exec,failed,stack,next,rfl⟩ := reached
  have agrees : Agrees (m460Map m460Part_suits) (fun i k => Sum.elim tabled (fun _ => 0) (((m460Map m460Part_suits).flash_map i).place k))
      (Sum.elim tabled fun _ => 0) := fun _ _ _ => rfl
  obtain ⟨_,_,own,behind,jump⟩ := @boot_with_serial_slot _ m460Part_suits bootutil quiet m460BackEnd m460Masks m460Setup 1000
    m460Spim_proper m460Setup_timely (fun _ => 0) takePrimary ⟨trivial,fun _ => ⟨trivial,fun _ => trivial⟩⟩ _ 0 reset delivered
    (fun _ => rfl) ⟨rfl,rfl,rfl⟩ agrees s' t _ exec
  exact ⟨s',failed,stack,own,behind,jump _ _ rfl⟩

end NuMicroBoot.SerialSlot
