import NuMicroBoot.Clients
import NuMicroBoot.FlashLayout
import NuMicroBoot.HandOver

/-!
The boot loader from its reset to the next image: `main` and `do_boot` of
`bl2_main.c`, `boot_platform_init` and `abort` of each `boot_hal.c` and
`boot_platform_quit` of `boot.c`, with MCUboot as any client of the flash map and
a flash whose commands may fail.
-/

namespace NuMicroBoot.BootLoader
open NuMicroBoot.Calls NuMicroBoot.Calls.Prog NuMicroBoot.Cells NuMicroBoot.Words NuMicroBoot.Driver NuMicroBoot.Nvmc
open NuMicroBoot.FlashMap NuMicroBoot.FlashLayout NuMicroBoot.AreaPlans NuMicroBoot.Requests NuMicroBoot.Simulation
open NuMicroBoot.FmcDrv NuMicroBoot.BackEnds NuMicroBoot.FmcParts NuMicroBoot.FailingParts NuMicroBoot.Clients

/-! ### What the boot loader calls -/

/-- The header of an image, as far as the boot loader reads it. -/
structure image_header where
  ih_load_addr : UInt32
  ih_hdr_size : UInt16
  ih_flags : UInt32

/-- What `boot_go` tells of the image it has chosen. -/
structure boot_rsp where
  br_hdr : image_header
  br_flash_dev_id : UInt8
  br_image_off : UInt32

/-- How the boot loader is built, with the constants of MCUboot; `fih_int` is `int`. -/
structure Config where
  FIH_SUCCESS : Int32
  FIH_FAILURE : Int32
  IMAGE_F_RAM_LOAD : UInt32
  MCUBOOT_ENCRYPT_RSA : Bool
  /-- `MCUBOOT_LOG_LEVEL > MCUBOOT_LOG_LEVEL_OFF` -/
  logging : Bool
  /-- One of `__ARM_ARCH_8M_MAIN__`, `__ARM_ARCH_8M_BASE__` and `__ARM_ARCH_8_1M_MAIN__` is defined. -/
  v8M : Bool
  /-- Where the linker puts the variable of `boot_platform_quit`. -/
  vt_cpy : UInt32
  /-- The bytes of the address space that are RAM. -/
  ram : Nat → Bool
  vt_cpy_ram : ∀ k < 4, ram (vt_cpy.toNat + k) = true

inductive BootCall
  | mbedtls_memory_buffer_alloc_init (len : UInt32)
  | stdio_init
  | stdio_uninit
  | SYS_UnlockReg
  | NVMC_Open
  | NVMC_ENABLE_AP_UPDATE
  | NVMC_ENABLE_LD_UPDATE
  /-- The driver of an external flash. -/
  | Driver_FLASH2_Initialize
  | FIH_PANIC
  /-- That of the library. -/
  | abort
  /-- MCUboot leaves the RAM like this. -/
  | boot_go_ram (ram : Content)
  | load (addr : UInt32)
  | store (addr value : UInt32)
  | SCB_VTOR (value : UInt32)
  | set_MSPLIM (value : UInt32)
  | set_MSP (value : UInt32)
  | DSB
  | ISB
  | boot_jump_to_next_image (reset_handler_addr : UInt32)

/-- Four of the calls do not return. -/
abbrev BootCall.Answer : BootCall → Type
  | .Driver_FLASH2_Initialize => Int32
  | .FIH_PANIC => Empty
  | .abort => Empty
  | .load _ => UInt32
  | .boot_jump_to_next_image _ => Empty
  | _ => Unit

abbrev boot : Interface := ⟨BootCall,BootCall.Answer⟩

section
variable {J : Interface} (config : Config)

/-- A statement between `#if` and `#endif`. -/
def compiled {I : Interface} (condition : Bool) (statement : Prog I Unit) : Prog I Unit :=
  if condition then statement else .ret ()

/-! ### `boot_platform_init` -/

def NVT_FMC_Init : Prog (boot.both J) Int32 := do
  left (I := boot) .NVMC_Open
  left (I := boot) .NVMC_ENABLE_AP_UPDATE
  left (I := boot) .NVMC_ENABLE_LD_UPDATE
  .ret NVT_NVMC_OK

def NVT_RMC_Init : Prog (boot.both J) Int32 := do
  left (I := boot) .NVMC_Open
  left (I := boot) .NVMC_ENABLE_LD_UPDATE
  left (I := boot) .NVMC_ENABLE_AP_UPDATE
  .ret NVT_NVMC_OK

def NVT_NVMC_Init (bsp : Bsp) : Prog (boot.both J) Int32 :=
  match bsp.type with
  | .FMC => NVT_FMC_Init
  | .RMC => NVT_RMC_Init

def DATA_WIDTH_ENUM_SIZE : UInt32 := 3

def ARM_Flash_Initialize (bsp : Bsp) : Prog (boot.both J) Int32 :=
  if DriverCapabilities.data_width ≥ DATA_WIDTH_ENUM_SIZE then .ret ARM_DRIVER_ERROR else do
    let _ ← NVT_NVMC_Init bsp
    .ret ARM_DRIVER_OK

def ARM_Flash_Uninitialize : Prog (boot.both J) Int32 := .ret ARM_DRIVER_OK

/-- The clocks and pins that it sets up first are left out. `Driver_FLASH2_Initialize` is that of the driver of an external
    flash. -/
def boot_platform_init (layout : Layout) (bsp : Bsp) (Driver_FLASH2_Initialize : Prog (boot.both J) Int32) :
    Prog (boot.both J) Int32 := do
  left (I := boot) .SYS_UnlockReg
  let result ← ARM_Flash_Initialize bsp
  if result ≠ ARM_DRIVER_OK then .ret 1
  else if layout.FLASH_DEVICE_ID_2 ≠ FLASH_DEVICE_ID then do
    let result ← Driver_FLASH2_Initialize
    if result ≠ ARM_DRIVER_OK then .ret 1 else .ret 0
  else .ret 0

/-! ### `boot_platform_quit` -/

/-- The table at `vt` is the initial stack pointer and the reset handler. -/
def boot_platform_quit (vt : UInt32) : Prog (boot.both J) Unit := do
  let result ← ARM_Flash_Uninitialize
  if result ≠ ARM_DRIVER_OK then .spin else do
    left (I := boot) (.store config.vt_cpy vt)
    let vt_cpy ← left (I := boot) (.load config.vt_cpy)
    left (I := boot) (.SCB_VTOR vt_cpy)
    compiled config.v8M (left (I := boot) (.set_MSPLIM 0))
    let vt_cpy ← left (I := boot) (.load config.vt_cpy)
    let msp ← left (I := boot) (.load vt_cpy)
    left (I := boot) (.set_MSP msp)
    left (I := boot) .DSB
    left (I := boot) .ISB
    let vt_cpy ← left (I := boot) (.load config.vt_cpy)
    let reset ← left (I := boot) (.load (vt_cpy + 4))
    let _ ← left (I := boot) (.boot_jump_to_next_image reset)
    .ret ()

/-! ### `bl2_main.c` -/

/-- `FLASH_BASE_ADDRESS` in the `flash_layout.h` of every platform. -/
def FLASH_DEVICE_BASE : UInt32 := 0

/-- Returns the status and what it leaves at `*ret`. -/
def flash_device_base (fd_id : UInt8) (ret : UInt32) : Int32 × UInt32 :=
  if fd_id ≠ FLASH_DEVICE_ID then (-1,ret) else (0,FLASH_DEVICE_BASE)

/-- The platforms whose `boot_hal.c` has an `abort`. -/
def own_abort : Platform → Bool
  | .m2351 => true
  | .m261 => true
  | .m2l31 => true
  | _ => false

/-- Where a failed assertion ends behind its message: in the loop of the `abort` of `boot_hal.c`, or in that of the library. -/
def abort (own_abort : Bool) : Prog (boot.both J) Empty :=
  if own_abort then .spin else left (I := boot) .abort

/-- The assertion is compiled in; `flash_base` is not set before it. -/
def do_boot (own_abort : Bool) (flash_base : UInt32) (rsp : boot_rsp) : Prog (boot.both J) Unit := do
  let (rc,flash_base) := flash_device_base rsp.br_flash_dev_id flash_base
  if rc ≠ 0 then do
    let _ ← abort own_abort
    .ret ()
  else do
    let vt :=
      if rsp.br_hdr.ih_flags &&& config.IMAGE_F_RAM_LOAD ≠ 0 then rsp.br_hdr.ih_load_addr + rsp.br_hdr.ih_hdr_size.toUInt32
      else flash_base + rsp.br_image_off + rsp.br_hdr.ih_hdr_size.toUInt32
    compiled config.logging (left (I := boot) .stdio_uninit)
    boot_platform_quit config vt

def main (layout : Layout) (own_abort : Bool) (bsp : Bsp) (Driver_FLASH2_Initialize : Prog (boot.both J) Int32)
    (garbage : UInt32) (boot_go : Prog (boot.both J) (Int32 × boot_rsp)) : Prog (boot.both J) Int32 := do
  left (I := boot) (.mbedtls_memory_buffer_alloc_init (if config.MCUBOOT_ENCRYPT_RSA then 0x3000 else 0x2000))
  compiled config.logging (left (I := boot) .stdio_init)
  let rc ← boot_platform_init layout bsp Driver_FLASH2_Initialize
  if rc ≠ 0 then do
    let _ ← left (I := boot) .FIH_PANIC
    .ret config.FIH_FAILURE
  else do
    let (fih_rc,rsp) ← boot_go
    if fih_rc ≠ config.FIH_SUCCESS then do
      let _ ← left (I := boot) .FIH_PANIC
      .ret config.FIH_FAILURE
    else do
      do_boot config own_abort garbage rsp
      let _ ← left (I := boot) .FIH_PANIC
      .ret config.FIH_FAILURE

/-- `boot_go` as what MCUboot does with the registers of the flashes; it returns its answer with the RAM as it leaves it. -/
def boot_go (mcuboot : Prog J ((Int32 × boot_rsp) × Content)) : Prog (boot.both J) (Int32 × boot_rsp) := do
  let (answer,ram) ← mcuboot.translate right
  left (I := boot) (.boot_go_ram ram)
  .ret answer

end

/-! ### The part -/

/-- What the boot loader sets outside the flash. -/
structure Core where
  unlocked : Bool
  ISPEN : Bool
  APUEN : Bool
  LDUEN : Bool
  ram : Content
  VTOR : UInt32
  MSPLIM : UInt32
  MSP : UInt32

/-- The controller of the flash carries out commands. -/
def Core.Enabled (s : Core) : Prop := s.unlocked = true ∧ s.ISPEN = true ∧ s.APUEN = true ∧ s.LDUEN = true

/-- The flashes of a part behind their registers; the content is that of the address space. -/
structure FlashPart where
  registers : Interface
  State : Type
  device : Device registers State
  content : State → Content

section
variable (config : Config) (part : FlashPart)

/-- The byte at each address, in the RAM or in the flash. -/
def memory (s : Core × part.State) : Content := fun p => if config.ram p then s.1.ram p else part.content s.2 p

/-- What a call does to the core. -/
def moved (s : Core) : BootCall → Core
  | .SYS_UnlockReg => { s with unlocked := true }
  | .NVMC_Open => { s with ISPEN := true }
  | .NVMC_ENABLE_AP_UPDATE => { s with APUEN := true }
  | .NVMC_ENABLE_LD_UPDATE => { s with LDUEN := true }
  | .boot_go_ram ram => { s with ram := ram }
  | .store addr value => { s with ram := copy s.ram addr.toNat (wordBytes value) 0 4 }
  | .SCB_VTOR value => { s with VTOR := value }
  | .set_MSPLIM value => { s with MSPLIM := value }
  | .set_MSP value => { s with MSP := value }
  | _ => s

/-- Only a load answers with something of the part. -/
def answered (M : Content) : (c : BootCall) → BootCall.Answer c → Prop
  | .load addr, a => a = wordAt M addr.toNat
  | _, _ => True

/-- Until the controller of the internal flash carries out commands, the registers may do anything. -/
def hardware : Device (boot.both part.registers) (Core × part.State)
  | .inl c, s, a, s' => answered (memory config part s) c a ∧ s' = (moved s.1 c,s.2)
  | .inr c, s, a, s' => (s.1.Enabled → part.device c s.2 a s'.2) ∧ s'.1 = s.1

/-! ### The next image -/

/-- Where the image has its vector table. -/
def vector_table (rsp : boot_rsp) : UInt32 :=
  if rsp.br_hdr.ih_flags &&& config.IMAGE_F_RAM_LOAD ≠ 0 then rsp.br_hdr.ih_load_addr + rsp.br_hdr.ih_hdr_size.toUInt32
  else FLASH_DEVICE_BASE + rsp.br_image_off + rsp.br_hdr.ih_hdr_size.toUInt32

/-- The part as `boot_jump_to_next_image` finds it, after a `boot_go` that has left this RAM and the flash that the part
    still has. -/
structure Handed (rsp : boot_rsp) (ram : Content) (s : Core × part.State) (reset_handler_addr : UInt32) : Prop where
  device : rsp.br_flash_dev_id = FLASH_DEVICE_ID
  ram : s.1.ram = copy ram config.vt_cpy.toNat (wordBytes (vector_table config rsp)) 0 4
  VTOR : s.1.VTOR = vector_table config rsp
  MSPLIM : config.v8M = true → s.1.MSPLIM = 0
  MSP : s.1.MSP = wordAt (memory config part s) (vector_table config rsp).toNat
  handler : reset_handler_addr = wordAt (memory config part s) (vector_table config rsp + 4).toNat

/-- How MCUboot may end: its answer, the RAM and the flash that it leaves. -/
abbrev Ends (part : FlashPart) : Type := (Int32 × boot_rsp) × Content → part.State → Prop

/-- An image may be entered once MCUboot has succeeded, from the part it has left. -/
def Chosen (ends : Ends part) (s : Core × part.State) (reset_handler_addr : UInt32) : Prop :=
  ∃ rsp ram, ends ((config.FIH_SUCCESS,rsp),ram) s.2 ∧ Handed config part rsp ram s reset_handler_addr

/-- The assertion fails in a loop where MCUboot has succeeded and names another device. -/
def Aborted (own_abort : Bool) (ends : Ends part) (s : Core × part.State) : Prop :=
  own_abort = true ∧ ∃ rsp ram, ends ((config.FIH_SUCCESS,rsp),ram) s.2 ∧ rsp.br_flash_dev_id ≠ FLASH_DEVICE_ID

/-- What may be called when; only the jump asks for something. -/
def Allowed (ends : Ends part) : (boot.both part.registers).Call → Core × part.State → Prop
  | .inl (.boot_jump_to_next_image reset_handler_addr), s => Chosen config part ends s reset_handler_addr
  | _, _ => True

/-! ### The judgement -/

theorem wordAt_bytes {M : Content} {a : Nat} {w : UInt32} (same : ∀ k < 4, M (a + k) = wordBytes w k) : wordAt M a = w := by
  have whole : w.toNat % 256 ^ 4 = w.toNat := Nat.mod_eq_of_lt w.toNat_lt
  rw [wordAt,leNat_congr same,wordBytes,leNat_byteAt,whole,UInt32.ofNat_toNat]

/-- The variable holds what was stored in it. -/
theorem load_vt_cpy {core : Core} (vt : UInt32) (st : part.State) :
    wordAt (memory config part (moved core (.store config.vt_cpy vt),st)) config.vt_cpy.toNat = vt := by
  refine wordAt_bytes fun k less => ?_
  have inside : config.vt_cpy.toNat ≤ config.vt_cpy.toNat + k ∧ config.vt_cpy.toNat + k < config.vt_cpy.toNat + 4 := by omega
  have stored : copy core.ram config.vt_cpy.toNat (wordBytes vt) 0 4 (config.vt_cpy.toNat + k) = wordBytes vt k := by
    rw [copy,if_pos inside,Nat.zero_add,Nat.add_sub_cancel_left]
  exact (if_pos (config.vt_cpy_ram k less)).trans stored

section
variable {config part} {own_abort : Bool} {ends : Ends part} {K : part.State → Prop} {core : Core} {st : part.State}

variable (config part own_abort ends K) in
/-- On the way the flashes keep `K`, an image is entered as allowed, and the only loop is that of a failed assertion. -/
abbrev Boots {α : Type} (p : Prog (boot.both part.registers) α) (Q : α → Core × part.State → Prop) (s : Core × part.State) : Prop :=
  Asks (hardware config part) (fun s' => K s'.2) (Allowed config part ends) (Aborted config part own_abort ends) p Q s

section
variable {α : Type} {Q : α → Core × part.State → Prop} (now : K st)
include now

theorem boots_core {c : BootCall} {next : BootCall.Answer c → Prog (boot.both part.registers) α}
    (allowed : Allowed config part ends (.inl c) (core,st)) (rest : ∀ a, answered (memory config part (core,st)) c a →
      Boots config part own_abort ends K (next a) Q (moved core c,st)) :
    Boots config part own_abort ends K (left (I := boot) c >>= next) Q (core,st) := by
  refine ⟨now,allowed,fun a s' took => ?_⟩
  obtain ⟨told,rfl⟩ := took
  exact rest a told

omit now in
theorem boots_compiled {condition : Bool} {statement : Prog (boot.both part.registers) Unit}
    {next : Unit → Prog (boot.both part.registers) α}
    (runs : condition = true → Boots config part own_abort ends K (statement >>= next) Q (core,st))
    (skips : condition = false → Boots config part own_abort ends K (next ()) Q (core,st)) :
    Boots config part own_abort ends K (compiled condition statement >>= next) Q (core,st) := by
  cases condition
  · exact skips rfl
  · exact runs rfl

end

section
variable (now : K st) {rsp : boot_rsp} (ended : ends ((config.FIH_SUCCESS,rsp),core.ram) st)
include now ended

/-- `boot_platform_quit` jumps to the handler that the table names. -/
theorem boots_quit (device : rsp.br_flash_dev_id = FLASH_DEVICE_ID) :
    Boots config part own_abort ends K (boot_platform_quit config (vector_table config rsp)) (fun _ _ => False) (core,st) := by
  have loaded := @load_vt_cpy config part core (vector_table config rsp) st
  have rest : ∀ core' : Core, core'.ram = copy core.ram config.vt_cpy.toNat (wordBytes (vector_table config rsp)) 0 4 →
      core'.VTOR = vector_table config rsp → (config.v8M = true → core'.MSPLIM = 0) →
      Boots config part own_abort ends K (do
        let vt_cpy ← left (I := boot) (.load config.vt_cpy)
        let msp ← left (I := boot) (.load vt_cpy)
        left (I := boot) (.set_MSP msp)
        left (I := boot) .DSB
        left (I := boot) .ISB
        let vt_cpy ← left (I := boot) (.load config.vt_cpy)
        let reset ← left (I := boot) (.load (vt_cpy + 4))
        let _ ← left (I := boot) (.boot_jump_to_next_image reset)
        .ret ()) (fun _ _ => False) (core',st) := by
    intro core' ram VTOR MSPLIM
    have table : wordAt (memory config part (core',st)) config.vt_cpy.toNat = vector_table config rsp := by
      have same : memory config part (core',st) =
          memory config part (moved core (.store config.vt_cpy (vector_table config rsp)),st) := by
        unfold memory
        rw [ram]
        rfl
      rw [same,loaded]
    refine boots_core now trivial fun vt_cpy told => ?_
    obtain rfl := told.trans table
    refine boots_core now trivial fun msp stack => boots_core now trivial fun _ _ => boots_core now trivial fun _ _ => ?_
    refine boots_core now trivial fun _ _ => boots_core now trivial fun vt_cpy told => ?_
    obtain rfl := told.trans table
    refine boots_core now trivial fun reset handler => boots_core now ?_ fun never => nomatch never
    exact ⟨rsp,core.ram,ended,device,ram,VTOR,MSPLIM,stack,handler⟩
  refine boots_core now trivial fun _ _ => boots_core now trivial fun vt_cpy told => ?_
  obtain rfl := told.trans loaded
  refine boots_core now trivial fun _ _ => boots_compiled (fun v8M => ?_) fun other => ?_
  · exact boots_core now trivial fun _ _ => rest _ rfl rfl fun _ => rfl
  · exact rest _ rfl rfl fun v8M => absurd v8M (by rw [other]; decide)

theorem boots_do_boot (garbage : UInt32) :
    Boots config part own_abort ends K (do_boot config own_abort garbage rsp) (fun _ _ => False) (core,st) := by
  unfold do_boot flash_device_base
  by_cases device : rsp.br_flash_dev_id = FLASH_DEVICE_ID
  · rw [if_neg (not_not.mpr device)]
    refine boots_compiled (fun _ => ?_) fun _ => boots_quit now ended device
    exact boots_core now trivial fun _ _ => boots_quit now ended device
  · rw [if_pos device]
    cases own_abort with
    | true => exact ⟨now,rfl,rsp,core.ram,ended,device⟩
    | false => exact boots_core now trivial fun never => nomatch never

end

section
variable {Begun : part.State → Prop} {Driver_FLASH2_Initialize : Prog (boot.both part.registers) Int32}
  (initialized : ∀ core : Core, core.Enabled → Boots config part own_abort ends K Driver_FLASH2_Initialize
    (fun _ s' => s'.1.Enabled ∧ Begun s'.2) (core,st))

/-- The driver of an external flash that is not in the part. -/
theorem boots_elsewhere (now : K st) (enabled : core.Enabled) : Boots config part own_abort ends K
    (left (I := boot) .Driver_FLASH2_Initialize) (fun _ s' => s'.1.Enabled ∧ s'.2 = st) (core,st) := by
  refine ⟨now,trivial,fun result s' took => ?_⟩
  obtain ⟨_,rfl⟩ := took
  exact ⟨now,enabled,rfl⟩

section
variable (now : K st) (begun : Begun st)
include initialized now begun

/-- After a `boot_platform_init` without an error the controller carries out commands. -/
theorem boots_platform_init {α : Type} {Q : α → Core × part.State → Prop} {next : Int32 → Prog (boot.both part.registers) α}
    {layout : Layout} {bsp : Bsp} (fails : ∀ s', K s'.2 → Boots config part own_abort ends K (next 1) Q s')
    (rest : ∀ s', K s'.2 → s'.1.Enabled → Begun s'.2 → Boots config part own_abort ends K (next 0) Q s') :
    Boots config part own_abort ends K (boot_platform_init layout bsp Driver_FLASH2_Initialize >>= next) Q (core,st) := by
  have last : ∀ core : Core, core.Enabled → Boots config part own_abort ends K
      ((if layout.FLASH_DEVICE_ID_2 ≠ FLASH_DEVICE_ID then do
          let result ← Driver_FLASH2_Initialize
          if result ≠ ARM_DRIVER_OK then .ret 1 else .ret 0
        else .ret 0 : Prog (boot.both part.registers) Int32) >>= next) Q (core,st) := by
    intro core enabled
    by_cases other : layout.FLASH_DEVICE_ID_2 ≠ FLASH_DEVICE_ID
    · rw [if_pos other,bind_bind]
      refine asks_bind (initialized core enabled) fun result s' kept after => ?_
      by_cases failed : result ≠ ARM_DRIVER_OK
      · rw [if_pos failed]
        exact fails s' kept
      · rw [if_neg failed]
        exact rest s' kept after.1 after.2
    · rw [if_neg other]
      exact rest _ now enabled begun
  unfold boot_platform_init ARM_Flash_Initialize NVT_NVMC_Init
  refine boots_core now trivial fun _ _ => ?_
  cases bsp.type with
  | FMC =>
    refine boots_core now trivial fun _ _ => boots_core now trivial fun _ _ => boots_core now trivial fun _ _ => ?_
    exact last _ ⟨rfl,rfl,rfl,rfl⟩
  | RMC =>
    refine boots_core now trivial fun _ _ => boots_core now trivial fun _ _ => boots_core now trivial fun _ _ => ?_
    exact last _ ⟨rfl,rfl,rfl,rfl⟩

end

variable {mcuboot : Prog part.registers ((Int32 × boot_rsp) × Content)}

/-- A program for the flashes, on the enabled controller. -/
theorem boots_registers {α : Type} {Q : α → part.State → Prop} {p : Prog part.registers α} (judged : p.Wp part.device K Q st)
    (enabled : core.Enabled) :
    Boots config part own_abort ends K (p.translate right) (fun a s' => Q a s'.2 ∧ s'.1 = core) (core,st) := by
  have beside := wp_beside_right (K := boot) (R := fun _ _ _ _ => True) (G := fun c => c = core) (s := (core,st)) judged rfl
  have fewer : ∀ c (s : Core × part.State) a s', s.1 = core ∧ K s.2 →
      hardware config part c s a s' → Device.both (I := boot) (fun _ _ _ _ => True) part.device c s a s' := by
    intro c s a s' good took
    cases c with
    | inl c => exact ⟨trivial,by rw [took.2]⟩
    | inr c => exact ⟨took.1 (good.1 ▸ enabled),took.2⟩
  exact asks_right (fun _ _ => trivial) (wp_weaken (wp_narrow fewer beside) fun s' good => good.2)

/-- MCUboot. -/
theorem boots_boot_go (judged : mcuboot.Wp part.device K ends st) (enabled : core.Enabled) :
    Boots config part own_abort ends K (boot_go mcuboot) (fun answer s' => ends (answer,s'.1.ram) s'.2) (core,st) := by
  refine asks_bind (boots_registers judged enabled) ?_
  rintro ⟨answer,ram⟩ ⟨core',st'⟩ kept ⟨ended,_⟩
  exact boots_core kept trivial fun _ _ => ⟨kept,ended⟩

variable (judged : ∀ st', Begun st' → mcuboot.Wp part.device K ends st') (begun : Begun st)
include initialized judged begun

variable (config part Begun) in
/-- The boot loader does not return, and boots. -/
theorem boots_main (layout : Layout) (bsp : Bsp) (garbage : UInt32) (core : Core) :
    Boots config part own_abort ends K (main config layout own_abort bsp Driver_FLASH2_Initialize garbage (boot_go mcuboot))
      (fun _ _ => False) (core,st) := by
  have now : K st := wp_now (judged st begun)
  have started : ∀ core : Core, Boots config part own_abort ends K (do
        let rc ← boot_platform_init layout bsp Driver_FLASH2_Initialize
        if rc ≠ 0 then do
          let _ ← left (I := boot) .FIH_PANIC
          .ret config.FIH_FAILURE
        else do
          let (fih_rc,rsp) ← boot_go mcuboot
          if fih_rc ≠ config.FIH_SUCCESS then do
            let _ ← left (I := boot) .FIH_PANIC
            .ret config.FIH_FAILURE
          else do
            do_boot config own_abort garbage rsp
            let _ ← left (I := boot) .FIH_PANIC
            .ret config.FIH_FAILURE) (fun _ _ => False) (core,st) := by
    intro core
    refine boots_platform_init initialized now begun (fun s' kept => boots_core kept trivial fun never => nomatch never) ?_
    rintro ⟨core₁,st₁⟩ _ enabled begun₁
    refine asks_bind (boots_boot_go (judged st₁ begun₁) enabled) ?_
    rintro ⟨fih_rc,rsp⟩ ⟨core',st'⟩ kept ended
    dsimp only at kept ended ⊢
    by_cases success : fih_rc = config.FIH_SUCCESS
    · subst success
      rw [if_neg (by simp)]
      exact asks_bind (boots_do_boot kept ended garbage) fun _ _ _ never => never.elim
    · rw [if_pos success]
      exact boots_core kept trivial fun never => nomatch never
  refine boots_core now trivial fun _ _ => boots_compiled (fun _ => ?_) fun _ => started _
  exact boots_core now trivial fun _ _ => started _

end
end

/-! ### From reset to the next image -/

/-- The code behind the jump enters the handler with the RAM areas and the registers wiped and everything else in place. -/
def EntersClean (memory : Content) (reset_handler_addr : UInt32) : Prop :=
  ∀ {code : Thumb.Code} {place : Nat → UInt32} (cs : List (HandOver.Clearing code HandOver.clearArea)),
    Thumb.Loaded code place 0 (HandOver.jumpToNextImage (cs.map fun c => c.place 0)) → ∀ cpu : Thumb.Cpu,
      cpu.regs .r0 = reset_handler_addr → ∃ entered,
        Thumb.Runs code ⟨cpu,memory,place 0⟩ entered ∧
          HandOver.Entered reset_handler_addr (cs.map HandOver.Clearing.area) memory entered

theorem enters_clean (memory : Content) (reset_handler_addr : UInt32) : EntersClean memory reset_handler_addr := by
  intro code place cs loaded cpu first
  obtain ⟨entered,ran,done⟩ := HandOver.hands_over cs loaded ⟨cpu,memory,0⟩
  subst first
  exact ⟨entered,ran,done⟩

end

section
variable {bsp : Bsp} [Bootutil] (config : Config) (b : BackEnd bsp) {map : InternalMap bsp}
  {calls : Fin map.flash_map_entry_num × Request → Prop} {client : Prog (flash_map_backend map) ((Int32 × boot_rsp) × Content)}

/-- A part with an internal flash alone. -/
def internalPart (b : BackEnd bsp) : FlashPart := ⟨b.registers,b.State,b.device,b.content⟩

/-- The boot loader of such a part. -/
theorem boots_internal (requests : Requests map calls client) {st : b.State} (ready : b.ready st) (layout : Layout)
    (own_abort : Bool) (garbage : UInt32) (core : Core) : Boots config (internalPart b) own_abort
    (fun a st' => b.ready st' ∧ Explained map client (b.content st,b.failures st) a (b.content st',b.failures st'))
    (fun st' => Untouched map calls (b.content st) (b.content st'))
    (main config layout own_abort bsp (left (I := boot) .Driver_FLASH2_Initialize) garbage
      (boot_go ((onDrivers map client).translate b.drv))) (fun _ _ => False) (core,st) := by
  have judged := client_wp b requests ready
  refine boots_main config (internalPart b) (fun st' => st' = st) (fun _ => boots_elsewhere (wp_now judged)) ?_ rfl layout bsp
    garbage core
  rintro _ rfl
  exact judged

/-- Where the boot loader, after any start and over any outcome of the commands, comes to jump: MCUboot has succeeded and left
    the flash as it is; the vector table, the stack pointer and the handler are those of the image it has chosen; and the
    code behind the jump enters that handler with the RAM areas and the registers wiped and everything else in place. -/
theorem image_entered (requests : Requests map calls client) {layout : Layout} {own_abort : Bool} {garbage : UInt32} {core : Core}
    {st : b.State} (ready : b.ready st) {s' : Core × b.State} {t : List (Event (boot.both b.registers))}
    {reset_handler_addr : UInt32} {next : Empty → Prog (boot.both b.registers) Int32}
    (exec : Exec (hardware config (internalPart b)) (main config layout own_abort bsp (left (I := boot) .Driver_FLASH2_Initialize)
      garbage (boot_go ((onDrivers map client).translate b.drv))) (core,st) t
        (.call (.inl (.boot_jump_to_next_image reset_handler_addr)) next) s') :
    Chosen config (internalPart b)
      (fun a st' => b.ready st' ∧ Explained map client (b.content st,b.failures st) a (b.content st',b.failures st')) s'
        reset_handler_addr ∧
    EntersClean (memory config (internalPart b) s') reset_handler_addr := by
  have judged := boots_internal config b requests ready layout own_abort garbage core
  obtain ⟨_,_,allowed,_⟩ := asks_points judged exec
  exact ⟨allowed _ _ rfl,enters_clean _ _⟩

end

/-! ### A boot -/

/-- A build without log on an ARMv8-M core, with the RAM from 0x20000000 on. -/
def quiet : Config where
  FIH_SUCCESS := 0
  FIH_FAILURE := -1
  IMAGE_F_RAM_LOAD := 0x20
  MCUBOOT_ENCRYPT_RSA := false
  logging := false
  v8M := true
  vt_cpy := 0x20000000
  ram p := decide (0x20000000 ≤ p)
  vt_cpy_ram k _ := decide_eq_true (Nat.le_add_right 0x20000000 k)

/-- Zeros but for the vector table of the image in the primary slot: a stack pointer and a handler. -/
def tabled : Content := copy (copy (fun _ => 0) 0x20400 (wordBytes 0x20008000) 0 4) 0x20404 (wordBytes 0x20501) 0 4

/-- The first sector of the secondary slot is left full of sevens. -/
def spoiled : Content := fill 7 tabled 0x60000 0x800

/-- An MCUboot that erases this sector, reads the stack pointer of the image in the primary slot and takes that image as it is;
    it leaves the RAM full of ones. -/
def takePrimary : Prog (flash_map_backend slots) ((Int32 × boot_rsp) × Content) :=
  .call (secondaryIndex,.flash_area_erase 0 0x800) fun _ =>
    .call (primaryIndex,.flash_area_read 0x400 (fun _ => 0) 4) fun _ => .ret ((0,⟨⟨0,0x400,0⟩,100,0x20000⟩),fun _ => 1)

def backEnd : BackEnd board := .FMC fmcRegisters_proper fmcRegisters_own rfl 0

/-- The part after reset. -/
def reset : Core := ⟨false,false,false,false,fun _ => 0,0,0,0⟩

section
variable {config : Config} {part : FlashPart} {α : Type} {P : Prog (boot.both part.registers) α → Core × part.State → Prop}
  {core : Core} {st : part.State}

theorem reaches_core {c : BootCall} {next : BootCall.Answer c → Prog (boot.both part.registers) α} {a : BootCall.Answer c}
    (told : answered (memory config part (core,st)) c a) (rest : Reaches (hardware config part) (next a) (moved core c,st) P) :
    Reaches (hardware config part) (.call (.inl c) next) (core,st) P := by
  have step : hardware config part (.inl c) (core,st) a (moved core c,st) := ⟨told,rfl⟩
  exact reaches_step step rest

theorem reaches_register {c : part.registers.Call} {next : part.registers.Answer c → Prog (boot.both part.registers) α}
    {a : part.registers.Answer c} {st' : part.State} (took : part.device c st a st')
    (rest : Reaches (hardware config part) (next a) (core,st') P) : Reaches (hardware config part) (.call (.inr c) next) (core,st) P := by
  have step : hardware config part (.inr c) (core,st) a (core,st') := ⟨fun _ => took,rfl⟩
  exact reaches_step step rest

end

theorem reaches_fmc {config : Config} {α : Type} {core : Core} {P : Prog (boot.both registers) α → Core × Failing → Prop}
    {c : FmcCall} {next : FmcAnswer c → Prog (boot.both registers) α} {a : FmcAnswer c} {st st' : Failing}
    (took : failing fmcRegisters board c st a st') (rest : Reaches (hardware config (internalPart backEnd)) (next a) (core,st') P) :
    Reaches (hardware config (internalPart backEnd)) (.call (.inr c) next) (core,st) P :=
  reaches_register took rest

/-- The erase fails, and the image is entered all the same. -/
theorem image_entered_primary : ∃ s' : Core × Failing, s'.2.failures = 1 ∧ s'.2.content = spoiled ∧ s'.1.MSP = 0x20008000 ∧
    Chosen quiet (internalPart backEnd) (fun a (st' : Failing) => st'.Ready ∧
      Explained slots takePrimary (tabled,0) a (st'.content,st'.failures)) s' 0x20501 ∧
    EntersClean (memory quiet (internalPart backEnd) s') 0x20501 := by
  have reached : Reaches (hardware quiet (internalPart backEnd)) (main quiet (Platform.layout .m2351) (own_abort .m2351) board
      (left (I := boot) .Driver_FLASH2_Initialize) 0 (boot_go ((@onDrivers _ slots bootutil _ takePrimary).translate backEnd.drv)))
      (reset,(⟨⟨0,0,0,0,0,0,tabled⟩,false,0,false⟩ : Failing)) fun q s' =>
        s'.2 = (⟨⟨0,0x20400,0x20008000,0,0,0,spoiled⟩,false,1,false⟩ : Failing) ∧ s'.1.MSP = 0x20008000 ∧
          ∃ next, q = .call (.inl (.boot_jump_to_next_image 0x20501)) next := by
    refine reaches_core (a := ()) trivial (reaches_core (a := ()) trivial (reaches_core (a := ()) trivial ?_))
    refine reaches_core (a := ()) trivial (reaches_core (a := ()) trivial (reaches_fmc (a := ()) (@command_stored board _) ?_))
    refine reaches_fmc (a := ()) (@address_stored board _ _) (reaches_fmc (a := ()) (erase_fails (fill_outside 7 _ _ _)) ?_)
    refine reaches_fmc (flag_seen rfl rfl) (reaches_fmc (flag_seen rfl rfl) (reaches_fmc (flag_seen rfl rfl) ?_))
    refine reaches_fmc (a := ()) (@flag_cleared board _) (reaches_fmc (a := ()) rfl (reaches_fmc (a := ()) rfl ?_))
    refine reaches_fmc (a := ()) read_done (reaches_fmc (status_clear rfl rfl) (reaches_fmc (status_clear rfl rfl) ?_))
    refine reaches_fmc (a := wordAt spoiled 0x20400) ⟨rfl,rfl⟩ (reaches_core (a := ()) trivial (reaches_core (a := ()) trivial ?_))
    refine reaches_core (a := (0x20400 : UInt32)) (load_vt_cpy _ _ _ _).symm (reaches_core (a := ()) trivial ?_)
    refine reaches_core (a := ()) trivial (reaches_core (a := (0x20400 : UInt32)) rfl (reaches_core (a := (0x20008000 : UInt32)) rfl ?_))
    refine reaches_core (a := ()) trivial (reaches_core (a := ()) trivial (reaches_core (a := ()) trivial ?_))
    refine reaches_core (a := (0x20400 : UInt32)) rfl (reaches_core (a := (0x20501 : UInt32)) rfl ?_)
    exact reaches_here ⟨rfl,rfl,_,rfl⟩
  obtain ⟨t,_,⟨core,st⟩,exec,left,stack,next,rfl⟩ := reached
  dsimp only at left stack
  subst left
  exact ⟨⟨core,_⟩,rfl,rfl,stack,@image_entered board bootutil quiet backEnd slots (fun _ => True) takePrimary
    ⟨trivial,fun _ => ⟨trivial,fun _ => trivial⟩⟩ (Platform.layout .m2351) (own_abort .m2351) 0 reset _ (fun _ => rfl) _ t 0x20501
    next exec⟩

end NuMicroBoot.BootLoader
