import NuMicroBoot.PageChunks
import NuMicroBoot.SerialChip
import NuMicroBoot.SpiBus
import NuMicroBoot.SpimBus

/-!
The three address bytes behind the opcode of a read, a page program and a sector
erase. The drivers send the low 24 bits of an address, whatever the device size
lets through: the QSPI and the SPIM flash are declared with 32 MiB.
-/

namespace NuMicroBoot.AddressBytes
open NuMicroBoot.Calls NuMicroBoot.Calls.Prog NuMicroBoot.Cells NuMicroBoot.Words NuMicroBoot.Driver
open NuMicroBoot.ExternalDriver NuMicroBoot.ExternalBounds NuMicroBoot.SerialChip NuMicroBoot.SpiBus NuMicroBoot.SpimBus

/-! ### What the chip hears -/

/-- The opcodes that an address follows: read, page program and sector erase. -/
def Addressing (opcode : UInt8) : Prop := opcode = 0x03 ∨ opcode = 0x02 ∨ opcode = 0x20

instance (opcode : UInt8) : Decidable (Addressing opcode) := inferInstanceAs (Decidable (_ ∨ _ ∨ _))

/-- The bytes sent since the last change of the chip select, and the locations selected by the commands so far. -/
structure Heard where
  frame : List UInt8
  located : List Nat

namespace Heard

def hear (s : Heard) (b : UInt8) : Heard where
  frame := s.frame ++ [b]
  located :=
    match s.frame with
    | [opcode,b2,b1] => if Addressing opcode then s.located ++ [Chip.addressOf b2 b1 b] else s.located
    | _ => s.located
/-- The chip select changes. -/
def turned (s : Heard) : Heard := { s with frame := [] }

end Heard

/-- An SPI or QSPI controller with any answers. -/
def onBus : Device bus Heard
  | .SET_SS_LOW, s, _, s' => s' = s.turned
  | .SET_SS_HIGH, s, _, s' => s' = s.turned
  | .WRITE_TX data, s, _, s' => s' = s.hear data.toUInt8
  | _, s, _, s' => s' = s

/-- What the chip has heard, the direction of the data line and the transmit register. -/
structure Line where
  heard : Heard
  dir : Bool
  tx : UInt8

/-- An SPIM controller with any answers; while it reads, the chip may hear anything. -/
def onSpim : Device spim Line
  | .SPIM_SET_SS_EN _, s, _, s' => s' = { s with heard := s.heard.turned }
  | .CTL0_IO_DIR dir, s, _, s' => s' = { s with dir := dir }
  | .TX u8Data, s, _, s' => s' = { s with tx := u8Data }
  | .SPIM_SET_GO, s, _, s' => ∃ b, (s.dir = true → b = s.tx) ∧ s' = { s with heard := s.heard.hear b }
  | _, s, _, s' => s' = s

/-- At most one location has been selected, which is `n`. -/
def Only (n : Nat) (s : Heard) : Prop := s.located <+: [n]

/-- Whatever is answered, the function for the call selects no other location than `n`. -/
def Selects : Variant → Call → Nat → Prop
  | .SPI, c, n => ∀ SystemCoreClock rounds t q s, Exec onBus (spi_drv SystemCoreClock rounds c) ⟨[],[]⟩ t q s →
    Only n s
  | .QSPI, c, n => ∀ SystemCoreClock rounds t q s, Exec onBus (qspi_drv SystemCoreClock rounds c) ⟨[],[]⟩ t q s →
    Only n s
  | .SPIM, c, n => ∀ rounds dir tx t q s, Exec onSpim (spim_drv rounds c) ⟨⟨[],[]⟩,dir,tx⟩ t q s →
    Only n s.heard

/-! ### Chunks of a request -/

/-- The address of a call that has one. -/
def address : Call → Option UInt32
  | .NVT_Read addr _ => some addr
  | .NVT_Program addr _ _ _ => some addr
  | .NVT_Erase addr => some addr
  | .NVT_WaitReady => none

/-- The calls of a trace with an address, in order. -/
def commands (t : List (Event interface)) : List Call := (t.map Event.call).filter fun c => (address c).isSome

/-- Any answers. -/
def Any : Device interface Unit := fun _ _ _ _ => True

/-- Chunk `k` of a request that the driver lets through, its first one or one of a request inside the device. The
    SPIM controller sends the addresses of reads and page programs itself. -/
structure Covered (variant : Variant) (access : Access) (k : Nat) : Prop where
  sends : variant = .SPIM → ∃ addr, access = .EraseSector addr
  passes : Passes (FLASH2_DEV variant).size variant access
  chunk : 256 * k < access.bytes % 2 ^ 32
  inside : k = 0 ∨ (FLASH2_DEV variant).Inside access.addr.toNat access.bytes

/-- The location of chunk `k` as an offset in the device. -/
def offset (variant : Variant) (access : Access) (k : Nat) : Nat :=
  access.addr.toNat - (FLASH2_DEV variant).memory_base.toNat + 256 * k

/-- Whatever is answered, the command for each covered chunk selects its location. -/
def Encodes (variant : Variant) (access : Access) : Prop :=
  ∀ t q k c, Exec Any (access.perform (Driver_FLASH2 variant)) () t q () → (commands t)[k]? = some c →
    Covered variant access k → Selects variant c (offset variant access k)

/-! ### The SPI and the QSPI driver -/

/-- Three bytes hold the low 24 bits. -/
theorem addressOf_mod (addr : UInt32) :
    Chip.addressOf ((addr >>> 16) &&& 0xFF).toUInt8 ((addr >>> 8) &&& 0xFF).toUInt8 (addr &&& 0xFF).toUInt8 =
      addr.toNat % 2 ^ 24 := by
  have high : (addr >>> 16).toNat = addr.toNat / 65536 := Nat.shiftRight_eq_div_pow addr.toNat 16
  have middle : (addr >>> 8).toNat = addr.toNat / 256 := Nat.shiftRight_eq_div_pow addr.toNat 8
  rw [Chip.addressOf,low_byte,low_byte,low_byte,high,middle]
  omega

/-- The frame is past its address, or it does not have one. -/
def Past (s : Heard) : Prop := 4 ≤ s.frame.length ∨ ∃ opcode rest, s.frame = opcode :: rest ∧ ¬ Addressing opcode

theorem hear_past {s : Heard} (past : Past s) (b : UInt8) : (s.hear b).located = s.located ∧ Past (s.hear b) := by
  obtain ⟨frame,located⟩ := s
  rcases past with long | ⟨opcode,rest,rfl,other⟩
  · refine ⟨?_,.inl ?_⟩
    · match frame,long with
      | _ :: _ :: _ :: _ :: _,_ => rfl
    · show 4 ≤ (frame ++ [b]).length
      rw [List.length_append]
      exact Nat.le_add_right_of_le long
  · refine ⟨?_,.inr ⟨opcode,rest ++ [b],rfl,other⟩⟩
    match rest with
    | [] => rfl
    | [_] => rfl
    | [_,_] => exact if_neg other
    | _ :: _ :: _ :: _ => rfl

section
variable {α : Type} {Q : α → Heard → Prop} {n : Nat} {SystemCoreClock : UInt32}

/-- The location `n` has been selected, and the frame selects no other. -/
def Sent (n : Nat) (s : Heard) : Prop := s.located = [n] ∧ Past s

theorem sent_only {s : Heard} (sent : Sent n s) : Only n s := by
  obtain ⟨same,_⟩ := sent
  show s.located <+: [n]
  exact same ▸ List.prefix_refl [n]

theorem sent_hear {s : Heard} (sent : Sent n s) (b : UInt8) : Sent n (s.hear b) := by
  obtain ⟨same,past⟩ := hear_past sent.2 b
  exact ⟨same.trans sent.1,past⟩

theorem wlp_wait {s : Heard} {next : Unit → Prog bus α} (rest : (next ()).Wlp onBus (Only n) Q s) :
    (wait_IS_BUSY SystemCoreClock >>= next).Wlp onBus (Only n) Q s := by
  have now := wlp_now rest
  have loop : ∀ rounds cnt, (busyLoop rounds cnt).Wlp onBus (Only n) (fun _ s' => s' = s) s := by
    intro rounds
    induction rounds with
    | zero => exact fun _ => now
    | succ rounds ih =>
      refine fun cnt => ⟨now,fun busy s' moved => ?_⟩
      cases moved
      exact wlp_ite (fun _ => wlp_ite (fun _ => ⟨now,rfl⟩) fun _ => ih _) fun _ => ⟨now,rfl⟩
  refine wlp_bind (loop _ _) fun _ s' _ same => ?_
  rw [same]
  exact rest

theorem wlp_writeEnable {next : Unit → Prog bus α} (rest : (next ()).Wlp onBus (Only n) Q ⟨[],[]⟩) :
    (writeEnable SystemCoreClock >>= next).Wlp onBus (Only n) Q ⟨[],[]⟩ := by
  have none : ∀ frame, Only n ⟨frame,[]⟩ := fun _ => List.nil_prefix
  have frame : (writeEnable SystemCoreClock).Wlp onBus (Only n) (fun _ s => s = ⟨[],[]⟩) ⟨[],[]⟩ := by
    refine wlp_moves (fun _ _ => id) (none _) fun _ => wlp_moves (fun _ _ => id) (none _) fun _ => wlp_wait ?_
    exact wlp_moves (fun _ _ => id) (none _) fun _ => ⟨none _,rfl⟩
  refine wlp_bind frame fun _ s _ same => ?_
  rw [same]
  exact rest

/-- The opcode opens a frame. -/
theorem wlp_opcode {next : Unit → Prog bus α} {opcode : UInt32}
    (rest : (next ()).Wlp onBus (Only n) Q ⟨[opcode.toUInt8],[]⟩) :
    (SET_SS_LOW >>= fun _ => WRITE_TX opcode >>= next).Wlp onBus (Only n) Q ⟨[],[]⟩ := by
  have none : ∀ frame, Only n ⟨frame,[]⟩ := fun _ => List.nil_prefix
  exact wlp_moves (fun _ _ => id) (none _) fun _ => wlp_moves (fun _ _ => id) (none _) fun _ => rest

theorem wlp_writeAddress {next : Unit → Prog bus α} {addr : UInt32} {opcode : UInt8} (addressing : Addressing opcode)
    (rest : ∀ s, Sent (addr.toNat % 2 ^ 24) s → (next ()).Wlp onBus (Only (addr.toNat % 2 ^ 24)) Q s) :
    (writeAddress addr >>= next).Wlp onBus (Only (addr.toNat % 2 ^ 24)) Q ⟨[opcode],[]⟩ := by
  have none : ∀ frame, Only (addr.toNat % 2 ^ 24) ⟨frame,[]⟩ := fun _ => List.nil_prefix
  refine wlp_moves (fun _ _ => id) (none _) fun _ => wlp_moves (fun _ _ => id) (none _) fun _ => ?_
  refine wlp_moves (fun _ _ => id) (none _) fun _ => rest _ ⟨?_,.inl (Nat.le_refl 4)⟩
  rw [← addressOf_mod]
  exact if_pos addressing

/-! What follows the address selects no other location. -/

theorem wlp_WRITE_TX {next : Unit → Prog bus α} {data : UInt32} {s : Heard} (sent : Sent n s)
    (rest : ∀ s, Sent n s → (next ()).Wlp onBus (Only n) Q s) : (WRITE_TX data >>= next).Wlp onBus (Only n) Q s :=
  wlp_moves (fun _ _ => id) (sent_only sent) fun _ => rest _ (sent_hear sent _)

theorem wlp_dataLoop (len : UInt32) (rounds : Nat) : ∀ (cnt : UInt32) (data : Buffer) {s : Heard}, Sent n s →
    (dataLoop SystemCoreClock len rounds cnt data).Wlp onBus (Only n) (fun _ => Sent n) s := by
  induction rounds with
  | zero => exact fun _ _ _ sent => sent_only sent
  | succ rounds ih =>
    intro cnt data s sent
    refine wlp_ite (fun _ => ?_) fun _ => ⟨sent_only sent,sent⟩
    refine wlp_WRITE_TX sent fun s sent => wlp_wait ?_
    exact wlp_moves (fun _ _ => id) (sent_only sent) fun rx => ih _ _ sent

theorem wlp_bufferLoop (len : UInt32) (buf : Buffer) (p rounds : Nat) : ∀ (i : UInt32) {s : Heard}, Sent n s →
    (bufferLoop len buf p rounds i).Wlp onBus (Only n) (fun _ => Sent n) s := by
  induction rounds with
  | zero => exact fun _ _ sent => sent_only sent
  | succ rounds ih =>
    intro i s sent
    refine wlp_ite (fun _ => ?_) fun _ => ⟨sent_only sent,sent⟩
    exact wlp_WRITE_TX sent fun s sent => ih _ sent

theorem wlp_programLoop (len : UInt32) (buf : Buffer) (p rounds : Nat) : ∀ {s : Heard}, Sent n s →
    (programLoop len buf p rounds).Wlp onBus (Only n) (fun _ _ => True) s := by
  induction rounds with
  | zero => exact fun sent => sent_only sent
  | succ rounds ih =>
    intro s sent
    refine wlp_moves (fun _ _ => id) (sent_only sent) fun full => ?_
    refine wlp_ite (fun _ => ?_) fun _ => ih sent
    exact wlp_bind (wlp_bufferLoop len buf p _ 0 sent) fun _ s _ sent => ih sent

/-- The end of a frame. -/
theorem wlp_SET_SS_HIGH {a : α} {s : Heard} (sent : Sent n s) :
    (SET_SS_HIGH >>= fun _ => .ret a).Wlp onBus (Only n) (fun _ _ => True) s := by
  have now := sent_only sent
  exact wlp_moves (fun _ _ => id) now fun _ => ⟨now,trivial⟩

/-! ### Each function -/

variable {addr len : UInt32}

/-- Both read functions from the address on. -/
theorem wlp_receive : (do
      writeAddress addr
      wait_IS_BUSY SystemCoreClock
      ClearRxFIFO
      let data ← dataLoop SystemCoreClock len (len.toNat + 1) 0 fun _ => 0
      wait_IS_BUSY SystemCoreClock
      SET_SS_HIGH
      .ret ((0 : Int32),data)).Wlp onBus (Only (addr.toNat % 2 ^ 24)) (fun _ _ => True) ⟨[0x03],[]⟩ := by
  refine wlp_writeAddress (.inl rfl) fun s sent => wlp_wait ?_
  refine wlp_moves (fun _ _ => id) (sent_only sent) fun _ => ?_
  refine wlp_bind (wlp_dataLoop len _ 0 _ sent) fun data s _ sent => ?_
  exact wlp_wait (wlp_SET_SS_HIGH sent)

theorem wlp_NVT_NVSPI_Read : (NVT_NVSPI_Read SystemCoreClock addr len).Wlp onBus (Only (addr.toNat % 2 ^ 24))
    (fun _ _ => True) ⟨[],[]⟩ := wlp_opcode wlp_receive

theorem wlp_NVT_NVQSPI_Read : (NVT_NVQSPI_Read SystemCoreClock addr len).Wlp onBus (Only (addr.toNat % 2 ^ 24))
    (fun _ _ => True) ⟨[],[]⟩ := wlp_opcode (wlp_wait wlp_receive)

theorem wlp_programPage (rounds : Nat) (buf : Buffer) (p : Nat) :
    (programPage SystemCoreClock rounds addr len buf p).Wlp onBus (Only (addr.toNat % 2 ^ 24))
      (fun _ _ => True) ⟨[],[]⟩ := by
  refine wlp_writeEnable (wlp_opcode (wlp_writeAddress (.inr (.inl rfl)) fun s sent => ?_))
  exact wlp_programLoop len buf p rounds sent

theorem wlp_eraseSector : (eraseSector SystemCoreClock addr).Wlp onBus (Only (addr.toNat % 2 ^ 24))
    (fun _ _ => True) ⟨[],[]⟩ := by
  refine wlp_writeEnable (wlp_opcode (wlp_writeAddress (.inr (.inr rfl)) fun s sent => wlp_wait ?_))
  exact wlp_moves (fun _ _ => id) (sent_only sent) fun _ => wlp_SET_SS_HIGH sent

end

/-! ### The SPIM driver -/

section
variable {α : Type} {Q : α → Line → Prop} {n : Nat} {L : List Nat} {heard : Heard} {dir : Bool} {tx : UInt8}

def OnlyLine (n : Nat) (s : Line) : Prop := Only n s.heard

theorem wlp_select (on : Bool) {next : Unit → Prog spim α} (now : Only n heard)
    (rest : (next ()).Wlp onSpim (OnlyLine n) Q ⟨heard.turned,dir,tx⟩) :
    (SPIM_SET_SS_EN on >>= next).Wlp onSpim (OnlyLine n) Q ⟨heard,dir,tx⟩ :=
  wlp_moves (fun _ _ => id) now fun _ => rest

theorem wlp_direction {dir' : Bool} {next : Unit → Prog spim α} (now : Only n heard)
    (rest : (next ()).Wlp onSpim (OnlyLine n) Q ⟨heard,dir',tx⟩) :
    (CTL0_IO_DIR dir' >>= next).Wlp onSpim (OnlyLine n) Q ⟨heard,dir,tx⟩ :=
  wlp_moves (fun _ _ => id) now fun _ => rest

theorem wlp_free {s : Line} {next : Unit → Prog spim α} (rest : (next ()).Wlp onSpim (OnlyLine n) Q s) :
    (SPIM_WAIT_FREE >>= next).Wlp onSpim (OnlyLine n) Q s :=
  wlp_moves (fun _ _ => id) (wlp_now rest) fun _ => rest

theorem wlp_IO_Write {u8Data : UInt8} {next : Unit → Prog spim α} (now : Only n heard)
    (rest : (next ()).Wlp onSpim (OnlyLine n) Q ⟨heard.hear u8Data,true,u8Data⟩) :
    (NVT_SPIM_IO_Write u8Data >>= next).Wlp onSpim (OnlyLine n) Q ⟨heard,true,tx⟩ := by
  refine wlp_moves (fun _ _ => id) now fun _ => ⟨now,fun _ s gone => ?_⟩
  -- the byte on the line is the one in the register, which the controller drives
  obtain ⟨b,out,rfl⟩ := gone
  obtain rfl := out rfl
  exact wlp_free rest

variable (part : L <+: [n])
include part

/-- Status reads select nothing. -/
theorem wlp_checkLoop (u8Flag u8Value : UInt8) (rounds : Nat) : ∀ {s : Line}, s.heard.located = L → Past s.heard →
    (checkLoop u8Flag u8Value rounds).Wlp onSpim (OnlyLine n) (fun _ s' => s'.heard.located = L) s := by
  have only : ∀ {s : Line}, s.heard.located = L → OnlyLine n s := fun same => by
    rw [OnlyLine,Only,same]
    exact part
  induction rounds with
  | zero => exact fun same _ => only same
  | succ rounds ih =>
    intro s same past
    refine ⟨only same,fun _ s' gone => ?_⟩
    obtain ⟨b,_,rfl⟩ := gone
    obtain ⟨kept,past'⟩ := hear_past past b
    have same' : (s.heard.hear b).located = L := kept.trans same
    refine wlp_moves (fun _ _ => id) (only same') fun _ => wlp_moves (fun _ _ => id) (only same') fun rx => ?_
    exact wlp_ite (fun _ => ih same' past') fun _ => ⟨only same',same'⟩

theorem wlp_CheckStatus (rounds : Nat) (u8Flag u8Value : UInt8) :
    (SPIFLASH_CheckStatus rounds u8Flag u8Value).Wlp onSpim (OnlyLine n) (fun _ s' => s'.heard = ⟨[],L⟩)
      ⟨⟨[],L⟩,dir,tx⟩ := by
  have quiet : ¬ Addressing OPCODE_RDSR := by decide
  refine wlp_select true part (wlp_direction part (wlp_IO_Write part (wlp_direction part ?_)))
  refine wlp_bind (wlp_checkLoop part u8Flag u8Value rounds rfl (.inr ⟨_,[],rfl,quiet⟩)) fun v s now same => ?_
  obtain ⟨⟨frame,located⟩,dir,tx⟩ := s
  obtain rfl : located = L := same
  exact wlp_select false part ⟨part,rfl⟩

omit part in
theorem wlp_WriteEnable (rounds : Nat) : (SPIFLASH_WriteEnable rounds).Wlp onSpim (OnlyLine n)
    (fun _ s' => s'.heard = ⟨[],[]⟩) ⟨⟨[],[]⟩,dir,tx⟩ := by
  have none : ∀ frame, Only n ⟨frame,[]⟩ := fun _ => List.nil_prefix
  exact wlp_select true (none _) (wlp_direction (none _) (wlp_IO_Write (none _) (wlp_select false (none _)
    (wlp_CheckStatus List.nil_prefix rounds _ _))))

omit part in
theorem wlp_NVT_NVSPIM_Erase (rounds : Nat) (addr : UInt32) : (NVT_NVSPIM_Erase rounds addr).Wlp onSpim
    (OnlyLine (addr.toNat % 2 ^ 24)) (fun _ _ => True) ⟨⟨[],[]⟩,dir,tx⟩ := by
  have none : ∀ frame, Only (addr.toNat % 2 ^ 24) ⟨frame,[]⟩ := fun _ => List.nil_prefix
  refine wlp_free (wlp_bind (wlp_WriteEnable rounds) fun v s now same => ?_)
  obtain ⟨heard,dir,tx⟩ := s
  obtain rfl : heard = ⟨[],[]⟩ := same
  refine wlp_ite (fun _ => ⟨now,trivial⟩) fun _ => ?_
  refine wlp_select true (none _) (wlp_direction (none _) (wlp_IO_Write (none _) (wlp_IO_Write (none _)
    (wlp_IO_Write (none _) (wlp_IO_Write (none _) ?_)))))
  have sent : Only (addr.toNat % 2 ^ 24) ⟨[],[Chip.addressOf ((addr >>> 16) &&& 0xFF).toUInt8
      ((addr >>> 8) &&& 0xFF).toUInt8 (addr &&& 0xFF).toUInt8]⟩ := by
    rw [addressOf_mod]
    exact List.prefix_refl _
  refine wlp_select false sent ?_
  exact wlp_bind (wlp_CheckStatus sent rounds _ _) fun _ s now _ => ⟨now,trivial⟩

end

/-! ### The location a call selects -/

/-- Some execution comes to a state in which exactly `n` has been selected. -/
def Locates {α : Type} (n : Nat) (p : Prog bus α) (s : Heard) : Prop := ∃ t q s', Exec onBus p s t q s' ∧ s'.located = [n]

section
variable {α : Type} {addr : UInt32}

theorem locates_call {c : BusCall} {next : BusAnswer c → Prog bus α} {n : Nat} {s s' : Heard} (a : BusAnswer c)
    (answered : onBus c s a s') (rest : Locates n (next a) s') : Locates n (.call c next) s := by
  obtain ⟨t,q,s'',exec,located⟩ := rest
  exact ⟨_,q,s'',.step answered exec,located⟩

/-- An idle controller is not waited for. -/
theorem locates_wait {SystemCoreClock : UInt32} {next : Unit → Prog bus α} {n : Nat} {s : Heard}
    (rest : Locates n (next ()) s) : Locates n (wait_IS_BUSY SystemCoreClock >>= next) s := by
  obtain ⟨rounds,some⟩ : ∃ rounds, 2 ^ 32 = rounds + 1 := ⟨2 ^ 32 - 1,rfl⟩
  unfold wait_IS_BUSY
  rw [some]
  exact locates_call false rfl rest

theorem locates_writeAddress {next : Unit → Prog bus α} {opcode : UInt8} (addressing : Addressing opcode) :
    Locates (addr.toNat % 2 ^ 24) (writeAddress addr >>= next) ⟨[opcode],[]⟩ := by
  refine locates_call () rfl (locates_call () rfl (locates_call () rfl ⟨_,_,_,.stop _ _,?_⟩))
  rw [← addressOf_mod]
  exact if_pos addressing

variable {SystemCoreClock len : UInt32}

theorem locates_writeEnable {next : Unit → Prog bus α} {n : Nat} (rest : Locates n (next ()) ⟨[],[]⟩) :
    Locates n (writeEnable SystemCoreClock >>= next) ⟨[],[]⟩ := by
  refine locates_call () rfl (locates_call () rfl ?_)
  show Locates n ((wait_IS_BUSY SystemCoreClock >>= fun _ => SET_SS_HIGH) >>= next) _
  rw [bind_bind]
  exact locates_wait (locates_call () rfl rest)

theorem locates_NVT_NVSPI_Read : Locates (addr.toNat % 2 ^ 24) (NVT_NVSPI_Read SystemCoreClock addr len) ⟨[],[]⟩ :=
  locates_call () rfl (locates_call () rfl (locates_writeAddress (.inl rfl)))

theorem locates_NVT_NVQSPI_Read : Locates (addr.toNat % 2 ^ 24) (NVT_NVQSPI_Read SystemCoreClock addr len) ⟨[],[]⟩ :=
  locates_call () rfl (locates_call () rfl (locates_wait (locates_writeAddress (.inl rfl))))

theorem locates_programPage (rounds : Nat) (buf : Buffer) (p : Nat) :
    Locates (addr.toNat % 2 ^ 24) (programPage SystemCoreClock rounds addr len buf p) ⟨[],[]⟩ :=
  locates_writeEnable (locates_call () rfl (locates_call () rfl (locates_writeAddress (.inr (.inl rfl)))))

theorem locates_eraseSector : Locates (addr.toNat % 2 ^ 24) (eraseSector SystemCoreClock addr) ⟨[],[]⟩ :=
  locates_writeEnable (locates_call () rfl (locates_call () rfl (locates_writeAddress (.inr (.inr rfl)))))

/-- An SPIM controller with a chip that is enabled and not busy at every status read. -/
def enabled : Machine spim Line
  | .SPIM_SET_SS_EN _, s => ((),{ s with heard := s.heard.turned })
  | .CTL0_IO_DIR dir, s => ((),{ s with dir := dir })
  | .TX u8Data, s => ((),{ s with tx := u8Data })
  | .SPIM_SET_GO, s => ((),{ s with heard := s.heard.hear s.tx })
  | .SPIM_WAIT_FREE, s => ((),s)
  | .RX, s => (2,s)
  | .DMA_Read _ _, s => (fun _ => 0,s)
  | .DMA_Write _ _ _ _, s => ((),s)

theorem enabled_onSpim (c : SpimCall) (s : Line) (a : SpimAnswer c) (s' : Line) (answered : enabled.device c s a s') :
    onSpim c s a s' := by
  cases c with
  | SPIM_SET_GO =>
    cases answered
    exact ⟨s.tx,fun _ => rfl,rfl⟩
  | _ =>
    cases answered
    rfl

/-- One status read is enough. -/
theorem run_CheckStatus {u8Flag u8Value : UInt8} (seen : (2 : UInt8) &&& u8Flag = u8Value) (L : List Nat) (dir : Bool) (tx : UInt8) :
    (SPIFLASH_CheckStatus 1 u8Flag u8Value).run enabled ⟨⟨[],L⟩,dir,tx⟩ = some (2,⟨⟨[],L⟩,false,OPCODE_RDSR⟩) := by
  have read : ∀ s, (checkLoop u8Flag u8Value 1).run enabled s = some (2,{ s with heard := s.heard.hear s.tx }) := by
    intro s
    have byte : ((2 : UInt32) &&& 0xFF).toUInt8 = 2 := by decide
    show (if ((2 : UInt32) &&& 0xFF).toUInt8 &&& u8Flag ≠ u8Value then Prog.spin else .ret ((2 : UInt32) &&& 0xFF).toUInt8).run
      enabled _ = _
    rw [byte,if_neg (not_not.mpr seen)]
    rfl
  unfold SPIFLASH_CheckStatus
  show (checkLoop u8Flag u8Value 1 >>= fun u8Status => SPIM_SET_SS_EN false >>= fun _ => .ret u8Status).run enabled _ = _
  rw [run_bind_of_eq (read _)]
  rfl

theorem locates_NVT_NVSPIM_Erase : ∃ t q s', Exec onSpim (NVT_NVSPIM_Erase 1 addr) ⟨⟨[],[]⟩,true,0⟩ t q s' ∧
    s'.heard.located = [addr.toNat % 2 ^ 24] := by
  have enable : (SPIFLASH_WriteEnable 1).run enabled ⟨⟨[],[]⟩,true,0⟩ = some (2,⟨⟨[],[]⟩,false,OPCODE_RDSR⟩) :=
    run_CheckStatus (by decide) [] true OPCODE_WREN
  have ran : (NVT_NVSPIM_Erase 1 addr).run enabled ⟨⟨[],[]⟩,true,0⟩ = some (0,⟨⟨[],[Chip.addressOf
      ((addr >>> 16) &&& 0xFF).toUInt8 ((addr >>> 8) &&& 0xFF).toUInt8 (addr &&& 0xFF).toUInt8]⟩,false,OPCODE_RDSR⟩) := by
    unfold NVT_NVSPIM_Erase
    have free : SPIM_WAIT_FREE.run enabled ⟨⟨[],[]⟩,true,0⟩ = some ((),⟨⟨[],[]⟩,true,0⟩) := rfl
    rw [run_bind_of_eq free,run_bind_of_eq enable,if_neg (by decide)]
    show (SPIFLASH_CheckStatus 1 SR_WIP 0 >>= fun _ => .ret 0).run enabled _ = _
    exact run_bind_of_eq (run_CheckStatus (by decide) _ _ _) _
  rw [addressOf_mod] at ran
  obtain ⟨t,exec⟩ := (run_iff_exec _ _ _ _ _).mp ran
  have allowed := exec_mono (fun c s a s' (_ : True) => enabled_onSpim c s a s') exec fun _ _ => trivial
  exact ⟨t,_,_,allowed,rfl⟩

end

section
variable {variant : Variant} {c : Call} {addr : UInt32} {n : Nat}

theorem wlp_drv (SystemCoreClock : UInt32) (rounds : Nat) (here : address c = some addr) :
    (spi_drv SystemCoreClock rounds c).Wlp onBus (Only (addr.toNat % 2 ^ 24)) (fun _ _ => True) ⟨[],[]⟩ ∧
    (qspi_drv SystemCoreClock rounds c).Wlp onBus (Only (addr.toNat % 2 ^ 24)) (fun _ _ => True) ⟨[],[]⟩ := by
  cases c with
  | NVT_Read a len =>
    cases here
    exact ⟨wlp_NVT_NVSPI_Read,wlp_NVT_NVQSPI_Read⟩
  | NVT_Program a len buf p =>
    cases here
    exact ⟨wlp_programPage rounds buf p,wlp_programPage rounds buf p⟩
  | NVT_Erase a =>
    cases here
    exact ⟨wlp_eraseSector,wlp_eraseSector⟩
  | NVT_WaitReady => cases here

theorem locates_drv (SystemCoreClock : UInt32) (rounds : Nat) (here : address c = some addr) :
    Locates (addr.toNat % 2 ^ 24) (spi_drv SystemCoreClock rounds c) ⟨[],[]⟩ ∧
    Locates (addr.toNat % 2 ^ 24) (qspi_drv SystemCoreClock rounds c) ⟨[],[]⟩ := by
  cases c with
  | NVT_Read a len =>
    cases here
    exact ⟨locates_NVT_NVSPI_Read,locates_NVT_NVQSPI_Read⟩
  | NVT_Program a len buf p =>
    cases here
    exact ⟨locates_programPage rounds buf p,locates_programPage rounds buf p⟩
  | NVT_Erase a =>
    cases here
    exact ⟨locates_eraseSector,locates_eraseSector⟩
  | NVT_WaitReady => cases here

/-- The location is the low 24 bits of the address. -/
theorem selects_iff (serial : variant = .SPIM → c = .NVT_Erase addr) (here : address c = some addr) :
    Selects variant c n ↔ n = addr.toNat % 2 ^ 24 := by
  have same : ∀ {s : Heard}, s.located = [addr.toNat % 2 ^ 24] → Only n s → n = addr.toNat % 2 ^ 24 := by
    intro s located only
    rw [Only,located] at only
    exact (List.cons_prefix_cons.mp only).1.symm
  cases variant with
  | SPI =>
    constructor
    · intro selects
      obtain ⟨t,q,s,exec,located⟩ := (locates_drv 0 1 here).1
      exact same located (selects 0 1 t q s exec)
    · rintro rfl SystemCoreClock rounds t q s exec
      exact wlp_exec (wlp_drv SystemCoreClock rounds here).1 exec
  | QSPI =>
    constructor
    · intro selects
      obtain ⟨t,q,s,exec,located⟩ := (locates_drv 0 1 here).2
      exact same located (selects 0 1 t q s exec)
    · rintro rfl SystemCoreClock rounds t q s exec
      exact wlp_exec (wlp_drv SystemCoreClock rounds here).2 exec
  | SPIM =>
    obtain rfl := serial rfl
    constructor
    · intro selects
      obtain ⟨t,q,s,exec,located⟩ := @locates_NVT_NVSPIM_Erase addr
      exact same located (selects 1 true 0 t q s exec)
    · rintro rfl rounds dir tx t q s exec
      exact wlp_exec (J := OnlyLine _) (wlp_NVT_NVSPIM_Erase rounds addr) exec

/-- Two calls select one location exactly when their addresses agree in the low 24 bits. -/
theorem alias_iff {c' : Call} {addr' : UInt32} (serial : variant = .SPIM → c = .NVT_Erase addr) (here : address c = some addr)
    (serial' : variant = .SPIM → c' = .NVT_Erase addr') (there : address c' = some addr') :
    (∃ n, Selects variant c n ∧ Selects variant c' n) ↔ addr.toNat % 2 ^ 24 = addr'.toNat % 2 ^ 24 := by
  constructor
  · rintro ⟨n,first,second⟩
    exact ((selects_iff serial here).mp first).symm.trans ((selects_iff serial' there).mp second)
  · intro same
    exact ⟨_,(selects_iff serial here).mpr rfl,(selects_iff serial' there).mpr same⟩

end

/-! ### The commands of a request -/

/-- The program sends a command of this kind for each chunk of `sz` bytes from `addr` on, in order, waits between them,
    and returns when an answer is not good. -/
inductive Cut {α : Type} (kind : Call → Prop) : (addr sz : UInt32) → Prog interface α → Prop
  | done (addr : UInt32) (r : α) : Cut kind addr 0 (.ret r)
  | command {addr sz : UInt32} {c : Call} {next : Answer c → Prog interface α} {a₀ : Answer c} (good : Answer c → Prop)
      (more : sz ≠ 0) (here : address c = some addr) (proper : kind c) (fine : good a₀)
      (rest : ∀ a, good a → Cut kind (addr + chunk 256 sz) (sz - chunk 256 sz) (next a))
      (stops : ∀ a, ¬ good a → ∃ r, next a = .ret r) : Cut kind addr sz (.call c next)
  | wait {addr sz : UInt32} {next : Int32 → Prog interface α} {a₀ : Int32} (good : Int32 → Prop) (fine : good a₀)
      (rest : ∀ a, good a → Cut kind addr sz (next a)) (stops : ∀ a, ¬ good a → ∃ r, next a = .ret r) :
      Cut kind addr sz (.call .NVT_WaitReady next)

section
variable {α β : Type} {kind : Call → Prop} {addr sz : UInt32}

theorem chunk_less (more : sz ≠ 0) : (sz - chunk 256 sz).toNat < sz.toNat := by
  have fits : (0 : UInt32).toNat + sz.toNat < 2 ^ 32 := by
    rw [UInt32.toNat_zero,Nat.zero_add]
    exact sz.toNat_lt
  obtain ⟨some,_,left⟩ := chunk_step (show (256 : UInt32) ≠ 0 by decide) more fits
  omega

/-- Where something is left behind a chunk, the chunk has 256 bytes. -/
theorem chunk_full (left : 0 < (sz - chunk 256 sz).toNat) : chunk 256 sz = 256 ∧ (sz - chunk 256 sz).toNat = sz.toNat - 256 := by
  unfold chunk at left ⊢
  by_cases whole : sz > 256
  · rw [if_pos whole]
    exact ⟨rfl,toNat_sub_of_le (Nat.le_of_lt (UInt32.lt_iff_toNat_lt.mp whole))⟩
  · rw [if_neg whole,UInt32.sub_self] at left
    exact absurd left (Nat.lt_irrefl 0)

theorem cut_bind {p : Prog interface α} (f : α → β) (cut : Cut kind addr sz p) :
    Cut kind addr sz (p >>= fun a => .ret (f a)) := by
  have stopped : ∀ {q : Prog interface α}, (∃ r, q = .ret r) → ∃ r, (q >>= fun a => Prog.ret (f a)) = .ret r := by
    rintro q ⟨r,rfl⟩
    exact ⟨f r,rfl⟩
  induction cut with
  | done addr r => exact .done addr (f r)
  | command good more here proper fine rest stops ih =>
    exact .command good more here proper fine ih fun a bad => stopped (stops a bad)
  | wait good fine rest stops ih => exact .wait good fine ih fun a bad => stopped (stops a bad)

/-- A check that is passed, before the chunks from the address as the driver computes it. -/
theorem cut_checked {failed : Prop} [Decidable failed] {a : α} {addr' : UInt32} {q : Prog interface α} (passed : ¬ failed)
    (same : addr' = addr) (cut : Cut kind addr' sz q) : Cut kind addr sz (if failed then .ret a else q) := by
  rw [if_neg passed,← same]
  exact cut

theorem commands_cons {c : Call} {a : Answer c} (here : address c = some addr) (t : List (Event interface)) :
    commands (⟨c,a⟩ :: t) = c :: commands t := by
  unfold commands
  rw [List.map_cons,List.filter_cons_of_pos (by rw [here]; rfl)]

theorem stopped {p q : Prog interface α} {t : List (Event interface)} (exec : Exec Any p () t q ()) (ends : ∃ r, p = .ret r) :
    t = [] := by
  obtain ⟨r,rfl⟩ := ends
  exact (exec_ret exec).1

/-- The command for chunk `k` of an execution. -/
theorem cut_exec {p q : Prog interface α} {t : List (Event interface)} {c : Call} (cut : Cut kind addr sz p)
    (exec : Exec Any p () t q ()) {k : Nat} (sent : (commands t)[k]? = some c) :
    kind c ∧ 256 * k < sz.toNat ∧ ∃ a, address c = some a ∧ a.toNat = (addr.toNat + 256 * k) % 2 ^ 32 := by
  have silent : ∀ {k : Nat}, ¬ (commands [])[k]? = some c := fun h => nomatch h
  induction cut generalizing t k with
  | done addr r =>
    obtain ⟨rfl,_,_⟩ := exec_ret exec
    exact (silent sent).elim
  | @command addr sz c' next a₀ good more here proper fine rest stops ih =>
    cases exec with
    | stop => exact (silent sent).elim
    | @step _ _ _ _ _ a t _ _ exec =>
    rw [commands_cons here] at sent
    cases k with
    | zero =>
      cases sent
      refine ⟨proper,Nat.pos_of_ne_zero (ne_zero_iff.mp more),addr,here,?_⟩
      exact (Nat.mod_eq_of_lt addr.toNat_lt).symm
    | succ k =>
      have later : (commands t)[k]? = some c := sent
      by_cases kept : good a
      · obtain ⟨proper',inside,b,there,place⟩ := ih a kept exec later
        obtain ⟨size,left⟩ := chunk_full (Nat.lt_of_le_of_lt (Nat.zero_le _) inside)
        rw [size,UInt32.toNat_add,show (256 : UInt32).toNat = 256 from rfl] at place
        refine ⟨proper',by omega,b,there,?_⟩
        rw [place]
        omega
      · rw [stopped exec (stops a kept)] at later
        exact (silent later).elim
  | @wait addr sz next a₀ good fine rest stops ih =>
    cases exec with
    | stop => exact (silent sent).elim
    | @step _ _ _ _ _ a t _ _ exec =>
    have later : (commands t)[k]? = some c := sent
    by_cases kept : good a
    · exact ih a kept exec later
    · rw [stopped exec (stops a kept)] at later
      exact (silent later).elim

/-- Some execution comes to the command for each chunk. -/
theorem cut_reaches {p : Prog interface α} (cut : Cut kind addr sz p) {k : Nat} (inside : 256 * k < sz.toNat) :
    ∃ t q c, Exec Any p () t q () ∧ (commands t)[k]? = some c := by
  induction cut generalizing k with
  | done addr r => exact absurd inside (Nat.not_lt_zero _)
  | @command addr sz c next a₀ good more here proper fine rest stops ih =>
    cases k with
    | zero =>
      have first : Exec Any (.call c next) () [⟨c,a₀⟩] (next a₀) () := .step trivial (.stop _ _)
      exact ⟨_,_,c,first,by rw [commands_cons here]; rfl⟩
    | succ k =>
      have whole : sz > 256 := UInt32.lt_iff_toNat_lt.mpr (by rw [show (256 : UInt32).toNat = 256 from rfl]; omega)
      have size : chunk 256 sz = 256 := if_pos whole
      have left : (sz - chunk 256 sz).toNat = sz.toNat - 256 := by
        rw [size]
        exact toNat_sub_of_le (Nat.le_of_lt (UInt32.lt_iff_toNat_lt.mp whole))
      obtain ⟨t,q,c',exec,sent⟩ := ih a₀ fine (k := k) (by omega)
      exact ⟨_,q,c',.step trivial exec,by rw [commands_cons here]; exact sent⟩
  | @wait addr sz next a₀ good fine rest stops ih =>
    obtain ⟨t,q,c,exec,sent⟩ := ih a₀ fine inside
    exact ⟨⟨.NVT_WaitReady,a₀⟩ :: t,q,c,.step trivial exec,sent⟩

end

/-! ### The drivers -/

section
variable {kind : Call → Prop} (every : ∀ c, kind c)
include every

theorem readChunks_cut (rounds : Nat) : ∀ (addr : UInt32) (buffer : Buffer) (data : Nat) (sz : UInt32), sz.toNat < rounds →
    Cut kind addr sz (readChunks 256 rounds addr buffer data sz) := by
  induction rounds with
  | zero => exact fun _ _ _ _ enough => absurd enough (Nat.not_lt_zero _)
  | succ rounds ih =>
    intro addr buffer data sz enough
    unfold readChunks
    by_cases more : sz ≠ 0
    · rw [if_pos more]
      have ok : ((0 : Int32),(fun _ => 0 : Buffer)).1 = 0 := rfl
      refine .command (fun a => a.1 = 0) more rfl (every _) ok (fun a good => ?_) fun a bad => ⟨_,if_pos bad⟩
      show Cut kind _ _ (if a.1 ≠ 0 then _ else _)
      rw [if_neg (not_not.mpr good)]
      exact ih _ _ _ _ (Nat.lt_of_lt_of_le (chunk_less more) (Nat.le_of_lt_succ enough))
    · rw [if_neg more,not_not.mp more]
      exact .done addr _

theorem programChunks_cut (rounds : Nat) : ∀ (addr : UInt32) (buffer : Buffer) (data : Nat) (sz : UInt32), sz.toNat < rounds →
    Cut kind addr sz (programChunks 256 rounds addr buffer data sz) := by
  induction rounds with
  | zero => exact fun _ _ _ _ enough => absurd enough (Nat.not_lt_zero _)
  | succ rounds ih =>
    intro addr buffer data sz enough
    by_cases more : sz ≠ 0
    · rw [PageChunks.programChunks_round more]
      have ok : (0 : Int32) = 0 := rfl
      have ready : ¬ (0 : Int32) < 0 := by decide
      refine .command (fun r => r = (0 : Int32)) more rfl (every _) ok (fun r good => ?_) fun r bad => ⟨_,if_pos bad⟩
      rw [if_neg (not_not.mpr good)]
      refine .wait (fun r => ¬ r < (0 : Int32)) ready (fun r good => ?_) fun r bad => ⟨_,if_pos (not_not.mp bad)⟩
      rw [if_neg good]
      exact ih _ _ _ _ (Nat.lt_of_lt_of_le (chunk_less more) (Nat.le_of_lt_succ enough))
    · unfold programChunks
      rw [if_neg more,not_not.mp more]
      exact .done addr _

end

/-- An erase is one command. -/
theorem erase_cut {kind : Call → Prop} {addr : UInt32} {next : Int32 → Prog interface Int32} (proper : kind (.NVT_Erase addr))
    (rest : ∀ addr, Cut kind addr 0 (next 0)) (stops : ∀ r, ¬ r = 0 → ∃ rc, next r = .ret rc) :
    Cut kind addr 1 (.call (.NVT_Erase addr) next) := by
  have one : (1 : UInt32) ≠ 0 := by decide
  have ok : (0 : Int32) = 0 := rfl
  refine .command (fun r => r = (0 : Int32)) one rfl proper ok ?_ stops
  rintro r rfl
  exact rest _

/-- The erase of the SPI and the QSPI driver, with its wait. -/
theorem sector_cut {kind : Call → Prop} {addr : UInt32} (proper : kind (.NVT_Erase addr)) :
    Cut kind addr 1 (.call (.NVT_Erase addr) fun r =>
      if r ≠ (0 : Int32) then .ret ARM_DRIVER_ERROR else .call .NVT_WaitReady fun r =>
        if r < (0 : Int32) then .ret ARM_DRIVER_ERROR else .ret ARM_DRIVER_OK) := by
  have ready : ¬ (0 : Int32) < 0 := by decide
  refine erase_cut proper (fun addr => ?_) fun r bad => ⟨_,if_pos bad⟩
  refine .wait (fun r => ¬ r < (0 : Int32)) ready (fun r good => ?_) fun r bad => ⟨_,if_pos (not_not.mp bad)⟩
  rw [if_neg good]
  exact .done addr _

/-- A sector for the SPIM controller, anything for the others. -/
def Serial (variant : Variant) (c : Call) : Prop := variant = .SPIM → ∃ addr, c = .NVT_Erase addr

theorem erase_of {c : Call} {addr : UInt32} (here : address c = some addr) (erase : ∃ a, c = .NVT_Erase a) : c = .NVT_Erase addr := by
  obtain ⟨a,rfl⟩ := erase
  cases here
  rfl

/-- The bytes of the request as the driver counts them. -/
def Counted (access : Access) (sz : UInt32) : Prop := sz.toNat = access.bytes % 2 ^ 32

theorem perform_cut {variant : Variant} {access : Access} (sends : variant = .SPIM → ∃ addr, access = .EraseSector addr)
    (passes : Passes (FLASH2_DEV variant).size variant access) :
    ∃ sz, Counted access sz ∧ Cut (Serial variant) access.addr sz (access.perform (Driver_FLASH2 variant)) := by
  have valid : access.addr.toNat < (FLASH2_DEV variant).size → ¬ is_range_valid_internal (FLASH2_DEV variant) access.addr ≠ 0 :=
    fun inside => not_not.mpr ((valid_iff variant access.addr).mpr inside)
  have words : ∀ cnt : UInt32, (cnt * data_width_byte DriverCapabilities.data_width).toNat = 4 * cnt.toNat % 2 ^ 32 := by
    intro cnt
    rw [data_width_byte_driver,UInt32.toNat_mul,Nat.mul_comm]
    rfl
  have every : variant ≠ .SPIM → ∀ c, Serial variant c := fun other _ same => absurd same other
  cases variant with
  | SPI | QSPI =>
    cases access with
    | ReadData addr data p cnt =>
      refine ⟨_,words cnt,cut_bind _ (cut_checked (valid passes) (UInt32.sub_zero addr) ?_)⟩
      exact readChunks_cut (every nofun) _ _ _ _ _ (Nat.lt_succ_self _)
    | ProgramData addr data p cnt =>
      refine ⟨_,words cnt,cut_checked (valid passes) (UInt32.sub_zero addr) ?_⟩
      exact programChunks_cut (every nofun) _ _ _ _ _ (Nat.lt_succ_self _)
    | EraseSector addr => exact ⟨1,rfl,cut_checked (valid passes) (UInt32.sub_zero addr) (sector_cut fun _ => ⟨_,rfl⟩)⟩
  | SPIM =>
    obtain ⟨addr,rfl⟩ := sends rfl
    have through := mt (spim_erase_check_iff addr).mp (not_not.mpr passes)
    refine ⟨1,rfl,cut_checked through (UInt32.sub_zero addr) ?_⟩
    exact erase_cut (fun _ => ⟨_,rfl⟩) (fun addr => .done addr _) fun r bad => ⟨_,if_pos bad⟩

/-! ### The condition -/

section
variable {variant : Variant} {access : Access}

theorem offset_eq (k : Nat) : offset variant access k = access.addr.toNat + 256 * k := by
  have base : (FLASH2_DEV variant).memory_base.toNat = 0 := by cases variant <;> rfl
  rw [offset,base,Nat.sub_zero]

theorem encodes_of_below (below : ∀ k, Covered variant access k → offset variant access k < 2 ^ 24) : Encodes variant access := by
  intro t q k c exec sent covered
  obtain ⟨sz,counted,cut⟩ := perform_cut covered.sends covered.passes
  obtain ⟨serial,_,a,here,value⟩ := cut_exec cut exec sent
  refine (selects_iff (fun same => erase_of here (serial same)) here).mpr ?_
  have small := below k covered
  rw [offset_eq] at small ⊢
  omega

/-- The standard SPI flash, of 4 MiB, is addressed as it should be. -/
theorem spi_encodes (access : Access) : Encodes .SPI access := by
  refine encodes_of_below fun k covered => ?_
  have size : (FLASH2_DEV .SPI).size = 0x400000 := rfl
  have first : access.addr.toNat < (FLASH2_DEV .SPI).size := covered.passes
  have part := covered.chunk
  rw [offset_eq]
  rcases covered.inside with rfl | inside
  · omega
  · rw [inside_iff] at inside
    omega

end

/-- Every covered chunk is sent to its own location exactly when all of them are below 16 MiB. -/
theorem encodes_iff (variant : Variant) (access : Access) :
    Encodes variant access ↔ ∀ k, Covered variant access k → offset variant access k < 2 ^ 24 := by
  constructor
  · intro encodes k covered
    obtain ⟨sz,counted,cut⟩ := perform_cut covered.sends covered.passes
    obtain ⟨t,q,c,exec,sent⟩ := cut_reaches cut (k := k) (by rw [counted]; exact covered.chunk)
    obtain ⟨serial,_,a,here,_⟩ := cut_exec cut exec sent
    have selects := (selects_iff (fun same => erase_of here (serial same)) here).mp (encodes t q k c exec sent covered)
    rw [selects]
    exact Nat.mod_lt _ (by decide)
  · exact encodes_of_below

/-- An erase at 16 MiB of the QSPI flash goes to its first sector. -/
theorem not_encodes_upper : ¬ Encodes .QSPI (.EraseSector 0x1000000) ∧
    ∃ n, Selects .QSPI (.NVT_Erase 0x1000000) n ∧ Selects .QSPI (.NVT_Erase 0) n := by
  refine ⟨fun encodes => ?_,(alias_iff (fun _ => rfl) rfl (fun _ => rfl) rfl).mpr rfl⟩
  have passes : (0x1000000 : UInt32).toNat < (FLASH2_DEV .QSPI).size := by decide
  have covered : Covered .QSPI (.EraseSector 0x1000000) 0 := ⟨nofun,passes,by decide,.inl rfl⟩
  have made : Exec Any (Access.perform (Driver_FLASH2 .QSPI) (.EraseSector 0x1000000)) () [⟨.NVT_Erase 0x1000000,(0 : Int32)⟩] _ () :=
    .step trivial (.stop _ _)
  have low : 0x1000000 = (0x1000000 : UInt32).toNat % 2 ^ 24 :=
    (selects_iff (fun _ => rfl) rfl).mp (encodes _ _ 0 _ made rfl covered)
  exact absurd low (by decide)

end NuMicroBoot.AddressBytes
