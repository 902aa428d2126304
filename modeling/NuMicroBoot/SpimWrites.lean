import NuMicroBoot.PageChunks
import NuMicroBoot.Simulation
import NuMicroBoot.SpimPort

/-!
The page program of `spim_drv.c` on a controller whose chip stores what a DMA
write sends it, and the NOR flash that the functions of the driver amount to.
-/

namespace NuMicroBoot.SpimWrites
open NuMicroBoot.Calls NuMicroBoot.Calls.Prog NuMicroBoot.Cells NuMicroBoot.Words NuMicroBoot.Driver NuMicroBoot.ExternalDriver
open NuMicroBoot.PageChunks NuMicroBoot.SerialFlash NuMicroBoot.SerialChip NuMicroBoot.SpimBus NuMicroBoot.SpimPort NuMicroBoot.Simulation

/-! ### The controller -/

/-- The frame of a DMA write. -/
def pageProgram (u32Addr u32Size : UInt32) (pu8Buf : Buffer) (p : Nat) : List UInt8 :=
  0x02 :: ((u32Addr >>> 16) &&& 0xFF).toUInt8 :: ((u32Addr >>> 8) &&& 0xFF).toUInt8 :: (u32Addr &&& 0xFF).toUInt8 ::
    (List.range u32Size.toNat).map fun k => pu8Buf (p + k)

/-- What an idle chip does at the end of a frame. 0x02 programs one to 256 bytes, which run round in the page of the
    address, directly after 0x06; 0x9F asks for the ID and leaves the chip as it is. -/
def Stored (type : ChipType) (c c' : Chip) : Prop :=
  match c.frame with
  | 0x02 :: a :: b :: d :: bytes =>
    if c.enabled = true ∧ 0 < bytes.length ∧ bytes.length ≤ 256 then
      ∃ n, type.lasts n ∧ c' =
        { c.released with
          memory := storeBytes c.memory (Chip.addressOf a b d) (fun k => bytes.getD k 0) bytes.length
          enabled := false
          busy := n }
    else c.Executed type c'
  | 0x9F :: _ => c' = c.released
  | _ => c.Executed type c'

/-- The end of a frame. -/
def Ended (type : ChipType) (c c' : Chip) : Prop := if c.selected ∧ c.busy = 0 then Stored type c c' else c' = c.released

/-- A DMA write sends its frame to an idle chip. The bits of the status that are neither busy nor the latch, such as block
    protection, are those of `other`. -/
def programming (type : ChipType) (other : UInt8) : Device spim Spim
  | .SPIM_SET_SS_EN false, s, _, s' => ∃ chip, Ended type s.chip chip ∧ s' = { s with chip := chip }
  | .SPIM_SET_GO, s, a, s' => SpimPort.device type .SPIM_SET_GO s a s' ∧
    (s.dir = some false → s.chip.frame.head? = some 0x05 → s'.rx &&& 0xFC = other &&& 0xFC)
  | .DMA_Write u32Addr u32Size pu8Buf p, s, _, s' =>
    s.chip.selected = true → s.chip.frame = [] → s.chip.busy = 0 →
      s' = { s with
        chip := { s.chip with frame := pageProgram u32Addr u32Size pu8Buf p, sent := s.chip.sent ++ [(0x02,false)] }
        dir := none }
  | c, s, a, s' => SpimPort.device type c s a s'

theorem stored_executed {type : ChipType} {c c' : Chip} (stored : Stored type c c') : c.Executed type c' := by
  obtain ⟨M,en,n,sel,frame,sent⟩ := c
  unfold Stored at stored
  split at stored
  · next a b d bytes same =>
    cases same
    split_ifs at stored
    · obtain ⟨_,_,rfl⟩ := stored
      rfl
    · exact stored
  · next bytes same =>
    cases same
    obtain rfl := stored
    rfl
  · exact stored

theorem ended_deselected {type : ChipType} {c c' : Chip} (ended : Ended type c c') : c.Deselected type c' := by
  unfold Ended at ended
  unfold Chip.Deselected
  split_ifs at ended ⊢
  · exact stored_executed ended
  · exact ended

/-- The controller does nothing that the one without page programs does not. -/
theorem programming_fewer {type : ChipType} {other : UInt8} (c : SpimCall) (s : Spim) (a : SpimAnswer c) (s' : Spim)
    (answered : programming type other c s a s') : SpimPort.device type c s a s' := by
  cases c with
  | SPIM_SET_SS_EN on =>
    cases on with
    | true => exact answered
    | false =>
      obtain ⟨chip,ended,same⟩ := answered
      exact ⟨chip,ended_deselected ended,same⟩
  | CTL0_IO_DIR dir => exact answered
  | TX u8Data => exact answered
  | SPIM_SET_GO => exact answered.1
  | SPIM_WAIT_FREE => exact answered
  | RX => exact answered
  | DMA_Read u32Addr u32Size => exact answered
  | DMA_Write u32Addr u32Size pu8Buf p => trivial

instance (type : ChipType) (other : UInt8) :
    Controls type (fun v => v &&& 0xFC = other &&& 0xFC) (programming type other) :=
  ⟨programming_fewer,fun _ _ _ answered => answered.2⟩

/-! ### Answers of the controller -/

/-- The low bits of a status byte, and the others. -/
theorem low_shown {flags other m : UInt8} (low : 0xFC &&& m = 0) : (flags ||| other &&& 0xFC) &&& m = flags &&& m := by
  rw [byte_or_and,UInt8.and_assoc,low,UInt8.and_zero,UInt8.or_zero]
theorem high_shown {flags other : UInt8} (low : flags &&& 0xFC = 0) : (flags ||| other &&& 0xFC) &&& 0xFC = other &&& 0xFC := by
  rw [byte_or_and,low,UInt8.and_assoc,UInt8.and_self,UInt8.zero_or]

theorem shown_exists (c : Chip) (other : UInt8) :
    ∃ answer, c.Answers answer ∧ (c.frame.head? = some 0x05 → answer &&& 0xFC = other &&& 0xFC) := by
  obtain ⟨M,en,n,sel,frame,sent⟩ := c
  by_cases status : frame.head? = some 0x05
  · obtain ⟨bs,rfl⟩ : ∃ bs, frame = 0x05 :: bs := by
      cases frame with
      | nil => cases status
      | cons b bs => exact ⟨bs,by rw [Option.some.inj status]⟩
    by_cases idle : n = 0
    · subst idle
      cases en
      · exact ⟨0 ||| other &&& 0xFC,⟨low_shown rfl,fun _ => low_shown rfl⟩,fun _ => high_shown rfl⟩
      · exact ⟨2 ||| other &&& 0xFC,⟨low_shown rfl,fun _ => low_shown rfl⟩,fun _ => high_shown rfl⟩
    · refine ⟨1 ||| other &&& 0xFC,⟨?_,fun busy => absurd busy idle⟩,fun _ => high_shown rfl⟩
      exact (low_shown rfl).trans (if_neg idle).symm
  · obtain ⟨answer,answers⟩ := answers_exists ⟨M,en,n,sel,frame,sent⟩
    exact ⟨answer,answers,fun other => absurd other status⟩

/-- Where a command can end at all, so does every frame. -/
theorem ended_exists {type : ChipType} (ends : ∃ n, type.lasts n) (c : Chip) : ∃ c', Ended type c c' := by
  obtain ⟨c',deselected⟩ := deselected_exists ends c
  obtain ⟨n,lasts⟩ := ends
  unfold Chip.Deselected at deselected
  unfold Ended
  split_ifs at deselected ⊢
  · unfold Stored
    split
    · split_ifs
      · exact ⟨_,n,lasts,rfl⟩
      · exact ⟨c',deselected⟩
    · exact ⟨_,rfl⟩
    · exact ⟨c',deselected⟩
  · exact ⟨c',deselected⟩

/-! ### A page program -/

section
variable {type : ChipType} {α : Type} {Q : α → Spim → Prop} {K : (Nat → UInt8) → Prop} {M : Nat → UInt8} {en dir : Bool}
  {n : Nat} {frame bs : List UInt8} {sent : List (UInt8 × Bool)} {tx rx : UInt8}

theorem storeBytes_congr {a n : Nat} {bytes bytes' : Nat → UInt8} (same : ∀ k < n, bytes k = bytes' k) :
    storeBytes M a bytes n = storeBytes M a bytes' n := by
  induction n with
  | zero => rfl
  | succ n ih => rw [storeBytes,storeBytes,ih fun k inside => same k (by omega),same n (by omega)]

/-- The frame of a DMA write, sent to an enabled chip, stores the bytes of the buffer in the page. -/
theorem ended_program {addr size : UInt32} {buf : Buffer} {p : Nat} {c : Chip} (inside : addr.toNat < 2 ^ 24)
    (positive : 0 < size.toNat) (short : size.toNat ≤ 256)
    (ended : Ended type ⟨M,true,0,true,pageProgram addr size buf p,sent⟩ c) :
    ∃ n, type.lasts n ∧ c = ⟨store M ⟨addr.toNat,size.toNat,fun k => buf (p + k)⟩,false,n,false,[],sent⟩ := by
  have length : ((List.range size.toNat).map fun k => buf (p + k)).length = size.toNat := by
    rw [List.length_map,List.length_range]
  have stored := (if_pos ⟨rfl,rfl⟩).mp ended
  obtain ⟨n,possible,rfl⟩ := (if_pos (by rw [length]; exact ⟨rfl,positive,short⟩)).mp stored
  refine ⟨n,possible,?_⟩
  dsimp only
  rw [length,addressOf_bytes inside]
  have bytes : storeBytes M addr.toNat (fun k => ((List.range size.toNat).map fun k => buf (p + k)).getD k 0) size.toNat =
      store M ⟨addr.toNat,size.toNat,fun k => buf (p + k)⟩ := by
    refine storeBytes_congr fun k inside => ?_
    simp [List.getD_eq_getElem?_getD,inside]
  rw [bytes]
  rfl

/-- A status byte without any of its bits. -/
theorem status_done {v : UInt8} (wip : v &&& 1 = 0) (wel : v &&& 2 = 0) (plain : v &&& 0xFC = 0) : v = 0 := by
  have split : v &&& 0xFF = v &&& 1 ||| (v &&& 2 ||| v &&& 0xFC) := by
    rw [show (0xFF : UInt8) = 1 ||| (2 ||| 0xFC) from rfl]
    apply UInt8.toBitVec_inj.mp
    simp only [UInt8.toBitVec_and,UInt8.toBitVec_or]
    rw [BitVec.and_or_distrib_left,BitVec.and_or_distrib_left]
  have whole : v &&& 0xFF = v := by
    apply UInt8.toBitVec_inj.mp
    exact BitVec.and_allOnes
  rw [← whole,split,wip,wel,plain]
  rfl

/-- A page program has stored its bytes and waited until the chip is idle, whose status must have no other bits. -/
theorem wp_NVT_NVSPIM_Program {other : UInt8} (plain : other &&& 0xFC = 0) {rounds : Nat} (keeps : type.keeps = true)
    (some : 0 < rounds) (lasts : ∀ n, type.lasts n → n < rounds) {s : Spim} (free : Free s) {addr size : UInt32}
    (inside : addr.toNat < 2 ^ 24) (positive : 0 < size.toNat) (short : size.toNat ≤ 256) (buf : Buffer) (p : Nat)
    (kept : K s.chip.memory) (after : K (store s.chip.memory ⟨addr.toNat,size.toNat,fun k => buf (p + k)⟩)) :
    (NVT_NVSPIM_Program rounds addr size buf p).Wp (programming type other) (Keeps K) (fun rc s' => rc = 0 ∧ Free s' ∧
      s'.chip.memory = store s.chip.memory ⟨addr.toNat,size.toNat,fun k => buf (p + k)⟩) s := by
  refine wp_bind (wp_WriteEnable keeps some free kept) fun v s₁ _ enabled => ?_
  obtain ⟨told,free₁,memory,latch⟩ := enabled
  rw [if_neg told]
  obtain ⟨⟨M,en,n,_,_,sent⟩,dir,tx,rx⟩ := s₁
  obtain ⟨rfl,rfl,rfl⟩ := free₁
  obtain rfl : en = true := latch
  have memory : M = s.chip.memory := memory
  rw [← memory] at kept after ⊢
  refine wp_moves (fun _ _ => id) kept fun _ => wp_moves (fun _ _ sends => sends rfl rfl rfl) kept fun _ => ⟨kept,fun _ s₂ left => ?_⟩
  obtain ⟨chip,ended,rfl⟩ := left
  obtain ⟨n,possible,rfl⟩ := ended_program inside positive short ended
  show (SPIFLASH_CheckStatus rounds SR_WIP 0 >>= fun u8Status => if u8Status ≠ 0 then .ret 1 else .ret 0 : Prog spim Int32).Wp _ _ _ _
  refine wp_bind (wp_CheckStatus after fun _ _ _ => wp_checkIdle after rounds (lasts n possible)) fun v s' now checked => ?_
  obtain ⟨⟨wip,wel,shown⟩,free',memory',_⟩ := checked
  rw [status_done wip wel (shown.trans plain),if_neg (by decide)]
  exact ⟨now,rfl,free',memory'⟩

end

/-! ### The NOR flash -/

/-- Memory with 24-bit addresses that is read in runs of bytes, programmed inside a page and erased in sectors of 4 KiB.
    No memory is left where a function is used in a way that is not explained here. -/
def Nor : Device interface (Option (Nat → UInt8))
  | .NVT_Read addr len, some M, a, t =>
    if addr.toNat + len.toNat ≤ 2 ^ 24 then a.1 = 0 ∧ (∀ k < len.toNat, a.2 k = M (addr.toNat + k)) ∧ t = some M else t = none
  | .NVT_Program addr len buf p, some M, a, t =>
    if addr.toNat < 2 ^ 24 ∧ 0 < len.toNat ∧ len.toNat ≤ 256 then
      a = (0 : Int32) ∧ t = some (store M ⟨addr.toNat,len.toNat,fun k => buf (p + k)⟩)
    else t = none
  | .NVT_Erase addr, some M, a, t =>
    if addr.toNat < 2 ^ 24 then a = (0 : Int32) ∧ t = some (fill 0xFF M (sectorStart addr.toNat) 4096) else t = none
  | .NVT_WaitReady, some M, a, t => a = (0 : Int32) ∧ t = some M
  | _, none, _, t => t = none

/-- There is a memory, and it keeps this property. -/
def Left (K : (Nat → UInt8) → Prop) (t : Option (Nat → UInt8)) : Prop := ∃ M, t = some M ∧ K M

theorem left_some {K : (Nat → UInt8) → Prop} {M : Nat → UInt8} : Left K (some M) ↔ K M := by
  refine ⟨?_,fun kept => ⟨M,rfl,kept⟩⟩
  rintro ⟨_,same,kept⟩
  rwa [Option.some.inj same]

/-- Between two calls the chip is free, and holds the memory. -/
def Holds (s : Spim) (t : Option (Nat → UInt8)) : Prop := Free s ∧ t = some s.chip.memory

/-- `spim_drv.c` makes a NOR flash of the controller, where no status read resets the write enable latch, the status has no
    other bits and no command outlasts a status check. What every outcome of a function keeps holds at every point of it. -/
theorem spim_simulates {type : ChipType} {other : UInt8} {rounds : Nat} (keeps : type.keeps = true) (plain : other &&& 0xFC = 0)
    (some_ : 0 < rounds) (lasts : ∀ n, type.lasts n → n < rounds) (K : (Nat → UInt8) → Prop) :
    Simulates (fun s t => Holds s t ∧ Left K t) Nor (Left K) (programming type other) (Keeps K) (spim_drv rounds) := by
  have good : ∀ s t, Holds s t ∧ Left K t → Keeps K s := by
    rintro s _ ⟨⟨_,rfl⟩,here⟩
    exact left_some.mp here
  -- an outcome that loses the memory is not one that keeps it
  have lost : ¬ Left K none := fun left => nomatch left
  refine ⟨good,?_⟩
  rintro c s _ ⟨⟨free,rfl⟩,here⟩ explained
  have kept : K s.chip.memory := good s _ ⟨⟨free,rfl⟩,here⟩
  cases c with
  | NVT_Read addr len =>
    have used : addr.toNat + len.toNat ≤ 2 ^ 24 := by
      by_contra misused
      exact lost (explained (0,fun _ => 0) none ((if_neg misused).mpr rfl))
    refine wp_mono (wp_NVT_NVSPIM_Read free used kept) fun r s' read => ?_
    obtain ⟨status,bytes,free',memory⟩ := read
    exact ⟨_,(if_pos used).mpr ⟨status,bytes,rfl⟩,⟨free',by rw [memory]⟩,here⟩
  | NVT_Program addr len buf p =>
    have used : addr.toNat < 2 ^ 24 ∧ 0 < len.toNat ∧ len.toNat ≤ 256 := by
      by_contra misused
      exact lost (explained (0 : Int32) none ((if_neg misused).mpr rfl))
    have after := left_some.mp (explained (0 : Int32) _ ((if_pos used).mpr ⟨rfl,rfl⟩))
    refine wp_mono (wp_NVT_NVSPIM_Program plain keeps some_ lasts free used.1 used.2.1 used.2.2 buf p kept after) fun rc s' programmed => ?_
    obtain ⟨status,free',memory⟩ := programmed
    exact ⟨_,(if_pos used).mpr ⟨status,rfl⟩,⟨free',by rw [memory]⟩,left_some.mpr after⟩
  | NVT_Erase addr =>
    have used : addr.toNat < 2 ^ 24 := by
      by_contra misused
      exact lost (explained (0 : Int32) none ((if_neg misused).mpr rfl))
    have after := left_some.mp (explained (0 : Int32) _ ((if_pos used).mpr ⟨rfl,rfl⟩))
    refine wp_mono (wp_NVT_NVSPIM_Erase keeps some_ lasts free used kept after) fun rc s' erased => ?_
    obtain ⟨status,free',memory⟩ := erased
    exact ⟨_,(if_pos used).mpr ⟨status,rfl⟩,⟨free',by rw [memory]⟩,left_some.mpr after⟩
  | NVT_WaitReady => exact ⟨kept,_,⟨rfl,rfl⟩,⟨free,rfl⟩,here⟩

end NuMicroBoot.SpimWrites
