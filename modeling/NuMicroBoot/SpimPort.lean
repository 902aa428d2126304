import NuMicroBoot.SerialChip
import NuMicroBoot.SpimBus

/-!
The functions of `spim_drv.c` on a controller with a chip whose write enable
latch outlasts status reads, as the driver reads the status between the write
enable command and the erase.
-/

namespace NuMicroBoot.SpimPort
open NuMicroBoot.Calls NuMicroBoot.Calls.Prog NuMicroBoot.Cells NuMicroBoot.Words NuMicroBoot.Driver
open NuMicroBoot.ExternalDriver NuMicroBoot.SerialFlash NuMicroBoot.SerialChip NuMicroBoot.SpimBus

/-! ### The controller -/

/-- The chip, the direction of the data line (`true` for output) unless the controller is set for DMA, and the two data
    registers. -/
structure Spim where
  chip : Chip
  dir : Option Bool
  tx : UInt8
  rx : UInt8

/-- A DMA read delivers the memory of an idle chip. What a DMA write does is not explained here, nor another transfer
    behind DMA before the direction is set. -/
def device (type : ChipType) : Device spim Spim
  | .SPIM_SET_SS_EN true, s, _, s' => s' = { s with chip := { s.chip with selected := true } }
  | .SPIM_SET_SS_EN false, s, _, s' => ∃ chip, s.chip.Deselected type chip ∧ s' = { s with chip := chip }
  | .CTL0_IO_DIR dir, s, _, s' => s' = { s with dir := some dir }
  | .TX u8Data, s, _, s' => s' = { s with tx := u8Data }
  | .SPIM_SET_GO, s, _, s' =>
    ∃ answer, s.chip.Answers answer ∧
      match s.dir with
      | some true => s' = { s with chip := s.chip.received s.tx }
      | some false => ∃ floating, s' = { s with chip := s.chip.received floating, rx := answer }
      | none => True
  | .SPIM_WAIT_FREE, s, _, s' => s' = s
  | .RX, s, a, s' => UInt32.toUInt8 a = s.rx ∧ s' = s
  | .DMA_Read u32Addr u32Size, s, a, s' =>
    s.chip.selected = true → s.chip.frame = [] → s.chip.busy = 0 → u32Addr.toNat + u32Size.toNat ≤ 2 ^ 24 →
      (∀ k < u32Size.toNat, a k = s.chip.memory (u32Addr.toNat + k)) ∧ s' = { s with dir := none }
  | .DMA_Write _ _ _ _, _, _, _ => True

theorem device_total {type : ChipType} (ends : ∃ n, type.lasts n) (c : SpimCall) (s : Spim) :
    ∃ a s', device type c s a s' := by
  cases c with
  | SPIM_SET_SS_EN on =>
    cases on with
    | true => exact ⟨(),_,rfl⟩
    | false =>
      obtain ⟨chip,deselected⟩ := deselected_exists ends s.chip
      exact ⟨(),_,chip,deselected,rfl⟩
  | CTL0_IO_DIR dir => exact ⟨(),_,rfl⟩
  | TX u8Data => exact ⟨(),_,rfl⟩
  | SPIM_SET_GO =>
    obtain ⟨answer,answers⟩ := answers_exists s.chip
    obtain ⟨chip,dir,tx,rx⟩ := s
    match dir with
    | some true => exact ⟨(),_,answer,answers,rfl⟩
    | some false => exact ⟨(),_,answer,answers,0,rfl⟩
    | none => exact ⟨(),⟨chip,none,tx,rx⟩,answer,answers,trivial⟩
  | SPIM_WAIT_FREE => exact ⟨(),_,rfl⟩
  | RX => exact ⟨s.rx.toUInt32,_,by simp,rfl⟩
  | DMA_Read u32Addr u32Size =>
    exact ⟨fun k => s.chip.memory (u32Addr.toNat + k),_,fun _ _ _ _ => ⟨fun _ _ => rfl,rfl⟩⟩
  | DMA_Write u32Addr u32Size pu8Buf p => exact ⟨(),s,trivial⟩

def Any (_ : Spim) : Prop := True

/-- The memory of the chip keeps a property. -/
def Keeps (K : (Nat → UInt8) → Prop) (s : Spim) : Prop := K s.chip.memory

/-- Between two calls: the chip is idle and not selected. -/
structure Free (s : Spim) : Prop where
  selected : s.chip.selected = false
  frame : s.chip.frame = []
  idle : s.chip.busy = 0

theorem received_memory (c : Chip) (b : UInt8) : (c.received b).memory = c.memory := by
  unfold Chip.received
  split_ifs <;> rfl

/-- The status byte of an idle chip that is enabled. -/
theorem status_enabled {v : UInt8} (wip : v &&& 1 = 0) (wel : v &&& 2 = 2) : v &&& (SR_WEL ||| SR_WIP) = SR_WEL := by
  have split : v &&& (2 ||| 1) = v &&& 2 ||| v &&& 1 := by
    apply UInt8.toBitVec_inj.mp
    simp only [UInt8.toBitVec_and,UInt8.toBitVec_or]
    exact BitVec.and_or_distrib_left
  exact split.trans (by rw [wip,wel]; rfl)

/-- A controller that does nothing else, and reads status bytes of this kind. -/
class Controls (type : outParam ChipType) (shown : outParam (UInt8 → Prop)) (R : Device spim Spim) : Prop where
  fewer : ∀ c s a s', R c s a s' → device type c s a s'
  shows : ∀ s a s', R .SPIM_SET_GO s a s' → s.dir = some false → s.chip.frame.head? = some 0x05 → shown s'.rx

instance (type : ChipType) : Controls type (fun _ => True) (device type) := ⟨fun _ _ _ _ => id,fun _ _ _ _ _ _ => trivial⟩

section
variable {type : ChipType} {shown : UInt8 → Prop} {R : Device spim Spim} [controls : Controls type shown R]
  {α : Type} {Q : α → Spim → Prop} {K : (Nat → UInt8) → Prop} {M : Nat → UInt8} {en sel : Bool} {dir : Option Bool} {n : Nat}
  {frame bs : List UInt8} {sent : List (UInt8 × Bool)} {tx rx : UInt8}
include controls

/-! ### One call -/

theorem wp_select {next : Unit → Prog spim α} (kept : K M)
    (rest : (next ()).Wp R (Keeps K) Q ⟨⟨M,en,n,true,frame,sent⟩,dir,tx,rx⟩) :
    (SPIM_SET_SS_EN true >>= next).Wp R (Keeps K) Q ⟨⟨M,en,n,sel,frame,sent⟩,dir,tx,rx⟩ :=
  wp_moves (controls.fewer _ _) kept fun _ => rest

theorem wp_deselect {next : Unit → Prog spim α} {c : Chip} (kept : K c.memory)
    (rest : ∀ chip, Chip.Deselected type c chip → (next ()).Wp R (Keeps K) Q ⟨chip,dir,tx,rx⟩) :
    (SPIM_SET_SS_EN false >>= next).Wp R (Keeps K) Q ⟨c,dir,tx,rx⟩ := by
  refine ⟨kept,fun _ s moved => ?_⟩
  obtain ⟨chip,ended,rfl⟩ := controls.fewer _ _ _ _ moved
  exact rest chip ended

theorem wp_direction {next : Unit → Prog spim α} {c : Chip} (kept : K c.memory) (dir' : Bool)
    (rest : (next ()).Wp R (Keeps K) Q ⟨c,some dir',tx,rx⟩) :
    (CTL0_IO_DIR dir' >>= next).Wp R (Keeps K) Q ⟨c,dir,tx,rx⟩ :=
  wp_moves (controls.fewer _ _) kept fun _ => rest

theorem wp_free {next : Unit → Prog spim α} {s : Spim} (kept : K s.chip.memory) (rest : (next ()).Wp R (Keeps K) Q s) :
    (SPIM_WAIT_FREE >>= next).Wp R (Keeps K) Q s :=
  wp_moves (controls.fewer _ _) kept fun _ => rest

/-- A byte goes out to the chip. -/
theorem wp_IO_Write {next : Unit → Prog spim α} {c : Chip} {u8Data : UInt8} (kept : K c.memory)
    (rest : (next ()).Wp R (Keeps K) Q ⟨c.received u8Data,some true,u8Data,rx⟩) :
    (NVT_SPIM_IO_Write u8Data >>= next).Wp R (Keeps K) Q ⟨c,some true,tx,rx⟩ := by
  refine wp_moves (controls.fewer _ _) kept fun _ => ⟨kept,fun _ s gone => ?_⟩
  obtain ⟨_,_,rfl⟩ := controls.fewer _ _ _ _ gone
  refine wp_free ?_ rest
  rwa [← received_memory c u8Data] at kept

/-- A byte comes in from the chip. -/
theorem wp_byte {next : UInt8 → Prog spim α} {c : Chip} (kept : K c.memory)
    (rest : ∀ v floating : UInt8, c.Answers v → (c.frame.head? = some 0x05 → shown v) →
      (next v).Wp R (Keeps K) Q ⟨c.received floating,some false,tx,v⟩) :
    (NVT_SPIM_IO_Read >>= next).Wp R (Keeps K) Q ⟨c,some false,tx,rx⟩ := by
  refine ⟨kept,fun a s gone => ?_⟩
  have plain := controls.shows _ a s gone rfl
  obtain ⟨v,answers,floating,rfl⟩ := controls.fewer _ _ _ _ gone
  have now : K (c.received floating).memory := by rwa [received_memory]
  refine wp_moves (controls.fewer _ _) now fun _ => ⟨now,fun a s heard => ?_⟩
  obtain ⟨same,rfl⟩ := controls.fewer _ _ _ _ heard
  have byte : (a &&& 0xFF).toUInt8 = v := (mask_byte a).trans same
  show (next (a &&& 0xFF).toUInt8).Wp _ _ _ _
  rw [byte]
  exact rest v floating answers plain

/-- A status byte comes in. -/
theorem wp_IO_Read {next : UInt8 → Prog spim α} (kept : K M)
    (rest : ∀ v floating : UInt8, (v &&& 1 = if n = 0 then 0 else 1) → (n = 0 → v &&& 2 = if en then 2 else 0) → shown v →
      (next v).Wp R (Keeps K) Q ⟨⟨M,en,n - 1,true,0x05 :: (bs ++ [floating]),sent⟩,some false,tx,v⟩) :
    (NVT_SPIM_IO_Read >>= next).Wp R (Keeps K) Q ⟨⟨M,en,n,true,0x05 :: bs,sent⟩,some false,tx,rx⟩ :=
  wp_byte kept fun v floating answers plain => rest v floating answers.1 answers.2 (plain rfl)

/-! ### Status -/

/-- The loop for the end of a command runs for as long as the chip is busy; its last byte tells the latch. -/
theorem wp_checkIdle (kept : K M) (rounds : Nat) : ∀ {n : Nat} {bs : List UInt8} {rx : UInt8}, n < rounds →
    (checkLoop SR_WIP 0 rounds).Wp R (Keeps K)
      (fun v s' => (v &&& 1 = 0 ∧ v &&& 2 = (if en then 2 else 0) ∧ shown v) ∧
        ∃ bs' rx', s' = ⟨⟨M,en,0,true,0x05 :: bs',sent⟩,some false,tx,rx'⟩)
      ⟨⟨M,en,n,true,0x05 :: bs,sent⟩,some false,tx,rx⟩ := by
  induction rounds with
  | zero => intro n bs rx enough; omega
  | succ rounds ih =>
    intro n bs rx enough
    refine wp_IO_Read kept fun v floating wip wel plain => ?_
    by_cases idle : n = 0
    · subst idle
      have ready : ¬ (v &&& SR_WIP ≠ 0) := fun busy => busy wip
      rw [if_neg ready]
      exact ⟨kept,⟨wip,wel rfl,plain⟩,_,_,rfl⟩
    · have busy : v &&& SR_WIP ≠ 0 := by
        rw [show v &&& SR_WIP = 1 from wip.trans (if_neg idle)]
        decide
      rw [if_pos busy]
      exact ih (by omega)

/-- The first status read after the write enable command already tells the latch. -/
theorem wp_checkEnabled {rounds : Nat} (kept : K M) (positive : 0 < rounds) :
    (checkLoop (SR_WEL ||| SR_WIP) SR_WEL rounds).Wp R (Keeps K)
      (fun v s' => v &&& SR_WEL ≠ 0 ∧ ∃ bs' rx', s' = ⟨⟨M,true,0,true,0x05 :: bs',sent⟩,some false,tx,rx'⟩)
      ⟨⟨M,true,0,true,0x05 :: bs,sent⟩,some false,tx,rx⟩ := by
  obtain ⟨rounds,rfl⟩ := Nat.exists_eq_succ_of_ne_zero (Nat.ne_of_gt positive)
  refine wp_IO_Read kept fun v floating wip wel _ => ?_
  have told : v &&& 2 = 2 := wel rfl
  have done : ¬ (v &&& (SR_WEL ||| SR_WIP) ≠ SR_WEL) := not_not.mpr (status_enabled wip told)
  rw [if_neg done]
  refine ⟨kept,?_,_,_,rfl⟩
  rw [show v &&& SR_WEL = 2 from told]
  decide

/-- A status check opens a frame, reads until the loop is done, and ends the frame. -/
theorem wp_CheckStatus {rounds : Nat} {u8Flag u8Value : UInt8} {P : UInt8 → Prop} (kept : K M)
    (loop : ∀ sent tx rx, (checkLoop u8Flag u8Value rounds).Wp R (Keeps K)
      (fun v s' => P v ∧ ∃ bs' rx', s' = ⟨⟨M,en,0,true,0x05 :: bs',sent⟩,some false,tx,rx'⟩)
      ⟨⟨M,en,n,true,[0x05],sent⟩,some false,tx,rx⟩) :
    (SPIFLASH_CheckStatus rounds u8Flag u8Value).Wp R (Keeps K)
      (fun v s' => P v ∧ Free s' ∧ s'.chip.memory = M ∧ s'.chip.enabled = (en && type.keeps))
      ⟨⟨M,en,n,false,[],sent⟩,dir,tx,rx⟩ := by
  refine wp_select kept (wp_direction kept true (wp_IO_Write kept (wp_direction kept false (wp_bind (loop _ _ _) fun v s' _ read => ?_))))
  obtain ⟨told,bs',rx',rfl⟩ := read
  refine wp_deselect kept fun chip ended => ?_
  obtain rfl := deselected_status_idle ended
  exact ⟨kept,told,⟨rfl,rfl,rfl⟩,rfl,rfl⟩

/-! ### Reading and erasing -/

/-- The write enable command and the wait for its latch, which the status read must not have reset. -/
theorem wp_WriteEnable {rounds : Nat} (keeps : type.keeps = true) (positive : 0 < rounds) {s : Spim} (free : Free s)
    (kept : K s.chip.memory) : (SPIFLASH_WriteEnable rounds).Wp R (Keeps K)
      (fun v s' => v &&& SR_WEL ≠ 0 ∧ Free s' ∧ s'.chip.memory = s.chip.memory ∧ s'.chip.enabled = true) s := by
  obtain ⟨⟨M,en,n,_,_,sent⟩,dir,tx,rx⟩ := s
  obtain ⟨rfl,rfl,rfl⟩ := free
  have kept : K M := kept
  refine wp_select kept (wp_direction kept true (wp_IO_Write kept (wp_deselect kept fun chip ended => ?_)))
  obtain rfl := deselected_enable ended
  refine wp_mono (wp_CheckStatus kept fun _ _ _ => wp_checkEnabled kept positive) fun v s' checked => ?_
  obtain ⟨told,free',memory,latch⟩ := checked
  exact ⟨told,free',memory,by rw [latch,keeps]; rfl⟩

/-- An erase has cleared the sector of its address and waited until the chip is idle. -/
theorem wp_NVT_NVSPIM_Erase {rounds : Nat} (keeps : type.keeps = true) (positive : 0 < rounds)
    (lasts : ∀ n, type.lasts n → n < rounds) {s : Spim} (free : Free s) {addr : UInt32} (inside : addr.toNat < 2 ^ 24)
    (kept : K s.chip.memory) (after : K (fill 0xFF s.chip.memory (sectorStart addr.toNat) 4096)) :
    (NVT_NVSPIM_Erase rounds addr).Wp R (Keeps K) (fun rc s' => rc = 0 ∧ Free s' ∧
      s'.chip.memory = fill 0xFF s.chip.memory (sectorStart addr.toNat) 4096) s := by
  refine wp_free kept (wp_bind (wp_WriteEnable keeps positive free kept) fun v s₁ _ enabled => ?_)
  obtain ⟨told,free₁,memory,latch⟩ := enabled
  rw [if_neg told]
  obtain ⟨⟨M,en,n,_,_,sent⟩,dir,tx,rx⟩ := s₁
  obtain ⟨rfl,rfl,rfl⟩ := free₁
  obtain rfl : en = true := latch
  have memory : M = s.chip.memory := memory
  rw [← memory] at kept after ⊢
  refine wp_select kept (wp_direction kept true (wp_IO_Write kept (wp_IO_Write kept (wp_IO_Write kept (wp_IO_Write kept
    (wp_deselect kept fun chip ended => ?_))))))
  obtain ⟨n,possible,rfl⟩ := deselected_erase ended
  rw [addressOf_bytes inside]
  refine wp_bind (wp_CheckStatus after fun _ _ _ => wp_checkIdle after rounds (lasts n possible)) fun _ s' now waited => ?_
  exact ⟨now,rfl,waited.2.1,waited.2.2.1⟩

/-- A read delivers the bytes of the chip. -/
theorem wp_NVT_NVSPIM_Read {s : Spim} (free : Free s) {addr len : UInt32} (inside : addr.toNat + len.toNat ≤ 2 ^ 24)
    (kept : K s.chip.memory) : (NVT_NVSPIM_Read addr len).Wp R (Keeps K) (fun r s' => r.1 = 0 ∧
      (∀ k < len.toNat, r.2 k = s.chip.memory (addr.toNat + k)) ∧ Free s' ∧ s'.chip.memory = s.chip.memory) s := by
  obtain ⟨⟨M,en,n,_,_,sent⟩,dir,tx,rx⟩ := s
  obtain ⟨rfl,rfl,rfl⟩ := free
  refine wp_select kept ⟨kept,fun data s₁ transferred => ?_⟩
  obtain ⟨delivered,rfl⟩ := controls.fewer _ _ _ _ transferred rfl rfl rfl inside
  refine wp_deselect kept fun chip ended => ?_
  obtain rfl : chip = ⟨M,en,0,false,[],sent⟩ := (if_pos ⟨rfl,rfl⟩).mp ended
  exact ⟨kept,rfl,delivered,⟨rfl,rfl,rfl⟩,rfl⟩

end

/-! ### The abstract serial flash -/

/-- The abstract flash says what the free chip holds. -/
structure Explains (s : Spim) (f : Flash) : Prop where
  free : Free s
  memory : s.chip.memory = f.memory

section
variable {type : ChipType} {rounds : Nat} (keeps : type.keeps = true) (some : 0 < rounds)
  (lasts : ∀ n, type.lasts n → n < rounds)
include keeps some lasts

theorem simulates (c : Call) (s : Spim) (t : Option Flash) (explained : ∃ f, t = .some f ∧ Explains s f)
    (proper : ∀ a t', Serial true False c t a t' → Left t') :
    (spim_drv rounds c).Wp (device type) Any (fun a s' => ∃ t', Serial true False c t a t' ∧
      ∃ f, t' = .some f ∧ Explains s' f) s := by
  obtain ⟨f,rfl,explains⟩ := explained
  cases c with
  | NVT_Read addr len =>
    have used : f.busy = false ∧ addr.toNat + len.toNat ≤ 2 ^ 24 := by
      by_contra misused
      exact proper (0,fun _ => 0) none ((if_neg misused).mpr rfl) rfl
    refine wp_mono (wp_NVT_NVSPIM_Read (K := fun _ => True) explains.free used.2 trivial) fun r s' read => ?_
    obtain ⟨status,bytes,free,memory⟩ := read
    refine ⟨.some f,(if_pos used).mpr ⟨status,fun k part => ?_,rfl⟩,f,rfl,free,memory.trans explains.memory⟩
    rw [bytes k part,explains.memory]
  | NVT_Program addr len buf p => exact (proper 0 none rfl rfl).elim
  | NVT_Erase addr =>
    have used : f.busy = false ∧ addr.toNat < 2 ^ 24 := by
      by_contra misused
      exact proper (0 : Int32) none ((if_neg misused).mpr rfl) rfl
    refine wp_mono (wp_NVT_NVSPIM_Erase (K := fun _ => True) keeps some lasts explains.free used.2 trivial trivial) fun rc s' erased => ?_
    obtain ⟨status,free,memory⟩ := erased
    refine ⟨.some (f.erased addr.toNat false),(if_pos used).mpr ⟨status,rfl⟩,_,rfl,free,?_⟩
    rw [memory,explains.memory]
    rfl
  | NVT_WaitReady =>
    exact ⟨trivial,.some ⟨f.memory,false⟩,.inl ⟨rfl,rfl⟩,_,rfl,explains.free,explains.memory⟩

/-- What holds of a program over the abstract serial flash holds of it over `spim_drv.c`. -/
theorem wp_spim_drv {α : Type} {Q : α → Option Flash → Prop} {p : Prog interface α} {s : Spim} {f : Flash}
    (holds : p.Wp (Serial true False) Left Q (.some f)) (explains : Explains s f) :
    (p.translate (spim_drv rounds)).Wp (device type) Any
      (fun a s' => ∃ t, Q a t ∧ ∃ f', t = .some f' ∧ Explains s' f') s :=
  wp_translate (fun _ _ _ => trivial) (simulates keeps some lasts) holds ⟨f,rfl,explains⟩

end
end NuMicroBoot.SpimPort
