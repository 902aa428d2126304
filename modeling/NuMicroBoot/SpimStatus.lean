import NuMicroBoot.SpimBus
import NuMicroBoot.Words

/-!
The page program and the sector erase of the SPIM flash against any status that
the chip may show. Both wait in loops without a bound, and a page program takes
every bit of the last status for a failure.
-/

namespace NuMicroBoot.SpimStatus
open NuMicroBoot.Calls NuMicroBoot.Calls.Prog NuMicroBoot.Words NuMicroBoot.Driver NuMicroBoot.SpimBus

/-! ### The chip -/

/-- How many status bytes have been read, and whether a program or erase command has been sent. -/
structure Seen where
  reads : Nat
  commanded : Bool

/-- A controller with a chip that shows the bytes of `status` one after the other. -/
def chip (status : Nat → UInt8) : Machine spim Seen
  | .RX, s => ((status s.reads).toUInt32,{ s with reads := s.reads + 1 })
  | .TX u8Data, s => ((),{ s with commanded := s.commanded || u8Data == OPCODE_SE_4K })
  | .DMA_Write _ _ _ _, s => ((),{ s with commanded := true })
  | .DMA_Read _ _, s => (fun _ => 0,s)
  | .SPIM_SET_SS_EN _, s => ((),s)
  | .CTL0_IO_DIR _, s => ((),s)
  | .SPIM_SET_GO, s => ((),s)
  | .SPIM_WAIT_FREE, s => ((),s)

/-- The write enable latch is set, and the chip is idle. -/
def Enabled (v : UInt8) : Prop := v &&& (SR_WEL ||| SR_WIP) = SR_WEL
def Idle (v : UInt8) : Prop := v &&& SR_WIP = 0

/-- The first status byte from `r` on with the property is number `i`. -/
structure First (P : UInt8 → Prop) (status : Nat → UInt8) (r i : Nat) : Prop where
  after : r ≤ i
  here : P (status i)
  before : ∀ k, r ≤ k → k < i → ¬ P (status k)

/-! ### What the functions are for -/

/-- The result tells what has been seen. -/
structure Tells (status : Nat → UInt8) (rc : Int32) (s : Seen) : Prop where
  disabled : (∀ i, ¬ Enabled (status i)) → rc ≠ 0 ∧ s.commanded = false
  stuck : ∀ i, First Enabled status 0 i → (∀ j > i, ¬ Idle (status j)) → rc ≠ 0
  done : ∀ i j, First Enabled status 0 i → i < j → Idle (status j) → rc = 0

/-- Followed for long enough, the function returns, and its result tells what has been seen. -/
def Truthful (function : (rounds : Nat) → Prog spim Int32) (status : Nat → UInt8) : Prop :=
  ∃ rounds rc s, (function rounds).run (chip status) ⟨0,false⟩ = some (rc,s) ∧ Tells status rc s

/-! ### Status reads -/

section
variable {status : Nat → UInt8} {r : Nat} {commanded : Bool} {s : Seen}

theorem first_unique {P : UInt8 → Prop} {i j : Nat} (one : First P status r i) (other : First P status r j) : i = j := by
  rcases Nat.lt_trichotomy i j with less | same | more
  · exact absurd one.here (other.before i one.after less)
  · exact same
  · exact absurd other.here (one.before j other.after more)

theorem run_IO_Read : NVT_SPIM_IO_Read.run (chip status) s = some (status s.reads,{ s with reads := s.reads + 1 }) := by
  have byte : ((status s.reads).toUInt32 &&& 0xFF).toUInt8 = status s.reads :=
    (mask_byte _).trans (UInt8.toUInt8_toUInt32 _)
  show some (((status s.reads).toUInt32 &&& 0xFF).toUInt8,_) = _
  rw [byte]
  rfl

/-- The loop returns the first status byte with the value, when the rounds suffice. -/
theorem checkLoop_returns {u8Flag u8Value : UInt8} {v : UInt8} {s' : Seen} (rounds : Nat) : ∀ r,
    (checkLoop u8Flag u8Value rounds).run (chip status) ⟨r,commanded⟩ = some (v,s') ↔
      ∃ i, First (fun v => v &&& u8Flag = u8Value) status r i ∧ i < r + rounds ∧ v = status i ∧ s' = ⟨i + 1,commanded⟩ := by
  induction rounds with
  | zero =>
    intro r
    constructor
    · intro ran
      cases ran
    · rintro ⟨i,first,less,_⟩
      exact absurd first.after (by omega)
  | succ rounds ih =>
    intro r
    unfold checkLoop
    rw [run_bind_of_eq run_IO_Read]
    dsimp only
    by_cases seen : status r &&& u8Flag = u8Value
    · rw [if_neg (not_not.mpr seen)]
      have here : First (fun v => v &&& u8Flag = u8Value) status r r :=
        ⟨Nat.le_refl r,seen,fun k low high => by omega⟩
      constructor
      · intro ran
        cases ran
        exact ⟨r,here,by omega,rfl,rfl⟩
      · rintro ⟨i,first,_,rfl,rfl⟩
        obtain rfl := first_unique first here
        rfl
    · rw [if_pos seen,ih]
      refine exists_congr fun i => ?_
      constructor
      · rintro ⟨first,less,rest⟩
        refine ⟨⟨by have := first.after; omega,first.here,fun k low high => ?_⟩,by omega,rest⟩
        rcases Nat.eq_or_lt_of_le low with rfl | later
        · exact seen
        · exact first.before k later high
      · rintro ⟨first,less,rest⟩
        have other : r ≠ i := fun same => seen (same ▸ first.here)
        have after := first.after
        exact ⟨⟨by omega,first.here,fun k low high => first.before k (by omega) high⟩,by omega,rest⟩

theorem CheckStatus_returns {rounds : Nat} {u8Flag u8Value : UInt8} {v : UInt8} {s' : Seen} :
    (SPIFLASH_CheckStatus rounds u8Flag u8Value).run (chip status) ⟨r,commanded⟩ = some (v,s') ↔
      ∃ i, First (fun v => v &&& u8Flag = u8Value) status r i ∧ i < r + rounds ∧ v = status i ∧ s' = ⟨i + 1,commanded⟩ := by
  have quiet : (commanded || OPCODE_RDSR == OPCODE_SE_4K) = commanded := Bool.or_false _
  unfold SPIFLASH_CheckStatus
  show ((checkLoop u8Flag u8Value rounds) >>= fun v => SPIM_SET_SS_EN false >>= fun _ => .ret v).run (chip status)
    ⟨r,commanded || OPCODE_RDSR == OPCODE_SE_4K⟩ = _ ↔ _
  rw [quiet,run_bind,← checkLoop_returns]
  cases (checkLoop u8Flag u8Value rounds).run (chip status) ⟨r,commanded⟩ with
  | none => exact Iff.rfl
  | some result => exact Iff.rfl

theorem enabled_latch {v : UInt8} (enabled : Enabled v) : ¬ v &&& SR_WEL = 0 := by
  have part : v &&& SR_WEL = v &&& (SR_WEL ||| SR_WIP) &&& SR_WEL := by
    rw [UInt8.and_assoc]
    rfl
  rw [part,show v &&& (SR_WEL ||| SR_WIP) = SR_WEL from enabled]
  decide

/-- The wait for the write enable latch, and the function behind it. -/
theorem WriteEnable_returns {rounds : Nat} {next : UInt8 → Prog spim Int32} {rc : Int32} {s' : Seen} :
    (SPIFLASH_WriteEnable rounds >>= next).run (chip status) ⟨0,false⟩ = some (rc,s') ↔
      ∃ i, First Enabled status 0 i ∧ i < rounds ∧ (next (status i)).run (chip status) ⟨i + 1,false⟩ = some (rc,s') := by
  have quiet : (false || OPCODE_WREN == OPCODE_SE_4K) = false := rfl
  have check := @CheckStatus_returns status 0 false rounds (SR_WEL ||| SR_WIP) SR_WEL
  have start : (SPIFLASH_WriteEnable rounds).run (chip status) ⟨0,false⟩ =
      (SPIFLASH_CheckStatus rounds (SR_WEL ||| SR_WIP) SR_WEL).run (chip status) ⟨0,false⟩ := rfl
  rw [run_bind,start,Option.bind_eq_some_iff]
  constructor
  · rintro ⟨⟨v,s⟩,ran,rest⟩
    obtain ⟨i,first,less,rfl,rfl⟩ := check.mp ran
    exact ⟨i,first,by omega,rest⟩
  · rintro ⟨i,first,less,rest⟩
    exact ⟨(status i,⟨i + 1,false⟩),check.mpr ⟨i,first,by omega,rfl,rfl⟩,rest⟩

/-- The wait for the end of the command, and the result from its last status byte. -/
theorem idle_returns {rounds : Nat} {result : UInt8 → Int32} {rc : Int32} {s' : Seen} :
    (SPIFLASH_CheckStatus rounds SR_WIP 0 >>= fun v => .ret (result v)).run (chip status) ⟨r,commanded⟩ = some (rc,s') ↔
      ∃ j, First Idle status r j ∧ j < r + rounds ∧ rc = result (status j) ∧ s' = ⟨j + 1,commanded⟩ := by
  rw [run_bind,Option.bind_eq_some_iff]
  constructor
  · rintro ⟨⟨v,s⟩,ran,rest⟩
    obtain ⟨j,first,less,rfl,rfl⟩ := CheckStatus_returns.mp ran
    cases rest
    exact ⟨j,first,less,rfl,rfl⟩
  · rintro ⟨j,first,less,rfl,rfl⟩
    exact ⟨_,CheckStatus_returns.mpr ⟨j,first,less,rfl,rfl⟩,rfl⟩

/-- Both functions return when the latch has been seen and then the end of the command. -/
def Returns (status : Nat → UInt8) (rounds : Nat) (result : UInt8 → Int32) (rc : Int32) (s' : Seen) : Prop :=
  ∃ i, First Enabled status 0 i ∧ i < rounds ∧ ∃ j, First Idle status (i + 1) j ∧ j < i + 1 + rounds ∧
    rc = result (status j) ∧ s' = ⟨j + 1,true⟩

theorem program_returns {rounds : Nat} {addr size : UInt32} {buf : Buffer} {p : Nat} {rc : Int32} {s' : Seen} :
    (NVT_NVSPIM_Program rounds addr size buf p).run (chip status) ⟨0,false⟩ = some (rc,s') ↔
      Returns status rounds (fun v => if v ≠ 0 then 1 else 0) rc s' := by
  have result : (fun v : UInt8 => if v ≠ 0 then (Prog.ret 1 : Prog spim Int32) else .ret 0) =
      fun v => .ret (if v ≠ 0 then 1 else 0) := funext fun v => (apply_ite Prog.ret _ _ _).symm
  unfold NVT_NVSPIM_Program
  rw [WriteEnable_returns]
  refine exists_congr fun i => and_congr_right fun first => and_congr_right fun _ => ?_
  rw [if_neg (enabled_latch first.here)]
  show (SPIFLASH_CheckStatus rounds SR_WIP 0 >>= fun v => if v ≠ 0 then (Prog.ret 1 : Prog spim Int32) else .ret 0).run
    (chip status) ⟨i + 1,true⟩ = _ ↔ _
  rw [result,idle_returns]

theorem erase_returns {rounds : Nat} {addr : UInt32} {rc : Int32} {s' : Seen} :
    (NVT_NVSPIM_Erase rounds addr).run (chip status) ⟨0,false⟩ = some (rc,s') ↔ Returns status rounds (fun _ => 0) rc s' := by
  have free : SPIM_WAIT_FREE.run (chip status) ⟨0,false⟩ = some ((),⟨0,false⟩) := rfl
  unfold NVT_NVSPIM_Erase
  rw [run_bind_of_eq free,WriteEnable_returns]
  refine exists_congr fun i => and_congr_right fun first => and_congr_right fun _ => ?_
  rw [if_neg (enabled_latch first.here)]
  show (SPIFLASH_CheckStatus rounds SR_WIP 0 >>= fun _ => .ret 0).run (chip status) ⟨i + 1,true⟩ = _ ↔ _
  rw [idle_returns]

/-- A function that returns so tells the truth exactly when both have been seen and the result is 0 then. -/
theorem truthful_iff {function : (rounds : Nat) → Prog spim Int32} {result : UInt8 → Int32}
    (returns : ∀ rounds rc s', (function rounds).run (chip status) ⟨0,false⟩ = some (rc,s') ↔ Returns status rounds result rc s') :
    Truthful function status ↔
      ∃ i j, First Enabled status 0 i ∧ First Idle status (i + 1) j ∧ result (status j) = 0 := by
  constructor
  · rintro ⟨rounds,rc,s,ran,tells⟩
    obtain ⟨i,enabled,_,j,idle,_,rfl,_⟩ := (returns rounds rc s).mp ran
    exact ⟨i,j,enabled,idle,tells.done i j enabled idle.after idle.here⟩
  · rintro ⟨i,j,enabled,idle,zero⟩
    refine ⟨j + 1,0,⟨j + 1,true⟩,(returns _ _ _).mpr ⟨i,enabled,?_,j,idle,by omega,zero.symm,rfl⟩,?_⟩
    · have := idle.after
      omega
    · refine ⟨fun never => absurd enabled.here (never i),fun i' first never => ?_,fun _ _ _ _ _ => rfl⟩
      obtain rfl := first_unique first enabled
      exact absurd idle.here (never j idle.after)

end

/-- A page program tells the truth exactly when the latch shows on an idle chip and the first status byte behind the
    command that is not busy is 0; an erase, when the latch shows and such a byte follows. -/
theorem spim_truthful_iff (status : Nat → UInt8) (addr size : UInt32) (buf : Buffer) (p : Nat) :
    (Truthful (fun rounds => NVT_NVSPIM_Program rounds addr size buf p) status ↔
      ∃ i j, First Enabled status 0 i ∧ First Idle status (i + 1) j ∧ status j = 0) ∧
    (Truthful (fun rounds => NVT_NVSPIM_Erase rounds addr) status ↔
      ∃ i j, First Enabled status 0 i ∧ First Idle status (i + 1) j) := by
  constructor
  · rw [truthful_iff fun _ _ _ => program_returns]
    simp
  · rw [truthful_iff fun _ _ _ => erase_returns]
    simp

/-- A chip with a block protect bit, which has the latch set at the first read and is done at the second, and no chip at
    all, which reads as ones. -/
theorem not_truthful_protected :
    ¬ Truthful (fun rounds => NVT_NVSPIM_Program rounds 0 256 (fun _ => 0) 0) (fun k => if k = 0 then 0x06 else 0x04) ∧
    ¬ Truthful (fun rounds => NVT_NVSPIM_Erase rounds 0) fun _ => 0xFF := by
  constructor
  · rw [truthful_iff fun _ _ _ => program_returns]
    rintro ⟨i,j,_,_,zero⟩
    have nonzero : (if j = 0 then 0x06 else 0x04 : UInt8) ≠ 0 := by split_ifs <;> decide
    rw [if_pos nonzero] at zero
    exact absurd zero (by decide)
  · rw [truthful_iff fun _ _ _ => erase_returns]
    rintro ⟨i,j,enabled,_⟩
    have never : ¬ Enabled 0xFF := (by decide : ¬ (0xFF : UInt8) &&& (SR_WEL ||| SR_WIP) = SR_WEL)
    exact never enabled.here

end NuMicroBoot.SpimStatus
