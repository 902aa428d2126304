import NuMicroBoot.SpiPort

/-!
The JEDEC ID read of `spi_drv.c` and `qspi_drv.c`. It takes every byte that
waits in the RX FIFO into an array of four, and its own command already clocks
five.
-/

namespace NuMicroBoot.JedecID
open NuMicroBoot.Calls NuMicroBoot.Calls.Prog NuMicroBoot.Cells NuMicroBoot.Driver NuMicroBoot.SpiBus NuMicroBoot.SpiPort

/-! ### The function -/

/-- `SPI_GET_RX_FIFO_EMPTY_FLAG` and `QSPI_GET_RX_FIFO_EMPTY_FLAG`, beside the calls of the bus. -/
inductive FlagCall
  | GET_RX_FIFO_EMPTY_FLAG

abbrev flag : Interface := ⟨FlagCall,fun _ => Bool⟩
abbrev interface : Interface := bus.both flag

abbrev GET_RX_FIFO_EMPTY_FLAG : Prog interface Bool := .call (.inr .GET_RX_FIFO_EMPTY_FLAG) .ret

/-- The frame of the command. -/
def sendCommand (SystemCoreClock : UInt32) : Prog bus Unit := do
  SET_SS_LOW
  WRITE_TX 0x9F
  WRITE_TX 0x00
  WRITE_TX 0x00
  WRITE_TX 0x00
  WRITE_TX 0x00
  wait_IS_BUSY SystemCoreClock
  SET_SS_HIGH

/-- The loop over the RX FIFO, followed for a number of rounds. `u8RxData` is the memory from the start of the array
    on, with what is behind its four bytes. -/
def drainLoop : (rounds : Nat) → (u8IDCnt : UInt8) → (u8RxData : Buffer) → Prog interface Buffer
  | 0, _, _ => .spin
  | rounds + 1, u8IDCnt, u8RxData => do
    let empty ← GET_RX_FIFO_EMPTY_FLAG
    if !empty then do
      let rx ← READ_RX.translate left
      drainLoop rounds (u8IDCnt + 1) (copy u8RxData u8IDCnt.toNat (fun _ => rx.toUInt8) 0 1)
    else .ret u8RxData

/-- `SpiFlash_ReadJedecID` of both drivers, with the memory it leaves. -/
def readJedecID (SystemCoreClock : UInt32) (rounds : Nat) (u8RxData : Buffer) : Prog interface (UInt32 × Buffer) := do
  (sendCommand SystemCoreClock).translate left
  let u8RxData ← drainLoop rounds 0 u8RxData
  .ret (((u8RxData 1).toUInt32 <<< 16) ||| ((u8RxData 2).toUInt32 <<< 8) ||| (u8RxData 3).toUInt32,u8RxData)

def SpiFlash_ReadJedecID_SPI := readJedecID
def SpiFlash_ReadJedecID_QSPI := readJedecID

/-! ### The controller -/

/-- A full-duplex controller: what waits in its RX FIFO at first, and the bytes that the chip answers with. -/
structure Controller where
  depth : Nat
  deep : 8 ≤ depth
  waiting : List UInt8
  fits : waiting.length ≤ depth
  answers : Nat → UInt8

/-- The RX FIFO, and how many bytes have been clocked. -/
structure Duplex where
  rx : List UInt8
  clocked : Nat

namespace Controller

def port (c : Controller) : Device bus Duplex
  | .WRITE_TX _, s, _, s' => s' = ⟨push c.depth s.rx (c.answers s.clocked),s.clocked + 1⟩
  | .READ_RX, s, a, s' =>
    match s.rx with
    | [] => s' = s
    | b :: rest => UInt32.toUInt8 a = b ∧ s' = ⟨rest,s.clocked⟩
  | .ClearRxFIFO, s, _, s' => s' = ⟨[],s.clocked⟩
  | _, s, _, s' => s' = s

def device (c : Controller) : Device interface Duplex
  | .inl made, s, a, s' => c.port made s a s'
  | .inr .GET_RX_FIFO_EMPTY_FLAG, s, a, s' => a = s.rx.isEmpty ∧ s' = s

end Controller

/-- The function stores nothing behind its array, and what it returns is the ID when nothing was waiting. -/
def ReadsID (c : Controller) (function : (rounds : Nat) → (u8RxData : Buffer) → Prog interface (UInt32 × Buffer)) : Prop :=
  ∀ rounds u8RxData t id after s, Exec c.device (function rounds u8RxData) ⟨c.waiting,0⟩ t (.ret (id,after)) s →
    (∀ k ≥ 4, after k = u8RxData k) ∧
    (c.waiting = [] → id.toNat = 65536 * (c.answers 1).toNat + 256 * (c.answers 2).toNat + (c.answers 3).toNat)

/-! ### What it does -/

/-- The memory behind the loop over these bytes. -/
def drained : (u8IDCnt : UInt8) → List UInt8 → Buffer → Buffer
  | _, [], u8RxData => u8RxData
  | u8IDCnt, b :: rest, u8RxData => drained (u8IDCnt + 1) rest (copy u8RxData u8IDCnt.toNat (fun _ => b) 0 1)

/-- What is stored at `k` does not depend on what was elsewhere. -/
theorem drained_at {k : Nat} (bs : List UInt8) : ∀ (cnt : UInt8) {M M' : Buffer}, M k = M' k → drained cnt bs M k = drained cnt bs M' k := by
  induction bs with
  | nil => exact fun _ _ _ same => same
  | cons b rest ih =>
    intro cnt M M' same
    refine ih (cnt + 1) ?_
    unfold copy
    split_ifs
    · rfl
    · exact same

/-- The fifth byte goes behind the array. -/
theorem drained_behind {bs : List UInt8} (long : 5 ≤ bs.length) (M M' : Buffer) : drained 0 bs M 4 = drained 0 bs M' 4 := by
  match bs,long with
  | b₀ :: b₁ :: b₂ :: b₃ :: b₄ :: rest,_ => exact drained_at rest 5 rfl

theorem push_length {depth n : Nat} {rx : List UInt8} (some : n ≤ rx.length) (room : n + 1 ≤ depth) (a : UInt8) :
    n + 1 ≤ (push depth rx a).length := by
  unfold push
  by_cases free : rx.length < depth
  · rw [if_pos free,List.length_append]
    exact Nat.succ_le_succ some
  · rw [if_neg free]
    omega

variable {c : Controller} {SystemCoreClock : UInt32}

/-- The RX FIFO behind the frame of the command. -/
def received (c : Controller) : List UInt8 :=
  (List.range 5).foldl (fun rx k => push c.depth rx (c.answers k)) c.waiting

theorem received_long : 5 ≤ (received c).length := by
  have deep := c.deep
  exact push_length (push_length (push_length (push_length (push_length (Nat.zero_le _) (by omega) _) (by omega) _)
    (by omega) _) (by omega) _) (by omega) _

def Always (_ : Duplex) : Prop := True

theorem wp_WRITE_TX {α : Type} {Q : α → Duplex → Prop} {data : UInt32} {next : Unit → Prog bus α} {s : Duplex}
    (rest : (next ()).Wp c.port Always Q ⟨push c.depth s.rx (c.answers s.clocked),s.clocked + 1⟩) :
    (WRITE_TX data >>= next).Wp c.port Always Q s :=
  wp_moves (fun _ _ => id) trivial fun _ => rest

theorem wp_sendCommand : (sendCommand SystemCoreClock).Wp c.port Always (fun _ s => s = ⟨received c,5⟩) ⟨c.waiting,0⟩ := by
  refine wp_moves (fun _ _ => id) trivial fun _ => ?_
  refine wp_WRITE_TX (wp_WRITE_TX (wp_WRITE_TX (wp_WRITE_TX (wp_WRITE_TX ?_))))
  refine wp_bind (wp_busyLoop (fun _ _ _ => id) _ _ (UInt32.toNat_lt _) trivial) fun _ s _ same => ?_
  subst same
  exact ⟨trivial,fun _ s high => ⟨trivial,high⟩⟩

/-- A program for the bus alone. -/
theorem wp_bus {α : Type} {Q : α → Duplex → Prop} {p : Prog bus α} {s : Duplex} (holds : p.Wp c.port Always Q s) :
    (p.translate left : Prog interface α).Wp c.device Always Q s := by
  induction p generalizing s with
  | ret a => exact holds
  | call made next ih => exact ⟨trivial,fun a s' answered => ih a (holds.2 a s' answered)⟩
  | spin => exact holds

theorem wp_drainLoop (rounds : Nat) : ∀ (cnt : UInt8) (u8RxData : Buffer) {rx : List UInt8} {clocked : Nat}, rx.length < rounds →
    (drainLoop rounds cnt u8RxData).Wp c.device Always (fun after _ => after = drained cnt rx u8RxData) ⟨rx,clocked⟩ := by
  induction rounds with
  | zero => exact fun _ _ _ _ enough => absurd enough (Nat.not_lt_zero _)
  | succ rounds ih =>
    intro cnt u8RxData rx clocked enough
    refine ⟨trivial,fun empty s told => ?_⟩
    obtain ⟨rfl,rfl⟩ := told
    cases rx with
    | nil => exact ⟨trivial,rfl⟩
    | cons b rest =>
      refine ⟨trivial,fun rx s read => ?_⟩
      obtain ⟨rfl,rfl⟩ := read
      exact ih (cnt + 1) _ (Nat.lt_of_succ_lt_succ enough)

/-- The memory behind the function, and the ID taken from it. -/
theorem wp_readJedecID {rounds : Nat} (u8RxData : Buffer) (enough : (received c).length < rounds) :
    (readJedecID SystemCoreClock rounds u8RxData).Wp c.device Always
      (fun r _ => r.2 = drained 0 (received c) u8RxData ∧
        r.1 = ((r.2 1).toUInt32 <<< 16) ||| ((r.2 2).toUInt32 <<< 8) ||| (r.2 3).toUInt32) ⟨c.waiting,0⟩ := by
  refine wp_bind (wp_bus wp_sendCommand) fun _ s _ same => ?_
  subst same
  refine wp_bind (wp_drainLoop rounds 0 u8RxData enough) fun after s _ same => ?_
  exact ⟨trivial,same,rfl⟩

theorem device_total (call : interface.Call) (s : Duplex) : ∃ a s', c.device call s a s' := by
  cases call with
  | inl made =>
    cases made with
    | READ_RX =>
      obtain ⟨rx,clocked⟩ := s
      cases rx with
      | nil => exact ⟨(0 : UInt32),_,rfl⟩
      | cons b rest => exact ⟨b.toUInt32,_,by simp,rfl⟩
    | IS_BUSY => exact ⟨false,_,rfl⟩
    | GET_TX_FIFO_FULL_FLAG => exact ⟨false,_,rfl⟩
    | SET_SS_LOW => exact ⟨(),_,rfl⟩
    | SET_SS_HIGH => exact ⟨(),_,rfl⟩
    | WRITE_TX data => exact ⟨(),_,rfl⟩
    | ClearRxFIFO => exact ⟨(),_,rfl⟩
  | inr made =>
    cases made
    exact ⟨s.rx.isEmpty,s,rfl,rfl⟩

/-! ### The ID and the overrun -/

/-- Three bytes of a number, highest first. -/
theorem id_toNat (a b d : UInt8) : ((a.toUInt32 <<< 16) ||| (b.toUInt32 <<< 8) ||| d.toUInt32).toNat =
    65536 * a.toNat + 256 * b.toNat + d.toNat := by
  have first := a.toNat_lt
  have second := b.toNat_lt
  have third := d.toNat_lt
  have high : (a.toUInt32 <<< 16).toNat = 2 ^ 16 * a.toNat := by
    rw [UInt32.toNat_shiftLeft,UInt8.toNat_toUInt32,Nat.shiftLeft_eq]
    simp
    omega
  have middle : (b.toUInt32 <<< 8).toNat = 256 * b.toNat := by
    rw [UInt32.toNat_shiftLeft,UInt8.toNat_toUInt32,Nat.shiftLeft_eq]
    simp
    omega
  have upper : 2 ^ 16 * a.toNat + 256 * b.toNat = 2 ^ 8 * (256 * a.toNat + b.toNat) := by omega
  rw [UInt32.toNat_or,UInt32.toNat_or,high,middle,UInt8.toNat_toUInt32,← Nat.two_pow_add_eq_or_of_lt (by omega),upper,
    ← Nat.two_pow_add_eq_or_of_lt (by omega)]
  omega

theorem received_empty (empty : c.waiting = []) :
    received c = [c.answers 0,c.answers 1,c.answers 2,c.answers 3,c.answers 4] := by
  have deep := c.deep
  have room : ∀ (rx : List UInt8) (a : UInt8), rx.length < 5 → push c.depth rx a = rx ++ [a] :=
    fun rx a short => if_pos (by omega)
  unfold received
  simp [List.range_succ,empty,room]

/-- With an empty FIFO the ID is right. -/
theorem id_of_empty {rounds : Nat} (u8RxData : Buffer) (empty : c.waiting = []) (enough : 5 < rounds) :
    (readJedecID SystemCoreClock rounds u8RxData).Wp c.device Always
      (fun r _ => r.1.toNat = 65536 * (c.answers 1).toNat + 256 * (c.answers 2).toNat + (c.answers 3).toNat) ⟨c.waiting,0⟩ := by
  have five := received_empty empty
  refine wp_mono (wp_readJedecID u8RxData (by rw [five]; exact enough)) fun r _ read => ?_
  obtain ⟨memory,id⟩ := read
  rw [id,memory,five,id_toNat]
  rfl

/-- Whatever is waiting and is answered, some byte is stored behind the array. -/
theorem not_readsID (c : Controller) (SystemCoreClock : UInt32) : ¬ ReadsID c (readJedecID SystemCoreClock) := by
  intro reads
  obtain ⟨v,fifth⟩ : ∃ v, ∀ M, drained 0 (received c) M 4 = v := ⟨_,fun M => drained_behind received_long M fun _ => 0⟩
  have judged := @wp_readJedecID c SystemCoreClock _ (fun _ => v + 1) (Nat.lt_succ_self _)
  obtain ⟨t,⟨id,after⟩,s,exec,memory,_⟩ := wp_exists device_total judged
  obtain ⟨kept,_⟩ := reads _ _ t id after s exec
  have stored : after 4 = v := by
    rw [show after = _ from memory]
    exact fifth _
  have same : v = v + 1 := stored.symm.trans (kept 4 (Nat.le_refl 4))
  simp at same

/-- Neither driver's function reads the ID within its array, from any state of the controller. -/
theorem jedec_never_inside (c : Controller) (SystemCoreClock : UInt32) :
    ¬ ReadsID c (SpiFlash_ReadJedecID_SPI SystemCoreClock) ∧ ¬ ReadsID c (SpiFlash_ReadJedecID_QSPI SystemCoreClock) :=
  ⟨not_readsID c SystemCoreClock,not_readsID c SystemCoreClock⟩

/-- An empty FIFO of 8 bytes, and a chip of 16 MiB. -/
def w25q128 : Controller where
  depth := 8
  deep := Nat.le_refl 8
  waiting := []
  fits := Nat.zero_le 8
  answers k := if k = 1 then 0xEF else if k = 2 then 0x40 else if k = 3 then 0x18 else 0xFF

theorem not_readsID_w25q128 : ¬ ReadsID w25q128 (SpiFlash_ReadJedecID_SPI 200000000) := not_readsID w25q128 200000000

end NuMicroBoot.JedecID
