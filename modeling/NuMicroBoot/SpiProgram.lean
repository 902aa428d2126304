import NuMicroBoot.SpiBus

/-!
The page program functions of the SPI and the QSPI flash. Their data loop has no
way out and sends the byte behind the buffer in place of each byte of it.
-/

namespace NuMicroBoot.SpiProgram
open NuMicroBoot.Calls NuMicroBoot.Calls.Prog NuMicroBoot.Driver NuMicroBoot.SpiBus

/-! ### What a page program is for -/

/-- What a controller answers each time it is asked whether its TX FIFO is full and whether it is busy. -/
structure Answers where
  full : Nat → Bool
  busy : Nat → Bool

/-- The TX FIFO becomes non-full again and again. -/
def Answers.Drains (answers : Answers) : Prop := ∀ n, ∃ m, n ≤ m ∧ answers.full m = false

/-- How often it has been asked. -/
structure Asked where
  full : Nat
  busy : Nat

def controller (answers : Answers) : Machine bus Asked
  | .GET_TX_FIFO_FULL_FLAG, s => (answers.full s.full,{ s with full := s.full + 1 })
  | .IS_BUSY, s => (answers.busy s.busy,{ s with busy := s.busy + 1 })
  | .READ_RX, s => (0,s)
  | .SET_SS_LOW, s => ((),s)
  | .SET_SS_HIGH, s => ((),s)
  | .WRITE_TX _, s => ((),s)
  | .ClearRxFIFO, s => ((),s)

/-- The calls that the chip sees: chip select and the bytes sent. -/
def onWire : BusCall → Bool
  | .SET_SS_LOW => true
  | .SET_SS_HIGH => true
  | .WRITE_TX _ => true
  | _ => false
def wire (t : List (Event bus)) : List BusCall := (t.map Event.call).filter onWire

/-- The write enable frame and the start of the page program frame. -/
def header (addr : UInt32) : List BusCall :=
  [.SET_SS_LOW,.WRITE_TX 0x06,.SET_SS_HIGH,.SET_SS_LOW,.WRITE_TX 0x02,.WRITE_TX ((addr >>> 16) &&& 0xFF),
    .WRITE_TX ((addr >>> 8) &&& 0xFF),.WRITE_TX (addr &&& 0xFF)]
/-- The bytes of the buffer, each once and in order. -/
def payload (buf : Buffer) (p len : Nat) : List BusCall := (List.range len).map fun k => .WRITE_TX (buf (p + k)).toUInt32

/-- The trace sends the two frames of a page program, and behind the header it sends a byte only right after the FIFO
    was found non-full. -/
structure SendsPage (addr len : UInt32) (buf : Buffer) (p : Nat) (t : List (Event bus)) : Prop where
  frames : wire t = header addr ++ payload buf p len.toNat ++ [.SET_SS_HIGH]
  guarded : ∀ before data after, t = before ++ ⟨.WRITE_TX data,()⟩ :: after → (header addr).length ≤ (wire before).length →
    before.getLast? = some ⟨.GET_TX_FIFO_FULL_FLAG,false⟩

/-- Followed for long enough, the function returns 0 with the page sent, and takes nothing from the buffer but the
    `len` bytes from `p` on. -/
def ProgramsPage (program : (rounds : Nat) → (buf : Buffer) → Prog bus Int32) (answers : Answers) (addr len : UInt32)
    (buf : Buffer) (p : Nat) : Prop :=
  ∃ rounds t s', SendsPage addr len buf p t ∧ ∀ buf' : Buffer, (∀ k < len.toNat, buf' (p + k) = buf (p + k)) →
    Exec (controller answers).device (program rounds buf') ⟨0,0⟩ t (.ret 0) s'

/-! ### What the functions do -/

variable (SystemCoreClock addr len : UInt32) (buf : Buffer) (p : Nat)

theorem programLoop_endless (rounds : Nat) : (programLoop len buf p rounds).Endless := by
  induction rounds with
  | zero => trivial
  | succ rounds ih =>
    intro full
    cases full with
    | false =>
      show (bufferLoop len buf p (len.toNat + 1) 0 >>= fun _ => programLoop len buf p rounds).Endless
      exact endless_bind fun _ => ih
    | true => exact ih

/-- However long they are followed and whatever they are answered, they do not return. -/
theorem programPage_endless (rounds : Nat) : (programPage SystemCoreClock rounds addr len buf p).Endless := by
  unfold programPage
  refine endless_bind fun _ => endless_bind fun _ => endless_bind fun _ => endless_bind fun _ => ?_
  exact programLoop_endless len buf p rounds

theorem not_programs {program : (rounds : Nat) → (buf : Buffer) → Prog bus Int32} {answers : Answers}
    (endless : ∀ rounds buf, (program rounds buf).Endless) : ¬ ProgramsPage program answers addr len buf p := by
  rintro ⟨rounds,t,s',_,returns⟩
  exact endless_exec (endless rounds buf) (returns buf fun _ _ => rfl)

/-- No call of either function programs its page: for no address, length, buffer and answers of the controller. -/
theorem page_never_programmed (answers : Answers) :
    ¬ ProgramsPage (fun rounds buf => NVT_NVSPI_Program SystemCoreClock rounds addr len buf p) answers addr len buf p ∧
    ¬ ProgramsPage (fun rounds buf => NVT_NVQSPI_Program SystemCoreClock rounds addr len buf p) answers addr len buf p :=
  ⟨not_programs addr len buf p fun rounds buf => programPage_endless SystemCoreClock addr len buf p rounds,
    not_programs addr len buf p fun rounds buf => programPage_endless SystemCoreClock addr len buf p rounds⟩

/-- One byte, over a FIFO that is never full. -/
theorem not_programs_byte : ¬ ∀ answers : Answers, answers.Drains →
    ProgramsPage (fun rounds buf => NVT_NVSPI_Program 200000000 rounds 0 1 buf 0) answers 0 1 (fun _ => 5) 0 := by
  intro programs
  have never := programs ⟨fun _ => false,fun _ => false⟩ fun n => ⟨n,Nat.le_refl n,rfl⟩
  exact not_programs _ _ _ _ (fun rounds buf => programPage_endless _ _ _ buf _ rounds) never

end NuMicroBoot.SpiProgram
