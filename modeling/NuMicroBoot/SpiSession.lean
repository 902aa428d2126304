import NuMicroBoot.SpiPort

/-!
The bus protocol of the standard SPI driver over whole runs. Neither the status
read nor the wait of `spi_drv.c` clears the RX FIFO first, so every answer is
right only because every earlier call has left the FIFO empty.
-/

namespace NuMicroBoot.SpiSession
open NuMicroBoot.Calls NuMicroBoot.Calls.Prog NuMicroBoot.Cells NuMicroBoot.Words NuMicroBoot.Driver
open NuMicroBoot.ExternalDriver NuMicroBoot.ExternalBounds NuMicroBoot.ExternalReads NuMicroBoot.SerialFlash
open NuMicroBoot.SerialChip NuMicroBoot.SpiBus NuMicroBoot.SpiPort

/-! ### Calls of the driver -/

inductive Operation
  | ReadData (addr : UInt32) (data : Buffer) (p : Nat) (cnt : UInt32)
  | EraseSector (addr : UInt32)

/-- The range of the operation lies inside the 4 MiB of the device. -/
def Operation.InRange : Operation → Prop
  | .ReadData addr _ _ cnt => addr.toNat + 4 * cnt.toNat ≤ 0x400000
  | .EraseSector addr => addr.toNat < 0x400000

section
variable (SystemCoreClock : UInt32) (rounds : Nat)

/-- An erase has no data to return. -/
def perform : Operation → Prog bus (Int32 × Buffer)
  | .ReadData addr data p cnt => (Driver_FLASH2_SPI SystemCoreClock rounds).ReadData addr data p cnt
  | .EraseSector addr => (Driver_FLASH2_SPI SystemCoreClock rounds).EraseSector addr >>= fun rc => .ret (rc,fun _ => 0)

/-- What a call that started in `s` has returned and left in `s'`. -/
def Correct (s : Port) (r : Int32 × Buffer) (s' : Port) : Operation → Prop
  | .ReadData addr data p cnt => (0 < cnt.toNat → r.1 = ARM_DRIVER_OK) ∧
      r.2 = copy data p s.chip.memory addr.toNat (4 * cnt.toNat) ∧ s'.chip.memory = s.chip.memory
  | .EraseSector addr => r.1 = ARM_DRIVER_OK →
      s'.chip.memory = fill 0xFF s.chip.memory (sectorStart addr.toNat) 4096 ∧ s'.chip.busy = 0

/-- An empty RX FIFO and an idle chip to which nothing has been sent. -/
structure Starting (s : Port) : Prop where
  empty : s.rx = []
  idle : s.chip.busy = 0
  selected : s.chip.selected = false
  frame : s.chip.frame = []
  sent : s.chip.sent = []

/-- The states between calls, as long as every call has returned a value that is not negative. -/
inductive Reached (type : ChipType) (depth : Nat) (s₀ : Port) : Port → Prop
  | start : Reached type depth s₀ s₀
  | call {op : Operation} {s s' : Port} {t : List (Event bus)} {r : Int32 × Buffer} (reached : Reached type depth s₀ s)
      (inRange : op.InRange) (exec : Exec (device type depth) (perform SystemCoreClock rounds op) s t (.ret r) s')
      (accepted : 0 ≤ r.1) : Reached type depth s₀ s'

end

/-! ### One call -/

variable {type : ChipType} {depth : Nat} {SystemCoreClock : UInt32} {rounds : Nat}

/-- A resting port whose chip is idle. -/
def Idle (s : Port) : Prop := Resting s ∧ s.chip.busy = 0

theorem explains_idle {s : Port} (idle : Idle s) : Explains type s ⟨s.chip.memory,false⟩ :=
  ⟨idle.1,rfl,fun _ => idle.2,0,.inl rfl,Nat.le_of_eq idle.2⟩

theorem valid_SPI {addr : UInt32} (inside : addr.toNat < 0x400000) : is_range_valid_internal SPI_DEV addr = 0 :=
  (valid_iff .SPI addr).mpr inside

/-- From an idle port a call ends with an empty FIFO, does what it should, and leaves the chip idle if it succeeds. -/
theorem perform_wp (deep : 8 ≤ depth) {s : Port} (idle : Idle s) {op : Operation} (inRange : op.InRange) :
    (perform SystemCoreClock rounds op).Wp (device type depth) Quiet
      (fun r s' => Resting s' ∧ Correct s r s' op ∧ (0 ≤ r.1 → Idle s')) s := by
  have explains : Explains type s ⟨s.chip.memory,false⟩ := explains_idle idle
  have ready : (⟨s.chip.memory,false⟩ : Flash).busy = false := rfl
  cases op with
  | ReadData addr data p cnt =>
    have fits : addr.toNat + 4 * cnt.toNat ≤ 0x400000 := inRange
    by_cases inside : addr.toNat < 0x400000
    · have read : (ARM_Flash_ReadData_SPI addr data p cnt).Wp (Serial false (TimesOut type SystemCoreClock)) Left
          (fun r t => r = (ARM_DRIVER_OK,copy data p s.chip.memory addr.toNat (4 * cnt.toNat)) ∧
            t = some ⟨s.chip.memory,false⟩) (some ⟨s.chip.memory,false⟩) :=
        readDataOn_wp (serves_idle ready) (by decide) (valid_SPI inside) rfl (by decide) (Nat.le_trans fits (by decide)) data p
      refine wp_mono (wp_spi_drv deep rounds read explains) fun r s' after => ?_
      obtain ⟨_,⟨rfl,rfl⟩,f,same,explains'⟩ := after
      cases same
      have idle' : Idle s' := ⟨explains'.resting,explains'.idle rfl⟩
      exact ⟨explains'.resting,⟨fun _ => rfl,rfl,explains'.memory⟩,fun _ => idle'⟩
    · have none : cnt.toNat = 0 := by omega
      have refused : ¬ is_range_valid_internal SPI_DEV addr = 0 := mt (valid_iff .SPI addr).mp inside
      have refusal : ARM_Flash_ReadData_SPI addr data p cnt = .ret (ARM_DRIVER_ERROR_PARAMETER,data) := if_pos refused
      have returned : perform SystemCoreClock rounds (.ReadData addr data p cnt) = .ret (ARM_DRIVER_ERROR_PARAMETER,data) := by
        show translate (spi_drv SystemCoreClock rounds) (ARM_Flash_ReadData_SPI addr data p cnt) = _
        rw [refusal]
        rfl
      rw [returned]
      exact ⟨idle.1.quiet,idle.1,⟨fun some => by omega,by rw [none]; simp,rfl⟩,fun _ => idle⟩
  | EraseSector addr =>
    have inside : addr.toNat < 0x400000 := inRange
    have erase : (ARM_Flash_EraseSector_SPI addr).Wp (Serial false (TimesOut type SystemCoreClock)) Left _
        (some ⟨s.chip.memory,false⟩) := eraseSectorOn_wp (valid_SPI inside) rfl ready (by omega)
    refine wp_bind (wp_spi_drv deep rounds erase explains) fun rc s' quiet after => ⟨quiet,?_⟩
    obtain ⟨_,⟨rfl,rfl⟩ | ⟨_,rfl,rfl⟩,f,same,explains'⟩ := after
    · cases same
      have idle' : Idle s' := ⟨explains'.resting,explains'.idle rfl⟩
      exact ⟨explains'.resting,fun _ => ⟨explains'.memory,idle'.2⟩,fun _ => idle'⟩
    · exact ⟨explains'.resting,fun ok => absurd ok (by decide),fun accepted => absurd accepted (by decide)⟩

/-! ### All runs -/

theorem reached_idle (deep : 8 ≤ depth) {s₀ s : Port} (starting : Starting s₀)
    (reached : Reached SystemCoreClock rounds type depth s₀ s) : Idle s := by
  induction reached with
  | start =>
    have quiet : Quiet s₀ := by
      intro e member
      rw [starting.sent] at member
      cases member
    exact ⟨⟨quiet,starting.selected,starting.frame,starting.empty⟩,starting.idle⟩
  | call _ inRange exec accepted ih => exact (wp_exec (perform_wp deep ih inRange) exec).2.2.2 accepted

/-- After any calls that have succeeded, at every point of the next call in range: nothing but status reads has been
    sent to a busy chip, and the call does not run forever; when it returns the RX FIFO is empty, a read has delivered
    the bytes of the chip, and a successful erase has cleared its sector. -/
theorem bus_protocol (deep : 8 ≤ depth) (s₀ s s' : Port) (op : Operation) (t : List (Event bus)) (q : Prog bus (Int32 × Buffer))
    (starting : Starting s₀) (reached : Reached SystemCoreClock rounds type depth s₀ s) (inRange : op.InRange)
    (exec : Exec (device type depth) (perform SystemCoreClock rounds op) s t q s') :
    QuietLog s'.chip.sent ∧ q ≠ .spin ∧ ∀ r, q = .ret r → s'.rx = [] ∧ Correct s r s' op := by
  have holds := wp_exec (perform_wp deep (reached_idle deep starting reached) inRange) exec
  have quiet : Quiet s' := wp_now holds
  refine ⟨quiet,?_,?_⟩
  · rintro rfl
    exact holds
  · rintro r rfl
    exact ⟨holds.2.1.empty,holds.2.2.1⟩

/-- An erase that is not given up succeeds. -/
theorem erase_succeeds (deep : 8 ≤ depth) {s : Port} (idle : Idle s) {addr : UInt32} (inside : addr.toNat < 0x400000)
    (inTime : ¬ TimesOut type SystemCoreClock) : (perform SystemCoreClock rounds (.EraseSector addr)).Wp (device type depth) Quiet
      (fun r _ => r.1 = ARM_DRIVER_OK) s := by
  have ready : (⟨s.chip.memory,false⟩ : Flash).busy = false := rfl
  have erase : (ARM_Flash_EraseSector_SPI addr).Wp (Serial false (TimesOut type SystemCoreClock)) Left _
      (some ⟨s.chip.memory,false⟩) := eraseSectorOn_wp (valid_SPI inside) rfl ready (by omega)
  refine wp_bind (wp_spi_drv deep rounds erase (explains_idle idle)) fun rc s' quiet after => ⟨quiet,?_⟩
  obtain ⟨_,⟨ok,_⟩ | ⟨late,_⟩,_⟩ := after
  · exact ok
  · exact absurd late inTime

/-- A chip that is busy for three status reads behind an erase. -/
def threeReads : ChipType := ⟨true,(· = 3)⟩

theorem threeReads_inTime : ¬ TimesOut threeReads 12000000 := by
  refine inTime_of_lt (by decide) ?_
  rintro n (rfl : n = 3)
  decide

/-- A port before its first call. -/
def fresh : Port := ⟨⟨fun _ => 7,false,0,false,[],[]⟩,[]⟩

theorem fresh_starting : Starting fresh := ⟨rfl,rfl,rfl,rfl,rfl⟩

/-- A word is read, and behind it a sector is erased: both calls return. -/
theorem bus_protocol_erase : ∃ (t t' : List (Event bus)) (r r' : Int32 × Buffer) (s s' : Port),
    Exec (device threeReads 8) (perform 12000000 0 (.ReadData 0x20 (fun _ => 0) 0 1)) fresh t (.ret r) s ∧
    Exec (device threeReads 8) (perform 12000000 0 (.EraseSector 0x1000)) s t' (.ret r') s' ∧
    r = (ARM_DRIVER_OK,copy (fun _ => 0) 0 (fun _ => 7) 0x20 4) ∧ r'.1 = ARM_DRIVER_OK ∧ QuietLog s'.chip.sent ∧ s'.rx = [] ∧
      s'.chip.memory = fill 0xFF (fun _ => 7) 0x1000 4096 ∧ s'.chip.busy = 0 := by
  have total := @device_total threeReads ⟨3,rfl⟩ 8
  have word : Operation.InRange (.ReadData 0x20 (fun _ => 0) 0 1) :=
    show (0x20 : UInt32).toNat + 4 * (1 : UInt32).toNat ≤ 0x400000 by decide
  have low : (0x1000 : UInt32).toNat < 0x400000 := by decide
  have sector : Operation.InRange (.EraseSector 0x1000) := low
  have unused : Reached 12000000 0 threeReads 8 fresh fresh := .start
  have reads := @perform_wp threeReads 8 12000000 0 (Nat.le_refl 8) fresh (reached_idle (Nat.le_refl 8) fresh_starting unused) _ word
  obtain ⟨t,r,s,read,_,correct,_⟩ := wp_exists total reads
  obtain ⟨ok,bytes,kept⟩ := correct
  have delivered : r = (ARM_DRIVER_OK,copy (fun _ => 0) 0 (fun _ => 7) 0x20 4) := Prod.ext (ok (by decide)) bytes
  have reached : Reached 12000000 0 threeReads 8 fresh s := .call unused word read (by rw [delivered]; decide)
  have idle := reached_idle (Nat.le_refl 8) fresh_starting reached
  have erases := @erase_succeeds threeReads 8 12000000 0 (Nat.le_refl 8) s idle _ low threeReads_inTime
  obtain ⟨t',r',s',erase,succeeded⟩ := wp_exists total erases
  obtain ⟨quiet,_,returned⟩ := bus_protocol (Nat.le_refl 8) fresh s s' _ t' _ fresh_starting reached sector erase
  obtain ⟨empty,erased⟩ := returned r' rfl
  obtain ⟨memory,done⟩ := erased succeeded
  rw [kept] at memory
  exact ⟨t,t',r,r',s,s',read,erase,delivered,succeeded,quiet,empty,memory,done⟩

end NuMicroBoot.SpiSession
