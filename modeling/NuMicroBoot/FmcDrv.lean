import NuMicroBoot.Nvmc

/-!
The FMC back end (`fmc_drv.c`), down to the registers of the controller, and its
polling: each command waits for the controller with a bound, then looks at the
failure flag once.
-/

namespace NuMicroBoot.FmcDrv
open NuMicroBoot.Calls NuMicroBoot.Calls.Prog NuMicroBoot.Nvmc

/-! ### Registers -/

inductive Register
  | ISPCMD
  | ISPADDR
  | ISPDAT
  | ISPTRG
  | ISPSTS
  | MPDAT0
  | MPDAT1
  deriving DecidableEq

/-- Reading and writing `FMC->r`. -/
inductive FmcCall
  | load (r : Register)
  | store (r : Register) (v : UInt32)

abbrev FmcAnswer : FmcCall → Type
  | .load _ => UInt32
  | .store _ _ => Unit

abbrev registers : Interface := ⟨FmcCall,FmcAnswer⟩

abbrev load (r : Register) : Prog registers UInt32 := .call (.load r) .ret
abbrev store (r : Register) (v : UInt32) : Prog registers Unit := .call (.store r v) .ret

/-- The constants of the board support package that the commands use. -/
structure Fmc where
  FMC_ISPCMD_READ : UInt32
  FMC_ISPCMD_PROGRAM_64 : UInt32
  FMC_ISPCMD_PAGE_ERASE : UInt32
  FMC_ISPTRG_ISPGO_Msk : UInt32
  FMC_ISPSTS_ISPBUSY_Msk : UInt32
  FMC_ISPSTS_ISPFF_Msk : UInt32
  FMC_TIMEOUT_READ : Int32
  FMC_TIMEOUT_WRITE : Int32
  FMC_TIMEOUT_ERASE : Int32

variable (fmc : Fmc)

/-! ### Polling -/

/-- `timeout_cnt--`. No value is left where the counter would leave its 32 bits. -/
def decremented (timeout_cnt : Int32) : Option Int32 :=
  if timeout_cnt = Int32.minValue then none else some (timeout_cnt - 1)

/-- The loop on `FMC_ISPSTS_ISPBUSY_Msk`; returns whether it ended before its time-out. -/
def busyLoop : (rounds : Nat) → (timeout_cnt : Int32) → Prog registers Bool
  | 0, _ => .spin
  | rounds + 1, timeout_cnt => do
    let sts ← load .ISPSTS
    if sts &&& fmc.FMC_ISPSTS_ISPBUSY_Msk ≠ 0 then
      match decremented timeout_cnt with
      | none => .spin
      | some left => if timeout_cnt ≤ 0 then .ret false else busyLoop rounds left
    else .ret true

/-- What the three commands have behind their trigger: the wait, and the look at the failure flag. The counter
    goes down in every round of the wait, so its first value and one more are enough. -/
def wait (timeout : Int32) : Prog registers Int32 := do
  let ended ← busyLoop fmc (timeout.toInt.toNat + 1) timeout
  if !ended then .ret NVT_NVMC_TIMEOUT else
    let sts ← load .ISPSTS
    if sts &&& fmc.FMC_ISPSTS_ISPFF_Msk ≠ 0 then
      -- FMC->ISPSTS |= FMC_ISPSTS_ISPFF_Msk
      let sts ← load .ISPSTS
      store .ISPSTS (sts ||| fmc.FMC_ISPSTS_ISPFF_Msk)
      .ret NVT_NVMC_ISPFF
    else .ret NVT_NVMC_OK

/-! ### Commands -/

/-- `data` is what the pointer points to, nothing for NULL. -/
def NVT_FMC_Read (addr : UInt32) (data : Option UInt32) : Prog registers (Int32 × Option UInt32) :=
  match data with
  | none => .ret (NVT_NVMC_PARAMETER,none)
  | some data => do
    store .ISPCMD fmc.FMC_ISPCMD_READ
    store .ISPADDR addr
    store .ISPTRG fmc.FMC_ISPTRG_ISPGO_Msk
    let status ← wait fmc fmc.FMC_TIMEOUT_READ
    if status ≠ NVT_NVMC_OK then .ret (status,some data) else
      let dat ← load .ISPDAT
      .ret (NVT_NVMC_OK,some dat)

def NVT_FMC_Program (addr : UInt32) (dword : UInt64) : Prog registers Int32 := do
  store .ISPCMD fmc.FMC_ISPCMD_PROGRAM_64
  store .ISPADDR addr
  let ulbuf := (dword &&& 0xFFFFFFFF).toUInt32
  store .MPDAT0 ulbuf
  let ullbuf := dword &&& 0xFFFFFFFF00000000
  let ulbuf := (ullbuf >>> 32).toUInt32
  store .MPDAT1 ulbuf
  store .ISPTRG fmc.FMC_ISPTRG_ISPGO_Msk
  wait fmc fmc.FMC_TIMEOUT_WRITE

def NVT_FMC_Erase (addr : UInt32) : Prog registers Int32 := do
  store .ISPCMD fmc.FMC_ISPCMD_PAGE_ERASE
  store .ISPADDR addr
  store .ISPTRG fmc.FMC_ISPTRG_ISPGO_Msk
  wait fmc fmc.FMC_TIMEOUT_ERASE

/-! ### Any status register -/

/-- How often `ISPSTS` has been read, and what has been written, in order. -/
structure Observed where
  loads : Nat
  stored : List (Register × UInt32)

def start : Observed := ⟨0,[]⟩

/-- A controller whose status register reads as the values of a sequence, one after the other. -/
def answering (statuses : Nat → UInt32) (dat : UInt32) : Machine registers Observed
  | .load .ISPSTS, s => (statuses s.loads,{ s with loads := s.loads + 1 })
  | .load .ISPDAT, s => (dat,s)
  | .load _, s => (0,s)
  | .store r v, s => ((),{ s with stored := s.stored ++ [(r,v)] })

def Busy (sts : UInt32) : Prop := sts &&& fmc.FMC_ISPSTS_ISPBUSY_Msk ≠ 0
/-- The busy flag is seen clear for the first time at the poll `n`, counted from 0. -/
def ClearAt (statuses : Nat → UInt32) (n : Nat) : Prop := ¬ Busy fmc (statuses n) ∧ ∀ j < n, Busy fmc (statuses j)

/-- What a result of a command with the time-out `T` says about the status register, how often that was read, and
    what is written to it. -/
structure Truthful (statuses : Nat → UInt32) (T : Int32) (rc : Int32) (s : Observed) : Prop where
  ok : rc = NVT_NVMC_OK ↔ ∃ n ≤ T.toInt.toNat, ClearAt fmc statuses n ∧ statuses (n + 1) &&& fmc.FMC_ISPSTS_ISPFF_Msk = 0
  ispff : rc = NVT_NVMC_ISPFF ↔ ∃ n ≤ T.toInt.toNat, ClearAt fmc statuses n ∧ statuses (n + 1) &&& fmc.FMC_ISPSTS_ISPFF_Msk ≠ 0
  timeout : rc = NVT_NVMC_TIMEOUT ↔ ∀ n ≤ T.toInt.toNat, Busy fmc (statuses n)
  polls : ∃ n ≤ T.toInt.toNat + 1, (∀ j < n, Busy fmc (statuses j)) ∧
    (rc = NVT_NVMC_TIMEOUT ∧ s.loads = n ∨ rc ≠ NVT_NVMC_TIMEOUT ∧ ¬ Busy fmc (statuses n) ∧ s.loads ≤ n + 3)
  cleared : rc = NVT_NVMC_ISPFF → ∃ before, s.stored = before ++
    [(.ISPSTS,statuses (s.loads - 1) ||| fmc.FMC_ISPSTS_ISPFF_Msk)]

variable {fmc}

theorem decremented_eq {timeout_cnt : Int32} {left : Nat} (count : timeout_cnt.toInt = left) :
    decremented timeout_cnt = some (timeout_cnt - 1) ∧ (0 < left → (timeout_cnt - 1).toInt = (left - 1 : Nat)) := by
  have other : timeout_cnt ≠ Int32.minValue := by
    rintro rfl
    have : Int32.minValue.toInt = -2 ^ 31 := by decide
    omega
  refine ⟨if_neg other,fun more => ?_⟩
  have high := timeout_cnt.toInt_lt
  have one : (1 : Int32).toInt = 1 := rfl
  rw [Int32.toInt_sub,one,Int.bmod_eq_of_le] <;> omega

section
variable {statuses : Nat → UInt32} {dat : UInt32} {rounds : Nat} {timeout_cnt : Int32} {s : Observed}

theorem run_clear (clear : ¬ Busy fmc (statuses s.loads)) :
    (busyLoop fmc (rounds + 1) timeout_cnt).run (answering statuses dat) s = some (true,{ s with loads := s.loads + 1 }) := by
  unfold Busy at clear
  unfold busyLoop
  rw [call_bind,run_call]
  dsimp only [answering,ret_bind]
  rw [if_neg clear]
  rfl

/-- A busy poll is the last one when the counter is at 0, and takes one off it otherwise. -/
theorem run_busy (busy : Busy fmc (statuses s.loads)) {left : Nat} (count : timeout_cnt.toInt = left) :
    (busyLoop fmc (rounds + 1) timeout_cnt).run (answering statuses dat) s =
      if left = 0 then some (false,{ s with loads := s.loads + 1 })
      else (busyLoop fmc rounds (timeout_cnt - 1)).run (answering statuses dat) { s with loads := s.loads + 1 } := by
  have last : timeout_cnt ≤ 0 ↔ left = 0 := by
    have zero : (0 : Int32).toInt = 0 := rfl
    rw [Int32.le_iff_toInt_le,count,zero]
    omega
  unfold Busy at busy
  conv_lhs => unfold busyLoop
  rw [call_bind,run_call]
  dsimp only [answering,ret_bind]
  rw [if_pos busy,(decremented_eq count).1]
  dsimp only
  by_cases done : left = 0
  · rw [if_pos (last.mpr done),if_pos done]
    rfl
  · rw [if_neg (mt last.mp done),if_neg done]

end

/-- The wait ends at the first poll with the busy flag clear, or with the poll behind its bound. -/
theorem run_busyLoop (statuses : Nat → UInt32) (dat : UInt32) (left : Nat) : ∀ (rounds : Nat) (timeout_cnt : Int32) (s : Observed),
    left < rounds → timeout_cnt.toInt = left →
    (∃ n ≤ left, ¬ Busy fmc (statuses (s.loads + n)) ∧ (∀ j < n, Busy fmc (statuses (s.loads + j))) ∧
      (busyLoop fmc rounds timeout_cnt).run (answering statuses dat) s = some (true,{ s with loads := s.loads + n + 1 })) ∨
    (∀ j ≤ left, Busy fmc (statuses (s.loads + j))) ∧
      (busyLoop fmc rounds timeout_cnt).run (answering statuses dat) s = some (false,{ s with loads := s.loads + left + 1 }) := by
  induction left with
  | zero =>
    rintro (_ | rounds) timeout_cnt s enough count
    · omega
    · by_cases busy : Busy fmc (statuses s.loads)
      · refine .inr ⟨fun j none => ?_,?_⟩
        · obtain rfl := Nat.le_zero.mp none
          exact busy
        · rw [run_busy busy count,if_pos rfl]
      · exact .inl ⟨0,Nat.le_refl 0,busy,fun j none => absurd none (Nat.not_lt_zero j),run_clear busy⟩
  | succ left ih =>
    rintro (_ | rounds) timeout_cnt s enough count
    · omega
    · by_cases busy : Busy fmc (statuses s.loads)
      · have next := (decremented_eq count).2 (Nat.succ_pos left)
        have shift : ∀ j, s.loads + 1 + j = s.loads + (j + 1) := fun j => by omega
        have before : ∀ {m : Nat}, (∀ j < m, Busy fmc (statuses (s.loads + 1 + j))) →
            ∀ j < m + 1, Busy fmc (statuses (s.loads + j)) := by
          intro m rest j inside
          cases j with
          | zero => exact busy
          | succ j =>
            rw [← shift]
            exact rest j (by omega)
        rw [run_busy busy count,if_neg (Nat.succ_ne_zero left)]
        rcases ih rounds (timeout_cnt - 1) { s with loads := s.loads + 1 } (by omega) next with
          ⟨n,part,clear,rest,ran⟩ | ⟨rest,ran⟩
        · refine .inl ⟨n + 1,Nat.succ_le_succ part,?_,before rest,?_⟩
          · rw [← shift]
            exact clear
          · rw [ran]
            dsimp only
            rw [shift]
        · refine .inr ⟨fun j inside => ?_,?_⟩
          · exact before (fun k below => rest k (Nat.le_of_lt_succ below)) j (by omega)
          · rw [ran]
            dsimp only
            rw [shift]
      · exact .inl ⟨0,Nat.zero_le _,busy,fun j none => absurd none (Nat.not_lt_zero j),run_clear busy⟩

section
variable {statuses : Nat → UInt32} {T : Int32} {n : Nat} {s : Observed}

theorem clearAt_unique {m : Nat} (first : ClearAt fmc statuses n) (second : ClearAt fmc statuses m) : m = n := by
  rcases Nat.lt_trichotomy m n with less | same | more
  · exact absurd (first.2 m less) second.1
  · exact same
  · exact absurd (second.2 n more) first.1

/-- Behind a poll in time with the busy flag clear the failure flag decides. -/
theorem truthful_clear (part : n ≤ T.toInt.toNat) (clearAt : ClearAt fmc statuses n) (loads : s.loads ≤ n + 3)
    (cleared : statuses (n + 1) &&& fmc.FMC_ISPSTS_ISPFF_Msk ≠ 0 → ∃ before, s.stored = before ++
      [(.ISPSTS,statuses (s.loads - 1) ||| fmc.FMC_ISPSTS_ISPFF_Msk)]) :
    Truthful fmc statuses T
      (if statuses (n + 1) &&& fmc.FMC_ISPSTS_ISPFF_Msk ≠ 0 then NVT_NVMC_ISPFF else NVT_NVMC_OK) s := by
  have ended : ¬ ∀ m ≤ T.toInt.toNat, Busy fmc (statuses m) := fun all => clearAt.1 (all n part)
  have here : ∀ {P : Nat → Prop}, (∃ m ≤ T.toInt.toNat, ClearAt fmc statuses m ∧ P m) ↔ P n := by
    intro P
    constructor
    · rintro ⟨m,_,clearAt',holds⟩
      rwa [← clearAt_unique clearAt clearAt']
    · exact fun holds => ⟨n,part,clearAt,holds⟩
  have polls : ∀ rc, rc ≠ NVT_NVMC_TIMEOUT → ∃ n ≤ T.toInt.toNat + 1, (∀ j < n, Busy fmc (statuses j)) ∧
      (rc = NVT_NVMC_TIMEOUT ∧ s.loads = n ∨ rc ≠ NVT_NVMC_TIMEOUT ∧ ¬ Busy fmc (statuses n) ∧ s.loads ≤ n + 3) :=
    fun rc other => ⟨n,Nat.le_succ_of_le part,clearAt.2,.inr ⟨other,clearAt.1,loads⟩⟩
  by_cases flag : statuses (n + 1) &&& fmc.FMC_ISPSTS_ISPFF_Msk ≠ 0
  · rw [if_pos flag]
    refine ⟨?_,?_,?_,polls _ (by decide),fun _ => cleared flag⟩
    · rw [here]
      exact ⟨fun wrong => absurd wrong (by decide),fun off => absurd off flag⟩
    · rw [here]
      exact ⟨fun _ => flag,fun _ => rfl⟩
    · exact ⟨fun wrong => absurd wrong (by decide),fun all => absurd all ended⟩
  · rw [if_neg flag]
    refine ⟨?_,?_,?_,polls _ (by decide),fun wrong => absurd wrong (by decide)⟩
    · rw [here]
      exact ⟨fun _ => not_not.mp flag,fun _ => rfl⟩
    · rw [here]
      exact ⟨fun wrong => absurd wrong (by decide),fun on => absurd on flag⟩
    · exact ⟨fun wrong => absurd wrong (by decide),fun all => absurd all ended⟩

/-- With the busy flag set in all polls there is nothing but the time-out. -/
theorem truthful_busy (busy : ∀ j ≤ T.toInt.toNat, Busy fmc (statuses j)) (loads : s.loads = T.toInt.toNat + 1) :
    Truthful fmc statuses T NVT_NVMC_TIMEOUT s := by
  have never : ∀ {P : Nat → Prop}, ¬ ∃ m ≤ T.toInt.toNat, ClearAt fmc statuses m ∧ P m := by
    rintro P ⟨m,inside,clearAt,_⟩
    exact clearAt.1 (busy m inside)
  refine ⟨?_,?_,⟨fun _ => busy,fun _ => rfl⟩,?_,fun wrong => absurd wrong (by decide)⟩
  · exact ⟨fun wrong => absurd wrong (by decide),fun some => absurd some never⟩
  · exact ⟨fun wrong => absurd wrong (by decide),fun some => absurd some never⟩
  · exact ⟨_,Nat.le_refl _,fun j inside => busy j (Nat.le_of_lt_succ inside),.inl ⟨rfl,loads⟩⟩

end

theorem count_of_nonneg {T : Int32} (nonneg : 0 ≤ T) : T.toInt = T.toInt.toNat := by
  have zero : (0 : Int32).toInt = 0 := rfl
  rw [Int32.le_iff_toInt_le,zero] at nonneg
  omega

/-- A wait that starts before the first look at the status register. -/
theorem run_wait {T : Int32} (nonneg : 0 ≤ T) (statuses : Nat → UInt32) (dat : UInt32) (stored : List (Register × UInt32)) :
    ∃ rc s', (wait fmc T).run (answering statuses dat) ⟨0,stored⟩ = some (rc,s') ∧ Truthful fmc statuses T rc s' := by
  have count := count_of_nonneg nonneg
  unfold wait
  rcases run_busyLoop statuses dat T.toInt.toNat (T.toInt.toNat + 1) T ⟨0,stored⟩ (Nat.lt_succ_self _) count with
    ⟨n,part,clear,rest,ran⟩ | ⟨busy,ran⟩
  · simp only [Nat.zero_add] at clear rest ran
    rw [run_bind_of_eq ran]
    by_cases flag : statuses (n + 1) &&& fmc.FMC_ISPSTS_ISPFF_Msk ≠ 0
    · have truthful := @truthful_clear fmc statuses T n
        ⟨n + 3,stored ++ [(.ISPSTS,statuses (n + 2) ||| fmc.FMC_ISPSTS_ISPFF_Msk)]⟩ part ⟨clear,rest⟩ (Nat.le_refl _)
        fun _ => ⟨stored,rfl⟩
      rw [if_pos flag] at truthful
      refine ⟨_,_,?_,truthful⟩
      show run _ (if statuses (n + 1) &&& fmc.FMC_ISPSTS_ISPFF_Msk ≠ 0 then _ else _) _ = _
      rw [if_pos flag]
      rfl
    · have truthful := @truthful_clear fmc statuses T n ⟨n + 2,stored⟩ part ⟨clear,rest⟩ (Nat.le_succ _)
        fun on => absurd on flag
      rw [if_neg flag] at truthful
      refine ⟨_,_,?_,truthful⟩
      show run _ (if statuses (n + 1) &&& fmc.FMC_ISPSTS_ISPFF_Msk ≠ 0 then _ else _) _ = _
      rw [if_neg flag]
      rfl
  · simp only [Nat.zero_add] at busy ran
    rw [run_bind_of_eq ran]
    exact ⟨_,_,rfl,truthful_busy busy rfl⟩

/-- Each command returns, and its result is what its polls have seen; a read stores a word only with
    `NVT_NVMC_OK`, and one without a place to store it makes no access at all. -/
theorem commands_truthful (read : 0 ≤ fmc.FMC_TIMEOUT_READ) (write : 0 ≤ fmc.FMC_TIMEOUT_WRITE)
    (erase : 0 ≤ fmc.FMC_TIMEOUT_ERASE) (statuses : Nat → UInt32) (dat addr data : UInt32) (dword : UInt64) :
    (∃ rc s', (NVT_FMC_Read fmc addr (some data)).run (answering statuses dat) start =
      some ((rc,some (if rc = NVT_NVMC_OK then dat else data)),s') ∧ Truthful fmc statuses fmc.FMC_TIMEOUT_READ rc s') ∧
    (∃ rc s', (NVT_FMC_Program fmc addr dword).run (answering statuses dat) start = some (rc,s') ∧
      Truthful fmc statuses fmc.FMC_TIMEOUT_WRITE rc s') ∧
    (∃ rc s', (NVT_FMC_Erase fmc addr).run (answering statuses dat) start = some (rc,s') ∧
      Truthful fmc statuses fmc.FMC_TIMEOUT_ERASE rc s') ∧
    NVT_FMC_Read fmc addr none = .ret (NVT_NVMC_PARAMETER,none) := by
  refine ⟨?_,?_,?_,rfl⟩
  · obtain ⟨rc,s',ran,truthful⟩ := run_wait read statuses dat
      [(.ISPCMD,fmc.FMC_ISPCMD_READ),(.ISPADDR,addr),(.ISPTRG,fmc.FMC_ISPTRG_ISPGO_Msk)]
    refine ⟨rc,s',?_,truthful⟩
    refine (run_bind_of_eq ran _).trans ?_
    by_cases done : rc = NVT_NVMC_OK
    · rw [if_neg (not_not.mpr done),if_pos done,done]
      rfl
    · rw [if_pos done,if_neg done]
      rfl
  · exact run_wait write statuses dat _
  · exact run_wait erase statuses dat _

/-! ### An example controller -/

def fmcRegisters : Fmc where
  FMC_ISPCMD_READ := 0x00
  FMC_ISPCMD_PROGRAM_64 := 0x61
  FMC_ISPCMD_PAGE_ERASE := 0x22
  FMC_ISPTRG_ISPGO_Msk := 0x01
  FMC_ISPSTS_ISPBUSY_Msk := 0x01
  FMC_ISPSTS_ISPFF_Msk := 0x40
  FMC_TIMEOUT_READ := 4
  FMC_TIMEOUT_WRITE := 4
  FMC_TIMEOUT_ERASE := 4

/-- Four busy polls under a bound of 4, and then the failure flag. -/
theorem commands_truthful_late : ∃ rc s', (NVT_FMC_Erase fmcRegisters 0x800).run
    (answering (fun k => if k < 4 then 1 else 0x40) 0) start = some (rc,s') ∧
    Truthful fmcRegisters (fun k => if k < 4 then 1 else 0x40) 4 rc s' :=
  (@commands_truthful fmcRegisters (by decide) (by decide) (by decide) (fun k => if k < 4 then 1 else 0x40) 0 0x800 0 0).2.2.1

end NuMicroBoot.FmcDrv
