import NuMicroBoot.FmcDrv
import NuMicroBoot.RmcDrv
import NuMicroBoot.Simulation

/-!
The FMC behind its registers. A command may fail, which its failure flag tells,
or outlast the time-out that the back end waits for it with; either way it
leaves its own unit or page in any state.
-/

namespace NuMicroBoot.FmcParts
open NuMicroBoot.Calls NuMicroBoot.Calls.Prog NuMicroBoot.Cells NuMicroBoot.Words NuMicroBoot.Nvmc
open NuMicroBoot.FmcDrv NuMicroBoot.RmcDrv NuMicroBoot.Simulation

/-! ### The controller -/

/-- The controller: its registers, for how many polls the command in progress keeps it busy, and the flash. -/
structure Controller where
  ISPCMD : UInt32
  ISPADDR : UInt32
  ISPDAT : UInt32
  MPDAT0 : UInt32
  MPDAT1 : UInt32
  left : Nat
  content : Content

/-- The controller with its failure flag, how many commands the back end has to report as failed, and whether one has
    outlasted its time-out. -/
structure Failing where
  controller : Controller
  ISPFF : Bool
  failures : Nat
  outlasted : Bool

abbrev Failing.content (s : Failing) : Content := s.controller.content

/-- Between two calls: only a command that has outlasted its time-out leaves the flag set. -/
def Failing.Ready (s : Failing) : Prop := s.outlasted = false → s.ISPFF = false

variable (fmc : Fmc) (bsp : Bsp)

/-- `PROGRAM_64` stores two little-endian words, as old AND new. -/
def program64 (M : Content) (addr : Nat) (MPDAT0 MPDAT1 : UInt32) : Content :=
  combine (· &&& ·) (combine (· &&& ·) M addr (wordBytes MPDAT0) 4) (addr + 4) (wordBytes MPDAT1) 4

/-- What the command in `ISPCMD` does once it is triggered. -/
def Controller.executed (s : Controller) : Controller :=
  if s.ISPCMD = fmc.FMC_ISPCMD_READ then { s with ISPDAT := wordAt s.content s.ISPADDR.toNat }
  else if s.ISPCMD = fmc.FMC_ISPCMD_PROGRAM_64 then
    { s with content := program64 s.content s.ISPADDR.toNat s.MPDAT0 s.MPDAT1 }
  else if s.ISPCMD = fmc.FMC_ISPCMD_PAGE_ERASE then { s with content := erased bsp s.content s.ISPADDR }
  else s

/-- The time-out that a command is waited for with. -/
def Controller.timeout (s : Controller) : Int32 :=
  if s.ISPCMD = fmc.FMC_ISPCMD_READ then fmc.FMC_TIMEOUT_READ
  else if s.ISPCMD = fmc.FMC_ISPCMD_PROGRAM_64 then fmc.FMC_TIMEOUT_WRITE
  else fmc.FMC_TIMEOUT_ERASE

/-- What a command may leave that fails or is given up. -/
inductive Spoiled (s : Controller) : Controller → Prop
  | mk (dat : UInt32) (content : Content)
      (program : s.ISPCMD = fmc.FMC_ISPCMD_PROGRAM_64 → SameOutside s.ISPADDR.toNat 8 s.content content)
      (erase : s.ISPCMD = fmc.FMC_ISPCMD_PAGE_ERASE →
        SameOutside (pageStart bsp s.ISPADDR) bsp.FLASH_PAGE_SIZE.toNat s.content content)
      (other : s.ISPCMD ≠ fmc.FMC_ISPCMD_PROGRAM_64 → s.ISPCMD ≠ fmc.FMC_ISPCMD_PAGE_ERASE → content = s.content) :
      Spoiled s { s with ISPDAT := dat, content := content }

/-- A command is on its way, for `left` polls. It is reported as failed where the flag is set at its end, be it by an earlier
    command, and where it outlasts its time-out. -/
def Failing.triggered (s : Failing) (after : Controller) (left : Nat) (failed : Bool) : Failing :=
  let late := decide ((s.controller.timeout fmc).toInt.toNat < left)
  { controller := { after with left := left }
    ISPFF := s.ISPFF || failed
    failures := s.failures + if s.ISPFF || failed || late then 1 else 0
    outlasted := s.outlasted || late }

/-- The hardware. A trigger starts its command; one that has outlasted its time-out is over by then. The flag is seen when
    the command is over, and writing it clears it. -/
def failing : Device registers Failing
  | .load .ISPSTS, s, a, s' =>
    if s.controller.left = 0 then
      ¬ Busy fmc a ∧ (a &&& fmc.FMC_ISPSTS_ISPFF_Msk ≠ 0 ↔ s.ISPFF = true) ∧ s' = s
    else Busy fmc a ∧ s' = { s with controller := { s.controller with left := s.controller.left - 1 } }
  | .load .ISPDAT, s, a, s' => a = s.controller.ISPDAT ∧ s' = s
  | .load _, s, _, s' => s' = s
  | .store .ISPCMD v, s, _, s' => s' = { s with controller := { s.controller with ISPCMD := v } }
  | .store .ISPADDR v, s, _, s' => s' = { s with controller := { s.controller with ISPADDR := v } }
  | .store .MPDAT0 v, s, _, s' => s' = { s with controller := { s.controller with MPDAT0 := v } }
  | .store .MPDAT1 v, s, _, s' => s' = { s with controller := { s.controller with MPDAT1 := v } }
  | .store .ISPSTS v, s, _, s' => s' = if v &&& fmc.FMC_ISPSTS_ISPFF_Msk ≠ 0 then { s with ISPFF := false } else s
  | .store .ISPTRG _, s, _, s' => ∃ after left failed, Spoiled fmc bsp s.controller after ∧
    (failed = false → after = s.controller.executed fmc bsp) ∧ s' = s.triggered fmc after left failed
  | .store _ _, s, _, s' => s' = s

/-- The commands are different numbers, the busy flag is a bit, and no time-out is negative. -/
structure Proper : Prop where
  program : fmc.FMC_ISPCMD_PROGRAM_64 ≠ fmc.FMC_ISPCMD_READ
  erase : fmc.FMC_ISPCMD_PAGE_ERASE ≠ fmc.FMC_ISPCMD_READ ∧ fmc.FMC_ISPCMD_PAGE_ERASE ≠ fmc.FMC_ISPCMD_PROGRAM_64
  busy : fmc.FMC_ISPSTS_ISPBUSY_Msk ≠ 0
  timeouts : 0 ≤ fmc.FMC_TIMEOUT_READ ∧ 0 ≤ fmc.FMC_TIMEOUT_WRITE ∧ 0 ≤ fmc.FMC_TIMEOUT_ERASE

/-- The failure flag is a bit of its own. -/
def OwnFlag : Prop :=
  fmc.FMC_ISPSTS_ISPFF_Msk ≠ 0 ∧ fmc.FMC_ISPSTS_ISPFF_Msk &&& fmc.FMC_ISPSTS_ISPBUSY_Msk = 0

/-- `data` is what the driver's uninitialised variable for the word holds. -/
def fmc_drv (data : UInt32) : (c : Call) → Prog registers (Answer c)
  | .NVT_NVMC_Read addr => do
    let (status,data') ← NVT_FMC_Read fmc addr (some data)
    .ret (status,data'.getD data)
  | .NVT_NVMC_Program addr dword => NVT_FMC_Program fmc addr dword
  | .NVT_NVMC_Erase addr => NVT_FMC_Erase fmc addr

variable {fmc bsp}

/-! ### What a command does -/

theorem high_bytes (dword : UInt64) (k : Nat) :
    wordBytes ((dword &&& 0xFFFFFFFF00000000) >>> 32).toUInt32 k = dwordBytes dword (4 + k) := by
  rw [wordBytes,dwordBytes,high_word]
  exact byteAt_div dword.toNat 4 k

/-- The two halves of a double word, each to its register, are stored side by side. -/
theorem program64_halves (type : bsp.type = .FMC) (M : Content) (addr : UInt32) (dword : UInt64) :
    program64 M addr.toNat (dword &&& 0xFFFFFFFF).toUInt32 ((dword &&& 0xFFFFFFFF00000000) >>> 32).toUInt32 =
      programmed bsp M addr dword := by
  have unit : (NVT_NVMC_PROGRAM_UNIT bsp).toNat = 4 + 4 := by
    rw [NVT_NVMC_PROGRAM_UNIT,type]
    rfl
  have low : combine (· &&& ·) M addr.toNat (wordBytes (dword &&& 0xFFFFFFFF).toUInt32) 4 =
      combine (· &&& ·) M addr.toNat (dwordBytes dword) 4 := combine_congr fun k inside => low_bytes dword inside
  have high : wordBytes ((dword &&& 0xFFFFFFFF00000000) >>> 32).toUInt32 = fun k => dwordBytes dword (4 + k) :=
    funext (high_bytes dword)
  rw [program64,low,high,combine_append,programmed,unit]

theorem program64_outside (M : Content) (addr : Nat) (MPDAT0 MPDAT1 : UInt32) :
    SameOutside addr 8 M (program64 M addr MPDAT0 MPDAT1) := by
  intro p outside
  rw [program64,combine_outside _ _ _ _ _ p (by omega),combine_outside _ _ _ _ _ p (by omega)]

/-- A command that is done has changed no more than one that fails may. -/
theorem executed_spoiled (proper : Proper fmc) (s : Controller) : Spoiled fmc bsp s (s.executed fmc bsp) := by
  unfold Controller.executed
  split_ifs with read program erase
  · refine .mk _ _ (fun command => ?_) (fun command => ?_) fun _ _ => rfl
    · exact absurd (command.symm.trans read) proper.program
    · exact absurd (command.symm.trans read) proper.erase.1
  · refine .mk s.ISPDAT _ (fun _ => program64_outside _ _ _ _) (fun command => ?_) fun other => absurd program other
    exact absurd (command.symm.trans program) proper.erase.2
  · exact .mk s.ISPDAT _ (fun command => absurd command program) (fun _ => fill_outside _ _ _ _) fun _ other => absurd erase other
  · exact .mk s.ISPDAT s.content (fun _ _ _ => rfl) (fun _ _ _ => rfl) fun _ _ => rfl

section
variable {s : Controller}

theorem executed_read (command : s.ISPCMD = fmc.FMC_ISPCMD_READ) :
    s.executed fmc bsp = { s with ISPDAT := wordAt s.content s.ISPADDR.toNat } := if_pos command

theorem executed_program (proper : Proper fmc) (command : s.ISPCMD = fmc.FMC_ISPCMD_PROGRAM_64) :
    s.executed fmc bsp = { s with content := program64 s.content s.ISPADDR.toNat s.MPDAT0 s.MPDAT1 } := by
  unfold Controller.executed
  rw [command,if_neg proper.program,if_pos rfl]

theorem executed_erase (proper : Proper fmc) (command : s.ISPCMD = fmc.FMC_ISPCMD_PAGE_ERASE) :
    s.executed fmc bsp = { s with content := erased bsp s.content s.ISPADDR } := by
  unfold Controller.executed
  rw [command,if_neg proper.erase.1,if_neg proper.erase.2,if_pos rfl]

theorem timeout_program (proper : Proper fmc) (command : s.ISPCMD = fmc.FMC_ISPCMD_PROGRAM_64) :
    s.timeout fmc = fmc.FMC_TIMEOUT_WRITE := by
  unfold Controller.timeout
  rw [command,if_neg proper.program,if_pos rfl]

theorem timeout_erase (proper : Proper fmc) (command : s.ISPCMD = fmc.FMC_ISPCMD_PAGE_ERASE) :
    s.timeout fmc = fmc.FMC_TIMEOUT_ERASE := by
  unfold Controller.timeout
  rw [command,if_neg proper.erase.1,if_neg proper.erase.2]

end

theorem failing_answers (proper : Proper fmc) (own : OwnFlag fmc) (c : FmcCall) (s : Failing) :
    ∃ a s', failing fmc bsp c s a s' := by
  cases c with
  | load r =>
    cases r with
    | ISPSTS =>
      by_cases idle : s.controller.left = 0
      · simp only [failing,if_pos idle]
        cases flag : s.ISPFF
        · exact ⟨0,s,by simp [Busy],by simp,rfl⟩
        · refine ⟨fmc.FMC_ISPSTS_ISPFF_Msk,s,?_,?_,rfl⟩
          · unfold Busy
            rw [own.2]
            exact fun same => same rfl
          · rw [UInt32.and_self]
            simp [own.1]
      · simp only [failing,if_neg idle]
        refine ⟨fmc.FMC_ISPSTS_ISPBUSY_Msk,_,?_,rfl⟩
        unfold Busy
        rw [UInt32.and_self]
        exact proper.busy
    | ISPDAT => exact ⟨_,_,rfl,rfl⟩
    | _ => exact ⟨0,s,rfl⟩
  | store r v =>
    cases r with
    | ISPTRG => exact ⟨(),_,_,0,false,executed_spoiled proper _,fun _ => rfl,rfl⟩
    | _ => exact ⟨(),_,rfl⟩

/-! ### Waiting for a command -/

section
variable {K : Content → Prop}

/-- The content keeps a property. -/
def Keeps (K : Content → Prop) (s : Failing) : Prop := K s.content

/-- The controller after so many polls. -/
def Failing.polled (s : Failing) (polls : Nat) : Failing :=
  { s with controller := { s.controller with left := s.controller.left - polls } }

/-- The status of a controller that is idle, and of one that is busy. -/
theorem read_idle {s s' : Failing} {a : UInt32} (answered : failing fmc bsp (.load .ISPSTS) s a s')
    (idle : s.controller.left = 0) :
    ¬ Busy fmc a ∧ (a &&& fmc.FMC_ISPSTS_ISPFF_Msk ≠ 0 ↔ s.ISPFF = true) ∧ s' = s := (if_pos idle).mp answered
theorem read_busy {s s' : Failing} {a : UInt32} (answered : failing fmc bsp (.load .ISPSTS) s a s')
    (busy : s.controller.left ≠ 0) : Busy fmc a ∧ s' = s.polled 1 := (if_neg busy).mp answered

theorem polled_idle {s : Failing} (idle : s.controller.left = 0) (polls : Nat) : s.polled polls = s := by
  unfold Failing.polled
  rw [idle,Nat.zero_sub,← idle]

theorem polled_polled (s : Failing) (polls more : Nat) : (s.polled polls).polled more = s.polled (polls + more) := by
  unfold Failing.polled
  rw [← Nat.sub_sub]

/-- A wait with the counter at `k` sees the end of a command that is over after `k` polls, and gives up otherwise. -/
theorem wp_busyLoop (k : Nat) : ∀ (rounds : Nat) (timeout_cnt : Int32) (s : Failing), K s.content → k < rounds →
    timeout_cnt.toInt = k → (busyLoop fmc rounds timeout_cnt).Wp (failing fmc bsp) (Keeps K)
      (fun ended s' => ended = decide (s.controller.left ≤ k) ∧ s' = s.polled (k + 1)) s := by
  have idle : ∀ (k rounds : Nat) (timeout_cnt : Int32) (s : Failing), K s.content → s.controller.left = 0 →
      (busyLoop fmc (rounds + 1) timeout_cnt).Wp (failing fmc bsp) (Keeps K)
        (fun ended s' => ended = decide (s.controller.left ≤ k) ∧ s' = s.polled (k + 1)) s := by
    intro k rounds timeout_cnt s kept none
    refine ⟨kept,fun a s' answered => ?_⟩
    obtain ⟨clear,_,rfl⟩ := read_idle answered none
    unfold Busy at clear
    show (if a &&& fmc.FMC_ISPSTS_ISPBUSY_Msk ≠ 0 then _ else _ : Prog registers Bool).Wp _ _ _ _
    rw [if_neg clear]
    exact ⟨kept,by rw [none]; simp,(polled_idle none _).symm⟩
  induction k with
  | zero =>
    rintro (_ | rounds) timeout_cnt s kept enough count
    · omega
    · by_cases none : s.controller.left = 0
      · exact idle 0 rounds timeout_cnt s kept none
      · have zero : (0 : Int32).toInt = 0 := rfl
        have last : timeout_cnt ≤ 0 := by
          rw [Int32.le_iff_toInt_le,count,zero]
          omega
        refine ⟨kept,fun a s' answered => ?_⟩
        obtain ⟨set,rfl⟩ := read_busy answered none
        unfold Busy at set
        show (if a &&& fmc.FMC_ISPSTS_ISPBUSY_Msk ≠ 0 then _ else _ : Prog registers Bool).Wp _ _ _ _
        rw [if_pos set,(decremented_eq count).1]
        dsimp only
        rw [if_pos last]
        exact ⟨kept,by simp [none],rfl⟩
  | succ k ih =>
    rintro (_ | rounds) timeout_cnt s kept enough count
    · omega
    · by_cases none : s.controller.left = 0
      · exact idle (k + 1) rounds timeout_cnt s kept none
      · obtain ⟨next,less⟩ := decremented_eq count
        have positive : ¬ timeout_cnt ≤ 0 := by
          have zero : (0 : Int32).toInt = 0 := rfl
          rw [Int32.le_iff_toInt_le,count,zero]
          omega
        refine ⟨kept,fun a s' answered => ?_⟩
        obtain ⟨set,rfl⟩ := read_busy answered none
        unfold Busy at set
        show (if a &&& fmc.FMC_ISPSTS_ISPBUSY_Msk ≠ 0 then _ else _ : Prog registers Bool).Wp _ _ _ _
        rw [if_pos set,next]
        dsimp only
        rw [if_neg positive]
        refine wp_mono (ih rounds (timeout_cnt - 1) (s.polled 1) kept (by omega) (less (by omega))) ?_
        rintro ended s' ⟨rfl,rfl⟩
        rw [polled_polled,Nat.add_comm 1]
        refine ⟨?_,rfl⟩
        have shift : (s.polled 1).controller.left ≤ k ↔ s.controller.left ≤ k + 1 := by
          show s.controller.left - 1 ≤ k ↔ _
          omega
        exact decide_eq_decide.mpr shift

/-- What a wait of `n` polls tells of the command in progress, and what it leaves: a flag that it has seen is clear. -/
structure Waited (n : Nat) (s : Failing) (rc : Int32) (s' : Failing) : Prop where
  inTime : s.controller.left ≤ n → rc = (if s.ISPFF = true then NVT_NVMC_ISPFF else NVT_NVMC_OK) ∧
    s' = { s.polled (n + 1) with ISPFF := false }
  late : n < s.controller.left → rc = NVT_NVMC_TIMEOUT ∧ s' = s.polled (n + 1)

theorem wp_wait {T : Int32} (nonneg : 0 ≤ T) {s : Failing} (kept : K s.content) :
    (wait fmc T).Wp (failing fmc bsp) (Keeps K) (Waited T.toInt.toNat s) s := by
  unfold wait
  refine wp_bind (wp_busyLoop T.toInt.toNat _ T s kept (Nat.lt_succ_self _) (count_of_nonneg nonneg)) ?_
  rintro ended s' _ ⟨rfl,rfl⟩
  by_cases inTime : s.controller.left ≤ T.toInt.toNat
  · rw [decide_eq_true inTime]
    have spent : (s.polled (T.toInt.toNat + 1)).controller.left = 0 := Nat.sub_eq_zero_of_le (Nat.le_succ_of_le inTime)
    refine ⟨kept,fun a s' answered => ?_⟩
    obtain ⟨_,flag,rfl⟩ := read_idle answered spent
    show (if a &&& fmc.FMC_ISPSTS_ISPFF_Msk ≠ 0 then _ else _ : Prog registers Int32).Wp _ _ _ _
    refine wp_ite (fun set => ?_) fun clear => ?_
    · refine ⟨kept,fun b s' again => ?_⟩
      obtain ⟨_,_,rfl⟩ := read_idle again spent
      refine ⟨kept,fun _ s' stored => ?_⟩
      have own : fmc.FMC_ISPSTS_ISPFF_Msk ≠ 0 := fun none => set (by rw [none,UInt32.and_zero])
      have cleared : s' = { s.polled (T.toInt.toNat + 1) with ISPFF := false } := stored.trans (if_pos (bit_set own b))
      subst cleared
      exact ⟨kept,fun _ => ⟨(if_pos (flag.mp set)).symm,rfl⟩,fun late => absurd inTime (Nat.not_le.mpr late)⟩
    · have off : s.ISPFF = false := Bool.eq_false_iff.mpr (mt flag.mpr clear)
      refine ⟨kept,fun _ => ⟨?_,?_⟩,fun late => absurd inTime (Nat.not_le.mpr late)⟩
      · rw [off]
        rfl
      · rw [← off]
        rfl
  · rw [decide_eq_false inTime]
    exact ⟨kept,fun before => absurd before inTime,fun _ => ⟨rfl,rfl⟩⟩

/-! ### Commands -/

/-- How a command ends: done, or reported as failed with what that leaves. -/
inductive Ended (fmc : Fmc) (bsp : Bsp) (s : Failing) : Int32 → Failing → Prop
  | done : Ended fmc bsp s NVT_NVMC_OK ⟨{ s.controller.executed fmc bsp with left := 0 },false,s.failures,s.outlasted⟩
  | failed (rc : Int32) (s' : Failing) (bad : rc ≠ NVT_NVMC_OK) (ready : s'.Ready) (counted : s'.failures = s.failures + 1)
      (after : Controller) (spoiled : Spoiled fmc bsp s.controller after) (content : s'.content = after.content) :
      Ended fmc bsp s rc s'

section
variable {s : Failing} {T : Int32} {after : Controller} {left : Nat} {failed : Bool} (timeout : s.controller.timeout fmc = T)
include timeout

theorem triggered_late (late : T.toInt.toNat < left) :
    s.triggered fmc after left failed = ⟨{ after with left := left },s.ISPFF || failed,s.failures + 1,true⟩ := by
  unfold Failing.triggered
  rw [timeout,decide_eq_true late]
  dsimp only
  rw [Bool.or_true,Bool.or_true,if_pos rfl]

theorem triggered_inTime (inTime : left ≤ T.toInt.toNat) : s.triggered fmc after left failed =
    ⟨{ after with left := left },s.ISPFF || failed,s.failures + if s.ISPFF || failed then 1 else 0,s.outlasted⟩ := by
  unfold Failing.triggered
  rw [timeout,decide_eq_false (Nat.not_lt.mpr inTime)]
  dsimp only
  rw [Bool.or_false,Bool.or_false]

end

/-- A command is triggered and waited for. -/
theorem wp_trigger {T : Int32} (nonneg : 0 ≤ T) {s : Failing} (kept : K s.content)
    (timeout : s.controller.timeout fmc = T) (spoiled : ∀ c, Spoiled fmc bsp s.controller c → K c.content) :
    (store .ISPTRG fmc.FMC_ISPTRG_ISPGO_Msk >>= fun _ => wait fmc T).Wp (failing fmc bsp) (Keeps K) (Ended fmc bsp s) s := by
  refine ⟨kept,fun _ s' triggered => ?_⟩
  obtain ⟨after,left,failed,bad,good,rfl⟩ := triggered
  refine wp_mono (wp_wait nonneg (spoiled after bad)) fun rc s' waited => ?_
  rcases Nat.lt_or_ge T.toInt.toNat left with late | inTime
  · obtain ⟨rfl,rfl⟩ := waited.late late
    rw [triggered_late timeout late]
    exact .failed _ _ (by decide) (fun never => nomatch never) rfl after bad rfl
  · obtain ⟨rfl,rfl⟩ := waited.inTime inTime
    have spent : left - (T.toInt.toNat + 1) = 0 := Nat.sub_eq_zero_of_le (Nat.le_succ_of_le inTime)
    rw [triggered_inTime timeout inTime]
    unfold Failing.polled
    dsimp only
    cases flag : s.ISPFF || failed with
    | true =>
      have told : (if true = true then NVT_NVMC_ISPFF else NVT_NVMC_OK) ≠ NVT_NVMC_OK := by decide
      exact .failed _ _ told (fun _ => rfl) rfl after bad rfl
    | false =>
      obtain rfl := good (Bool.or_eq_false_iff.mp flag).2
      rw [spent]
      exact .done

theorem wp_store {α : Type} {Q : α → Failing → Prop} {s : Failing} {r : Register} {v : UInt32} {next : Unit → Prog registers α}
    (controller : Controller) (moved : ∀ s', failing fmc bsp (.store r v) s () s' → s' = { s with controller := controller })
    (kept : K s.content) (rest : (next ()).Wp (failing fmc bsp) (Keeps K) Q { s with controller := controller }) :
    (store r v >>= next).Wp (failing fmc bsp) (Keeps K) Q s :=
  wp_moves (fun _ => moved) kept fun _ => rest

variable (fmc) in
/-- The registers as each command sets them. -/
def Failing.reading (s : Failing) (addr : UInt32) : Failing :=
  { s with controller := { s.controller with ISPCMD := fmc.FMC_ISPCMD_READ, ISPADDR := addr } }
variable (fmc) in
def Failing.programming (s : Failing) (addr : UInt32) (dword : UInt64) : Failing :=
  { s with
    controller := { s.controller with
      ISPCMD := fmc.FMC_ISPCMD_PROGRAM_64
      ISPADDR := addr
      MPDAT0 := (dword &&& 0xFFFFFFFF).toUInt32
      MPDAT1 := ((dword &&& 0xFFFFFFFF00000000) >>> 32).toUInt32 } }
variable (fmc) in
def Failing.erasing (s : Failing) (addr : UInt32) : Failing :=
  { s with controller := { s.controller with ISPCMD := fmc.FMC_ISPCMD_PAGE_ERASE, ISPADDR := addr } }

section
variable (proper : Proper fmc) {s : Failing} (kept : K s.content) (addr : UInt32)
include proper kept

/-- A read that is done gives the word. -/
theorem wp_FMC_Read (data : UInt32) : (NVT_FMC_Read fmc addr (some data)).Wp (failing fmc bsp) (Keeps K)
    (fun r s' => Ended fmc bsp (s.reading fmc addr) r.1 s' ∧
      (r.1 = NVT_NVMC_OK → r.2 = some (wordAt s.content addr.toNat) ∧ s'.content = s.content)) s := by
  have done : (s.reading fmc addr).controller.executed fmc bsp = _ := executed_read rfl
  have same : ∀ c, Spoiled fmc bsp (s.reading fmc addr).controller c → c.content = s.content := by
    rintro _ ⟨dat,content,_,_,other⟩
    exact other proper.program.symm proper.erase.1.symm
  refine wp_store _ (fun _ => id) kept (wp_store _ (fun _ => id) kept ?_)
  show (store .ISPTRG fmc.FMC_ISPTRG_ISPGO_Msk >>= fun _ => wait fmc fmc.FMC_TIMEOUT_READ >>= _).Wp _ _ _ (s.reading fmc addr)
  rw [← bind_bind]
  refine wp_bind (wp_trigger proper.timeouts.1 kept (if_pos rfl) fun c spoiled => ?_) ?_
  · rw [same c spoiled]
    exact kept
  · rintro rc s' now ended
    by_cases ok : rc = NVT_NVMC_OK
    · rw [if_neg (not_not.mpr ok)]
      refine ⟨now,fun a s'' answered => ?_⟩
      obtain ⟨rfl,rfl⟩ := answered
      subst ok
      refine ⟨now,ended,fun _ => ?_⟩
      cases ended with
      | done =>
        rw [done]
        exact ⟨rfl,rfl⟩
      | failed _ _ bad => exact absurd rfl bad
    · rw [if_pos ok]
      exact ⟨now,ended,fun fine => absurd fine ok⟩

theorem wp_FMC_Program (dword : UInt64) (spoiled : ∀ c, Spoiled fmc bsp (s.programming fmc addr dword).controller c → K c.content) :
    (NVT_FMC_Program fmc addr dword).Wp (failing fmc bsp) (Keeps K) (Ended fmc bsp (s.programming fmc addr dword)) s := by
  refine wp_store _ (fun _ => id) kept (wp_store _ (fun _ => id) kept ?_)
  refine wp_store _ (fun _ => id) kept (wp_store _ (fun _ => id) kept ?_)
  exact wp_trigger proper.timeouts.2.1 kept (timeout_program proper rfl) spoiled

theorem wp_FMC_Erase (spoiled : ∀ c, Spoiled fmc bsp (s.erasing fmc addr).controller c → K c.content) :
    (NVT_FMC_Erase fmc addr).Wp (failing fmc bsp) (Keeps K) (Ended fmc bsp (s.erasing fmc addr)) s := by
  refine wp_store _ (fun _ => id) kept (wp_store _ (fun _ => id) kept ?_)
  exact wp_trigger proper.timeouts.2.2 kept (timeout_erase proper rfl) spoiled

end
end

/-! ### An example controller -/

theorem fmcRegisters_proper : Proper fmcRegisters := ⟨by decide,by decide,by decide,by decide⟩
theorem fmcRegisters_own : OwnFlag fmcRegisters := ⟨by decide,by decide⟩

section
variable {M M' : Content} {addr : UInt32}

theorem erase_spoiled (same : SameOutside (pageStart bsp addr) bsp.FLASH_PAGE_SIZE.toNat M M') :
    Spoiled fmcRegisters bsp ⟨0x22,addr,0,0,0,0,M⟩ ⟨0x22,addr,0,0,0,0,M'⟩ :=
  .mk 0 M' (fun other => absurd other (show (0x22 : UInt32) ≠ 0x61 by decide)) (fun _ => same) fun _ other => absurd rfl other

/-- It erases a page, and the command outlasts its time-out. -/
theorem command_stored : failing fmcRegisters bsp (.store .ISPCMD 0x22) ⟨⟨0,0,0,0,0,0,M⟩,false,0,false⟩ ()
    ⟨⟨0x22,0,0,0,0,0,M⟩,false,0,false⟩ := rfl
theorem address_stored : failing fmcRegisters bsp (.store .ISPADDR addr) ⟨⟨0x22,0,0,0,0,0,M⟩,false,0,false⟩ ()
    ⟨⟨0x22,addr,0,0,0,0,M⟩,false,0,false⟩ := rfl
theorem erase_outlasts (same : SameOutside (pageStart bsp addr) bsp.FLASH_PAGE_SIZE.toNat M M') :
    failing fmcRegisters bsp (.store .ISPTRG 1) ⟨⟨0x22,addr,0,0,0,0,M⟩,false,0,false⟩ ()
      ⟨⟨0x22,addr,0,0,0,9,M'⟩,true,1,true⟩ := by
  have late : fmcRegisters.FMC_TIMEOUT_ERASE.toInt.toNat < 9 := by decide
  refine ⟨_,9,true,erase_spoiled same,nofun,?_⟩
  rw [triggered_late (timeout_erase fmcRegisters_proper rfl) late]
  rfl

/-- It erases a page, and the command fails at once. -/
theorem erase_fails (same : SameOutside (pageStart bsp addr) bsp.FLASH_PAGE_SIZE.toNat M M') :
    failing fmcRegisters bsp (.store .ISPTRG 1) ⟨⟨0x22,addr,0,0,0,0,M⟩,false,0,false⟩ ()
      ⟨⟨0x22,addr,0,0,0,0,M'⟩,true,1,false⟩ := by
  refine ⟨_,0,true,erase_spoiled same,nofun,?_⟩
  rw [triggered_inTime (timeout_erase fmcRegisters_proper rfl) (Nat.zero_le _)]
  rfl
theorem flag_seen {s : Failing} (idle : s.controller.left = 0) (flag : s.ISPFF = true) :
    failing fmcRegisters bsp (.load .ISPSTS) s 0x40 s :=
  (if_pos idle).mpr ⟨by unfold Busy; decide,⟨fun _ => flag,fun _ => by decide⟩,rfl⟩
theorem flag_cleared {s : Failing} : failing fmcRegisters bsp (.store .ISPSTS 0x40) s () { s with ISPFF := false } := rfl

/-- It reads a word, and the command succeeds at once. -/
theorem read_done {n : Nat} : failing fmcRegisters bsp (.store .ISPTRG 1) ⟨⟨0,addr,0,0,0,0,M⟩,false,n,false⟩ ()
    ⟨⟨0,addr,wordAt M addr.toNat,0,0,0,M⟩,false,n,false⟩ := by
  refine ⟨_,0,false,executed_spoiled fmcRegisters_proper _,fun _ => rfl,?_⟩
  rw [triggered_inTime (T := fmcRegisters.FMC_TIMEOUT_READ) rfl (Nat.zero_le _),executed_read rfl]
  rfl
theorem status_clear {s : Failing} (idle : s.controller.left = 0) (flag : s.ISPFF = false) :
    failing fmcRegisters bsp (.load .ISPSTS) s 0 s :=
  (if_pos idle).mpr ⟨by unfold Busy; decide,⟨fun set => absurd set (by decide),fun set => absurd (flag.symm.trans set) (by decide)⟩,rfl⟩

end

end NuMicroBoot.FmcParts
