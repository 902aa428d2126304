import NuMicroBoot.FmcParts

/-!
The back ends of the internal flash on hardware whose commands may fail: the FMC
raises its failure flag or outlasts a time-out, the functions under the RMC back
end return their errors. A command that fails leaves its own unit or page in any
state. Both back ends report every failure and leave the hardware ready for the
next call.
-/

namespace NuMicroBoot.FailingParts
open NuMicroBoot.Calls NuMicroBoot.Calls.Prog NuMicroBoot.Cells NuMicroBoot.Words NuMicroBoot.Nvmc
open NuMicroBoot.FmcDrv NuMicroBoot.RmcDrv NuMicroBoot.FmcParts NuMicroBoot.Simulation

variable (fmc : Fmc) (bsp : Bsp)

/-! ### The controller of the calls -/

/-- A call that succeeds does what the controller does when no step fails; one that fails may leave its unit or page in
    any state. -/
def Unreliable : Device interface Content := fun c M a M' =>
  if succeeded c a = true then machine bsp c M = (a,M') else Faulty bsp c M a M'

variable {bsp}

theorem unreliable_good {c : Call} {M M' : Content} {a : Answer c} (answered : Unreliable bsp c M a M')
    (good : succeeded c a = true) : machine bsp c M = (a,M') := (if_pos good).mp answered

theorem unreliable_faulty {c : Call} {M M' : Content} {a : Answer c} (answered : Unreliable bsp c M a M') :
    Faulty bsp c M a M' := by
  by_cases good : succeeded c a = true
  · have moved := unreliable_good answered good
    cases c with
    | NVT_NVMC_Read addr =>
      cases moved
      exact .read _ _ _
    | NVT_NVMC_Program addr dword =>
      cases moved
      exact .programDone _ _ _
    | NVT_NVMC_Erase addr =>
      cases moved
      exact .eraseDone _ _
  · exact (if_neg good).mp answered

theorem unreliable_done (c : Call) (M : Content) : Unreliable bsp c M (machine bsp c M).1 (machine bsp c M).2 :=
  (if_pos (machine_succeeds bsp c M)).mpr rfl

theorem unreliable_failed {c : Call} {M M' : Content} {a : Answer c} (bad : succeeded c a = false) (faulty : Faulty bsp c M a M') :
    Unreliable bsp c M a M' := by
  unfold Unreliable
  rw [if_neg (by rw [bad]; decide)]
  exact faulty

/-! ### The FMC -/

section
variable {fmc} {K : Content → Prop}

/-- The controller explains the calls: it is ready, and it holds this content and has counted these failures. -/
structure Explains (K : Content → Prop) (s : Failing) (t : Content × Nat) : Prop where
  ready : s.Ready
  content : s.content = t.1
  failures : s.failures = t.2
  kept : K t.1

/-- What a call of the driver has to do: an outcome of the unreliable controller explains it. -/
abbrev Carried (K : Content → Prop) (bsp : Bsp) (c : Call) (M : Content) (n : Nat) (a : Answer c) (s' : Failing) : Prop :=
  ∃ t', counting (Unreliable bsp) succeeded c (M,n) a t' ∧ Explains K s' t'

/-- However a command ends, the unreliable controller explains it where it explains a command that is done and one that fails. -/
theorem ended_carried {c : Call} {s s' : Failing} {rc : Int32} {a : Answer c} (ended : Ended fmc bsp s rc s') (told : status c a = rc)
    (keeps : ∀ a M', Unreliable bsp c s.content a M' → K M')
    (done : rc = NVT_NVMC_OK → Unreliable bsp c s.content a s'.content)
    (failed : rc ≠ NVT_NVMC_OK → ∀ after, Spoiled fmc bsp s.controller after → Faulty bsp c s.content a after.content) :
    Carried K bsp c s.content s.failures a s' := by
  cases ended with
  | done =>
    have good : succeeded c a = true := beq_iff_eq.mpr told
    have now := done rfl
    exact ⟨(_,s.failures),⟨now,by rw [good]; rfl⟩,fun _ => rfl,rfl,rfl,keeps a _ now⟩
  | failed _ _ bad ready counted after spoiled content =>
    have worse : succeeded c a = false := beq_eq_false_iff_ne.mpr (told ▸ bad)
    have now := unreliable_failed worse (failed bad after spoiled)
    exact ⟨(after.content,s.failures + 1),⟨now,by rw [worse]; rfl⟩,ready,content,counted,keeps a _ now⟩

/-- The FMC back end carries out the calls of an unreliable controller, and every content on the way has a property
    that all their outcomes have. -/
theorem fmc_simulates (proper : Proper fmc) (type : bsp.type = .FMC) (data : UInt32) :
    Simulates (Explains K) (counting (Unreliable bsp) succeeded) (fun t => K t.1) (failing fmc bsp) (Keeps K)
      (fmc_drv fmc data) := by
  refine ⟨fun s t explains => ?_,?_⟩
  · show K s.content
    rw [explains.content]
    exact explains.kept
  rintro c s ⟨_,_⟩ ⟨ready,rfl,rfl,kept⟩ keeps
  have outcomes : ∀ a M', Unreliable bsp c s.content a M' → K M' := fun a M' answered => keeps a (M',_) ⟨answered,rfl⟩
  cases c with
  | NVT_NVMC_Read addr =>
    refine wp_bind (wp_FMC_Read proper kept addr data) fun r s' now read => ⟨now,?_⟩
    obtain ⟨ended,word⟩ := read
    refine ended_carried (s := s.reading fmc addr) ended rfl outcomes (fun ok => ?_) fun bad after spoiled => ?_
    · obtain ⟨given,same⟩ := word ok
      rw [given,ok,same]
      exact unreliable_done _ _
    · have same : after.content = s.content := by
        obtain ⟨dat,content,_,_,other⟩ := spoiled
        exact other proper.program.symm proper.erase.1.symm
      rw [same]
      exact .read _ _ _
  | NVT_NVMC_Program addr dword =>
    have unit : (NVT_NVMC_PROGRAM_UNIT bsp).toNat = 8 := by
      rw [NVT_NVMC_PROGRAM_UNIT,type]
      rfl
    have failed : ∀ rc ≠ NVT_NVMC_OK, ∀ after, Spoiled fmc bsp (s.programming fmc addr dword).controller after →
        Faulty bsp (.NVT_NVMC_Program addr dword) s.content rc after.content := by
      rintro rc bad _ ⟨dat,content,program,_,_⟩
      refine .programFailed _ _ _ _ _ bad ?_
      rw [unit]
      exact program rfl
    refine wp_mono (wp_FMC_Program proper kept addr dword fun after spoiled => ?_) fun rc s' ended => ?_
    · exact outcomes _ _ (unreliable_failed (a := NVT_NVMC_ISPFF) rfl (failed _ (by decide) after spoiled))
    · refine ended_carried (s := s.programming fmc addr dword) ended rfl outcomes (fun ok => ?_) (failed rc)
      cases ended with
      | failed _ _ bad => exact absurd ok bad
      | done =>
        rw [executed_program proper rfl]
        show Unreliable bsp (.NVT_NVMC_Program addr dword) s.content NVT_NVMC_OK
          (program64 s.content addr.toNat (dword &&& 0xFFFFFFFF).toUInt32 ((dword &&& 0xFFFFFFFF00000000) >>> 32).toUInt32)
        rw [program64_halves type]
        exact unreliable_done _ _
  | NVT_NVMC_Erase addr =>
    have failed : ∀ rc ≠ NVT_NVMC_OK, ∀ after, Spoiled fmc bsp (s.erasing fmc addr).controller after →
        Faulty bsp (.NVT_NVMC_Erase addr) s.content rc after.content := by
      rintro rc bad _ ⟨dat,content,_,erase,_⟩
      exact .eraseFailed _ _ _ _ bad (erase rfl)
    refine wp_mono (wp_FMC_Erase proper kept addr fun after spoiled => ?_) fun rc s' ended => ?_
    · exact outcomes _ _ (unreliable_failed (a := NVT_NVMC_ISPFF) rfl (failed _ (by decide) after spoiled))
    · refine ended_carried (s := s.erasing fmc addr) ended rfl outcomes (fun ok => ?_) (failed rc)
      cases ended with
      | failed _ _ bad => exact absurd ok bad
      | done =>
        rw [executed_erase proper rfl]
        exact unreliable_done _ _

end

/-! ### The RMC -/

/-- The flash behind the functions of the board support package, their error code, and how many of them have failed. -/
structure RmcPart where
  content : Content
  g_RMC_i32ErrCode : Int32
  failures : Nat

/-- What `RMC_Write` and `RMC_Erase` return when they fail. -/
structure RmcCodes where
  RMC_Write : Int32 → Prop
  RMC_Erase : Int32 → Prop

/-- `rmc_drv.c` takes them for failures: -1 of a write, -1 and -2 of an erase. Any other number it reports as success. -/
structure RmcCodes.Tested (codes : RmcCodes) : Prop where
  RMC_Write : ∀ code, codes.RMC_Write code → code = -1
  RMC_Erase : ∀ code, codes.RMC_Erase code → code = -1 ∨ code = -2

variable (bsp) (codes : RmcCodes)

/-- A read tells its failure in the error code, the others return one of their numbers. -/
def failingRmc : Device rmc RmcPart
  | .RMC_Read addr, s, a, s' =>
    (a = wordAt s.content addr.toNat ∧ s' = { s with g_RMC_i32ErrCode := 0 }) ∨
    ∃ err ≠ 0, s' = { s with g_RMC_i32ErrCode := err, failures := s.failures + 1 }
  | .RMC_Write addr word, s, a, s' =>
    (a = (0 : Int32) ∧ s' = { s with content := combine (· &&& ·) s.content addr.toNat (wordBytes word) 4 }) ∨
    codes.RMC_Write a ∧ ∃ content err, SameOutside addr.toNat 4 s.content content ∧
      s' = ⟨content,err,s.failures + 1⟩
  | .RMC_Erase addr, s, a, s' =>
    (a = (0 : Int32) ∧ s' = { s with content := erased bsp s.content addr }) ∨
    codes.RMC_Erase a ∧ ∃ content err, SameOutside (pageStart bsp addr) bsp.FLASH_PAGE_SIZE.toNat s.content content ∧
      s' = ⟨content,err,s.failures + 1⟩
  | .g_RMC_i32ErrCode, s, a, s' => a = s.g_RMC_i32ErrCode ∧ s' = s

variable {bsp} {codes}

theorem failingRmc_answers (c : RmcCall) (s : RmcPart) : ∃ a s', failingRmc bsp codes c s a s' := by
  cases c with
  | RMC_Read addr => exact ⟨_,_,.inl ⟨rfl,rfl⟩⟩
  | RMC_Write addr word => exact ⟨(0 : Int32),_,.inl ⟨rfl,rfl⟩⟩
  | RMC_Erase addr => exact ⟨(0 : Int32),_,.inl ⟨rfl,rfl⟩⟩
  | g_RMC_i32ErrCode => exact ⟨_,_,rfl,rfl⟩

section
variable {K : Content → Prop}

/-- The part explains the calls: it holds this content and has counted these failures. -/
structure ExplainsRmc (K : Content → Prop) (s : RmcPart) (t : Content × Nat) : Prop where
  content : s.content = t.1
  failures : s.failures = t.2
  kept : K t.1

theorem carriedRmc {c : Call} {M M' : Content} {n : Nat} {a : Answer c} {s' : RmcPart}
    (keeps : ∀ a M', Unreliable bsp c M a M' → K M') (answered : Unreliable bsp c M a M') (content : s'.content = M')
    (failures : s'.failures = n + if succeeded c a then 0 else 1) :
    K s'.content ∧ ∃ t', counting (Unreliable bsp) succeeded c (M,n) a t' ∧ ExplainsRmc K s' t' := by
  have kept := keeps a M' answered
  refine ⟨?_,(M',n + if succeeded c a then 0 else 1),⟨answered,rfl⟩,content,failures,kept⟩
  rw [content]
  exact kept

/-- The RMC back end carries out the calls of an unreliable controller too. -/
theorem rmc_simulates (type : bsp.type = .RMC) (tested : codes.Tested) :
    Simulates (ExplainsRmc K) (counting (Unreliable bsp) succeeded) (fun t => K t.1) (failingRmc bsp codes) (fun s => K s.content)
      rmc_drv := by
  have unit : (NVT_NVMC_PROGRAM_UNIT bsp).toNat = 4 := by
    rw [NVT_NVMC_PROGRAM_UNIT,type]
    rfl
  have good : ∀ s t, ExplainsRmc K s t → K s.content := by
    intro s t explains
    rw [explains.content]
    exact explains.kept
  refine ⟨good,?_⟩
  rintro c s ⟨M,n⟩ explains keeps
  have outcomes : ∀ a M', Unreliable bsp c M a M' → K M' := fun a M' answered => keeps a (M',_) ⟨answered,rfl⟩
  have now := good _ _ explains
  obtain ⟨rfl,rfl,_⟩ := explains
  cases c with
  | NVT_NVMC_Read addr =>
    refine ⟨now,fun word s' read => ?_⟩
    obtain ⟨rfl,rfl⟩ | ⟨err,failed,rfl⟩ := read
    · refine ⟨now,fun code s' told => ?_⟩
      obtain ⟨rfl,rfl⟩ := told
      exact carriedRmc outcomes (unreliable_done _ _) rfl rfl
    · refine ⟨now,fun code s' told => ?_⟩
      obtain ⟨rfl,rfl⟩ := told
      refine wp_ite (fun _ => ?_) fun none => absurd failed none
      exact carriedRmc outcomes (unreliable_failed rfl (.read _ _ _)) rfl rfl
  | NVT_NVMC_Program addr dword =>
    refine ⟨now,fun ret s' written => ?_⟩
    obtain ⟨rfl,rfl⟩ | ⟨code,content,err,same,rfl⟩ := written
    · refine carriedRmc outcomes (unreliable_done _ _) ?_ rfl
      show combine (· &&& ·) s.content addr.toNat (wordBytes (dword &&& 0xFFFFFFFF).toUInt32) 4 = programmed bsp s.content addr dword
      rw [programmed,unit]
      exact combine_congr fun k inside => RmcDrv.low_bytes dword inside
    · obtain rfl := tested.RMC_Write ret code
      refine carriedRmc outcomes (unreliable_failed rfl (.programFailed _ _ _ content _ (by decide) ?_)) rfl rfl
      rw [unit]
      exact same
  | NVT_NVMC_Erase addr =>
    refine ⟨now,fun ret s' ended => ?_⟩
    obtain ⟨rfl,rfl⟩ | ⟨code,content,err,same,rfl⟩ := ended
    · exact carriedRmc outcomes (unreliable_done _ _) rfl rfl
    obtain rfl | rfl := tested.RMC_Erase ret code
    · exact carriedRmc outcomes (unreliable_failed rfl (.eraseFailed _ _ content _ (by decide) same)) rfl rfl
    · exact carriedRmc outcomes (unreliable_failed rfl (.eraseFailed _ _ content _ (by decide) same)) rfl rfl

end

/-! ### Both -/

/-- A back end with its hardware: it carries out the calls of an unreliable controller, and is ready again afterwards. -/
structure BackEnd (bsp : Bsp) where
  registers : Interface
  State : Type
  device : Device registers State
  drv : (c : Call) → Prog registers (Answer c)
  ready : State → Prop
  content : State → Content
  failures : State → Nat
  Rel : (Content → Prop) → State → Content × Nat → Prop
  answers : ∀ c s, ∃ a s', device c s a s'
  start : ∀ {K s}, ready s → K (content s) → Rel K s (content s,failures s)
  ended : ∀ {K s t}, Rel K s t → ready s ∧ content s = t.1 ∧ failures s = t.2
  simulates : ∀ K, Simulates (Rel K) (counting (Unreliable bsp) succeeded) (fun t => K t.1) device (fun s => K (content s)) drv

variable {fmc}

/-- `fmc_drv.c`. -/
def BackEnd.FMC (proper : Proper fmc) (own : OwnFlag fmc) (type : bsp.type = .FMC) (data : UInt32) : BackEnd bsp where
  registers := FmcDrv.registers
  State := Failing
  device := failing fmc bsp
  drv := fmc_drv fmc data
  ready := Failing.Ready
  content := Failing.content
  failures := Failing.failures
  Rel := Explains
  answers := failing_answers proper own
  start ready kept := ⟨ready,rfl,rfl,kept⟩
  ended explains := ⟨explains.ready,explains.content,explains.failures⟩
  simulates _ := fmc_simulates proper type data

/-- `rmc_drv.c`. -/
def BackEnd.RMC (type : bsp.type = .RMC) (tested : codes.Tested) : BackEnd bsp where
  registers := rmc
  State := RmcPart
  device := failingRmc bsp codes
  drv := rmc_drv
  ready _ := True
  content := RmcPart.content
  failures := RmcPart.failures
  Rel := ExplainsRmc
  answers := failingRmc_answers
  start _ kept := ⟨rfl,rfl,kept⟩
  ended explains := ⟨trivial,explains.content,explains.failures⟩
  simulates _ := rmc_simulates type tested

end NuMicroBoot.FailingParts
