import NuMicroBoot.Thumb

/-!
The hand-over to the next image in `boot.c` and in `boot_hal.c` of the M55M1:
the RAM is cleared, then the registers, and the reset handler is reached.
-/

namespace NuMicroBoot.HandOver
open NuMicroBoot.Cells NuMicroBoot.Words NuMicroBoot.Thumb

/-! ### The listings -/

/-- The linker symbols of a RAM area. -/
structure Area where
  base : UInt32
  limit : UInt32
  base_aligned : base.toNat % 4 = 0
  limit_aligned : limit.toNat % 4 = 0
  ordered : base.toNat ≤ limit.toNat
  short : limit.toNat - base.toNat < 2 ^ 31

def Area.size (a : Area) : Nat := a.limit.toNat - a.base.toNat
def Area.Inside (a : Area) (k : Nat) : Prop := a.base.toNat ≤ k ∧ k < a.limit.toNat

/-- The listing of `boot_clear_ram_area`, `boot_clear_sram_area` and `boot_clear_dtcm_area`; `place` tells where its
    instructions are. -/
def clearArea (a : Area) (place : Nat → UInt32) : List Instr :=
  [.op (.movs .r0 0),
    .op (.ldr .r1 a.base),
    .op (.ldr .r2 a.limit),
    .op (.subs .r2 .r2 .r1),
    -- the label of the loop
    .op (.subsImm .r2 4),
    .blt (place 8),
    .str .r0 .r1 .r2,
    .b (place 4),
    -- the label behind it
    .bx .lr]

def boot_clear_ram_area := clearArea
def boot_clear_sram_area := clearArea
def boot_clear_dtcm_area := clearArea

/-- The registers that are cleared behind the calls. -/
def clearRegisters : List Op :=
  [.movs .r0 0,.mov .r1 .r0,.mov .r2 .r0,.mov .r3 .r0,.mov .r4 .r0,.mov .r5 .r0,.mov .r6 .r0,.mov .r8 .r0,.mov .r9 .r0,
    .mov .r10 .r0,.mov .r11 .r0,.mov .r12 .r0,.mov .lr .r0]

/-- `boot_jump_to_next_image` with calls to the clearing functions at these addresses. -/
def jumpToNextImage (clears : List UInt32) : List Instr :=
  .op (.mov .r7 .r0) :: (clears.map .bl ++ (clearRegisters.map .op ++ [.bx .r7]))

def boot_jump_to_next_image (ram : UInt32) : List Instr := jumpToNextImage [ram]
def boot_jump_to_next_image_M55M1 (sram dtcm : UInt32) : List Instr := jumpToNextImage [sram,dtcm]

/-! ### The images -/

/-- A clearing function in the code, with its area. -/
structure Clearing (code : Code) (function : Area → (Nat → UInt32) → List Instr) where
  area : Area
  place : Nat → UInt32
  loaded : Loaded code place 0 (function area place)

/-- The boot loader with `boot.c`. -/
structure Common where
  code : Code
  ram : Clearing code boot_clear_ram_area
  place : Nat → UInt32
  loaded : Loaded code place 0 (boot_jump_to_next_image (ram.place 0))

/-- The boot loader with `boot_hal.c` of the M55M1. -/
structure M55M1 where
  code : Code
  sram : Clearing code boot_clear_sram_area
  dtcm : Clearing code boot_clear_dtcm_area
  place : Nat → UInt32
  loaded : Loaded code place 0 (boot_jump_to_next_image_M55M1 (sram.place 0) (dtcm.place 0))

/-- Such images exist, whatever the areas are. -/
theorem common_exists (a : Area) : ∃ common : Common, common.ram.area = a := by
  have listings : ∃ code, code = assemble [boot_clear_ram_area a (slot 0),boot_jump_to_next_image (slot 0 0)] := ⟨_,rfl⟩
  obtain ⟨code,same⟩ := listings
  have clear : Loaded code (slot 0) 0 (boot_clear_ram_area a (slot 0)) := by
    rw [same]
    exact assemble_loaded rfl (by decide) (show 9 ≤ 1000 by decide)
  have jump : Loaded code (slot 1) 0 (boot_jump_to_next_image (slot 0 0)) := by
    rw [same]
    exact assemble_loaded rfl (by decide) (show 16 ≤ 1000 by decide)
  exact ⟨⟨code,⟨a,slot 0,clear⟩,slot 1,jump⟩,rfl⟩

theorem m55m1_exists (a b : Area) : ∃ m55m1 : M55M1, m55m1.sram.area = a ∧ m55m1.dtcm.area = b := by
  have listings : ∃ code, code = assemble [boot_clear_sram_area a (slot 0),boot_clear_dtcm_area b (slot 1),
    boot_jump_to_next_image_M55M1 (slot 0 0) (slot 1 0)] := ⟨_,rfl⟩
  obtain ⟨code,same⟩ := listings
  have sram : Loaded code (slot 0) 0 (boot_clear_sram_area a (slot 0)) := by
    rw [same]
    exact assemble_loaded rfl (by decide) (show 9 ≤ 1000 by decide)
  have dtcm : Loaded code (slot 1) 0 (boot_clear_dtcm_area b (slot 1)) := by
    rw [same]
    exact assemble_loaded rfl (by decide) (show 9 ≤ 1000 by decide)
  have jump : Loaded code (slot 2) 0 (boot_jump_to_next_image_M55M1 (slot 0 0) (slot 1 0)) := by
    rw [same]
    exact assemble_loaded rfl (by decide) (show 17 ≤ 1000 by decide)
  exact ⟨⟨code,⟨a,slot 0,sram⟩,⟨b,slot 1,dtcm⟩,slot 2,jump⟩,rfl,rfl⟩

/-- Every byte of the areas is 0, and no other one has changed. -/
structure Wiped (areas : List Area) (M M' : Nat → UInt8) : Prop where
  zero : ∀ a ∈ areas, ∀ k, a.Inside k → M' k = 0
  kept : ∀ k, (∀ a ∈ areas, ¬ a.Inside k) → M' k = M k

/-- Called in any state, the function returns with its area cleared and nothing else written. -/
def Clears {code : Code} (c : Clearing code clearArea) (s : State) : Prop :=
  ∃ s', Runs code { s with pc := c.place 0 } s' ∧ s'.pc = s.cpu.regs .lr ∧ Wiped [c.area] s.memory s'.memory

/-- The state in which the next image is entered at `h`. -/
structure Entered (h : UInt32) (areas : List Area) (M : Nat → UInt8) (s : State) : Prop where
  reached : s.pc = h
  handler : s.cpu.regs .r7 = h
  cleared : ∀ r, r ≠ .r7 → s.cpu.regs r = 0
  wiped : Wiped areas M s.memory

/-- Called in any state, with the address in the first register, the function at `entry` enters the next image. -/
def HandsOver (code : Code) (entry : UInt32) (areas : List Area) (s : State) : Prop :=
  ∃ s', Runs code { s with pc := entry } s' ∧ Entered (s.cpu.regs .r0) areas s.memory s'

/-! ### Clearing an area -/

section
variable {code : Code} (c : Clearing code clearArea)

/-- At the label of the loop, with `k` words left; the words behind them are cleared. -/
structure Looping (cpu : Cpu) (M : Nat → UInt8) (k : Nat) (s : State) : Prop where
  pc : s.pc = c.place 4
  zero : s.cpu.regs .r0 = 0
  base : s.cpu.regs .r1 = c.area.base
  count : (s.cpu.regs .r2).toNat = 4 * k
  inside : 4 * k ≤ c.area.size
  others : ∀ r, r ≠ .r0 → r ≠ .r1 → r ≠ .r2 → s.cpu.regs r = cpu.regs r
  memory : s.memory = fill 0 M (c.area.base.toNat + 4 * k) (c.area.size - 4 * k)

theorem loaded_at {i : Instr} (k : Nat) (found : (clearArea c.area c.place)[k]? = some i) :
    code (c.place k) = some (i,c.place (k + 1)) := by
  have there := c.loaded k i found
  rwa [Nat.zero_add] at there

theorem size_lt : c.area.size < 2 ^ 31 := c.area.short

theorem store_zero (M : Nat → UInt8) (a : Nat) : copy M a (byteAt (0 : UInt32).toNat) 0 4 = fill 0 M a 4 := by
  funext k
  simp only [copy,fill]
  by_cases inside : a ≤ k ∧ k < a + 4
  · rw [if_pos inside,if_pos inside,byteAt,UInt32.toNat_zero,Nat.zero_div]
    rfl
  · rw [if_neg inside,if_neg inside]

/-- A round of the loop. -/
theorem looping_round {cpu : Cpu} {M : Nat → UInt8} (k : Nat) (s : State) (looping : Looping c cpu M (k + 1) s) :
    ∃ s', Runs code s s' ∧ Looping c cpu M k s' := by
  obtain ⟨⟨regs,n,v⟩,mem,pc⟩ := s
  obtain ⟨rfl,zero,base,count,inside,others,rfl⟩ := looping
  dsimp only at zero base count others
  have short := size_lt c
  have four : (4 : UInt32).toNat = 4 := rfl
  have enough : (4 : UInt32).toNat ≤ (regs .r2).toNat := by omega
  have small : (regs .r2).toNat < 2 ^ 31 := by omega
  have less : (regs .r2 - 4).toNat = 4 * k := by
    rw [toNat_sub_of_le enough]
    omega
  have ordered := c.area.ordered
  have limit := c.area.limit.toNat_lt
  have start := c.area.base_aligned
  have size : c.area.size = c.area.limit.toNat - c.area.base.toNat := rfl
  have address : (regs .r1 + (regs .r2 - 4)).toNat = c.area.base.toNat + 4 * k := by
    rw [base,toNat_add_of_lt (by omega),less]
  -- the count goes down, the loop goes on, and the word that the count leads to is cleared
  refine ⟨_,runs_trans (runs_step (loaded_at c 4 rfl) rfl) (runs_trans (runs_not_blt (loaded_at c 5 rfl) ?_)
    (runs_trans (runs_str (loaded_at c 6 rfl) address (by omega)) (runs_step (loaded_at c 7 rfl) rfl))),?_⟩
  · exact subtract_ge enough small
  · refine ⟨rfl,zero,base,less,by omega,fun r first second third => ?_,?_⟩
    · exact (Function.update_of_ne third _ _).trans (others r first second third)
    · show copy (fill 0 M _ _) _ (byteAt (regs .r0).toNat) 0 4 = _
      rw [zero,store_zero,show c.area.base.toNat + 4 * (k + 1) = c.area.base.toNat + 4 * k + 4 by omega,fill_prepend]
      congr 1
      omega

/-- Behind the last round. -/
theorem looping_ends {cpu : Cpu} {M : Nat → UInt8} {s : State} (looping : Looping c cpu M 0 s) :
    ∃ cpu', Runs code s ⟨cpu',fill 0 M c.area.base.toNat c.area.size,cpu.regs .lr⟩ ∧
      ∀ r, r ≠ .r0 → r ≠ .r1 → r ≠ .r2 → cpu'.regs r = cpu.regs r := by
  obtain ⟨⟨regs,n,v⟩,mem,pc⟩ := s
  obtain ⟨rfl,zero,base,count,inside,others,rfl⟩ := looping
  dsimp only at zero base count others
  have less : (regs .r2).toNat < (4 : UInt32).toNat := by
    rw [count]
    decide
  have other : ∀ r, r ≠ .r0 → r ≠ .r1 → r ≠ .r2 → (Cpu.subtract ⟨regs,n,v⟩ .r2 (regs .r2) 4).regs r = cpu.regs r :=
    fun r first second third => (Function.update_of_ne third _ _).trans (others r first second third)
  have ran : Runs code ⟨⟨regs,n,v⟩,fill 0 M c.area.base.toNat c.area.size,c.place 4⟩
      ⟨Cpu.subtract ⟨regs,n,v⟩ .r2 (regs .r2) 4,fill 0 M c.area.base.toNat c.area.size,
        (Cpu.subtract ⟨regs,n,v⟩ .r2 (regs .r2) 4).regs .lr⟩ :=
    runs_trans (runs_step (loaded_at c 4 rfl) rfl) (runs_trans (runs_blt (loaded_at c 5 rfl) (subtract_lt less (by decide)))
      (runs_step (loaded_at c 8 rfl) rfl))
  rw [other .lr (by decide) (by decide) (by decide)] at ran
  exact ⟨_,ran,other⟩

/-- What comes before the loop. -/
def opening (a : Area) : List Op := [.movs .r0 0,.ldr .r1 a.base,.ldr .r2 a.limit,.subs .r2 .r2 .r1]

theorem opening_others (a : Area) (cpu : Cpu) : ∀ r, r ≠ .r0 → r ≠ .r1 → r ≠ .r2 →
    ((opening a).foldl Cpu.apply cpu).regs r = cpu.regs r := by
  intro r first second third
  simp [opening,Cpu.apply,Cpu.set,Cpu.subtract,first,second,third]

/-- The contract of the clearing functions. -/
theorem clearing_runs (cpu : Cpu) (M : Nat → UInt8) :
    ∃ cpu', Runs code ⟨cpu,M,c.place 0⟩ ⟨cpu',fill 0 M c.area.base.toNat c.area.size,cpu.regs .lr⟩ ∧
      ∀ r, r ≠ .r0 → r ≠ .r1 → r ≠ .r2 → cpu'.regs r = cpu.regs r := by
  have loaded : Loaded code c.place 0 ((opening c.area).map .op ++ [.op (.subsImm .r2 4),.blt (c.place 8),.str .r0 .r1 .r2,
    .b (c.place 4),.bx .lr]) := c.loaded
  have start := runs_ops (loaded_append loaded).1 cpu M
  obtain ⟨words,whole⟩ : ∃ words, c.area.size = 4 * words := by
    refine ⟨c.area.size / 4,?_⟩
    have low := c.area.base_aligned
    have high := c.area.limit_aligned
    unfold Area.size
    omega
  have counted : (c.area.limit - c.area.base).toNat = 4 * words := by
    rw [toNat_sub_of_le c.area.ordered]
    exact whole
  have looping : Looping c cpu M words ⟨(opening c.area).foldl Cpu.apply cpu,M,c.place 4⟩ := by
    refine ⟨rfl,rfl,rfl,counted,Nat.le_of_eq whole.symm,opening_others c.area cpu,?_⟩
    rw [whole,Nat.sub_self,fill_zero]
  obtain ⟨s,rounds,last⟩ := runs_down (looping_round c) words _ looping
  obtain ⟨cpu',ends,others⟩ := looping_ends c last
  exact ⟨cpu',runs_trans start (runs_trans rounds ends),others⟩

end

/-! ### The jump -/

theorem wiped_fills (areas : List Area) (M : Nat → UInt8) :
    Wiped areas M (areas.foldl (fun M a => fill 0 M a.base.toNat a.size) M) := by
  have inside : ∀ (a : Area) k, (a.base.toNat ≤ k ∧ k < a.base.toNat + a.size) ↔ a.Inside k := by
    intro a k
    have ordered := a.ordered
    unfold Area.Inside Area.size
    omega
  induction areas generalizing M with
  | nil => exact ⟨fun a member => (nomatch member),fun _ _ => rfl⟩
  | cons a rest ih =>
    obtain ⟨zero,kept⟩ := ih (fill 0 M a.base.toNat a.size)
    constructor
    · intro a' member k within
      by_cases later : ∃ b ∈ rest, b.Inside k
      · obtain ⟨b,there,covers⟩ := later
        exact zero b there k covers
      · have first : a' = a := (List.mem_cons.mp member).resolve_right fun there => later ⟨a',there,within⟩
        subst first
        rw [List.foldl_cons,kept k fun b there covers => later ⟨b,there,covers⟩]
        exact if_pos ((inside a' k).mpr within)
    · intro k outside
      rw [List.foldl_cons,kept k fun b there => outside b (List.mem_cons_of_mem _ there)]
      exact if_neg fun covers => outside a List.mem_cons_self ((inside a k).mp covers)

theorem clears {code : Code} (c : Clearing code clearArea) (s : State) : Clears c s := by
  obtain ⟨cpu',ran,_⟩ := clearing_runs c s.cpu s.memory
  exact ⟨_,ran,rfl,wiped_fills [c.area] s.memory⟩

/-- The calls keep the address of the reset handler. -/
theorem calls_run {code : Code} {place : Nat → UInt32} (cs : List (Clearing code clearArea)) (k : Nat)
    (loaded : Loaded code place k (cs.map fun c => .bl (c.place 0))) : ∀ (cpu : Cpu) (M : Nat → UInt8), ∃ cpu',
    Runs code ⟨cpu,M,place k⟩ ⟨cpu',(cs.map Clearing.area).foldl (fun M a => fill 0 M a.base.toNat a.size) M,place (k + cs.length)⟩ ∧
      cpu'.regs .r7 = cpu.regs .r7 := by
  induction cs generalizing k with
  | nil => exact fun cpu M => ⟨cpu,.refl,rfl⟩
  | cons c rest ih =>
    intro cpu M
    obtain ⟨here,later⟩ := loaded_cons loaded
    have called : Runs code ⟨cpu,M,place k⟩ ⟨cpu.set .lr (place (k + 1)),M,c.place 0⟩ := runs_step here rfl
    obtain ⟨cpu₁,cleared,others⟩ := clearing_runs c (cpu.set .lr (place (k + 1))) M
    obtain ⟨cpu₂,ran,same⟩ := ih (k + 1) later cpu₁ (fill 0 M c.area.base.toNat c.area.size)
    have kept : cpu₁.regs .r7 = cpu.regs .r7 := others .r7 (by decide) (by decide) (by decide)
    refine ⟨cpu₂,runs_trans called (runs_trans cleared ?_),same.trans kept⟩
    rw [List.length_cons,← Nat.add_assoc,Nat.add_right_comm]
    exact ran

theorem clearRegisters_zero (cpu : Cpu) : ∀ r, r ≠ .r7 → (clearRegisters.foldl Cpu.apply cpu).regs r = 0 := by
  intro r other
  cases r with
  | r7 => exact absurd rfl other
  | _ => rfl

theorem hands_over {code : Code} {place : Nat → UInt32} (cs : List (Clearing code clearArea))
    (loaded : Loaded code place 0 (jumpToNextImage (cs.map fun c => c.place 0))) (s : State) :
    HandsOver code (place 0) (cs.map Clearing.area) s := by
  obtain ⟨first,rest⟩ := loaded_cons loaded
  obtain ⟨calls,rest⟩ := loaded_append rest
  rw [List.length_map,List.length_map,Nat.zero_add] at rest
  rw [List.map_map,Nat.zero_add] at calls
  obtain ⟨clearing,last⟩ := loaded_append rest
  rw [List.length_map] at last
  have moved : Runs code { s with pc := place 0 } ⟨s.cpu.set .r7 (s.cpu.regs .r0),s.memory,place 1⟩ := runs_step first rfl
  obtain ⟨cpu,called,handler⟩ := calls_run cs 1 calls (s.cpu.set .r7 (s.cpu.regs .r0)) s.memory
  have kept : (clearRegisters.foldl Cpu.apply cpu).regs .r7 = s.cpu.regs .r0 := handler
  have left : ∀ M, Runs code ⟨clearRegisters.foldl Cpu.apply cpu,M,place (1 + cs.length + clearRegisters.length)⟩
      ⟨clearRegisters.foldl Cpu.apply cpu,M,(clearRegisters.foldl Cpu.apply cpu).regs .r7⟩ :=
    fun M => runs_step (loaded_cons last).1 rfl
  refine ⟨_,runs_trans moved (runs_trans called (runs_trans (runs_ops clearing cpu _) (left _))),kept,kept,?_,?_⟩
  · exact clearRegisters_zero cpu
  · exact wiped_fills _ s.memory

/-- Before the next image is entered, the RAM areas and all registers but the handler's are wiped. -/
theorem wiped_before_entry (common : Common) (m55m1 : M55M1) (s : State) :
    Clears common.ram s ∧ HandsOver common.code (common.place 0) [common.ram.area] s ∧
    Clears m55m1.sram s ∧ Clears m55m1.dtcm s ∧
    HandsOver m55m1.code (m55m1.place 0) [m55m1.sram.area,m55m1.dtcm.area] s :=
  ⟨clears common.ram s,hands_over [common.ram] common.loaded s,clears m55m1.sram s,clears m55m1.dtcm s,
    hands_over [m55m1.sram,m55m1.dtcm] m55m1.loaded s⟩

end NuMicroBoot.HandOver
