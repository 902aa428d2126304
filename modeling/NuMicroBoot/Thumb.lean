import Mathlib.Logic.Function.Basic
import Mathlib.Logic.Relation
import NuMicroBoot.Cells
import NuMicroBoot.Words

/-!
Thumb instructions on 32-bit registers with the N and the V flag and a memory of
bytes, and rules for runs of code: straight-line parts, loops that count down.
Code addresses are taken as registers hold them, with the Thumb bit.
-/

namespace NuMicroBoot.Thumb
open NuMicroBoot.Cells NuMicroBoot.Words

/-! ### Instructions -/

/-- The general registers without the stack pointer, and the link register. -/
inductive Reg
  | r0 | r1 | r2 | r3 | r4 | r5 | r6 | r7 | r8 | r9 | r10 | r11 | r12 | lr
  deriving DecidableEq

/-- Instructions on registers and flags alone. `ldr` loads a literal, `subsImm` subtracts one. -/
inductive Op
  | movs (rd : Reg) (imm : UInt32)
  | mov (rd rm : Reg)
  | ldr (rd : Reg) (literal : UInt32)
  | subs (rd rn rm : Reg)
  | subsImm (rd : Reg) (imm : UInt32)

inductive Instr
  | op (o : Op)
  | str (rt rn rm : Reg)
  | b (target : UInt32)
  | blt (target : UInt32)
  | bl (target : UInt32)
  | bx (rm : Reg)

/-! ### Steps -/

structure Cpu where
  regs : Reg → UInt32
  n : Bool
  v : Bool

structure State where
  cpu : Cpu
  memory : Nat → UInt8
  pc : UInt32

def negative (x : UInt32) : Bool := decide (2 ^ 31 ≤ x.toNat)

namespace Cpu

def set (c : Cpu) (rd : Reg) (x : UInt32) : Cpu := { c with regs := Function.update c.regs rd x }

/-- The difference with its flags; V tells that it is wrong as a difference of signed numbers. -/
def subtract (c : Cpu) (rd : Reg) (x y : UInt32) : Cpu :=
  { c.set rd (x - y) with
    n := negative (x - y)
    v := negative x != negative y && negative (x - y) != negative x }

def apply (c : Cpu) : Op → Cpu
  | .movs rd imm => { c.set rd imm with n := negative imm }
  | .mov rd rm => c.set rd (c.regs rm)
  | .ldr rd literal => c.set rd literal
  | .subs rd rn rm => c.subtract rd (c.regs rn) (c.regs rm)
  | .subsImm rd imm => c.subtract rd (c.regs rd) imm

end Cpu

/-- An instruction with the address of the one behind it. An unaligned store is a fault. -/
def execute (s : State) (next : UInt32) : Instr → Option State
  | .op o => some { s with cpu := s.cpu.apply o, pc := next }
  | .str rt rn rm =>
    let a := (s.cpu.regs rn + s.cpu.regs rm).toNat
    if a % 4 = 0 then some { s with memory := copy s.memory a (byteAt (s.cpu.regs rt).toNat) 0 4, pc := next } else none
  | .b target => some { s with pc := target }
  | .blt target => some { s with pc := if s.cpu.n ≠ s.cpu.v then target else next }
  | .bl target => some { s with cpu := s.cpu.set .lr next, pc := target }
  | .bx rm => some { s with pc := s.cpu.regs rm }

/-- The instruction at an address, with the address behind it. -/
abbrev Code := UInt32 → Option (Instr × UInt32)

def step (code : Code) (s : State) : Option State := (code s.pc).bind fun fetched => execute s fetched.2 fetched.1

/-- A step has at most one outcome, so what a state runs to is on its only run. -/
def Runs (code : Code) : State → State → Prop := Relation.ReflTransGen fun s s' => step code s = some s'

/-- The code holds the listing: instruction `k + j` of it is at `place (k + j)`. -/
def Loaded (code : Code) (place : Nat → UInt32) (k : Nat) (listing : List Instr) : Prop :=
  ∀ j i, listing[j]? = some i → code (place (k + j)) = some (i,place (k + j + 1))

/-! ### Runs -/

section
variable {code : Code} {place : Nat → UInt32} {k : Nat} {s s' s'' : State}

theorem runs_trans (first : Runs code s s') (second : Runs code s' s'') : Runs code s s'' := first.trans second

theorem runs_step {i : Instr} {next : UInt32} (fetched : code s.pc = some (i,next)) (executed : execute s next i = some s') :
    Runs code s s' := by
  refine .single ?_
  rw [step,fetched]
  exact executed

theorem runs_blt {target next : UInt32} (fetched : code s.pc = some (.blt target,next)) (less : s.cpu.n ≠ s.cpu.v) :
    Runs code s { s with pc := target } := by
  refine runs_step fetched ?_
  rw [execute,if_pos less]

theorem runs_not_blt {target next : UInt32} (fetched : code s.pc = some (.blt target,next)) (least : s.cpu.n = s.cpu.v) :
    Runs code s { s with pc := next } := by
  refine runs_step fetched ?_
  rw [execute,if_neg (not_not.mpr least)]

theorem runs_str {rt rn rm : Reg} {next : UInt32} {a : Nat} (fetched : code s.pc = some (.str rt rn rm,next))
    (place : (s.cpu.regs rn + s.cpu.regs rm).toNat = a) (aligned : a % 4 = 0) :
    Runs code s { s with memory := copy s.memory a (byteAt (s.cpu.regs rt).toNat) 0 4, pc := next } := by
  refine runs_step fetched ?_
  rw [execute,place,if_pos aligned]

theorem loaded_cons {i : Instr} {listing : List Instr} (loaded : Loaded code place k (i :: listing)) :
    code (place k) = some (i,place (k + 1)) ∧ Loaded code place (k + 1) listing := by
  refine ⟨loaded 0 i rfl,fun j i' found => ?_⟩
  have there := loaded (j + 1) i' found
  rwa [← Nat.add_assoc,Nat.add_right_comm k j 1] at there

theorem loaded_append {first second : List Instr} (loaded : Loaded code place k (first ++ second)) :
    Loaded code place k first ∧ Loaded code place (k + first.length) second := by
  induction first generalizing k with
  | nil => exact ⟨fun j i found => by simp at found,loaded⟩
  | cons i rest ih =>
    obtain ⟨here,later⟩ := loaded_cons loaded
    obtain ⟨_,behind⟩ := ih later
    refine ⟨fun j i' found => loaded j i' ?_,?_⟩
    · rw [List.getElem?_append_left (List.getElem?_eq_some_iff.mp found).1]
      exact found
    · rw [List.length_cons,← Nat.add_assoc,Nat.add_right_comm]
      exact behind

/-- A straight-line part. -/
theorem runs_ops {ops : List Op} (loaded : Loaded code place k (ops.map .op)) (c : Cpu) (M : Nat → UInt8) :
    Runs code ⟨c,M,place k⟩ ⟨ops.foldl Cpu.apply c,M,place (k + ops.length)⟩ := by
  induction ops generalizing k c with
  | nil => exact .refl
  | cons o rest ih =>
    obtain ⟨here,later⟩ := loaded_cons loaded
    have first : Runs code ⟨c,M,place k⟩ ⟨c.apply o,M,place (k + 1)⟩ := runs_step here rfl
    rw [List.length_cons,← Nat.add_assoc,Nat.add_right_comm]
    exact runs_trans first (ih later _)

/-- A loop that counts down: a round takes each count to the one before. -/
theorem runs_down {Inv : Nat → State → Prop} (round : ∀ k s, Inv (k + 1) s → ∃ s', Runs code s s' ∧ Inv k s') (n : Nat) :
    ∀ s, Inv n s → ∃ s', Runs code s s' ∧ Inv 0 s' := by
  induction n with
  | zero => exact fun s holds => ⟨s,.refl,holds⟩
  | succ n ih =>
    intro s holds
    obtain ⟨s₁,first,less⟩ := round n s holds
    obtain ⟨s₂,rest,done⟩ := ih s₁ less
    exact ⟨s₂,runs_trans first rest,done⟩

end

/-! ### Flags -/

theorem negative_of_small {x : UInt32} (small : x.toNat < 2 ^ 31) : negative x = false :=
  decide_eq_false (Nat.not_le.mpr small)

theorem subtract_ge {c : Cpu} {rd : Reg} {x y : UInt32} (le : y.toNat ≤ x.toNat) (small : x.toNat < 2 ^ 31) :
    (c.subtract rd x y).n = (c.subtract rd x y).v := by
  have difference : negative (x - y) = false := negative_of_small (by rw [toNat_sub_of_le le]; omega)
  show negative (x - y) = (negative x != negative y && negative (x - y) != negative x)
  rw [difference,negative_of_small small,negative_of_small (Nat.lt_of_le_of_lt le small)]
  rfl

theorem subtract_lt {c : Cpu} {rd : Reg} {x y : UInt32} (less : x.toNat < y.toNat) (small : y.toNat < 2 ^ 31) :
    (c.subtract rd x y).n ≠ (c.subtract rd x y).v := by
  have difference : negative (x - y) = true := by
    refine decide_eq_true ?_
    rw [UInt32.toNat_sub]
    omega
  show negative (x - y) ≠ (negative x != negative y && negative (x - y) != negative x)
  rw [difference,negative_of_small small,negative_of_small (Nat.lt_trans less small)]
  decide

/-! ### Code from listings -/

/-- Listing number `f` starts at `4096 * f`, and every instruction takes four bytes. -/
def slot (f k : Nat) : UInt32 := UInt32.ofNat (4096 * f + 4 * k + 1)
def assemble (listings : List (List Instr)) : Code := fun addr =>
  (listings[addr.toNat / 4096]?).bind fun listing => (listing[addr.toNat % 4096 / 4]?).map fun i => (i,addr + 4)

theorem assemble_loaded {listings : List (List Instr)} {f : Nat} {listing : List Instr} (found : listings[f]? = some listing)
    (low : f < 1024) (short : listing.length ≤ 1000) : Loaded (assemble listings) (slot f) 0 listing := by
  intro j i here
  have inside := (List.getElem?_eq_some_iff.mp here).1
  have value : ∀ k ≤ 1000, (slot f k).toNat = 4096 * f + 4 * k + 1 := fun k _ => UInt32.toNat_ofNat_of_lt' (by
    show _ < 2 ^ 32
    omega)
  have page : (slot f j).toNat / 4096 = f := by rw [value j (by omega)]; omega
  have part : (slot f j).toNat % 4096 / 4 = j := by rw [value j (by omega)]; omega
  have next : slot f j + 4 = slot f (j + 1) := by
    have four : (4 : UInt32).toNat = 4 := rfl
    rw [eq_iff_toNat,toNat_add_of_lt (by rw [value j (by omega),four]; omega),value j (by omega),value (j + 1) (by omega),four]
    omega
  rw [Nat.zero_add,assemble,page,part,found,Option.bind_some,here,next]
  rfl

end NuMicroBoot.Thumb
