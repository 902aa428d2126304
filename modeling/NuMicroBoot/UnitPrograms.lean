import NuMicroBoot.WritePlans

/-!
The program steps of a write to the internal flash: when no step fails, the
write returns 0 and programs each unit that holds a byte of its range once, in
ascending order.
-/

namespace NuMicroBoot.UnitPrograms
open NuMicroBoot.Calls NuMicroBoot.Calls.Prog NuMicroBoot.Cells NuMicroBoot.Words NuMicroBoot.Driver NuMicroBoot.Nvmc
open NuMicroBoot.InternalDriver NuMicroBoot.FlashMap NuMicroBoot.AreaPlans NuMicroBoot.WritePlans

variable {bsp : Bsp}

/-! ### Addresses -/

/-- The address that a program step is for. -/
def programAddress : Call → Option Nat
  | .NVT_NVMC_Program addr _ => some addr.toNat
  | .NVT_NVMC_Read _ => none
  | .NVT_NVMC_Erase _ => none

/-- The addresses passed to `NVT_NVMC_Program`, in order. -/
def programAddresses (t : List (Event interface)) : List Nat := t.filterMap fun e => programAddress e.call

theorem programAddresses_append (t u : List (Event interface)) :
    programAddresses (t ++ u) = programAddresses t ++ programAddresses u := List.filterMap_append

theorem programAddresses_calls {t : List (Event interface)} {cs : List Call} (calls : t.map Event.call = cs) :
    programAddresses t = cs.filterMap programAddress := by
  rw [← calls,List.filterMap_map]
  rfl

theorem addresses_wordReads (addr : UInt32) (n : Nat) : (wordReads addr n).filterMap programAddress = [] := by
  induction n generalizing addr with
  | zero => rfl
  | succ n ih =>
    rw [wordReads,List.filterMap_cons_none rfl]
    exact ih _

theorem addresses_programs {u a : Nat} {data : Nat → UInt8} {cs : List Call} (programs : Programs u a data cs) :
    cs.filterMap programAddress = (List.range cs.length).map fun i => a + u * i := by
  induction programs with
  | nil => rfl
  | @cons a data addr dword cs place bytes rest ih =>
    have head : programAddress (.NVT_NVMC_Program addr dword) = some a := by rw [programAddress,place]
    rw [List.filterMap_cons_some head,ih,List.length_cons,List.range_succ_eq_map,List.map_cons,List.map_map]
    congr 1
    refine List.map_congr_left fun i _ => ?_
    rw [Function.comp_apply,Nat.mul_succ,Nat.add_assoc,Nat.add_comm u]

/-! ### Executions without a failure -/

section
variable {σ : Type} {R : Device interface σ} {s s' : σ} {t : List (Event interface)}

theorem planned_done {cs : List Call} {rc : Int32} (exec : Exec R (planned cs) s t (.ret rc) s')
    (fine : ∀ e ∈ t, succeeded e.call e.answer = true) : rc = 0 ∧ t.map Event.call = cs := by
  obtain ⟨t₁,t₂,r,s₁,rfl,first,last⟩ := exec_bind_done exec
  obtain ⟨rfl,returned,_⟩ := exec_ret last
  obtain ⟨all,calls⟩ := exec_issue_done first fun e member => fine e (by simp [member])
  rw [all] at returned
  cases returned
  exact ⟨rfl,by simp [calls]⟩

variable {rom : Rom} {area : flash_area interface}

theorem read_done [Bootutil] (on : OnUnits bsp rom area) {off len : UInt32} {dst : Buffer} {r : Int32 × Buffer}
    (fits : off.toNat + len.toNat ≤ area.fa_size.toNat)
    (exec : Exec R (flash_area_read area off dst len) s t (.ret r) s')
    (fine : ∀ e ∈ t, succeeded e.call e.answer = true) : r.1 = 0 ∧ programAddresses t = [] := by
  rw [units_read_eq on fits] at exec
  obtain ⟨t₁,t₂,words,s₁,rfl,first,last⟩ := exec_bind_done exec
  obtain ⟨rfl,returned,_⟩ := exec_ret last
  obtain ⟨all,calls⟩ := exec_issue_done first fun e member => fine e (by simp [member])
  cases returned
  constructor
  · exact if_pos all
  · rw [List.append_nil,programAddresses_calls calls,addresses_wordReads]

end

/-! ### Writes -/

/-- Numbers rounded to multiples of 8. -/
def floor8 (n : Nat) : Nat := 8 * (n / 8)
def ceil8 (n : Nat) : Nat := 8 * ((n + 7) / 8)

variable {rom : Rom} {area : flash_area interface}

/-- The two reads of a write that fits are inside the area. -/
theorem padding_fits (on : OnUnits bsp rom area) {off len : UInt32} (fits : off.toNat + len.toNat ≤ area.fa_size.toNat) :
    (FLOOR_ALIGN off FLASH_PROGRAM_UNIT).toNat + (off - FLOOR_ALIGN off FLASH_PROGRAM_UNIT).toNat ≤ area.fa_size.toNat ∧
      (off + len).toNat + (tailSize off len).toNat ≤ area.fa_size.toNat := by
  have whole := on.size_aligned
  have bound := area.fa_size.toNat_lt
  obtain ⟨head,total,tail⟩ : Sizes off len _ _ _ := sizes_of (by omega)
  have floor := floor_align_eight off
  have next : (off + len).toNat = off.toNat + len.toNat := toNat_add_of_lt (by omega)
  omega

theorem read_terminates [Bootutil] (on : OnUnits bsp rom area) {off len : UInt32}
    (fits : off.toNat + len.toNat ≤ area.fa_size.toNat) (dst : Buffer) :
    (flash_area_read area off dst len).All (fun _ => True) fun _ => True := by
  rw [units_read_eq on fits]
  exact all_bind (issue_terminates _) fun _ _ => trivial

theorem write_terminates [Bootutil] (on : OnUnits bsp rom area) {off len : UInt32}
    (fits : off.toNat + len.toNat ≤ area.fa_size.toNat) (src : Buffer) :
    (flash_area_write area off src len).All (fun _ => True) fun _ => True := by
  obtain ⟨head,tail⟩ := padding_fits on fits
  rw [units_write_eq on fits]
  refine all_bind (read_terminates on head _) fun r _ => all_ite (fun _ => trivial) fun _ => ?_
  refine all_bind (read_terminates on tail _) fun r' _ => all_ite (fun _ => trivial) fun _ => ?_
  exact all_bind (issue_terminates _) fun _ _ => trivial

/-- A write inside its area ends, and when no step of it fails it returns 0, so that none of its checks on its own
    counters has stopped it, and programs the units from `A` on, each once and in ascending order, up to `A + L`. -/
theorem units_programmed_once [Bootutil] (on : OnUnits bsp rom area) {off len : UInt32}
    (fits : off.toNat + len.toNat ≤ area.fa_size.toNat) (src : Buffer) :
    (flash_area_write area off src len).All (fun _ => True) (fun _ => True) ∧
    ∀ (σ : Type) (R : Device interface σ) (s : σ) (t : List (Event interface)) (rc : Int32) (s' : σ),
      Exec R (flash_area_write area off src len) s t (.ret rc) s' →
      (∀ e ∈ t, succeeded e.call e.answer = true) →
      rc = 0 ∧ ∃ n, (NVT_NVMC_PROGRAM_UNIT bsp).toNat * n = ceil8 (len.toNat + off.toNat - floor8 off.toNat) ∧
        programAddresses t = (List.range n).map fun i =>
          area.fa_off.toNat + floor8 off.toNat + (NVT_NVMC_PROGRAM_UNIT bsp).toNat * i := by
  refine ⟨write_terminates on fits src,fun σ R s t rc s' exec fine => ?_⟩
  obtain ⟨head,tail⟩ := padding_fits on fits
  rw [units_write_eq on fits] at exec
  obtain ⟨t₁,rest,r,s₁,rfl,first,exec⟩ := exec_bind_done exec
  obtain ⟨zero,none⟩ := read_done on head first fun e member => fine e (by simp [member])
  rw [if_neg (not_not.mpr zero)] at exec
  obtain ⟨t₂,t₃,r',s₂,rfl,second,exec⟩ := exec_bind_done exec
  obtain ⟨zero',none'⟩ := read_done on tail second fun e member => fine e (by simp [member])
  rw [if_neg (not_not.mpr zero')] at exec
  obtain ⟨rfl,calls⟩ := planned_done exec fun e member => fine e (by simp [member])
  obtain ⟨programs,size⟩ := units_covers_write on fits src r.2 r'.2
  refine ⟨rfl,(writePrograms bsp area.fa_off off len src r.2 r'.2).length,?_,?_⟩
  · rw [size,ceil8,floor8]
    omega
  · rw [programAddresses_append,programAddresses_append,none,none',programAddresses_calls calls]
    exact addresses_programs programs

/-- An area of three program units that starts inside a page. -/
def small : flash_area interface where
  fa_id := 9
  fa_device_id := 100
  fa_driver := Driver_FLASH0 board
  fa_off := 0x1008
  fa_size := 24

theorem units_programmed_once_small :
    (@flash_area_write _ bootutil small 6 (fun _ => 5) 4).All (fun _ => True) (fun _ => True) ∧
    ∀ (σ : Type) (R : Device interface σ) (s : σ) (t : List (Event interface)) (rc : Int32) (s' : σ),
      Exec R (@flash_area_write _ bootutil small 6 (fun _ => 5) 4) s t (.ret rc) s' →
      (∀ e ∈ t, succeeded e.call e.answer = true) →
      rc = 0 ∧ ∃ n, (NVT_NVMC_PROGRAM_UNIT board).toNat * n = 16 ∧
        programAddresses t = (List.range n).map fun i => 0x1008 + (NVT_NVMC_PROGRAM_UNIT board).toNat * i :=
  @units_programmed_once board .APROM small bootutil
    ⟨rfl,board_sound,by decide,by decide,⟨by decide,by decide⟩⟩ 6 4 (by decide) fun _ => 5

end NuMicroBoot.UnitPrograms
