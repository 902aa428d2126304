import NuMicroBoot.BackEnds
import NuMicroBoot.Failure
import NuMicroBoot.Isolation
import NuMicroBoot.Refinement

/-!
Clients of the flash map, such as MCUboot: programs that make any request after
any replies. On the registers of the FMC and on the functions under the RMC back
end, where every command may fail or take too long, a client runs as it does on
areas that are byte arrays and whose requests may report an error.
-/

namespace NuMicroBoot.Clients
open NuMicroBoot.Calls NuMicroBoot.Calls.Prog NuMicroBoot.Cells NuMicroBoot.Words NuMicroBoot.Driver NuMicroBoot.Nvmc
open NuMicroBoot.FlashMap NuMicroBoot.AreaPlans NuMicroBoot.Requests NuMicroBoot.Refinement NuMicroBoot.Isolation
open NuMicroBoot.FmcDrv NuMicroBoot.RmcDrv NuMicroBoot.BackEnds NuMicroBoot.Simulation NuMicroBoot.FmcParts NuMicroBoot.FailingParts

variable {bsp : Bsp} (map : InternalMap bsp)

/-! ### The flash map as clients see it -/

/-- A request to an area of the map, answered by a reply. -/
abbrev flash_map_backend : Interface := ⟨Fin map.flash_map_entry_num × Request,fun _ => Reply⟩

def serve [Bootutil] (r : Fin map.flash_map_entry_num × Request) : Prog interface Reply := perform (map.areas r.1) r.2

/-- A client on the calls of the controller. -/
def onDrivers [Bootutil] {α : Type} (client : Prog (flash_map_backend map) α) : Prog interface α := client.translate (serve map)

/-- The request may change this byte. -/
def Touches (r : Fin map.flash_map_entry_num × Request) (p : Nat) : Prop := r.2.changes = true ∧ (map.flash_map r.1).Holds p

/-- How a request is answered where commands may fail; the number counts those that have. -/
structure Served (r : Fin map.flash_map_entry_num × Request) (s : Content × Nat) (reply : Reply) (s' : Content × Nat) : Prop where
  counted : s'.2 = s.2 ∨ s'.2 = s.2 + 1 ∧ reply.Error r.2
  framed : ∀ p, ¬ Touches map r p → s'.1 p = s.1 p
  arrays : s'.2 = s.2 → Aligned bsp r.2 → ∀ arrays, Agrees arrays s.1 → arrays.Expects r reply ∧ Agrees (arrays.step r) s'.1

/-- The abstract flash map. -/
def served : Device (flash_map_backend map) (Content × Nat) := Served map

variable {map} {K : Content → Prop}

/-- What every answer to a request keeps, every change of its own bytes keeps. -/
theorem kept_framed {r : Fin map.flash_map_entry_num × Request} {M M' : Content} {n : Nat}
    (keeps : ∀ reply s', Served map r (M,n) reply s' → K s'.1) (framed : ∀ p, ¬ Touches map r p → M' p = M p) : K M' := by
  have counted : n + 1 = n ∨ n + 1 = n + 1 ∧ Reply.Error r.2 ⟨-1,stackArray⟩ := .inr ⟨rfl,error_refused r.2 stackArray⟩
  exact keeps ⟨-1,stackArray⟩ (M',n + 1) ⟨counted,framed,fun none => absurd none (Nat.succ_ne_self n)⟩

section
variable [Bootutil]

theorem perform_counted (r : Fin map.flash_map_entry_num × Request) (M : Content) (n : Nat) :
    (perform (map.areas r.1) r.2).Wp (counting (Unreliable bsp) succeeded) (fun _ => True)
      (fun reply s' => (s'.2 = n ∨ s'.2 = n + 1 ∧ reply.Error r.2) ∧ (s'.2 = n → Aligned bsp r.2 → ∀ arrays : Arrays map,
        Agrees arrays M → arrays.Expects r reply ∧ Agrees (arrays.step r) s'.1)) (M,n) := by
  have driver : (map.areas r.1).fa_driver = (map.flash_map r.1).rom.driver bsp := rfl
  have stops := failStop_counted (R := Unreliable bsp)
    (Failure.failStop_perform (map.flash_map r.1).sound (map.flash_map r.1).rom driver r.2) M n
  have runs := counted_run (R := Unreliable bsp) (fun _ _ _ _ => unreliable_good) (all_perform (map.flash_map r.1) r.2) M n
  refine wp_weaken (wp_mono (wp_and stops runs) ?_) fun _ _ => trivial
  rintro reply s' ⟨counted,_,ran⟩
  refine ⟨counted,fun none aligned arrays agrees => ?_⟩
  obtain ⟨reply',M',ran',expected,agrees'⟩ := perform_refines agrees r aligned
  obtain ⟨rfl,rfl⟩ := Prod.mk.inj (Option.some.inj ((ran none).symm.trans ran'))
  exact ⟨expected,agrees'⟩

/-- On the way through a request, only its own bytes change. -/
theorem perform_framed (r : Fin map.flash_map_entry_num × Request) (M : Content) (n : Nat) :
    (perform (map.areas r.1) r.2).Wp (counting (Unreliable bsp) succeeded) (fun s => ∀ p, ¬ Touches map r p → s.1 p = M p)
      (fun _ _ => True) (M,n) := by
  refine all_keeps (fun c s a s' confined answered same p outside => ?_) (all_perform (map.flash_map r.1) r.2) fun _ _ => rfl
  exact (confined_kept confined (unreliable_faulty answered.1) outside).trans (same p outside)

/-- The flash map over the drivers carries out the abstract one. -/
theorem map_simulates : Simulates (fun s t => s = t ∧ K t.1) (served map) (fun t => K t.1) (counting (Unreliable bsp) succeeded)
    (fun s => K s.1) (serve map) := by
  refine ⟨?_,?_⟩
  · rintro s _ ⟨rfl,kept⟩
    exact kept
  · rintro r s _ ⟨rfl,_⟩ keeps
    obtain ⟨M,n⟩ := s
    have inside := wp_last (wp_and (perform_framed r M n) (perform_counted r M n))
    refine wp_weaken (wp_mono inside ?_) fun s' way => kept_framed keeps way.1
    rintro reply s' ⟨⟨framed,_⟩,_,counted,arrays⟩
    have answered : Served map r (M,n) reply s' := ⟨counted,framed,arrays⟩
    exact ⟨s',answered,rfl,keeps reply s' answered⟩

end

/-! ### Clients -/

/-- The bytes that requests of this kind may change. -/
def TouchedBy (map : InternalMap bsp) (calls : Fin map.flash_map_entry_num × Request → Prop) (p : Nat) : Prop :=
  ∃ r, calls r ∧ Touches map r p

/-- The content outside these bytes is as it was. -/
def Untouched (map : InternalMap bsp) (calls : Fin map.flash_map_entry_num × Request → Prop) (M M' : Content) : Prop :=
  ∀ p, ¬ TouchedBy map calls p → M' p = M p

/-- The client ends, and makes requests of this kind only. -/
def Requests (map : InternalMap bsp) (calls : Fin map.flash_map_entry_num × Request → Prop) {α : Type}
    (client : Prog (flash_map_backend map) α) : Prop :=
  client.All calls fun _ => True

/-- Some execution of the client on the abstract flash map. -/
def Explained (map : InternalMap bsp) {α : Type} (client : Prog (flash_map_backend map) α) (s : Content × Nat) (a : α)
    (s' : Content × Nat) : Prop :=
  ∃ t, Exec (served map) client s t (.ret a) s'

section
variable {α : Type} {calls : Fin map.flash_map_entry_num × Request → Prop} {client : Prog (flash_map_backend map) α}

theorem client_served (requests : Requests map calls client) (M : Content) (n : Nat) :
    client.Wp (served map) (fun t => Untouched map calls M t.1) (fun a s' => Explained map client (M,n) a s') (M,n) := by
  refine wp_execution (all_keeps (fun r s reply s' permitted answered same p outside => ?_) requests fun _ _ => rfl)
  exact (answered.framed p fun touched => outside ⟨r,permitted,touched⟩).trans (same p outside)

variable [Bootutil]

theorem client_counted (requests : Requests map calls client) (M : Content) (n : Nat) :
    (onDrivers map client).Wp (counting (Unreliable bsp) succeeded) (fun t => Untouched map calls M t.1)
      (fun a s' => Explained map client (M,n) a s') (M,n) := by
  have carried := simulates_wp map_simulates (client_served requests M n) ⟨rfl,fun _ _ => rfl⟩
  refine wp_mono carried fun a s' after => ?_
  obtain ⟨_,explained,rfl,_⟩ := after
  exact explained

/-! ### On a back end -/

section
variable (b : BackEnd bsp) (requests : Requests map calls client)
include requests

theorem client_wp {s : b.State} (ready : b.ready s) :
    ((onDrivers map client).translate b.drv).Wp b.device (fun s' => Untouched map calls (b.content s) (b.content s'))
      (fun a s' => b.ready s' ∧ Explained map client (b.content s,b.failures s) a (b.content s',b.failures s')) s := by
  have carried := simulates_wp (b.simulates _) (client_counted requests (b.content s) (b.failures s))
    (b.start ready fun _ _ => rfl)
  refine wp_mono carried fun a s' after => ?_
  obtain ⟨⟨M',n'⟩,explained,related⟩ := after
  obtain ⟨ready',rfl,rfl⟩ := b.ended related
  exact ⟨ready',explained⟩

/-- Whatever has happened, the run can go on to the client's end. -/
theorem client_ends {s s' : b.State} (ready : b.ready s) {t : List (Event b.registers)} {q : Prog b.registers α}
    (exec : Exec b.device ((onDrivers map client).translate b.drv) s t q s') : ∃ t' a s'', Exec b.device q s' t' (.ret a) s'' :=
  wp_ends b.answers (wp_exec (client_wp b requests ready) exec)

end

/-- At every point of a client's run on the FMC, whichever commands fail or outlast their time-outs: it has not run forever
    and can go on to its end, and the bytes that its requests cannot change are as before; when it returns, the controller is
    ready again, and the client has run so on the abstract flash map. -/
theorem client_on_registers {fmc : Fmc} (proper : Proper fmc) (own : OwnFlag fmc) (type : bsp.type = .FMC) (data : UInt32)
    (requests : Requests map calls client) {s s' : Failing} {t : List (Event registers)} {q : Prog registers α}
    (ready : s.Ready) (exec : Exec (failing fmc bsp) ((onDrivers map client).translate (fmc_drv fmc data)) s t q s') :
    q ≠ .spin ∧ (∃ t' a s'', Exec (failing fmc bsp) q s' t' (.ret a) s'') ∧ Untouched map calls s.content s'.content ∧
      ∀ a, q = .ret a → s'.Ready ∧ Explained map client (s.content,s.failures) a (s'.content,s'.failures) := by
  obtain ⟨going,untouched,ends⟩ := wp_all_points (client_wp (.FMC proper own type data) requests ready) exec
  exact ⟨going,client_ends (.FMC proper own type data) requests ready exec,untouched,ends⟩

/-- The same for the functions under the RMC back end, where they fail with the codes that it tests. -/
theorem client_on_rmc {codes : RmcCodes} (tested : codes.Tested) (type : bsp.type = .RMC) (requests : Requests map calls client)
    {s s' : RmcPart} {t : List (Event rmc)} {q : Prog rmc α}
    (exec : Exec (failingRmc bsp codes) ((onDrivers map client).translate rmc_drv) s t q s') :
    q ≠ .spin ∧ (∃ t' a s'', Exec (failingRmc bsp codes) q s' t' (.ret a) s'') ∧ Untouched map calls s.content s'.content ∧
      ∀ a, q = .ret a → Explained map client (s.content,s.failures) a (s'.content,s'.failures) := by
  obtain ⟨going,untouched,ends⟩ := wp_all_points (client_wp (.RMC type tested) requests trivial) exec
  exact ⟨going,client_ends (.RMC type tested) requests trivial exec,untouched,fun a returned => (ends a returned).2⟩

end

/-! ### Two clients -/

/-- A part before its first command. -/
def ready : Failing := ⟨⟨0,0,0,0,0,0,fun _ => 0⟩,false,0,false⟩

/-- A client that erases the first sector of the primary slot, and once more where that reports an error. -/
def eraseTwice : Prog (flash_map_backend slots) Reply :=
  .call (primaryIndex,.flash_area_erase 0 0x800) fun reply =>
    if reply.rc = 0 then .ret reply else .call (primaryIndex,.flash_area_erase 0 0x800) .ret

theorem eraseTwice_requests : Requests slots (fun r => r = (primaryIndex,.flash_area_erase 0 0x800)) eraseTwice :=
  ⟨rfl,fun _ => all_ite (fun _ => trivial) fun _ => ⟨rfl,fun _ => trivial⟩⟩

/-- The first erase is given up while it leaves the sector full of sevens, and the run goes on from there to its end. -/
theorem client_on_registers_erase : ∃ (s' s'' : Failing) (q : Prog registers Reply) (t : List (Event registers)) (a : Reply),
    s'.failures = 1 ∧ s'.content = sevens ∧ q ≠ .spin ∧
      Untouched slots (fun r => r = (primaryIndex,.flash_area_erase 0 0x800)) ready.content s'.content ∧
      Exec (failing fmcRegisters board) q s' t (.ret a) s'' ∧ s''.Ready ∧
      Untouched slots (fun r => r = (primaryIndex,.flash_area_erase 0 0x800)) ready.content s''.content ∧
      Explained slots eraseTwice (ready.content,ready.failures) a (s''.content,s''.failures) := by
  have exec : ∃ q t, Exec (failing fmcRegisters board)
      ((@onDrivers board slots bootutil _ eraseTwice).translate (fmc_drv fmcRegisters 0)) ready t q
      ⟨⟨0x22,0x20000,0,0,0,9,sevens⟩,true,1,true⟩ :=
    ⟨_,_,.step command_stored (.step address_stored (.step (erase_outlasts (fill_outside 7 _ _ _)) (.stop _ _)))⟩
  obtain ⟨q,t,exec⟩ := exec
  have run := fun {t q s'} => @client_on_registers board slots _ _ _ bootutil fmcRegisters fmcRegisters_proper fmcRegisters_own rfl 0
    eraseTwice_requests ready s' t q fun _ => rfl
  obtain ⟨going,⟨t',a,s'',rest⟩,untouched,_⟩ := run exec
  obtain ⟨_,_,untouched',ends⟩ := run (exec_trans exec rest)
  obtain ⟨ready',explained⟩ := ends a rfl
  exact ⟨_,s'',q,t',a,rfl,rfl,going,untouched,rest,ready',untouched',explained⟩

theorem rmcBoard_sound : Sound (part board .RMC 0) := ⟨by decide,fun rom => by cases rom <;> decide⟩

/-- The primary slot alone, on a part with an RMC. -/
def rmcSlot : InternalMap (part board .RMC 0) where
  flash_map_entry_num := 1
  flash_map _ := ⟨.APROM,1,100,0x20000,0x8000,rmcBoard_sound,by decide,by decide,⟨by decide,by decide⟩⟩
  disjoint := fun i j other => absurd (Subsingleton.elim i j) other
  apart := .inl (by decide)

/-- One erase of it. -/
def eraseOnce : Prog (flash_map_backend rmcSlot) Reply := .call ((0 : Fin 1),.flash_area_erase 0 0x800) .ret

/-- The codes that `rmc_drv.c` tests. -/
def testedCodes : RmcCodes := ⟨fun code => code = -1,fun code => code = -1 ∨ code = -2⟩

theorem client_on_rmc_erase : ∃ (s' : RmcPart) (a : Reply), s'.failures = 1 ∧ s'.content = sevens ∧ a.rc ≠ 0 ∧
    Untouched rmcSlot (fun _ => True) (fun _ => 0) s'.content ∧
      Explained rmcSlot eraseOnce (fun _ => 0,0) a (s'.content,s'.failures) := by
  have exec : ∃ a t, Exec (failingRmc (part board .RMC 0) testedCodes)
      ((@onDrivers _ rmcSlot bootutil _ eraseOnce).translate rmc_drv) ⟨fun _ => 0,0,0⟩ t (.ret a) ⟨sevens,0,1⟩ ∧ a.rc ≠ 0 :=
    ⟨_,_,.step (.inr ⟨.inr rfl,sevens,0,fill_outside 7 _ _ _,rfl⟩) (.stop _ _),show ARM_DRIVER_ERROR ≠ 0 by decide⟩
  obtain ⟨a,t,exec,failed⟩ := exec
  obtain ⟨_,_,untouched,ends⟩ := @client_on_rmc (part board .RMC 0) rmcSlot _ (fun _ => True) eraseOnce bootutil testedCodes
    ⟨fun _ => id,fun _ => id⟩ rfl ⟨trivial,fun _ => trivial⟩ ⟨fun _ => 0,0,0⟩ _ t _ exec
  exact ⟨_,a,rfl,rfl,failed,untouched,ends a rfl⟩

end NuMicroBoot.Clients
