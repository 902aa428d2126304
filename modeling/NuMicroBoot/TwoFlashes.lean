import NuMicroBoot.Clients
import NuMicroBoot.FlashLayout
import NuMicroBoot.NorAreas
import NuMicroBoot.SpimRegisters

/-!
The flash map of a board with a serial flash beside the internal one. On the
registers of both controllers, where every command of the internal flash may
fail or take too long, a client runs as it does on byte arrays, one for each
area.
-/

namespace NuMicroBoot.TwoFlashes
open NuMicroBoot.Calls NuMicroBoot.Calls.Prog NuMicroBoot.Cells NuMicroBoot.Words NuMicroBoot.Driver NuMicroBoot.Nvmc
open NuMicroBoot.FlashMap NuMicroBoot.AreaPlans NuMicroBoot.Requests NuMicroBoot.Refinement NuMicroBoot.Simulation
open NuMicroBoot.FailingParts NuMicroBoot.AreaCalls NuMicroBoot.SerialChip NuMicroBoot.SpimBus NuMicroBoot.SpimPort
open NuMicroBoot.SpimWrites NuMicroBoot.NorAreas NuMicroBoot.InternalDriver NuMicroBoot.ExternalDriver NuMicroBoot.FlashLayout
open NuMicroBoot.FmcDrv NuMicroBoot.FmcParts NuMicroBoot.BackEnds NuMicroBoot.SpimRegisters
open NuMicroBoot.Clients (perform_framed perform_counted)

/-! ### Maps -/

/-- An area of the internal flash or of the serial one. -/
inductive BoardArea (bsp : Bsp)
  | internal (a : InternalArea bsp)
  | serial (a : SpimArea)

/-- A byte of the internal flash or of the serial one. -/
abbrev Byte := Nat ⊕ Nat

section
variable {bsp : Bsp}

def BoardArea.fa_size : BoardArea bsp → UInt32
  | .internal a => a.fa_size
  | .serial a => a.fa_size

def BoardArea.Holds : BoardArea bsp → Byte → Prop
  | .internal a, .inl p => a.Holds p
  | .serial a, .inr p => a.Holds p
  | _, _ => False

/-- Where the area has this offset. -/
def BoardArea.place : BoardArea bsp → Nat → Byte
  | .internal a, k => .inl (a.fa_off.toNat + k)
  | .serial a, k => .inr (a.fa_off.toNat + k)

/-- The requests that the array of an area describes. -/
def BoardArea.Suits : BoardArea bsp → Request → Prop
  | .internal _, request => Aligned bsp request
  | .serial _, request => Suited request

theorem place_held (area : BoardArea bsp) {k : Nat} (inside : k < area.fa_size.toNat) : area.Holds (area.place k) := by
  cases area with
  | internal a => exact ⟨Nat.le_add_right _ _,Nat.add_lt_add_left inside _⟩
  | serial a => exact ⟨Nat.le_add_right _ _,Nat.add_lt_add_left inside _⟩

end

/-- No byte is in two areas, and the two regions of the internal flash are apart. -/
structure BoardMap (bsp : Bsp) where
  flash_map_entry_num : Nat
  flash_map : Fin flash_map_entry_num → BoardArea bsp
  disjoint : ∀ i j, i ≠ j → ∀ x, (flash_map i).Holds x → ¬ (flash_map j).Holds x
  apart : bsp.APROM_BASE.toNat + bsp.APROM_SIZE.toNat ≤ bsp.LDROM_BASE.toNat ∨
    bsp.LDROM_BASE.toNat + bsp.LDROM_SIZE.toNat ≤ bsp.APROM_BASE.toNat

variable {bsp : Bsp}

abbrev drivers : Interface := Nvmc.interface.both ExternalDriver.interface

def BoardMap.areas (map : BoardMap bsp) (i : Fin map.flash_map_entry_num) : flash_area drivers :=
  match map.flash_map i with
  | .internal a => carried left a.area
  | .serial a => carried right a.area

abbrev flash_map_backend (map : BoardMap bsp) : Interface := ⟨Fin map.flash_map_entry_num × Request,fun _ => Reply⟩

def serve [Bootutil] (map : BoardMap bsp) (r : Fin map.flash_map_entry_num × Request) : Prog drivers Reply :=
  perform (map.areas r.1) r.2

/-! ### Byte arrays -/

/-- How the array of each area answers a request, with the number of commands that have failed. Where one fails, the request
    reports an error and its array may be any; a request to the serial flash does not fail. -/
structure Answers (map : BoardMap bsp) (r : Fin map.flash_map_entry_num × Request)
    (s : (Fin map.flash_map_entry_num → Nat → UInt8) × Nat) (reply : Reply)
    (s' : (Fin map.flash_map_entry_num → Nat → UInt8) × Nat) : Prop where
  counted : s'.2 = s.2 ∨ (∃ a, map.flash_map r.1 = .internal a) ∧ s'.2 = s.2 + 1 ∧ reply.Error r.2
  others : ∀ i, i ≠ r.1 ∨ r.2.changes = false → s'.1 i = s.1 i
  exact : s'.2 = s.2 → (map.flash_map r.1).Suits r.2 →
    Expects (map.flash_map r.1).fa_size.toNat (s.1 r.1) r.2 reply ∧
      s'.1 r.1 = stepped (map.flash_map r.1).fa_size.toNat (s.1 r.1) r.2

/-- The flash map as arrays. -/
def arrays (map : BoardMap bsp) : Device (flash_map_backend map) ((Fin map.flash_map_entry_num → Nat → UInt8) × Nat) :=
  Answers map

/-- The two flashes hold the arrays. -/
def Agrees (map : BoardMap bsp) (bytes : Fin map.flash_map_entry_num → Nat → UInt8) (M : Byte → UInt8) : Prop :=
  ∀ i, ∀ k < (map.flash_map i).fa_size.toNat, M ((map.flash_map i).place k) = bytes i k

/-- The request may change this byte. -/
def Changes (map : BoardMap bsp) (r : Fin map.flash_map_entry_num × Request) (x : Byte) : Prop :=
  r.2.changes = true ∧ (map.flash_map r.1).Holds x

/-- What a request has done to the bytes of the two flashes. -/
structure Replied (map : BoardMap bsp) (r : Fin map.flash_map_entry_num × Request) (M : Byte → UInt8) (n : Nat)
    (reply : Reply) (M' : Byte → UInt8) (n' : Nat) : Prop where
  counted : n' = n ∨ (∃ a, map.flash_map r.1 = .internal a) ∧ n' = n + 1 ∧ reply.Error r.2
  framed : ∀ x, ¬ Changes map r x → M' x = M x
  exact : n' = n → (map.flash_map r.1).Suits r.2 →
    Expects (map.flash_map r.1).fa_size.toNat (fun k => M ((map.flash_map r.1).place k)) r.2 reply ∧
      ∀ k < (map.flash_map r.1).fa_size.toNat, M' ((map.flash_map r.1).place k) =
        stepped (map.flash_map r.1).fa_size.toNat (fun k => M ((map.flash_map r.1).place k)) r.2 k

section
variable {size : Nat} {bytes bytes' : Nat → UInt8} {request : Request}

/-- The bytes of the array alone decide. -/
theorem expects_congr {reply : Reply} (same : ∀ k < size, bytes k = bytes' k) (expected : Expects size bytes request reply) :
    Expects size bytes' request reply := by
  unfold Expects at expected ⊢
  split_ifs at expected ⊢ with fits
  · have within : ∀ k < request.len.toNat, bytes (request.off.toNat + k) = bytes' (request.off.toNat + k) := fun k inside =>
      same _ (Nat.lt_of_lt_of_le (Nat.add_lt_add_left inside _) fits)
    cases request with
    | flash_area_read off dst len => exact ⟨expected.1,expected.2.trans (copy_congr within)⟩
    | flash_area_write off src len => exact expected
    | flash_area_erase off len => exact expected
    | flash_area_read_is_empty off dst len =>
      have erased : (∀ k < len.toNat, bytes (off.toNat + k) = 0xFF) ↔ ∀ k < len.toNat, bytes' (off.toNat + k) = 0xFF :=
        forall₂_congr fun k inside => Eq.congr_left (within k inside)
      exact ⟨expected.1.trans (if_congr erased rfl rfl),expected.2.trans (copy_congr within)⟩
  · exact expected

theorem stepped_congr (same : ∀ k < size, bytes k = bytes' k) {k : Nat} (inside : k < size) :
    stepped size bytes request k = stepped size bytes' request k := by
  unfold stepped
  split_ifs
  · cases request <;> simp only [applied,combine,fill,same k inside]
  · exact same k inside

theorem stepped_reads (reads : request.changes = false) : stepped size bytes request = bytes := by
  unfold stepped
  split_ifs
  · cases request with
    | flash_area_write off src len => cases reads
    | flash_area_erase off len => cases reads
    | _ => rfl
  · rfl

end

/-- What a request does to the flashes it does to the arrays. -/
theorem replied_arrays {map : BoardMap bsp} {r : Fin map.flash_map_entry_num × Request} {M M' : Byte → UInt8} {n n' : Nat}
    {reply : Reply} (replied : Replied map r M n reply M' n') {bytes : Fin map.flash_map_entry_num → Nat → UInt8}
    (agrees : Agrees map bytes M) : ∃ bytes', arrays map r (bytes,n) reply (bytes',n') ∧ Agrees map bytes' M' := by
  have same : ∀ k < (map.flash_map r.1).fa_size.toNat, M ((map.flash_map r.1).place k) = bytes r.1 k := agrees r.1
  have elsewhere : ∀ i, i ≠ r.1 ∨ r.2.changes = false → ∀ k < (map.flash_map i).fa_size.toNat,
      M' ((map.flash_map i).place k) = bytes i k := by
    intro i way k inside
    rw [replied.framed _ ?_,agrees i k inside]
    rintro ⟨changes,holds⟩
    rcases way with other | reads
    · exact map.disjoint i r.1 other _ (place_held _ inside) holds
    · exact absurd (changes.symm.trans reads) (by decide)
  by_cases reads : r.2.changes = false
  · refine ⟨bytes,⟨replied.counted,fun _ _ => rfl,fun none suits => ⟨?_,(stepped_reads reads).symm⟩⟩,fun i => elsewhere i (.inr reads)⟩
    exact expects_congr same (replied.exact none suits).1
  · have update : ∀ new : Nat → UInt8, (∀ k < (map.flash_map r.1).fa_size.toNat, M' ((map.flash_map r.1).place k) = new k) →
        (n' = n → (map.flash_map r.1).Suits r.2 → new = stepped (map.flash_map r.1).fa_size.toNat (bytes r.1) r.2) →
        ∃ bytes', arrays map r (bytes,n) reply (bytes',n') ∧ Agrees map bytes' M' := by
      intro new content exactly
      refine ⟨Function.update bytes r.1 new,⟨replied.counted,fun i way => ?_,fun none suits => ⟨?_,?_⟩⟩,fun i k inside => ?_⟩
      · exact Function.update_of_ne (way.resolve_right reads) _ _
      · exact expects_congr same (replied.exact none suits).1
      · exact (Function.update_self _ _ _).trans (exactly none suits)
      · by_cases here : i = r.1
        · subst here
          rw [Function.update_self,content k inside]
        · rw [Function.update_of_ne here,elsewhere i (.inl here) k inside]
    by_cases exactly : n' = n ∧ (map.flash_map r.1).Suits r.2
    · refine update (stepped (map.flash_map r.1).fa_size.toNat (bytes r.1) r.2) (fun k inside => ?_) fun _ _ => rfl
      rw [(replied.exact exactly.1 exactly.2).2 k inside,stepped_congr same inside]
    · exact update (fun k => M' ((map.flash_map r.1).place k)) (fun _ _ => rfl) fun none suits => absurd ⟨none,suits⟩ exactly

/-! ### Requests to the internal flash -/

section
variable (apart : bsp.APROM_BASE.toNat + bsp.APROM_SIZE.toNat ≤ bsp.LDROM_BASE.toNat ∨
  bsp.LDROM_BASE.toNat + bsp.LDROM_SIZE.toNat ≤ bsp.APROM_BASE.toNat)

/-- The map with one area. -/
def single (a : InternalArea bsp) : InternalMap bsp where
  flash_map_entry_num := 1
  flash_map _ := a
  disjoint := fun i j other => absurd (Subsingleton.elim i j) other
  apart := apart

include apart in
theorem internal_perform [Bootutil] (a : InternalArea bsp) (request : Request) (M : Content) (n : Nat) :
    (perform a.area request).Wp (counting (Unreliable bsp) succeeded)
      (fun s => ∀ p, ¬ (request.changes = true ∧ a.Holds p) → s.1 p = M p)
      (fun reply s' => (s'.2 = n ∨ s'.2 = n + 1 ∧ reply.Error request) ∧
        Replies a.fa_off.toNat a.fa_size.toNat (s'.2 = n ∧ Aligned bsp request) request M reply s'.1) (M,n) := by
  have counted := @perform_counted bsp (single apart a) _ ((0 : Fin 1),request) M n
  have framed := @perform_framed bsp (single apart a) _ ((0 : Fin 1),request) M n
  refine wp_weaken (wp_mono (wp_last (wp_and framed counted)) ?_) fun _ way => way.1
  rintro reply s' ⟨⟨outside,_⟩,_,count,arrays⟩
  refine ⟨count,outside,fun suits => ?_⟩
  -- the array of the area, as the map with this area alone has it
  obtain ⟨expected,agrees⟩ := arrays suits.1 suits.2 ⟨fun _ k => M (a.fa_off.toNat + k),M⟩ ⟨fun _ _ _ => rfl,fun _ _ => rfl⟩
  refine ⟨expected,fun k inside => (agrees.area (0 : Fin 1) k inside).trans ?_⟩
  unfold Arrays.step stepped
  by_cases fits : Fits a.fa_size.toNat request
  · have there : FitsIn (single apart a) ((0 : Fin 1),request) := fits
    rw [if_pos there,if_pos fits]
    show Function.update (fun (_ : Fin 1) k => M (a.fa_off.toNat + k)) 0 (applied (fun k => M (a.fa_off.toNat + k)) request) 0 k = _
    rw [Function.update_self]
  · have there : ¬ FitsIn (single apart a) ((0 : Fin 1),request) := fits
    rw [if_neg there,if_neg fits]

end

/-! ### Requests to both -/

/-- Both flashes under the flash map: commands of the internal one may fail. -/
def parts (bsp : Bsp) : Device drivers ((Content × Nat) × Option (Nat → UInt8)) :=
  Device.both (counting (Unreliable bsp) succeeded) Nor

/-- A memory outside these bytes is as it was. -/
def Untouched (T : Nat → Prop) (M M' : Nat → UInt8) : Prop := ∀ p, ¬ T p → M' p = M p

section
variable [Bootutil] {map : BoardMap bsp}

/-- At every point of a request no byte has changed but those that it may change. -/
theorem serve_wp (r : Fin map.flash_map_entry_num × Request) (M : Content) (n : Nat) (N : Nat → UInt8) :
    (serve map r).Wp (parts bsp)
      (fun s => Untouched (fun p => Changes map r (.inl p)) M s.1.1 ∧ Left (Untouched (fun p => Changes map r (.inr p)) N) s.2)
      (fun reply s' => ∃ N', s'.2 = some N' ∧ Replied map r (Sum.elim M N) n reply (Sum.elim s'.1.1 N') s'.1.2) ((M,n),some N) := by
  have served : serve map r = perform (map.areas r.1) r.2 := rfl
  have unchanged : ∀ {T : Nat → Prop} {M : Nat → UInt8}, Untouched T M M := fun _ _ => rfl
  cases on : map.flash_map r.1 with
  | internal a =>
    have area : map.areas r.1 = carried left a.area := by rw [BoardMap.areas,on]
    have own : ∀ p, Changes map r (.inl p) ↔ r.2.changes = true ∧ a.Holds p := fun p => by rw [Changes,on]; rfl
    have inside := wp_beside (S := Nor) (H := fun t => t = some N) (s := ((M,n),some N)) (internal_perform map.apart a r.2 M n) rfl
    rw [served,area,perform_carried]
    refine wp_weaken (wp_mono inside ?_) ?_
    · rintro reply ⟨s,_⟩ ⟨⟨counted,replies⟩,rfl⟩
      refine ⟨N,rfl,counted.imp_right fun failed => ⟨⟨a,on⟩,failed⟩,?_,fun none suits => ?_⟩
      · rintro (p | p) outside
        · exact replies.framed p (mt (own p).mpr outside)
        · rfl
      · rw [on] at suits ⊢
        exact replies.exact ⟨none,suits⟩
    · rintro ⟨s,_⟩ ⟨way,rfl⟩
      exact ⟨fun p outside => way p (mt (own p).mpr outside),left_some.mpr unchanged⟩
  | serial a =>
    have area : map.areas r.1 = carried right a.area := by rw [BoardMap.areas,on]
    have own : ∀ p, Changes map r (.inr p) ↔ r.2.changes = true ∧ a.Holds p := fun p => by rw [Changes,on]; rfl
    have inside := wp_beside_right (R := counting (Unreliable bsp) succeeded) (G := fun s => s = (M,n)) (s := ((M,n),some N))
      (spim_perform a r.2 N) rfl
    rw [served,area,perform_carried]
    refine wp_weaken (wp_mono inside ?_) ?_
    · rintro reply ⟨_,_⟩ ⟨⟨N',rfl,replies⟩,rfl⟩
      refine ⟨N',rfl,.inl rfl,?_,fun _ suits => ?_⟩
      · rintro (p | p) outside
        · rfl
        · exact replies.framed p (mt (own p).mpr outside)
      · rw [on] at suits ⊢
        exact replies.exact suits
    · rintro ⟨_,_⟩ ⟨rfl,N',rfl,kept⟩
      exact ⟨unchanged,left_some.mpr fun p outside => kept p (mt (own p).mpr outside)⟩

/-! ### Clients -/

/-- The flashes hold the arrays, and as many commands have failed. -/
def Holding (map : BoardMap bsp) (s : (Content × Nat) × Option (Nat → UInt8))
    (t : (Fin map.flash_map_entry_num → Nat → UInt8) × Nat) : Prop :=
  ∃ N, s.2 = some N ∧ s.1.2 = t.2 ∧ Agrees map t.1 (Sum.elim s.1.1 N)

/-- The flash map over the drivers carries out the one of arrays. -/
theorem map_simulates : Simulates (Holding map) (arrays map) (fun _ => True) (parts bsp) (fun _ => True) (serve map) := by
  refine ⟨fun _ _ _ => trivial,?_⟩
  rintro r ⟨⟨M,n⟩,_⟩ ⟨bytes,_⟩ ⟨N,rfl,rfl,agrees⟩ _
  refine wp_weaken (wp_mono (serve_wp r M n N) ?_) fun _ _ => trivial
  rintro reply ⟨⟨M',n'⟩,_⟩ ⟨N',rfl,replied⟩
  obtain ⟨bytes',answered,agrees'⟩ := replied_arrays replied agrees
  exact ⟨(bytes',n'),answered,N',rfl,rfl,agrees'⟩

/-- Requests of this kind may change the byte. -/
def ChangedBy (map : BoardMap bsp) (calls : Fin map.flash_map_entry_num × Request → Prop) (x : Byte) : Prop :=
  ∃ r, calls r ∧ Changes map r x

/-- The bytes of both flashes that such requests cannot change are as they were. -/
def Spared (map : BoardMap bsp) (calls : Fin map.flash_map_entry_num × Request → Prop) (M : Content) (N : Nat → UInt8)
    (s : (Content × Nat) × Option (Nat → UInt8)) : Prop :=
  Untouched (fun p => ChangedBy map calls (.inl p)) M s.1.1 ∧ Left (Untouched (fun p => ChangedBy map calls (.inr p)) N) s.2

variable {α : Type} {calls : Fin map.flash_map_entry_num × Request → Prop} {client : Prog (flash_map_backend map) α}

theorem client_spared (requests : client.All calls fun _ => True) (M : Content) (n : Nat) (N : Nat → UInt8) :
    (client.translate (serve map)).Wp (parts bsp) (Spared map calls M N) (fun _ _ => True) ((M,n),some N) := by
  have start : Spared map calls M N ((M,n),some N) := ⟨fun _ _ => rfl,left_some.mpr fun _ _ => rfl⟩
  refine wp_mono (all_translate_keeps (fun _ => id) (fun r s permitted spared => ?_) requests start) fun _ _ _ => trivial
  obtain ⟨⟨M₁,n₁⟩,_⟩ := s
  obtain ⟨internal,N₁,rfl,serial⟩ := spared
  have before : ∀ s, (Untouched (fun p => Changes map r (.inl p)) M₁ s.1.1 ∧
      Left (Untouched (fun p => Changes map r (.inr p)) N₁) s.2) → Spared map calls M N s := by
    rintro ⟨⟨M',n'⟩,_⟩ ⟨internal',N',rfl,serial'⟩
    refine ⟨fun p outside => ?_,left_some.mpr fun p outside => ?_⟩
    · exact (internal' p fun changes => outside ⟨r,permitted,changes⟩).trans (internal p outside)
    · exact (serial' p fun changes => outside ⟨r,permitted,changes⟩).trans (serial p outside)
  exact wp_mono (wp_weaken (wp_last (serve_wp r M₁ n₁ N₁)) before) fun _ _ after => before _ after.1

/-- Some execution of the client on the arrays. -/
def Explained (map : BoardMap bsp) {α : Type} (client : Prog (flash_map_backend map) α)
    (s : (Fin map.flash_map_entry_num → Nat → UInt8) × Nat) (a : α) (s' : (Fin map.flash_map_entry_num → Nat → UInt8) × Nat) : Prop :=
  ∃ t, Exec (arrays map) client s t (.ret a) s'

theorem client_parts (requests : client.All calls fun _ => True) {bytes : Fin map.flash_map_entry_num → Nat → UInt8}
    {M : Content} {N : Nat → UInt8} (agrees : Agrees map bytes (Sum.elim M N)) (n : Nat) :
    (client.translate (serve map)).Wp (parts bsp) (Spared map calls M N)
      (fun a s' => ∃ t', Explained map client (bytes,n) a t' ∧ Holding map s' t') ((M,n),some N) := by
  have explained := wp_execution (R := arrays map) (all_wp requests (bytes,n))
  have holding : Holding map ((M,n),some N) (bytes,n) := ⟨N,rfl,rfl,agrees⟩
  have carried := simulates_wp map_simulates explained holding
  exact wp_weaken (wp_mono (wp_and (client_spared requests M n N) carried) fun _ _ after => after.2) fun _ way => way.1

/-! ### On the registers of both controllers -/

/-- What is connected to the SPIM: a chip where no status read resets the write enable latch, the status has no other bits and
    no command outlasts a status check; and HIRC, which becomes stable. -/
structure Timely (setup : Setup) (rounds : Nat) : Prop where
  keeps : setup.chip.keeps = true
  plain : setup.other &&& 0xFC = 0
  some : 0 < rounds
  ends : ∃ n, setup.chip.lasts n
  lasts : ∀ n, setup.chip.lasts n → n < rounds
  stable : ∃ n, setup.settles n
  settles : ∀ n, setup.settles n → n < rounds

/-- A client on both back ends. -/
def onBoard (b : BackEnd bsp) (masks : SpimMasks) (held : Buffer) (rounds : Nat) (client : Prog (flash_map_backend map) α) :
    Prog (b.registers.both SpimRegisters.registers) α :=
  (client.translate (serve map)).translate
    (bothSides b.drv fun c => (spim_drv rounds c).translate (spim_registers masks held))

/-- The hardware of a board. -/
def controllers (b : BackEnd bsp) (masks : SpimMasks) (setup : Setup) :
    Device (b.registers.both SpimRegisters.registers) (b.State × SpimRegisters.Controller) :=
  b.device.both (controller masks setup)

section
variable (b : BackEnd bsp) {masks : SpimMasks} {setup : Setup} {rounds : Nat} (proper : SpimRegisters.Proper masks)
  (timely : Timely setup rounds)
include proper timely

omit [Bootutil] in
theorem controllers_answer (c : (b.registers.both SpimRegisters.registers).Call) (s : b.State × SpimRegisters.Controller) :
    ∃ a s', controllers b masks setup c s a s' := by
  cases c with
  | inl c =>
    obtain ⟨a,s',answered⟩ := b.answers c s.1
    exact ⟨a,(s',s.2),answered,rfl⟩
  | inr c =>
    obtain ⟨a,s',answered⟩ := controller_total proper.stable timely.ends timely.stable c s.2
    exact ⟨a,(s.1,s'),answered,rfl⟩

variable (held : Buffer) (requests : client.All calls fun _ => True) {bytes : Fin map.flash_map_entry_num → Nat → UInt8}
  {s : b.State × SpimRegisters.Controller} (ready : b.ready s.1) (free : Free (s.2.seen masks))
  (agrees : Agrees map bytes (Sum.elim (b.content s.1) s.2.chip.memory))
include requests ready free agrees

theorem onBoard_wp : (onBoard b masks held rounds client).Wp (controllers b masks setup)
    (fun s' => Untouched (fun p => ChangedBy map calls (.inl p)) (b.content s.1) (b.content s'.1) ∧
      Untouched (fun p => ChangedBy map calls (.inr p)) s.2.chip.memory s'.2.chip.memory)
    (fun a s' => b.ready s'.1 ∧ Free (s'.2.seen masks) ∧ ∃ bytes',
      Explained map client (bytes,b.failures s.1) a (bytes',b.failures s'.1) ∧
        Agrees map bytes' (Sum.elim (b.content s'.1) s'.2.chip.memory)) s := by
  have serial := simulates_trans (spim_simulates timely.keeps timely.plain timely.some timely.lasts _)
    (registers_simulate masks setup proper held (Untouched (fun p => ChangedBy map calls (.inr p)) s.2.chip.memory))
  have both := simulates_both (b.simulates (Untouched (fun p => ChangedBy map calls (.inl p)) (b.content s.1))) serial
  have start := b.start (K := Untouched (fun p => ChangedBy map calls (.inl p)) (b.content s.1)) ready fun _ _ => rfl
  have carried := simulates_wp both (client_parts requests agrees (b.failures s.1))
    ⟨start,s.2.seen masks,⟨rfl,fun _ _ => rfl⟩,⟨free,rfl⟩,left_some.mpr fun _ _ => rfl⟩
  refine wp_mono carried ?_
  rintro a s' ⟨⟨⟨M',n'⟩,_⟩,⟨⟨bytes',_⟩,explained,N',rfl,rfl,agrees'⟩,related,_,⟨rfl,_⟩,⟨free',same⟩,_⟩
  obtain ⟨ready',rfl,rfl⟩ := b.ended related
  cases same
  exact ⟨ready',free',bytes',explained,agrees'⟩

/-- At every point of a client's run on the registers of both controllers, whichever commands of the internal flash fail or
    outlast their time-outs: it has not run forever and can be completed, and in both flashes the bytes that its requests
    cannot change are as before. When it returns, both controllers are ready again, and the client has run so on byte arrays,
    one for each area. -/
theorem client_on_board {s' : b.State × SpimRegisters.Controller} {t : List (Event (b.registers.both SpimRegisters.registers))}
    {q : Prog (b.registers.both SpimRegisters.registers) α}
    (exec : Exec (controllers b masks setup) (onBoard b masks held rounds client) s t q s') :
    q ≠ .spin ∧ (∃ t' a s'', Exec (controllers b masks setup) q s' t' (.ret a) s'') ∧
      Untouched (fun p => ChangedBy map calls (.inl p)) (b.content s.1) (b.content s'.1) ∧
      Untouched (fun p => ChangedBy map calls (.inr p)) s.2.chip.memory s'.2.chip.memory ∧
      ∀ a, q = .ret a → b.ready s'.1 ∧ Free (s'.2.seen masks) ∧ ∃ bytes',
        Explained map client (bytes,b.failures s.1) a (bytes',b.failures s'.1) ∧
          Agrees map bytes' (Sum.elim (b.content s'.1) s'.2.chip.memory) := by
  have judged := onBoard_wp b proper timely held requests ready free agrees
  obtain ⟨going,⟨internal,serial⟩,returned⟩ := wp_all_points judged exec
  exact ⟨going,wp_ends (controllers_answer b proper timely) (wp_exec judged exec),internal,serial,returned⟩

end
end

/-! ### The M460 -/

abbrev layout : Layout := Platform.layout .m460_SPI

/-- The part is one that the `flash_layout.h` with `SECONDARY_SLOT_IN_SPI_FLASH` was written for. -/
structure SuitsM460 (bsp : Bsp) : Prop where
  sound : Sound bsp
  page : bsp.FLASH_PAGE_SIZE = layout.FLASH_AREA_IMAGE_SECTOR_SIZE
  primary : (Rom.APROM.dev bsp).Inside layout.FLASH_AREA_0_OFFSET.toNat FLASH_AREA_0_SIZE.toNat
  scratch : (Rom.LDROM.dev bsp).Inside layout.FLASH_AREA_SCRATCH_OFFSET.toNat layout.FLASH_AREA_IMAGE_SECTOR_SIZE.toNat
  apart : bsp.APROM_BASE.toNat + bsp.APROM_SIZE.toNat ≤ bsp.LDROM_BASE.toNat ∨
    bsp.LDROM_BASE.toNat + bsp.LDROM_SIZE.toNat ≤ bsp.APROM_BASE.toNat

/-- The first 32 KiB of the chip. -/
def secondarySlot : SpimArea where
  fa_id := FLASH_AREA_2_ID
  fa_device_id := layout.FLASH_DEVICE_ID_2
  fa_off := layout.FLASH_AREA_2_OFFSET
  fa_size := FLASH_AREA_2_SIZE
  off_aligned := by decide
  size_aligned := by decide
  inside := ⟨⟨by decide,by decide⟩,by decide⟩

section
variable {bsp : Bsp} (suits : SuitsM460 bsp)

def primarySlot : InternalArea bsp where
  rom := .APROM
  fa_id := FLASH_AREA_0_ID
  fa_device_id := FLASH_DEVICE_ID
  fa_off := layout.FLASH_AREA_0_OFFSET
  fa_size := FLASH_AREA_0_SIZE
  sound := suits.sound
  off_aligned := by rw [suits.page]; decide
  size_aligned := by rw [suits.page]; decide
  inside := suits.primary

def scratch : InternalArea bsp where
  rom := .LDROM
  fa_id := FLASH_AREA_SCRATCH_ID
  fa_device_id := FLASH_DEVICE_ID
  fa_off := layout.FLASH_AREA_SCRATCH_OFFSET
  fa_size := layout.FLASH_AREA_IMAGE_SECTOR_SIZE
  sound := suits.sound
  off_aligned := by rw [suits.page]; decide
  size_aligned := by rw [suits.page]; decide
  inside := suits.scratch

theorem slot_scratch_apart {p : Nat} (first : (primarySlot suits).Holds p) : ¬ (scratch suits).Holds p := by
  have above : layout.FLASH_AREA_0_OFFSET.toNat + FLASH_AREA_0_SIZE.toNat ≤ layout.FLASH_AREA_SCRATCH_OFFSET.toNat := by decide
  rintro ⟨low,_⟩
  obtain ⟨_,high⟩ := first
  have same : (primarySlot suits).fa_off = layout.FLASH_AREA_0_OFFSET ∧ (primarySlot suits).fa_size = FLASH_AREA_0_SIZE ∧
      (scratch suits).fa_off = layout.FLASH_AREA_SCRATCH_OFFSET := ⟨rfl,rfl,rfl⟩
  rw [same.1,same.2.1] at high
  rw [same.2.2] at low
  omega

def m460Map : BoardMap bsp where
  flash_map_entry_num := 3
  flash_map
    | 0 => .internal (primarySlot suits)
    | 1 => .serial secondarySlot
    | 2 => .internal (scratch suits)
  disjoint := by
    intro i j other x first second
    match i,j,x with
    | 0,0,_ => exact other rfl
    | 1,1,_ => exact other rfl
    | 2,2,_ => exact other rfl
    | 0,1,.inl _ => exact second
    | 0,1,.inr _ => exact first
    | 1,0,.inl _ => exact first
    | 1,0,.inr _ => exact second
    | 1,2,.inl _ => exact first
    | 1,2,.inr _ => exact second
    | 2,1,.inl _ => exact second
    | 2,1,.inr _ => exact first
    | 0,2,.inl _ => exact slot_scratch_apart suits first second
    | 0,2,.inr _ => exact first
    | 2,0,.inl _ => exact slot_scratch_apart suits second first
    | 2,0,.inr _ => exact first
  apart := suits.apart

/-- The driver objects of the board. -/
def boardDriver (bsp : Bsp) : DriverName → ARM_DRIVER_FLASH drivers
  | .Driver_FLASH0 => (Driver_FLASH0 bsp).translate left
  | .Driver_FLASH1 => (Driver_FLASH1 bsp).translate left
  | .Driver_FLASH2 => (Driver_FLASH2 .SPIM).translate right

/-- It is the map of `default_flash_map.c`. -/
theorem m460Map_areas : List.ofFn (m460Map suits).areas = flash_map layout (boardDriver bsp) true := rfl

end

/-- An M460. -/
def m460Part : Bsp where
  type := .FMC
  APROM_BASE := 0
  APROM_SIZE := 0x100000
  LDROM_BASE := 0x0F100000
  LDROM_SIZE := 0x2000
  FLASH_PAGE_SIZE := 0x1000
  garbage := 0

theorem m460Part_suits : SuitsM460 m460Part where
  sound := ⟨by decide,fun rom => by cases rom <;> decide⟩
  page := rfl
  primary := ⟨by decide,by decide⟩
  scratch := ⟨by decide,by decide⟩
  apart := .inl (by decide)

/-- The constants of its SPIM. -/
def m460Spim : SpimMasks where
  SPIM_CTL0_OPMODE_Msk := 0x00C00000
  SPIM_CTL0_OPMODE_IO := 0
  SPIM_CTL0_OPMODE_PAGEWRITE := 0x00400000
  SPIM_CTL0_OPMODE_PAGEREAD := 0x00800000
  SPIM_CTL0_QDIODIR_Msk := 0x8000
  SPIM_CTL0_QDIODIR_Pos := 15
  SPIM_CTL0_CMDCODE_Msk := 0xFF000000
  CMD_NORMAL_PAGE_PROGRAM := 0x02000000
  CMD_DMA_NORMAL_READ := 0x03000000
  SPIM_CTL1_SS_Msk := 0x10
  CLK_STATUS_HIRCSTB_Msk := 0x10

theorem m460Spim_proper : SpimRegisters.Proper m460Spim :=
  ⟨by decide,by decide,by decide,by decide,by decide,by decide,by decide⟩

/-- Its chip is busy for less than a thousand status reads, and HIRC is stable within as many. -/
def m460Setup : Setup := ⟨⟨true,fun n => n < 1000⟩,0,fun n => n < 1000⟩

theorem m460Setup_timely : Timely m460Setup 1000 :=
  ⟨rfl,rfl,by decide,⟨0,show 0 < 1000 by decide⟩,fun _ => id,⟨0,show 0 < 1000 by decide⟩,fun _ => id⟩

def m460BackEnd : BackEnd m460Part := .FMC fmcRegisters_proper fmcRegisters_own rfl 0

/-- An idle chip full of zeros. -/
def zeros : Chip := ⟨fun _ => 0,false,0,false,[],[]⟩

/-- Both flashes hold zeros. -/
def blank : Failing × SpimRegisters.Controller := (⟨⟨0,0,0,0,0,0,fun _ => 0⟩,false,0,false⟩,⟨zeros,⟨0,0,0,0,0,fun _ => 0⟩,0⟩)

theorem blank_agrees : Agrees (m460Map m460Part_suits) (fun _ _ => 0) (Sum.elim blank.1.content blank.2.chip.memory) := by
  intro i k _
  cases ((m460Map m460Part_suits).flash_map i).place k <;> rfl

theorem primary_listed : 0 < 3 := by decide
theorem secondary_listed : 1 < 3 := by decide
theorem scratch_listed : 2 < 3 := by decide

/-- Reads a word of the secondary slot, and erases the first sector of the primary one. -/
def readThenErase : Prog (flash_map_backend (m460Map m460Part_suits)) Reply :=
  .call (⟨1,secondary_listed⟩,.flash_area_read 0 (fun _ => 0) 4) fun _ =>
    .call (⟨0,primary_listed⟩,.flash_area_erase 0 0x1000) .ret

/-- The controller before and after a transfer of the word, of which the buffer holds the bytes then. -/
def asking : SpimRegisters.Controller := ⟨{ zeros with selected := true },⟨0x03800000,4,0,0,0,fun _ => 0⟩,0⟩
def wordRead : SpimRegisters.Controller :=
  { asking with spim := { asking.spim with SRAM := fun k => if k < 4 then zeros.memory (0 + k) else 0 } }

theorem word_transferred : controller m460Spim m460Setup .SPIM_SET_GO asking () wordRead := rfl
theorem word_released : controller m460Spim m460Setup (.SPIM_SET_SS_EN false) wordRead () { wordRead with chip := zeros } :=
  ⟨zeros,(if_pos ⟨rfl,rfl⟩).mpr rfl,rfl⟩

/-- The erase has outlasted its time-out. -/
def late : Failing := ⟨⟨0x22,0x20000,0,0,0,9,fill 7 (fun _ => 0) 0x20000 0x1000⟩,true,1,true⟩

/-- The erase outlasts its time-out, with the sector full of sevens, and the run goes on from there to its end. -/
theorem client_on_board_erase : ∃ (s' s'' : Failing × SpimRegisters.Controller)
    (q : Prog (FmcDrv.registers.both SpimRegisters.registers) Reply)
    (t : List (Event (FmcDrv.registers.both SpimRegisters.registers))) (a : Reply), s'.1.failures = 1 ∧
      s'.1.content = fill 7 (fun _ => 0) 0x20000 0x1000 ∧ q ≠ .spin ∧
      Untouched (fun p => ChangedBy (m460Map m460Part_suits) (fun _ => True) (.inl p)) (fun _ => 0) s'.1.content ∧
      Untouched (fun p => ChangedBy (m460Map m460Part_suits) (fun _ => True) (.inr p)) (fun _ => 0) s'.2.chip.memory ∧
      Exec (controllers m460BackEnd m460Spim m460Setup) q s' t (.ret a) s'' ∧ s''.1.Ready ∧ Free (s''.2.seen m460Spim) ∧ ∃ bytes',
        Explained (m460Map m460Part_suits) readThenErase (fun _ _ => 0,0) a (bytes',s''.1.failures) ∧
          Agrees (m460Map m460Part_suits) bytes' (Sum.elim s''.1.content s''.2.chip.memory) := by
  have reached : Reaches (controllers m460BackEnd m460Spim m460Setup)
      (@onBoard _ bootutil (m460Map m460Part_suits) _ m460BackEnd m460Spim (fun _ => 0) 1000 readThenErase) blank fun _ s' =>
        s' = (late,{ wordRead with chip := zeros }) := by
    refine reaches_right (a := ()) rfl (reaches_right (a := (0 : UInt32)) ⟨rfl,rfl⟩ (reaches_right (a := ()) rfl ?_))
    refine reaches_right (a := ()) rfl (reaches_right (a := ()) rfl (reaches_right (a := ()) rfl ?_))
    refine reaches_right (a := ()) word_transferred (reaches_right (a := ()) rfl (reaches_right (a := wordRead.spim.SRAM) ⟨rfl,rfl⟩ ?_))
    refine reaches_right (a := ()) word_released (reaches_left (a := ()) (@command_stored m460Part _) ?_)
    refine reaches_left (a := ()) (@address_stored m460Part _ _) (reaches_left (a := ()) (erase_outlasts (fill_outside 7 _ _ _)) ?_)
    exact reaches_here rfl
  obtain ⟨t,q,_,exec,rfl⟩ := reached
  have run := fun {t q s'} => @client_on_board _ bootutil (m460Map m460Part_suits) _ (fun _ => True) readThenErase m460BackEnd
    m460Spim m460Setup 1000 m460Spim_proper m460Setup_timely (fun _ => 0) ⟨trivial,fun _ => ⟨trivial,fun _ => trivial⟩⟩
    (fun _ _ => 0) blank (fun _ => rfl) ⟨rfl,rfl,rfl⟩ blank_agrees s' t q
  obtain ⟨going,⟨t',a,s'',rest⟩,internal,serial,_⟩ := run exec
  obtain ⟨_,_,_,_,ends⟩ := run (exec_trans exec rest)
  obtain ⟨ready',free',explained⟩ := ends a rfl
  exact ⟨(late,_),s'',q,t',a,rfl,rfl,going,internal,serial,rest,ready',free',explained⟩

end NuMicroBoot.TwoFlashes
