import NuMicroBoot.ExternalBounds

/-!
Programming the external flash: the drivers cut a request into runs of at most
256 bytes from its first address on, wherever in a page of the chip that is.
-/

namespace NuMicroBoot.PageChunks
open NuMicroBoot.Calls NuMicroBoot.Calls.Prog NuMicroBoot.Cells NuMicroBoot.Words NuMicroBoot.Driver
open NuMicroBoot.ExternalDriver NuMicroBoot.ExternalBounds

/-! ### Programming a chip -/

/-- One page program command: its first address, its length and its bytes. -/
structure Piece where
  addr : Nat
  len : Nat
  bytes : Nat → UInt8

def piece : Event interface → Option Piece
  | ⟨.NVT_Program addr len buf p,_⟩ => some ⟨addr.toNat,len.toNat,fun k => buf (p + k)⟩
  | _ => none
/-- The page programs of a trace, in order. -/
def pieces (t : List (Event interface)) : List Piece := t.filterMap piece

/-- The call has not failed. -/
def Fine : (c : Call) → Answer c → Prop
  | .NVT_Read _ _, a => a.1 = 0
  | .NVT_Program _ _ _ _, a => a = (0 : Int32)
  | .NVT_Erase _, a => a = (0 : Int32)
  | .NVT_WaitReady, a => ¬ a < (0 : Int32)

/-- The pieces program the `n` bytes from `a` on with the data from `p` on: in ascending order, without a gap or an
    overlap. -/
def Tiles (data : Buffer) : (a n p : Nat) → List Piece → Prop
  | _, n, _, [] => n = 0
  | a, n, p, c :: cs => c.addr = a ∧ 0 < c.len ∧ c.len ≤ n ∧ (∀ k < c.len, c.bytes k = data (p + k)) ∧
    Tiles data (a + c.len) (n - c.len) (p + c.len) cs

/-- The bytes of the piece are in one page of the chip. -/
def InPage (c : Piece) : Prop := c.addr / 256 = (c.addr + c.len - 1) / 256

/-- Where byte `k` of a page program at `a` goes: the address runs round in its page. -/
def place (a k : Nat) : Nat := 256 * (a / 256) + (a + k) % 256

/-- A page program clears bits, byte by byte. -/
def storeBytes (M : Nat → UInt8) (a : Nat) (bytes : Nat → UInt8) : (n : Nat) → Nat → UInt8
  | 0 => M
  | n + 1 => combine (· &&& ·) (storeBytes M a bytes n) (place a n) (fun _ => bytes n) 1
def store (M : Nat → UInt8) (c : Piece) : Nat → UInt8 := storeBytes M c.addr c.bytes c.len

/-- A NOR chip none of whose functions fails. -/
def nor : Machine interface (Nat → UInt8)
  | .NVT_Read addr _, M => ((0,fun k => M (addr.toNat + k)),M)
  | .NVT_Program addr len buf p, M => (0,store M ⟨addr.toNat,len.toNat,fun k => buf (p + k)⟩)
  | .NVT_Erase addr, M => (0,fill 0xFF M (4096 * (addr.toNat / 4096)) 4096)
  | .NVT_WaitReady, M => (0,M)

theorem storeBytes_inPage (M : Nat → UInt8) {a : Nat} (bytes : Nat → UInt8) {n : Nat} (inPage : a % 256 + n ≤ 256) :
    storeBytes M a bytes n = combine (· &&& ·) M a bytes n := by
  induction n with
  | zero => simp [storeBytes]
  | succ n ih =>
    have here : place a n = a + n := by
      unfold place
      omega
    rw [storeBytes,ih (by omega),here,← combine_append]
    refine combine_congr fun k first => ?_
    have zero : k = 0 := by omega
    rw [zero,Nat.add_zero]

/-! ### Runs of at most 256 bytes -/

/-- The pieces are the runs of 256 bytes from `a` on, the last one with what is left. -/
inductive Cuts (data : Buffer) : (a n p : Nat) → List Piece → Prop
  | nil (a p : Nat) : Cuts data a 0 p []
  | cons {a n p : Nat} {cs : List Piece} (some : 0 < n)
      (rest : Cuts data (a + min 256 n) (n - min 256 n) (p + min 256 n) cs) :
      Cuts data a n p (⟨a,min 256 n,fun k => data (p + k)⟩ :: cs)

variable {data : Buffer} {a n p : Nat} {cs : List Piece}

theorem cuts_tiles (cuts : Cuts data a n p cs) : Tiles data a n p cs := by
  induction cuts with
  | nil => rfl
  | cons some rest ih =>
    refine ⟨rfl,?_,Nat.min_le_right _ _,fun _ _ => rfl,ih⟩
    exact Nat.lt_min.mpr ⟨by decide,some⟩

/-- The run starts at a page, or it stays in the page it starts in. -/
def Paged (a n : Nat) : Prop := a % 256 = 0 ∨ a % 256 + n ≤ 256

theorem paged_first (paged : Paged a n) : a % 256 + min 256 n ≤ 256 := by
  rcases paged with start | short
  · omega
  · omega
theorem paged_next (paged : Paged a n) : Paged (a + min 256 n) (n - min 256 n) := by
  unfold Paged at paged ⊢
  omega

theorem inPage_iff {c : Piece} (some : 0 < c.len) (short : c.len ≤ 256) :
    InPage c ↔ c.addr % 256 + c.len ≤ 256 := by
  unfold InPage
  omega

theorem cuts_inPage (cuts : Cuts data a n p cs) (paged : Paged a n) : ∀ c ∈ cs, InPage c := by
  induction cuts with
  | nil =>
    intro c member
    cases member
  | @cons a n p cs some rest ih =>
    intro c member
    rcases List.mem_cons.mp member with rfl | later
    · refine (inPage_iff ?_ (Nat.min_le_left _ _)).mpr (paged_first paged)
      exact Nat.lt_min.mpr ⟨by decide,some⟩
    · exact ih (paged_next paged) c later

/-- The first run is in one page only if all of them are. -/
theorem paged_of_inPage (cuts : Cuts data a n p cs) (inPage : ∀ c ∈ cs, InPage c) : Paged a n := by
  cases cuts with
  | nil =>
    have part := Nat.mod_lt a (show 0 < 256 by decide)
    exact .inr (by omega)
  | cons some rest =>
    have first := inPage _ List.mem_cons_self
    rw [inPage_iff (Nat.lt_min.mpr ⟨by decide,some⟩) (Nat.min_le_left _ _)] at first
    dsimp only at first
    unfold Paged
    omega

theorem cuts_stored (cuts : Cuts data a n p cs) (paged : Paged a n) (M : Nat → UInt8) :
    cs.foldl store M = combine (· &&& ·) M a (fun k => data (p + k)) n := by
  induction cuts generalizing M with
  | nil => simp
  | @cons a n p cs some rest ih =>
    have part : min 256 n ≤ n := Nat.min_le_right _ _
    rw [List.foldl_cons,ih (paged_next paged),store,storeBytes_inPage M _ (paged_first paged)]
    have joined := combine_append (· &&& ·) M a (fun k => data (p + k)) (min 256 n) (n - min 256 n)
    rw [Nat.add_sub_cancel' part] at joined
    simpa only [Nat.add_assoc] using joined

/-! ### The loops of the drivers -/

/-- A call that programming makes. -/
def Programming : Call → Prop
  | .NVT_Program _ _ _ _ => True
  | .NVT_WaitReady => True
  | _ => False

/-- A trace programs the runs. -/
def Programs (data : Buffer) (a n p : Nat) (t : List (Event interface)) : Prop :=
  Cuts data a n p (pieces t) ∧ ∀ e ∈ t, Programming e.call

theorem programs_nil (data : Buffer) (a p : Nat) : Programs data a 0 p [] := by
  refine ⟨.nil a p,fun e member => ?_⟩
  cases member

/-- A run, with or without a wait behind it, and the runs that follow. -/
theorem programs_cons {data : Buffer} {addr sz : UInt32} {p : Nat} {r : Int32} (waits : List (Event interface)) {t : List (Event interface)}
    (more : sz ≠ 0) (fits : addr.toNat + sz.toNat < 2 ^ 32) (waiting : ∀ e ∈ waits, e.call = .NVT_WaitReady)
    (rest : Programs data (addr + chunk 256 sz).toNat (sz - chunk 256 sz).toNat (p + (chunk 256 sz).toNat) t) :
    Programs data addr.toNat sz.toNat p (⟨.NVT_Program addr (chunk 256 sz) data p,r⟩ :: (waits ++ t)) := by
  obtain ⟨_,next,left⟩ := chunk_step (show (256 : UInt32) ≠ 0 by decide) more fits
  have size : (chunk 256 sz).toNat = min 256 sz.toNat := by
    have page : (256 : UInt32).toNat = 256 := rfl
    unfold chunk
    by_cases whole : sz > 256
    · have := UInt32.lt_iff_toNat_lt.mp whole
      rw [if_pos whole]
      omega
    · have : ¬ (256 : UInt32).toNat < sz.toNat := fun less => whole (UInt32.lt_iff_toNat_lt.mpr less)
      rw [if_neg whole]
      omega
  have rem : (sz - chunk 256 sz).toNat = sz.toNat - min 256 sz.toNat := by omega
  have silent : pieces (waits ++ t) = pieces t := by
    have none : waits.filterMap piece = [] := by
      refine List.filterMap_eq_nil_iff.mpr fun e member => ?_
      obtain ⟨c,a⟩ := e
      obtain rfl : c = .NVT_WaitReady := waiting _ member
      rfl
    rw [pieces,List.filterMap_append,none,List.nil_append]
    rfl
  obtain ⟨cuts,calls⟩ := rest
  rw [next,rem,size] at cuts
  constructor
  · have head : piece ⟨.NVT_Program addr (chunk 256 sz) data p,r⟩ =
        some ⟨addr.toNat,min 256 sz.toNat,fun k => data (p + k)⟩ := by rw [← size]; rfl
    rw [pieces,List.filterMap_cons_some head]
    refine .cons (Nat.pos_of_ne_zero (ne_zero_iff.mp more)) ?_
    rw [← pieces,silent]
    exact cuts
  · intro e member
    rcases List.mem_cons.mp member with rfl | later
    · trivial
    · rcases List.mem_append.mp later with wait | later
      · rw [waiting e wait]
        trivial
      · exact calls e later

section
variable {σ : Type} {R : Device interface σ} {data : Buffer}

theorem programChunks_round {rounds : Nat} {addr sz : UInt32} {p : Nat} (more : sz ≠ 0) :
    programChunks 256 (rounds + 1) addr data p sz = .call (.NVT_Program addr (chunk 256 sz) data p) fun r =>
      if r ≠ (0 : Int32) then .ret ARM_DRIVER_ERROR else .call .NVT_WaitReady fun r =>
        if r < (0 : Int32) then .ret ARM_DRIVER_ERROR
        else programChunks 256 rounds (addr + chunk 256 sz) data (p + (chunk 256 sz).toNat) (sz - chunk 256 sz) := by
  rw [programChunks,if_pos more]
  rfl

theorem programChunks_SPIM_round {rounds : Nat} {addr sz : UInt32} {p : Nat} (more : sz ≠ 0) :
    programChunks_SPIM (rounds + 1) addr data p sz = .call (.NVT_Program addr (chunk 256 sz) data p) fun r =>
      if r ≠ (0 : Int32) then .ret ARM_DRIVER_ERROR
      else programChunks_SPIM rounds (addr + chunk 256 sz) data (p + (chunk 256 sz).toNat) (sz - chunk 256 sz) := by
  rw [programChunks_SPIM,if_pos more]
  rfl

/-- A loop that programs one chunk in each round, and may wait behind it. -/
structure Chunked (R : Device interface σ) (data : Buffer)
    (loop : (rounds : Nat) → (addr sz : UInt32) → (p : Nat) → Prog interface Int32) : Prop where
  started : ∀ addr sz p, loop 0 addr sz p = .spin
  finished : ∀ rounds addr p, loop (rounds + 1) addr 0 p = .ret ARM_DRIVER_OK
  round : ∀ rounds addr sz p s t rc s', sz ≠ 0 → Exec R (loop (rounds + 1) addr sz p) s t (.ret rc) s' →
    (∀ e ∈ t, Fine e.call e.answer) → ∃ r waits t' s₁,
      t = ⟨.NVT_Program addr (chunk 256 sz) data p,r⟩ :: (waits ++ t') ∧ (∀ e ∈ waits, e.call = .NVT_WaitReady) ∧
      Exec R (loop rounds (addr + chunk 256 sz) (sz - chunk 256 sz) (p + (chunk 256 sz).toNat)) s₁ t' (.ret rc) s'

theorem chunked_exec {loop : (rounds : Nat) → (addr sz : UInt32) → (p : Nat) → Prog interface Int32} (chunked : Chunked R data loop)
    (rounds : Nat) : ∀ (addr sz : UInt32) (p : Nat) (s s' : σ) (t : List (Event interface)) (rc : Int32),
    addr.toNat + sz.toNat < 2 ^ 32 → Exec R (loop rounds addr sz p) s t (.ret rc) s' →
    (∀ e ∈ t, Fine e.call e.answer) → Programs data addr.toNat sz.toNat p t := by
  induction rounds with
  | zero =>
    intro addr sz p s s' t rc fits exec
    rw [chunked.started] at exec
    cases exec
  | succ rounds ih =>
    intro addr sz p s s' t rc fits exec fine
    by_cases more : sz = 0
    · subst more
      rw [chunked.finished] at exec
      obtain ⟨rfl,_,_⟩ := exec_ret exec
      exact programs_nil _ _ _
    · obtain ⟨_,next,left⟩ := chunk_step (show (256 : UInt32) ≠ 0 by decide) more fits
      obtain ⟨r,waits,t',s₁,rfl,waiting,rest⟩ := chunked.round rounds addr sz p s t rc s' more exec fine
      have later := ih _ _ _ _ _ _ _ (by omega) rest fun e member => fine e (by simp [member])
      exact programs_cons waits more fits waiting later

theorem programChunks_chunked : Chunked R data fun rounds addr sz p => programChunks 256 rounds addr data p sz := by
  refine ⟨fun _ _ _ => rfl,fun _ _ _ => rfl,?_⟩
  intro rounds addr sz p s t rc s' more exec fine
  rw [programChunks_round more] at exec
  cases exec with
  | @step _ _ _ _ _ r t _ _ rest =>
  have programmed : r = (0 : Int32) := fine _ List.mem_cons_self
  dsimp only at rest
  rw [if_neg (not_not.mpr programmed)] at rest
  cases rest with
  | @step _ _ _ _ _ r' t _ _ rest =>
  have ready : ¬ r' < (0 : Int32) := fine ⟨.NVT_WaitReady,r'⟩ (by simp)
  dsimp only at rest
  rw [if_neg ready] at rest
  exact ⟨r,[⟨.NVT_WaitReady,r'⟩],t,_,rfl,by simp,rest⟩

theorem programChunks_SPIM_chunked : Chunked R data fun rounds addr sz p => programChunks_SPIM rounds addr data p sz := by
  refine ⟨fun _ _ _ => rfl,fun _ _ _ => rfl,?_⟩
  intro rounds addr sz p s t rc s' more exec fine
  rw [programChunks_SPIM_round more] at exec
  cases exec with
  | @step _ _ _ _ _ r t _ _ rest =>
  have programmed : r = (0 : Int32) := fine _ List.mem_cons_self
  dsimp only at rest
  rw [if_neg (not_not.mpr programmed)] at rest
  exact ⟨r,[],t,_,rfl,by simp,rest⟩

end

/-! ### Requests inside the device -/

section
variable {variant : Variant} {addr cnt : UInt32} {data : Buffer} {p : Nat}

theorem bytes_of_words (inside : (FLASH2_DEV variant).Inside addr.toNat (4 * cnt.toNat)) :
    (cnt * data_width_byte DriverCapabilities.data_width).toNat = 4 * cnt.toNat ∧
      addr.toNat + 4 * cnt.toNat < 2 ^ 32 := by
  have size := size_cases variant
  rw [inside_iff] at inside
  rw [data_width_byte_driver,UInt32.toNat_mul]
  have four : (4 : UInt32).toNat = 4 := rfl
  rw [four]
  omega

/-- A request inside the device is cut into runs, when no call fails. -/
theorem programData_exec {σ : Type} {R : Device interface σ} {s s' : σ} {t : List (Event interface)} {rc : Int32}
    (inside : (FLASH2_DEV variant).Inside addr.toNat (4 * cnt.toNat))
    (exec : Exec R ((Driver_FLASH2 variant).ProgramData addr data p cnt) s t (.ret rc) s')
    (fine : ∀ e ∈ t, Fine e.call e.answer) : Programs data addr.toNat (4 * cnt.toNat) p t := by
  obtain ⟨size,below⟩ := bytes_of_words inside
  -- the check of the driver stops an empty request at the end of the device
  have refused : ∀ {failed : Prop} [Decidable failed] {q : Prog interface Int32}, (failed → cnt.toNat = 0) →
      Exec R (if failed then .ret ARM_DRIVER_ERROR_PARAMETER else q) s t (.ret rc) s' →
      (Exec R q s t (.ret rc) s' → Programs data addr.toNat (4 * cnt.toNat) p t) →
      Programs data addr.toNat (4 * cnt.toNat) p t := by
    intro failed _ q empty exec rest
    by_cases stopped : failed
    · rw [if_pos stopped] at exec
      obtain ⟨rfl,_,_⟩ := exec_ret exec
      rw [empty stopped]
      exact programs_nil _ _ _
    · rw [if_neg stopped] at exec
      exact rest exec
  have invalid : is_range_valid_internal (FLASH2_DEV variant) addr ≠ 0 → cnt.toNat = 0 := by
    intro invalid
    have outside := mt (valid_iff variant addr).mpr invalid
    rw [inside_iff] at inside
    omega
  have past : addr < NVT_NVSPIM_MEMORY_BASE ∨ addr + cnt * data_width_byte DriverCapabilities.data_width >
      NVT_NVSPIM_MEMORY_BASE + SPIM_DMM_SIZE → variant = .SPIM → cnt.toNat = 0 := by
    rintro stopped rfl
    rw [inside_iff] at inside
    refine absurd ?_ ((spim_check_iff addr cnt).mp stopped)
    rw [Nat.mod_eq_of_lt below]
    exact inside
  rw [← size] at below ⊢ refused
  cases variant with
  | SPI =>
    refine refused invalid exec fun rest => ?_
    rw [show addr - SPI_DEV.memory_base = addr from UInt32.sub_zero addr] at rest
    exact chunked_exec programChunks_chunked _ _ _ _ _ _ _ _ below rest fine
  | QSPI =>
    refine refused invalid exec fun rest => ?_
    rw [show addr - QSPI_DEV.memory_base = addr from UInt32.sub_zero addr] at rest
    exact chunked_exec programChunks_chunked _ _ _ _ _ _ _ _ below rest fine
  | SPIM =>
    refine refused (fun stopped => past stopped rfl) exec fun rest => ?_
    rw [show addr - NVT_NVSPIM_MEMORY_BASE = addr from UInt32.sub_zero addr] at rest
    exact chunked_exec programChunks_SPIM_chunked _ _ _ _ _ _ _ _ below rest fine

/-! ### Page-safe programming -/

/-- When no call fails, the page programs of the request tile its range, each in one page of the chip; so a chip whose
    page program runs round in its page ends up with the data where it was asked for. -/
structure PageSafe (request : Prog interface Int32) (data : Buffer) (a n p : Nat) : Prop where
  ends : request.All (fun _ => True) fun _ => True
  tiles : ∀ (σ : Type) (R : Device interface σ) (s : σ) (t : List (Event interface)) (rc : Int32) (s' : σ),
    Exec R request s t (.ret rc) s' → (∀ e ∈ t, Fine e.call e.answer) →
    Tiles data a n p (pieces t) ∧ ∀ c ∈ pieces t, InPage c
  stored : ∀ (M M' : Nat → UInt8) (t : List (Event interface)) (rc : Int32),
    Exec nor.device request M t (.ret rc) M' → M' = combine (· &&& ·) M a (fun k => data (p + k)) n

theorem nor_fine {c : Call} {M M' : Nat → UInt8} {r : Answer c} (answered : nor.device c M r M') : Fine c r := by
  cases c with
  | NVT_Read =>
    cases answered
    rfl
  | NVT_Program =>
    cases answered
    rfl
  | NVT_Erase =>
    cases answered
    rfl
  | NVT_WaitReady =>
    cases answered
    exact (by decide : ¬ (0 : Int32) < 0)

theorem exec_nor_fine {α : Type} {q q' : Prog interface α} {M M' : Nat → UInt8} {t : List (Event interface)}
    (exec : Exec nor.device q M t q' M') : ∀ e ∈ t, Fine e.call e.answer := by
  induction exec with
  | stop =>
    intro e member
    cases member
  | step answered _ ih =>
    intro e member
    rcases List.mem_cons.mp member with rfl | later
    · exact nor_fine answered
    · exact ih e later

/-- While it is only programmed, a chip holds what the page programs have stored. -/
theorem exec_nor_stored {α : Type} {q q' : Prog interface α} {M M' : Nat → UInt8} {t : List (Event interface)}
    (exec : Exec nor.device q M t q' M') (calls : ∀ e ∈ t, Programming e.call) : M' = (pieces t).foldl store M := by
  induction exec with
  | stop => rfl
  | @step c next M₀ M₁ M₂ r t q answered rest ih =>
    have content := ih fun e member => calls e (List.mem_cons_of_mem _ member)
    have programming : Programming c := calls ⟨c,r⟩ List.mem_cons_self
    cases c with
    | NVT_Read => exact programming.elim
    | NVT_Program addr len buf p =>
      cases answered
      exact content
    | NVT_Erase => exact programming.elim
    | NVT_WaitReady =>
      cases answered
      exact content

theorem programData_ends (inside : (FLASH2_DEV variant).Inside addr.toNat (4 * cnt.toNat)) (data : Buffer) (p : Nat) :
    ((Driver_FLASH2 variant).ProgramData addr data p cnt).All (fun _ => True) fun _ => True :=
  have reach : (Access.perform (Driver_FLASH2 variant) (.ProgramData addr data p cnt)).All _ _ := reach_of_inside inside
  all_mono reach (fun _ _ => trivial) fun _ _ => trivial

theorem paged_of_safe (inside : (FLASH2_DEV variant).Inside addr.toNat (4 * cnt.toNat))
    (safe : PageSafe ((Driver_FLASH2 variant).ProgramData addr data p cnt) data addr.toNat (4 * cnt.toNat) p) :
    Paged addr.toNat (4 * cnt.toNat) := by
  have answers : ∀ c M, ∃ r M', nor.device c M r M' := fun c M => ⟨_,_,rfl⟩
  obtain ⟨t,rc,M',exec⟩ := wp_ends answers (all_wp (programData_ends inside data p) fun _ => 0)
  have fine := exec_nor_fine exec
  exact paged_of_inPage (programData_exec inside exec fine).1 (safe.tiles _ _ _ _ _ _ exec fine).2

/-- For a request inside the device, page-safe programming is a matter of the place of its range in the pages. -/
theorem page_safe_iff (inside : (FLASH2_DEV variant).Inside addr.toNat (4 * cnt.toNat)) (data : Buffer) (p : Nat) :
    PageSafe ((Driver_FLASH2 variant).ProgramData addr data p cnt) data addr.toNat (4 * cnt.toNat) p ↔
      addr.toNat % 256 = 0 ∨ addr.toNat % 256 + 4 * cnt.toNat ≤ 256 := by
  constructor
  · exact paged_of_safe inside
  · intro paged
    refine ⟨programData_ends inside data p,fun σ R s t rc s' exec fine => ?_,fun M M' t rc exec => ?_⟩
    · have cuts := (programData_exec inside exec fine).1
      exact ⟨cuts_tiles cuts,cuts_inPage cuts paged⟩
    · obtain ⟨cuts,calls⟩ := programData_exec inside exec (exec_nor_fine exec)
      rw [exec_nor_stored exec calls]
      exact cuts_stored cuts paged M

/-- A hundred words from the second page on. -/
theorem page_safe_iff_second_page :
    PageSafe ((Driver_FLASH2 .QSPI).ProgramData 256 (fun _ => 5) 0 100) (fun _ => 5) 256 400 0 :=
  (@page_safe_iff .QSPI 256 100 ⟨by decide,by decide⟩ (fun _ => 5) 0).mpr (.inl rfl)

/-- Two words over the end of the first page. -/
theorem not_page_safe_border :
    ¬ PageSafe ((Driver_FLASH2 .SPI).ProgramData 252 (fun _ => 5) 0 2) (fun _ => 5) 252 8 0 := by
  intro safe
  have paged := @paged_of_safe .SPI 252 2 _ _ ⟨by decide,by decide⟩ safe
  exact absurd paged (by unfold Paged; decide)

end

end NuMicroBoot.PageChunks
