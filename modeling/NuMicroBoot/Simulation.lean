import NuMicroBoot.Calls

/-!
Simulation of an abstract device by programs on another one, also side by side
with a second pair, and devices that count the answers that are not good. What
a program does on the abstract device it does on the other one.
-/

namespace NuMicroBoot.Simulation
open NuMicroBoot.Calls NuMicroBoot.Calls.Prog

variable {I J K L : Interface} {α σ τ σ' τ' : Type}

/-! ### Judgements -/

/-- What holds on a device holds on one with fewer outcomes in the good states. -/
theorem wp_narrow {R R' : Device I σ} {G : σ → Prop} {Q : α → σ → Prop} {p : Prog I α} {s : σ}
    (fewer : ∀ c s a s', G s → R' c s a s' → R c s a s') (holds : p.Wp R G Q s) : p.Wp R' G Q s := by
  induction p generalizing s with
  | ret a => exact holds
  | call c next ih => exact ⟨holds.1,fun a s' answered => ih a (holds.2 a s' (fewer c s a s' holds.1 answered))⟩
  | spin => exact holds

/-- What holds on a device holds on one that is embedded in it. -/
theorem wp_embed {R : Device I σ} {R' : Device I τ} {G : τ → Prop} {Q : α → τ → Prop} {p : Prog I α} {s : σ} (e : σ → τ)
    (inside : ∀ c s a s', R c s a s' → R' c (e s) a (e s')) (holds : p.Wp R' G Q (e s)) :
    p.Wp R (fun s => G (e s)) (fun a s => Q a (e s)) s := by
  induction p generalizing s with
  | ret a => exact holds
  | call c next ih => exact ⟨holds.1,fun a s' answered => ih a (holds.2 a (e s') (inside c s a s' answered))⟩
  | spin => exact holds

/-- Two judgements are one on both conditions. -/
theorem wp_and {R : Device I σ} {G G' : σ → Prop} {Q Q' : α → σ → Prop} {p : Prog I α} {s : σ} (first : p.Wp R G Q s)
    (second : p.Wp R G' Q' s) : p.Wp R (fun s => G s ∧ G' s) (fun a s => Q a s ∧ Q' a s) s := by
  induction p generalizing s with
  | ret a => exact ⟨⟨first.1,second.1⟩,first.2,second.2⟩
  | call c next ih =>
    exact ⟨⟨first.1,second.1⟩,fun a s' answered => ih a (first.2 a s' answered) (second.2 a s' answered)⟩
  | spin => exact first

/-- What holds on the way holds at the end. -/
theorem wp_last {R : Device I σ} {G : σ → Prop} {Q : α → σ → Prop} {p : Prog I α} {s : σ} (holds : p.Wp R G Q s) :
    p.Wp R G (fun a s => G s ∧ Q a s) s := by
  induction p generalizing s with
  | ret a => exact ⟨holds.1,holds⟩
  | call c next ih => exact ⟨holds.1,fun a s' answered => ih a (holds.2 a s' answered)⟩
  | spin => exact holds

/-- The judgement along an execution: it has not run forever, and where it has returned the result is as judged. -/
theorem wp_all_points {R : Device I σ} {G : σ → Prop} {Q : α → σ → Prop} {p q : Prog I α} {s s' : σ} {t : List (Event I)}
    (holds : p.Wp R G Q s) (exec : Exec R p s t q s') : q ≠ .spin ∧ G s' ∧ ∀ a, q = .ret a → Q a s' := by
  have there := wp_exec holds exec
  refine ⟨?_,wp_now there,?_⟩
  · rintro rfl
    exact there
  · rintro a rfl
    exact there.2

/-- A judged program ends by an execution of its own. -/
theorem wp_execution {R : Device I σ} {G : σ → Prop} {Q : α → σ → Prop} {p : Prog I α} {s : σ} (holds : p.Wp R G Q s) :
    p.Wp R G (fun a s' => ∃ t, Exec R p s t (.ret a) s') s := by
  induction p generalizing s with
  | ret a => exact ⟨holds.1,[],.stop _ _⟩
  | call c next ih =>
    refine ⟨holds.1,fun a s' answered => wp_mono (ih a (holds.2 a s' answered)) fun b s'' later => ?_⟩
    obtain ⟨t,exec⟩ := later
    exact ⟨⟨c,a⟩ :: t,.step answered exec⟩
  | spin => exact holds

/-- An invariant that the permitted calls keep. -/
theorem all_keeps {R : Device I σ} {calls : I.Call → Prop} {results : α → Prop} {G : σ → Prop}
    (kept : ∀ c s a s', calls c → R c s a s' → G s → G s') {p : Prog I α} (all : p.All calls results) {s : σ} (holds : G s) :
    p.Wp R G (fun a _ => results a) s := by
  induction p generalizing s with
  | ret a => exact ⟨holds,all⟩
  | call c next ih => exact ⟨holds,fun a s' answered => ih a (all.2 a) (kept c s a s' all.1 answered holds)⟩
  | spin => exact all

/-- An invariant that the programs for the permitted calls keep. -/
theorem all_translate_keeps {R : Device K σ} {calls : I.Call → Prop} {results : α → Prop} {G G' : σ → Prop}
    {impl : (c : I.Call) → Prog K (I.Answer c)} (good : ∀ s, G' s → G s)
    (kept : ∀ c s, calls c → G' s → (impl c).Wp R G (fun _ s' => G' s') s) {p : Prog I α} (all : p.All calls results) {s : σ}
    (holds : G' s) : (p.translate impl).Wp R G (fun a s' => results a ∧ G' s') s := by
  induction p generalizing s with
  | ret a => exact ⟨good s holds,all,holds⟩
  | call c next ih => exact wp_bind (kept c s all.1 holds) fun a s' _ after => ih a (all.2 a) after
  | spin => exact all

/-! ### Calls in the right states -/

/-- As `Wp`, but every call is made in a state in which it may be made, and the program may run forever in states in which
    it may loop. -/
def Asks (R : Device I σ) (G : σ → Prop) (may : I.Call → σ → Prop) (loops : σ → Prop) : Prog I α → (α → σ → Prop) → σ → Prop
  | .ret a, Q, s => G s ∧ Q a s
  | .call c next, Q, s => G s ∧ may c s ∧ ∀ a s', R c s a s' → Asks R G may loops (next a) Q s'
  | .spin, _, s => G s ∧ loops s

section
variable {R : Device I σ} {G : σ → Prop} {may : I.Call → σ → Prop} {loops : σ → Prop}

theorem asks_bind {β : Type} {Q : α → σ → Prop} {Q' : β → σ → Prop} {p : Prog I α} {f : α → Prog I β} {s : σ}
    (first : Asks R G may loops p Q s) (rest : ∀ a s', G s' → Q a s' → Asks R G may loops (f a) Q' s') :
    Asks R G may loops (p >>= f) Q' s := by
  induction p generalizing s with
  | ret a => exact rest a s first.1 first.2
  | call c next ih => exact ⟨first.1,first.2.1,fun a s' answered => ih a (first.2.2 a s' answered)⟩
  | spin => exact first

theorem asks_mono {Q Q' : α → σ → Prop} {p : Prog I α} {s : σ} (holds : Asks R G may loops p Q s)
    (weaker : ∀ a s', Q a s' → Q' a s') : Asks R G may loops p Q' s := by
  induction p generalizing s with
  | ret a => exact ⟨holds.1,weaker a s holds.2⟩
  | call c next ih => exact ⟨holds.1,holds.2.1,fun a s' answered => ih a (holds.2.2 a s' answered)⟩
  | spin => exact holds

/-- The judgement along an execution. -/
theorem asks_points {Q : α → σ → Prop} {p q : Prog I α} {s s' : σ} {t : List (Event I)} (holds : Asks R G may loops p Q s)
    (exec : Exec R p s t q s') :
    (q = .spin → loops s') ∧ G s' ∧ (∀ c next, q = .call c next → may c s') ∧ ∀ a, q = .ret a → Q a s' := by
  induction exec with
  | stop p s =>
    cases p with
    | ret a => exact ⟨nofun,holds.1,nofun,fun b same => Prog.ret.inj same ▸ holds.2⟩
    | call c next => exact ⟨nofun,holds.1,fun c' next' same => (Prog.call.inj same).1 ▸ holds.2.1,nofun⟩
    | spin => exact ⟨fun _ => holds.2,holds.1,nofun,nofun⟩
  | step answered _ ih => exact ih (holds.2.2 _ _ answered)

end

/-- A program for the second of two devices, whose calls may be made in any state. -/
theorem asks_right {R : Device (I.both K) σ} {G : σ → Prop} {may : (I.both K).Call → σ → Prop} {loops : σ → Prop}
    {Q : α → σ → Prop} {p : Prog K α} {s : σ} (free : ∀ c s, may (.inr c) s) (holds : (p.translate right).Wp R G Q s) :
    Asks R G may loops (p.translate right) Q s := by
  induction p generalizing s with
  | ret a => exact holds
  | call c next ih => exact ⟨holds.1,free c s,fun a s' answered => ih a (holds.2 a s' answered)⟩
  | spin => exact holds.elim

/-! ### Simulation -/

/-- Every call is carried out so that an outcome of the abstract device explains it, and every state related to an
    abstract one is good. Calls that may leave a bad abstract state need not be explained. -/
structure Simulates (Rel : σ → τ → Prop) (R' : Device I τ) (G' : τ → Prop) (R : Device K σ) (G : σ → Prop)
    (impl : (c : I.Call) → Prog K (I.Answer c)) : Prop where
  good : ∀ s t, Rel s t → G s
  carries : ∀ c s t, Rel s t → (∀ a t', R' c t a t' → G' t') →
    (impl c).Wp R G (fun a s' => ∃ t', R' c t a t' ∧ Rel s' t') s

section
variable {Rel : σ → τ → Prop} {R' : Device I τ} {G' : τ → Prop} {R : Device K σ} {G : σ → Prop}
  {impl : (c : I.Call) → Prog K (I.Answer c)}

theorem simulates_wp (simulates : Simulates Rel R' G' R G impl) {Q : α → τ → Prop} {p : Prog I α} {s : σ} {t : τ}
    (holds : p.Wp R' G' Q t) (related : Rel s t) :
    (p.translate impl).Wp R G (fun a s' => ∃ t', Q a t' ∧ Rel s' t') s :=
  wp_translate simulates.good simulates.carries holds related

/-- A device that carries out the calls of one that carries out those of a third carries out those of the third. -/
theorem simulates_trans (simulates : Simulates Rel R' G' R G impl) {Rel₂ : σ' → σ → Prop} {S : Device L σ'} {H : σ' → Prop}
    {impl₂ : (c : K.Call) → Prog L (K.Answer c)} (below : Simulates Rel₂ R G S H impl₂) :
    Simulates (fun s t => ∃ u, Rel₂ s u ∧ Rel u t) R' G' S H (fun c => (impl c).translate impl₂) := by
  refine ⟨?_,?_⟩
  · rintro s t ⟨u,related,_⟩
    exact below.good s u related
  · rintro c s t ⟨u,related,above⟩ keeps
    refine wp_mono (simulates_wp below (simulates.carries c u t above keeps) related) fun a s' after => ?_
    obtain ⟨u',⟨t',answered,above'⟩,related'⟩ := after
    exact ⟨t',answered,u',related',above'⟩

/-- A program for the first of two devices leaves the second one as it is. -/
theorem wp_beside {S : Device L σ'} {H : σ' → Prop} {Q : α → σ → Prop} {p : Prog K α} {s : σ × σ'} (holds : p.Wp R G Q s.1)
    (other : H s.2) : (p.translate left).Wp (R.both S) (fun s' => G s'.1 ∧ H s'.2) (fun a s' => Q a s'.1 ∧ s'.2 = s.2) s := by
  induction p generalizing s with
  | ret a => exact ⟨⟨holds.1,other⟩,holds.2,rfl⟩
  | call c next ih =>
    refine ⟨⟨holds.1,other⟩,fun a s' moved => ?_⟩
    obtain ⟨answered,rest⟩ := moved
    refine wp_mono (ih a (holds.2 a s'.1 answered) ?_) fun _ _ after => ⟨after.1,after.2.trans rest⟩
    rw [rest]
    exact other
  | spin => exact holds

theorem wp_beside_right {S : Device L σ'} {H : σ' → Prop} {Q : α → σ' → Prop} {p : Prog L α} {s : σ × σ'}
    (holds : p.Wp S H Q s.2) (other : G s.1) :
    (p.translate right).Wp (R.both S) (fun s' => G s'.1 ∧ H s'.2) (fun a s' => Q a s'.2 ∧ s'.1 = s.1) s := by
  induction p generalizing s with
  | ret a => exact ⟨⟨other,holds.1⟩,holds.2,rfl⟩
  | call c next ih =>
    refine ⟨⟨other,holds.1⟩,fun a s' moved => ?_⟩
    obtain ⟨answered,rest⟩ := moved
    refine wp_mono (ih a (holds.2 a s'.2 answered) ?_) fun _ _ after => ⟨after.1,after.2.trans rest⟩
    rw [rest]
    exact other
  | spin => exact holds

/-- The calls of two interfaces, each carried out on its own side. -/
def bothSides (impl : (c : I.Call) → Prog K (I.Answer c)) (impl' : (c : J.Call) → Prog L (J.Answer c)) :
    (c : (I.both J).Call) → Prog (K.both L) ((I.both J).Answer c)
  | .inl c => (impl c).translate left
  | .inr c => (impl' c).translate right

theorem simulates_both (first : Simulates Rel R' G' R G impl) {Rel₂ : σ' → τ' → Prop} {S' : Device J τ'} {H' : τ' → Prop}
    {S : Device L σ'} {H : σ' → Prop} {impl' : (c : J.Call) → Prog L (J.Answer c)}
    (second : Simulates Rel₂ S' H' S H impl') :
    Simulates (fun s t => Rel s.1 t.1 ∧ Rel₂ s.2 t.2) (R'.both S') (fun t => G' t.1 ∧ H' t.2) (R.both S)
      (fun s => G s.1 ∧ H s.2) (bothSides impl impl') := by
  refine ⟨fun s t related => ⟨first.good _ _ related.1,second.good _ _ related.2⟩,?_⟩
  rintro (c | c) s t ⟨here,there⟩ proper
  · have carried := first.carries c s.1 t.1 here fun a t' answered => (proper a (t',t.2) ⟨answered,rfl⟩).1
    refine wp_mono (wp_beside carried (second.good _ _ there)) fun a s' after => ?_
    obtain ⟨⟨t',answered,related⟩,kept⟩ := after
    exact ⟨(t',t.2),⟨answered,rfl⟩,related,by rw [kept]; exact there⟩
  · have carried := second.carries c s.2 t.2 there fun a t' answered => (proper a (t.1,t') ⟨answered,rfl⟩).2
    refine wp_mono (wp_beside_right carried (first.good _ _ here)) fun a s' after => ?_
    obtain ⟨⟨t',answered,related⟩,kept⟩ := after
    exact ⟨(t.1,t'),⟨answered,rfl⟩,by rw [kept]; exact here,related⟩

end

/-! ### Points of runs -/

/-- A run from here comes to such a point. -/
def Reaches (R : Device I σ) (p : Prog I α) (s : σ) (P : Prog I α → σ → Prop) : Prop := ∃ t q s', Exec R p s t q s' ∧ P q s'

theorem reaches_here {R : Device I σ} {p : Prog I α} {s : σ} {P : Prog I α → σ → Prop} (there : P p s) : Reaches R p s P :=
  ⟨[],p,s,.stop p s,there⟩

theorem reaches_step {R : Device I σ} {c : I.Call} {next : I.Answer c → Prog I α} {s s' : σ} {a : I.Answer c}
    {P : Prog I α → σ → Prop} (answered : R c s a s') (rest : Reaches R (next a) s' P) : Reaches R (.call c next) s P := by
  obtain ⟨t,q,s'',exec,there⟩ := rest
  exact ⟨_,q,s'',.step answered exec,there⟩

/-- A call to one of two devices. -/
theorem reaches_left {R : Device I σ} {S : Device J τ} {c : I.Call} {next : I.Answer c → Prog (I.both J) α} {s s' : σ} {u : τ}
    {a : I.Answer c} {P : Prog (I.both J) α → σ × τ → Prop} (answered : R c s a s') (rest : Reaches (R.both S) (next a) (s',u) P) :
    Reaches (R.both S) (.call (.inl c) next) (s,u) P := by
  have moved : R.both S (.inl c) (s,u) a (s',u) := ⟨answered,rfl⟩
  exact reaches_step moved rest
theorem reaches_right {R : Device I σ} {S : Device J τ} {c : J.Call} {next : J.Answer c → Prog (I.both J) α} {s : σ} {u u' : τ}
    {a : J.Answer c} {P : Prog (I.both J) α → σ × τ → Prop} (answered : S c u a u') (rest : Reaches (R.both S) (next a) (s,u') P) :
    Reaches (R.both S) (.call (.inr c) next) (s,u) P := by
  have moved : R.both S (.inr c) (s,u) a (s,u') := ⟨answered,rfl⟩
  exact reaches_step moved rest

/-! ### Counting failures -/

/-- The device beside the number of its answers that were not good. -/
def counting (R : Device I σ) (good : (c : I.Call) → I.Answer c → Bool) : Device I (σ × Nat) :=
  fun c s a s' => R c s.1 a s'.1 ∧ s'.2 = s.2 + if good c a then 0 else 1

section
variable {R : Device I σ} {good : (c : I.Call) → I.Answer c → Bool}

/-- A program that stops at the first failure counts one at most, and ends badly if it does. -/
theorem failStop_counted {bad : α → Prop} {p : Prog I α} (stops : p.FailStop (fun c a => good c a = true) bad) (s : σ) (n : Nat) :
    p.Wp (counting R good) (fun _ => True) (fun a s' => s'.2 = n ∨ s'.2 = n + 1 ∧ bad a) (s,n) := by
  induction p generalizing s with
  | ret a => exact ⟨trivial,.inl rfl⟩
  | spin => exact stops
  | call c next ih =>
    refine ⟨trivial,fun a s' answered => ?_⟩
    obtain ⟨s₁,m⟩ := s'
    obtain ⟨_,counted⟩ := answered
    dsimp only at counted
    subst counted
    by_cases fine : good c a = true
    · rw [if_pos fine]
      exact ih a ((stops a).1 fine) s₁
    · obtain ⟨r,returned,isBad⟩ := (stops a).2 fine
      rw [if_neg fine,returned]
      exact ⟨trivial,.inr ⟨rfl,isBad⟩⟩

/-- As long as no failure is counted, the program does what it does on the machine of the good answers. -/
theorem counted_run {m : Machine I σ} (same : ∀ c s a s', R c s a s' → good c a = true → m c s = (a,s'))
    {calls : I.Call → Prop} {results : α → Prop} {p : Prog I α} (all : p.All calls results) (s : σ) (n : Nat) :
    p.Wp (counting R good) (fun _ => True) (fun a s' => n ≤ s'.2 ∧ (s'.2 = n → p.run m s = some (a,s'.1))) (s,n) := by
  induction p generalizing s n with
  | ret a => exact ⟨trivial,Nat.le_refl n,fun _ => rfl⟩
  | spin => exact all
  | call c next ih =>
    refine ⟨trivial,fun a s' answered => ?_⟩
    obtain ⟨s₁,k⟩ := s'
    obtain ⟨moved,counted⟩ := answered
    dsimp only at counted moved
    subst counted
    by_cases fine : good c a = true
    · rw [if_pos fine,run_call,same c s a s₁ moved fine]
      exact ih a (all.2 a) s₁ n
    · rw [if_neg fine]
      refine wp_mono (ih a (all.2 a) s₁ (n + 1)) fun b s' after => ⟨by omega,fun none => ?_⟩
      omega

end
end NuMicroBoot.Simulation
