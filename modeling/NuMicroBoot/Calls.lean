import Mathlib.Algebra.Group.Nat.Defs
import Mathlib.Data.List.Basic
import Mathlib.Logic.Basic

/-!
Programs that work on the outside world through calls. A program is a tree: it
returns, or it makes one call and continues with the answer, or it has used up
the bound of one of its loops. The same program is run on a machine that
answers every call, followed over every answer a device may give, or judged
over all answers whatsoever.
-/

namespace NuMicroBoot.Calls

/-- The calls a program may make and the type of the answer to each. -/
structure Interface where
  Call : Type
  Answer : Call → Type

/-- `spin` stands for a loop that is still running when its bound is used up. -/
inductive Prog (I : Interface) (α : Type) : Type
  | ret (value : α)
  | call (c : I.Call) (next : I.Answer c → Prog I α)
  | spin

/-- One call together with the answer it got. -/
structure Event (I : Interface) where
  call : I.Call
  answer : I.Answer call

/-- A machine answers every call and moves to one next state. -/
abbrev Machine (I : Interface) (σ : Type) := (c : I.Call) → σ → I.Answer c × σ
/-- A device may answer a call in several ways. -/
abbrev Device (I : Interface) (σ : Type) := (c : I.Call) → σ → I.Answer c → σ → Prop

/-- The device that always does what the machine does. -/
def Machine.device {I : Interface} {σ : Type} (m : Machine I σ) : Device I σ := fun c s a s' => m c s = (a,s')

/-- The calls of two interfaces. -/
abbrev Interface.both (I J : Interface) : Interface := ⟨I.Call ⊕ J.Call,Sum.elim I.Answer J.Answer⟩

/-- Two devices side by side: a call to one leaves the other alone. -/
def Device.both {I J : Interface} {σ τ : Type} (R : Device I σ) (R' : Device J τ) : Device (I.both J) (σ × τ)
  | .inl c, s, a, s' => R c s.1 a s'.1 ∧ s'.2 = s.2
  | .inr c, s, a, s' => R' c s.2 a s'.2 ∧ s'.1 = s.1

namespace Prog
variable {I J : Interface} {α β γ σ : Type}

def bind : Prog I α → (α → Prog I β) → Prog I β
  | .ret a, f => f a
  | .call c next, f => .call c fun a => (next a).bind f
  | .spin, _ => .spin

instance : Monad (Prog I) where
  pure := .ret
  bind := bind

@[simp] theorem ret_bind (a : α) (f : α → Prog I β) : (Prog.ret a >>= f) = f a := rfl
@[simp] theorem call_bind (c : I.Call) (next : I.Answer c → Prog I α) (f : α → Prog I β) :
    (Prog.call c next >>= f) = .call c fun a => next a >>= f := rfl

theorem bind_bind (p : Prog I α) (f : α → Prog I β) (g : β → Prog I γ) :
    (p >>= f) >>= g = p >>= fun a => f a >>= g := by
  induction p with
  | ret a => rfl
  | call c next ih => simp only [call_bind,ih]
  | spin => rfl

theorem bind_eq_ret {p : Prog I α} {f : α → Prog I β} {b : β} (returned : p >>= f = .ret b) :
    ∃ a, p = .ret a ∧ f a = .ret b := by
  cases p with
  | ret a => exact ⟨a,rfl,returned⟩
  | call c next => cases returned
  | spin => cases returned

theorem ite_call_eq_ret {c : Prop} [Decidable c] {made : I.Call} {next : I.Answer made → Prog I α} {a b : α}
    (returned : (if c then Prog.call made next else .ret b) = .ret a) : a = b := by
  by_cases h : c
  · rw [if_pos h] at returned
    cases returned
  · rw [if_neg h] at returned
    cases returned
    rfl

theorem bind_ret (p : Prog I α) : p >>= Prog.ret = p := by
  induction p with
  | ret a => rfl
  | call c next ih => simp only [call_bind,ih]
  | spin => rfl

/-- A program over one interface where every call is carried out by a program
    over another. -/
def translate (impl : (c : I.Call) → Prog J (I.Answer c)) : Prog I α → Prog J α
  | .ret a => .ret a
  | .call c next => impl c >>= fun a => (next a).translate impl
  | .spin => .spin

theorem translate_bind (impl : (c : I.Call) → Prog J (I.Answer c)) (p : Prog I α) (f : α → Prog I β) :
    (p >>= f).translate impl = p.translate impl >>= fun a => (f a).translate impl := by
  induction p with
  | ret a => rfl
  | call c next ih =>
    show (impl c >>= fun a => (next a >>= f).translate impl) = (impl c >>= fun a => (next a).translate impl) >>= _
    rw [bind_bind,funext ih]
  | spin => rfl

/-! ### Running on a machine -/

/-- The value and the final state on a machine, nothing when the program spins. -/
def run (m : Machine I σ) : Prog I α → σ → Option (α × σ)
  | .ret a, s => some (a,s)
  | .call c next, s => (next (m c s).1).run m (m c s).2
  | .spin, _ => none

@[simp] theorem run_ret (m : Machine I σ) (a : α) (s : σ) : (Prog.ret a : Prog I α).run m s = some (a,s) := rfl
@[simp] theorem run_call (m : Machine I σ) (c : I.Call) (next : I.Answer c → Prog I α) (s : σ) :
    (Prog.call c next).run m s = (next (m c s).1).run m (m c s).2 := rfl

theorem run_bind (m : Machine I σ) (p : Prog I α) (f : α → Prog I β) (s : σ) :
    (p >>= f).run m s = (p.run m s).bind fun r => (f r.1).run m r.2 := by
  induction p generalizing s with
  | ret a => rfl
  | call c next ih => simp only [call_bind,run_call,ih]
  | spin => rfl

theorem run_bind_of_eq {m : Machine I σ} {p : Prog I α} {s s' : σ} {a : α} (ran : p.run m s = some (a,s'))
    (f : α → Prog I β) : (p >>= f).run m s = (f a).run m s' := by
  rw [run_bind,ran]
  rfl

/-- Where every call is carried out as the machine does it, the translated program runs as the program does. -/
theorem run_translate {m : Machine I σ} {m' : Machine J σ} {impl : (c : I.Call) → Prog J (I.Answer c)}
    (same : ∀ c s, (impl c).run m' s = some (m c s)) (p : Prog I α) (s : σ) : (p.translate impl).run m' s = p.run m s := by
  induction p generalizing s with
  | ret a => rfl
  | call c next ih =>
    show (impl c >>= fun a => (next a).translate impl).run m' s = _
    rw [run_bind_of_eq (same c s),ih,run_call]
  | spin => rfl

/-! ### Following a device -/

/-- The program `p` started in `s` makes the calls of the trace on the device and
    stands at `q` in state `s'`, anywhere between the start and the end. -/
inductive Exec (R : Device I σ) : Prog I α → σ → List (Event I) → Prog I α → σ → Prop
  | stop (p : Prog I α) (s : σ) : Exec R p s [] p s
  | step {c : I.Call} {next : I.Answer c → Prog I α} {s s' s'' : σ} {a : I.Answer c} {t : List (Event I)}
      {q : Prog I α} (answered : R c s a s') (rest : Exec R (next a) s' t q s'') :
      Exec R (.call c next) s (⟨c,a⟩ :: t) q s''

/-- Following a bind: still inside its first part, or past its return. -/
theorem exec_bind {R : Device I σ} {p : Prog I α} {f : α → Prog I β} {s s' : σ} {t : List (Event I)}
    {q : Prog I β} (exec : Exec R (p >>= f) s t q s') :
    (∃ p', Exec R p s t p' s' ∧ q = p' >>= f) ∨
      ∃ t₁ t₂ a s₁, t = t₁ ++ t₂ ∧ Exec R p s t₁ (.ret a) s₁ ∧ Exec R (f a) s₁ t₂ q s' := by
  induction p generalizing s t with
  | ret a => exact .inr ⟨[],t,a,s,rfl,.stop _ _,exec⟩
  | spin =>
    cases exec
    exact .inl ⟨.spin,.stop _ _,rfl⟩
  | call c next ih =>
    rw [call_bind] at exec
    cases exec with
    | stop => exact .inl ⟨.call c next,.stop _ _,rfl⟩
    | step answered rest =>
      rcases ih _ rest with ⟨p',inside,rfl⟩ | ⟨t₁,t₂,a,s₁,rfl,first,second⟩
      · exact .inl ⟨p',.step answered inside,rfl⟩
      · exact .inr ⟨_ :: t₁,t₂,a,s₁,rfl,.step answered first,second⟩

/-- An execution to the end has ended the first part on its way. -/
theorem exec_bind_done {R : Device I σ} {p : Prog I α} {f : α → Prog I β} {s s' : σ} {t : List (Event I)} {b : β}
    (exec : Exec R (p >>= f) s t (.ret b) s') :
    ∃ t₁ t₂ a s₁, t = t₁ ++ t₂ ∧ Exec R p s t₁ (.ret a) s₁ ∧ Exec R (f a) s₁ t₂ (.ret b) s' := by
  rcases exec_bind exec with ⟨p',first,returned⟩ | split
  · obtain ⟨a,rfl,last⟩ := bind_eq_ret returned.symm
    refine ⟨t,[],a,s',by simp,first,?_⟩
    rw [last]
    exact .stop _ _
  · exact split

theorem exec_trans {R : Device I σ} {p q r : Prog I α} {s s' s'' : σ} {t t' : List (Event I)} (first : Exec R p s t q s')
    (second : Exec R q s' t' r s'') : Exec R p s (t ++ t') r s'' := by
  induction first with
  | stop => exact second
  | step answered _ ih => exact .step answered (ih second)

theorem exec_ret {R : Device I σ} {a : α} {s s' : σ} {t : List (Event I)} {q : Prog I α}
    (exec : Exec R (.ret a) s t q s') : t = [] ∧ q = .ret a ∧ s' = s := by
  cases exec
  exact ⟨rfl,rfl,rfl⟩

/-- Where every answer on the way is one that another device may give too, the execution is one on that device. -/
theorem exec_mono {R R' : Device I σ} {good : (c : I.Call) → I.Answer c → Prop} {p q : Prog I α} {s s' : σ}
    {t : List (Event I)} (allows : ∀ c s a s', good c a → R c s a s' → R' c s a s') (exec : Exec R p s t q s')
    (fine : ∀ e ∈ t, good e.call e.answer) : Exec R' p s t q s' := by
  induction exec with
  | stop => exact .stop _ _
  | step answered _ ih =>
    refine .step (allows _ _ _ _ (fine _ List.mem_cons_self) answered) (ih fun e member => fine e ?_)
    exact List.mem_cons_of_mem _ member

/-- A run on a machine is a complete execution on its device. -/
theorem run_iff_exec (m : Machine I σ) (p : Prog I α) (s : σ) (a : α) (s' : σ) :
    p.run m s = some (a,s') ↔ ∃ t, Exec m.device p s t (.ret a) s' := by
  induction p generalizing s with
  | ret b =>
    constructor
    · intro ran
      cases ran
      exact ⟨[],.stop _ _⟩
    · rintro ⟨t,exec⟩
      cases exec
      rfl
  | spin =>
    constructor
    · intro ran
      cases ran
    · rintro ⟨t,exec⟩
      cases exec
  | call c next ih =>
    rw [run_call,ih]
    constructor
    · rintro ⟨t,exec⟩
      exact ⟨_ :: t,.step (show m c s = (_,_) from rfl) exec⟩
    · rintro ⟨t,exec⟩
      cases exec with
      | step answered rest =>
        have same : m c s = _ := answered
        rw [same]
        exact ⟨_,rest⟩

/-! ### All answers -/

/-- Whatever the answers, every call satisfies `calls`, the program never spins
    and every result satisfies `results`. -/
def All (calls : I.Call → Prop) (results : α → Prop) : Prog I α → Prop
  | .ret a => results a
  | .call c next => calls c ∧ ∀ a, (next a).All calls results
  | .spin => False

theorem all_mono {calls calls' : I.Call → Prop} {results results' : α → Prop} {p : Prog I α}
    (all : p.All calls results) (wider : ∀ c, calls c → calls' c) (weaker : ∀ a, results a → results' a) :
    p.All calls' results' := by
  induction p with
  | ret a => exact weaker a all
  | call c next ih => exact ⟨wider c all.1,fun a => ih a (all.2 a)⟩
  | spin => exact all

theorem all_bind {calls : I.Call → Prop} {results : α → Prop} {results' : β → Prop} {p : Prog I α}
    {f : α → Prog I β} (first : p.All calls results) (rest : ∀ a, results a → (f a).All calls results') :
    (p >>= f).All calls results' := by
  induction p with
  | ret a => exact rest a first
  | call c next ih => exact ⟨first.1,fun a => ih a (first.2 a)⟩
  | spin => exact first

theorem all_ite {calls : I.Call → Prop} {results : α → Prop} {c : Prop} [Decidable c] {p q : Prog I α}
    (yes : c → p.All calls results) (no : ¬ c → q.All calls results) : (if c then p else q).All calls results := by
  by_cases h : c
  · rw [if_pos h]
    exact yes h
  · rw [if_neg h]
    exact no h

/-- What holds over all answers holds behind the first part of a program, for each result that a run of it gives. -/
theorem all_after {calls : I.Call → Prop} {results : β → Prop} {m : Machine I σ} {p : Prog I α} {f : α → Prog I β}
    {s s' : σ} {a : α} (all : (p >>= f).All calls results) (ran : p.run m s = some (a,s')) : (f a).All calls results := by
  induction p generalizing s with
  | ret b =>
    cases ran
    exact all
  | call c next ih => exact ih _ (all.2 _) ran
  | spin => cases ran

/-- Continuations that agree on the possible results give the same program. -/
theorem bind_congr_all {calls : I.Call → Prop} {results : α → Prop} {p : Prog I α} {f g : α → Prog I β}
    (all : p.All calls results) (same : ∀ a, results a → f a = g a) : p >>= f = p >>= g := by
  induction p with
  | ret a => exact same a all
  | call c next ih =>
    rw [call_bind,call_bind]
    congr 1
    funext a
    exact ih a (all.2 a)
  | spin => rfl

/-- An invariant that every step of a permitted call keeps is kept by the
    execution, up to each point of it. -/
theorem exec_invariant {R : Device I σ} {calls : I.Call → Prop} {results : α → Prop} (K : σ → Prop)
    (kept : ∀ c s a s', calls c → R c s a s' → K s → K s') {p q : Prog I α} {s s' : σ} {t : List (Event I)}
    (all : p.All calls results) (exec : Exec R p s t q s') (holds : K s) : K s' := by
  induction exec with
  | stop => exact holds
  | step answered _ ih => exact ih (all.2 _) (kept _ _ _ _ all.1 answered holds)

/-! ### Never returning -/

/-- Whatever the answers, the program does not return. -/
def Endless : Prog I α → Prop
  | .ret _ => False
  | .call _ next => ∀ a, (next a).Endless
  | .spin => True

theorem endless_bind {p : Prog I α} {f : α → Prog I β} (rest : ∀ a, (f a).Endless) : (p >>= f).Endless := by
  induction p with
  | ret a => exact rest a
  | call c next ih => exact fun a => ih a
  | spin => trivial

theorem endless_exec {R : Device I σ} {p : Prog I α} {s s' : σ} {t : List (Event I)} {a : α} (endless : p.Endless) :
    ¬ Exec R p s t (.ret a) s' := by
  induction p generalizing s t with
  | ret b => exact endless.elim
  | call c next ih =>
    intro exec
    cases exec with
    | step _ rest => exact ih _ (endless _) rest
  | spin =>
    intro exec
    cases exec

/-! ### Stopping at the first failure -/

/-- The program ends with a bad result as soon as an answer is not good. -/
def FailStop (good : (c : I.Call) → I.Answer c → Prop) (bad : α → Prop) : Prog I α → Prop
  | .ret _ => True
  | .call c next => ∀ a, (good c a → (next a).FailStop good bad) ∧ (¬ good c a → ∃ r, next a = .ret r ∧ bad r)
  | .spin => False

theorem failStop_bind {good : (c : I.Call) → I.Answer c → Prop} {bad : α → Prop} {bad' : β → Prop} {p : Prog I α}
    {f : α → Prog I β} (first : p.FailStop good bad) (rest : ∀ a, (f a).FailStop good bad')
    (passed : ∀ a, bad a → ∃ b, f a = .ret b ∧ bad' b) : (p >>= f).FailStop good bad' := by
  induction p with
  | ret a => exact rest a
  | spin => exact first
  | call c next ih =>
    intro a
    refine ⟨fun fine => ih a ((first a).1 fine),fun failed => ?_⟩
    obtain ⟨r,returned,isBad⟩ := (first a).2 failed
    obtain ⟨b,after,isBad'⟩ := passed r isBad
    refine ⟨b,?_,isBad'⟩
    show next a >>= f = .ret b
    rw [returned,ret_bind,after]

theorem failStop_ite {good : (c : I.Call) → I.Answer c → Prop} {bad : α → Prop} {c : Prop} [Decidable c]
    {p q : Prog I α} (yes : p.FailStop good bad) (no : q.FailStop good bad) :
    (if c then p else q).FailStop good bad := by
  by_cases h : c
  · rwa [if_pos h]
  · rwa [if_neg h]

/-- Along an execution all answers are good so far, or only the last one is not
    and the program has returned a bad result. -/
theorem failStop_exec {R : Device I σ} {good : (c : I.Call) → I.Answer c → Prop} {bad : α → Prop}
    {p q : Prog I α} {s s' : σ} {t : List (Event I)} (stops : p.FailStop good bad) (exec : Exec R p s t q s') :
    ((∀ e ∈ t, good e.call e.answer) ∧ q.FailStop good bad) ∨
      ∃ before e, t = before ++ [e] ∧ (∀ e ∈ before, good e.call e.answer) ∧ ¬ good e.call e.answer ∧
        ∃ r, q = .ret r ∧ bad r := by
  induction exec with
  | stop => exact .inl ⟨by simp,stops⟩
  | @step c next s s' s'' a t q answered rest ih =>
    by_cases fine : good c a
    · rcases ih ((stops a).1 fine) with ⟨later,final⟩ | ⟨before,e,rfl,later,failed,final⟩
      · refine .inl ⟨?_,final⟩
        intro e member
        rcases List.mem_cons.mp member with rfl | member
        · exact fine
        · exact later e member
      · refine .inr ⟨⟨c,a⟩ :: before,e,rfl,?_,failed,final⟩
        intro e member
        rcases List.mem_cons.mp member with rfl | member
        · exact fine
        · exact later e member
    · obtain ⟨r,returned,isBad⟩ := (stops a).2 fine
      rw [returned] at rest
      obtain ⟨rfl,rfl,_⟩ := exec_ret rest
      exact .inr ⟨[],⟨c,a⟩,rfl,by simp,fine,r,rfl,isBad⟩

/-! ### Weakest preconditions -/

/-- Every execution on the device from this state ends, `J` holds in every state on the way, and `Q` holds of
    the result and the last state. -/
def Wp (R : Device I σ) (J : σ → Prop) : Prog I α → (α → σ → Prop) → σ → Prop
  | .ret a, Q, s => J s ∧ Q a s
  | .call c next, Q, s => J s ∧ ∀ a s', R c s a s' → (next a).Wp R J Q s'
  | .spin, _, _ => False

variable {R : Device I σ} {J : σ → Prop}

theorem wp_now {Q : α → σ → Prop} {p : Prog I α} {s : σ} (holds : p.Wp R J Q s) : J s := by
  cases p with
  | ret a => exact holds.1
  | call c next => exact holds.1
  | spin => exact holds.elim

theorem wp_mono {Q Q' : α → σ → Prop} {p : Prog I α} {s : σ} (holds : p.Wp R J Q s)
    (weaker : ∀ a s', Q a s' → Q' a s') : p.Wp R J Q' s := by
  induction p generalizing s with
  | ret a => exact ⟨holds.1,weaker a s holds.2⟩
  | call c next ih => exact ⟨holds.1,fun a s' answered => ih a (holds.2 a s' answered)⟩
  | spin => exact holds

theorem wp_weaken {J' : σ → Prop} {Q : α → σ → Prop} {p : Prog I α} {s : σ} (holds : p.Wp R J Q s)
    (weaker : ∀ s', J s' → J' s') : p.Wp R J' Q s := by
  induction p generalizing s with
  | ret a => exact ⟨weaker s holds.1,holds.2⟩
  | call c next ih => exact ⟨weaker s holds.1,fun a s' answered => ih a (holds.2 a s' answered)⟩
  | spin => exact holds

/-- A first part and its continuation are judged one after the other. -/
theorem wp_bind {Q : α → σ → Prop} {Q' : β → σ → Prop} {p : Prog I α} {f : α → Prog I β} {s : σ}
    (first : p.Wp R J Q s) (rest : ∀ a s', J s' → Q a s' → (f a).Wp R J Q' s') : (p >>= f).Wp R J Q' s := by
  induction p generalizing s with
  | ret a => exact rest a s first.1 first.2
  | call c next ih => exact ⟨first.1,fun a s' answered => ih a (first.2 a s' answered)⟩
  | spin => exact first

/-- A call that the device carries out in one way. -/
theorem wp_moves {Q : α → σ → Prop} {c : I.Call} {next : I.Answer c → Prog I α} {s s' : σ}
    (moves : ∀ a s'', R c s a s'' → s'' = s') (now : J s) (rest : ∀ a, (next a).Wp R J Q s') :
    ((Prog.call c .ret : Prog I (I.Answer c)) >>= next).Wp R J Q s := by
  refine ⟨now,fun a s'' moved => ?_⟩
  rw [moves a s'' moved]
  exact rest a

theorem wp_ite {Q : α → σ → Prop} {c : Prop} [Decidable c] {p q : Prog I α} {s : σ} (yes : c → p.Wp R J Q s)
    (no : ¬ c → q.Wp R J Q s) : (if c then p else q).Wp R J Q s := by
  by_cases h : c
  · rw [if_pos h]
    exact yes h
  · rw [if_neg h]
    exact no h

/-- Where every call is carried out so that an abstract device explains it, what holds of a program on the abstract
    device holds of its translation. Calls after which the abstract state is not good need not be explained. -/
theorem wp_translate {I : Interface} {τ : Type} {R' : Device I τ} {J' : τ → Prop} {Rel : σ → τ → Prop} {J₀ : Interface}
    {R : Device J₀ σ} {J : σ → Prop} {impl : (c : I.Call) → Prog J₀ (I.Answer c)} (good : ∀ s t, Rel s t → J s)
    (simulates : ∀ c s t, Rel s t → (∀ a t', R' c t a t' → J' t') →
      (impl c).Wp R J (fun a s' => ∃ t', R' c t a t' ∧ Rel s' t') s)
    {Q : α → τ → Prop} {p : Prog I α} {s : σ} {t : τ} (holds : p.Wp R' J' Q t) (related : Rel s t) :
    (p.translate impl).Wp R J (fun a s' => ∃ t', Q a t' ∧ Rel s' t') s := by
  induction p generalizing s t with
  | ret a => exact ⟨good s t related,t,holds.2,related⟩
  | call c next ih =>
    have carried := simulates c s t related fun a t' answered => wp_now (holds.2 a t' answered)
    refine wp_bind carried fun a s' _ explained => ?_
    obtain ⟨t',answered,related'⟩ := explained
    exact ih a (holds.2 a t' answered) related'
  | spin => exact holds

/-- The judgement holds again at every point of an execution. -/
theorem wp_exec {Q : α → σ → Prop} {p q : Prog I α} {s s' : σ} {t : List (Event I)} (holds : p.Wp R J Q s)
    (exec : Exec R p s t q s') : q.Wp R J Q s' := by
  induction exec with
  | stop => exact holds
  | step answered _ ih => exact ih (holds.2 _ _ answered)

/-- A run on a machine judges the program on its device. -/
theorem run_wp {m : Machine I σ} {p : Prog I α} {s : σ} {r : α × σ} (ran : p.run m s = some r) :
    p.Wp m.device (fun _ => True) (fun a s' => r = (a,s')) s := by
  induction p generalizing s with
  | ret a => exact ⟨trivial,(Option.some.inj ran).symm⟩
  | call c next ih =>
    refine ⟨trivial,fun a s' answered => ?_⟩
    rw [run_call,show m c s = (a,s') from answered] at ran
    exact ih a ran
  | spin => cases ran

/-- What holds over all answers holds on every device. -/
theorem all_wp {calls : I.Call → Prop} {results : α → Prop} {p : Prog I α} (all : p.All calls results) (s : σ) :
    p.Wp R (fun _ => True) (fun a _ => results a) s := by
  induction p generalizing s with
  | ret a => exact ⟨trivial,all⟩
  | call c next ih => exact ⟨trivial,fun a s' _ => ih a (all.2 a) s'⟩
  | spin => exact all

/-- On a device that answers every call there is an execution to the end. -/
theorem wp_exists {Q : α → σ → Prop} {p : Prog I α} {s : σ} (total : ∀ c s, ∃ a s', R c s a s') (holds : p.Wp R J Q s) :
    ∃ t a s', Exec R p s t (.ret a) s' ∧ Q a s' := by
  induction p generalizing s with
  | ret a => exact ⟨[],a,s,.stop _ _,holds.2⟩
  | call c next ih =>
    obtain ⟨a,s',answered⟩ := total c s
    obtain ⟨t,b,s'',exec,result⟩ := ih a (holds.2 a s' answered)
    exact ⟨⟨c,a⟩ :: t,b,s'',.step answered exec,result⟩
  | spin => exact holds.elim

theorem wp_ends {Q : α → σ → Prop} {p : Prog I α} {s : σ} (total : ∀ c s, ∃ a s', R c s a s') (holds : p.Wp R J Q s) :
    ∃ t a s', Exec R p s t (.ret a) s' := by
  obtain ⟨t,a,s',exec,_⟩ := wp_exists total holds
  exact ⟨t,a,s',exec⟩

/-- Two judgements on a program hold together at the end of some execution. -/
theorem wp_both {J' : σ → Prop} {Q Q' : α → σ → Prop} {p : Prog I α} {s : σ} (total : ∀ c s, ∃ a s', R c s a s')
    (first : p.Wp R J Q s) (second : p.Wp R J' Q' s) : ∃ a s', Q a s' ∧ Q' a s' := by
  obtain ⟨t,a,s',exec,result⟩ := wp_exists total first
  exact ⟨a,s',result,(wp_exec second exec).2⟩

/-! ### Weakest liberal preconditions -/

/-- `J` holds in every state of every execution on the device from this state, and `Q` of the result and the last
    state of those that end. -/
def Wlp (R : Device I σ) (J : σ → Prop) : Prog I α → (α → σ → Prop) → σ → Prop
  | .ret a, Q, s => J s ∧ Q a s
  | .call c next, Q, s => J s ∧ ∀ a s', R c s a s' → (next a).Wlp R J Q s'
  | .spin, _, s => J s

theorem wlp_now {Q : α → σ → Prop} {p : Prog I α} {s : σ} (holds : p.Wlp R J Q s) : J s := by
  cases p with
  | ret a => exact holds.1
  | call c next => exact holds.1
  | spin => exact holds

theorem wlp_bind {Q : α → σ → Prop} {Q' : β → σ → Prop} {p : Prog I α} {f : α → Prog I β} {s : σ}
    (first : p.Wlp R J Q s) (rest : ∀ a s', J s' → Q a s' → (f a).Wlp R J Q' s') : (p >>= f).Wlp R J Q' s := by
  induction p generalizing s with
  | ret a => exact rest a s first.1 first.2
  | call c next ih => exact ⟨first.1,fun a s' answered => ih a (first.2 a s' answered)⟩
  | spin => exact first

theorem wlp_moves {Q : α → σ → Prop} {c : I.Call} {next : I.Answer c → Prog I α} {s s' : σ}
    (moves : ∀ a s'', R c s a s'' → s'' = s') (now : J s) (rest : ∀ a, (next a).Wlp R J Q s') :
    ((Prog.call c .ret : Prog I (I.Answer c)) >>= next).Wlp R J Q s := by
  refine ⟨now,fun a s'' moved => ?_⟩
  rw [moves a s'' moved]
  exact rest a

theorem wlp_ite {Q : α → σ → Prop} {c : Prop} [Decidable c] {p q : Prog I α} {s : σ} (yes : c → p.Wlp R J Q s)
    (no : ¬ c → q.Wlp R J Q s) : (if c then p else q).Wlp R J Q s := by
  by_cases h : c
  · rw [if_pos h]
    exact yes h
  · rw [if_neg h]
    exact no h

theorem wlp_exec {Q : α → σ → Prop} {p q : Prog I α} {s s' : σ} {t : List (Event I)} (holds : p.Wlp R J Q s)
    (exec : Exec R p s t q s') : J s' := by
  induction exec with
  | stop => exact wlp_now holds
  | step answered _ ih => exact ih (holds.2 _ _ answered)

/-! ### Two devices side by side -/

section
variable {K : Interface} {τ : Type} {R' : Device K τ}

/-- A program for the first device, on both. -/
def left (c : I.Call) : Prog (I.both K) (I.Answer c) := .call (.inl c) .ret
/-- A program for the second device, on both. -/
def right (c : K.Call) : Prog (I.both K) (K.Answer c) := .call (.inr c) .ret

theorem wp_left {Q : α → σ → Prop} {p : Prog I α} {s : σ × τ} (holds : p.Wp R J Q s.1) :
    (p.translate left).Wp (R.both R') (fun s' => J s'.1) (fun a s' => Q a s'.1 ∧ s'.2 = s.2) s := by
  induction p generalizing s with
  | ret a => exact ⟨holds.1,holds.2,rfl⟩
  | call c next ih =>
    refine ⟨holds.1,fun a s' moved => ?_⟩
    obtain ⟨answered,rest⟩ := moved
    exact wp_mono (ih a (holds.2 a s'.1 answered)) fun _ _ after => ⟨after.1,after.2.trans rest⟩
  | spin => exact holds

theorem wp_right {J' : τ → Prop} {Q : α → τ → Prop} {p : Prog K α} {s : σ × τ} (holds : p.Wp R' J' Q s.2) :
    (p.translate right).Wp (R.both R') (fun s' => J' s'.2) (fun a s' => Q a s'.2 ∧ s'.1 = s.1) s := by
  induction p generalizing s with
  | ret a => exact ⟨holds.1,holds.2,rfl⟩
  | call c next ih =>
    refine ⟨holds.1,fun a s' moved => ?_⟩
    obtain ⟨answered,rest⟩ := moved
    exact wp_mono (ih a (holds.2 a s'.2 answered)) fun _ _ after => ⟨after.1,after.2.trans rest⟩
  | spin => exact holds

end

/-! ### Issuing a list of calls -/

/-- Makes the calls in order up to the first answer that is not good; returns the
    good events and whether all calls were made. -/
def issue (good : (c : I.Call) → I.Answer c → Bool) : List I.Call → Prog I (List (Event I) × Bool)
  | [] => .ret ([],true)
  | c :: cs => .call c fun a =>
    if good c a then issue good cs >>= fun r => .ret (⟨c,a⟩ :: r.1,r.2) else .ret ([],false)

variable {good : (c : I.Call) → I.Answer c → Bool}

theorem issue_append (xs ys : List I.Call) :
    issue good (xs ++ ys) = issue good xs >>= fun r =>
      if r.2 then issue good ys >>= fun r' => .ret (r.1 ++ r'.1,r'.2) else .ret (r.1,false) := by
  induction xs with
  | nil =>
    simp only [List.nil_append,issue,ret_bind,if_true]
    exact (bind_ret _).symm
  | cons c xs ih =>
    simp only [List.cons_append,issue,call_bind]
    congr 1
    funext a
    by_cases fine : good c a
    · simp only [fine,if_true,ih,bind_bind,ret_bind]
      congr 1
      funext r
      by_cases done : r.2 <;> simp [done,bind_bind]
    · simp [fine]

/-- `issue` makes no other calls; it returns one event for each call of a first part of the
    list, which is the whole list exactly when no call failed. -/
theorem issue_all {calls : I.Call → Prop} {cs : List I.Call} (permitted : ∀ c ∈ cs, calls c) :
    (issue good cs).All calls fun r => r.1.length ≤ cs.length ∧ (r.2 = true ↔ r.1.length = cs.length) := by
  induction cs with
  | nil => exact ⟨Nat.le_refl _,by simp⟩
  | cons c cs ih =>
    refine ⟨permitted c (by simp),fun a => ?_⟩
    by_cases fine : good c a
    · simp only [fine,if_true]
      refine all_bind (ih fun c member => permitted c (by simp [member])) fun r counted => ?_
      exact ⟨Nat.succ_le_succ counted.1,by simpa using counted.2⟩
    · simp only [fine]
      exact ⟨Nat.zero_le _,by simp⟩

theorem issue_terminates (cs : List I.Call) : (issue good cs).All (fun _ => True) fun _ => True :=
  all_mono (issue_all fun _ _ => trivial) (fun _ => id) fun _ _ => trivial

/-- The events of a machine that is given the calls in order. -/
def events (m : Machine I σ) : List I.Call → σ → List (Event I)
  | [], _ => []
  | c :: cs, s => ⟨c,(m c s).1⟩ :: events m cs (m c s).2
/-- The state of a machine after the calls. -/
def after (m : Machine I σ) : List I.Call → σ → σ
  | [], s => s
  | c :: cs, s => after m cs (m c s).2

theorem run_issue {m : Machine I σ} (fine : ∀ c s, good c (m c s).1 = true) (cs : List I.Call) (s : σ) :
    (issue good cs).run m s = some ((events m cs s,true),after m cs s) := by
  induction cs generalizing s with
  | nil => rfl
  | cons c cs ih => simp [issue,fine,run_bind,ih,events,after]

/-- With good answers only, an execution makes all calls of the list. -/
theorem exec_issue_done {R : Device I σ} {cs : List I.Call} {s s' : σ} {t : List (Event I)} {r : List (Event I) × Bool}
    (exec : Exec R (issue good cs) s t (.ret r) s') (fine : ∀ e ∈ t, good e.call e.answer = true) :
    r.2 = true ∧ t.map Event.call = cs := by
  induction cs generalizing s t r with
  | nil =>
    obtain ⟨rfl,returned,_⟩ := exec_ret exec
    cases returned
    exact ⟨rfl,rfl⟩
  | cons c cs ih =>
    cases exec with
    | @step _ _ _ _ _ a t _ _ rest =>
    have first : good c a = true := fine ⟨c,a⟩ List.mem_cons_self
    dsimp only at rest
    rw [if_pos first] at rest
    obtain ⟨t₁,t₂,r',s₁,rfl,inside,last⟩ := exec_bind_done rest
    obtain ⟨rfl,returned,rfl⟩ := exec_ret last
    cases returned
    obtain ⟨all,calls⟩ := ih inside fun e member => fine e (by simp [member])
    exact ⟨all,by simp [calls]⟩

/-- On a device that does what a machine does when its answer is good, and nothing otherwise, an execution has done
    what the machine does at a first part of the calls. -/
theorem exec_issue {R : Device I σ} {m : Machine I σ} (moves : ∀ c s a s', R c s a s' → good c a = true → s' = (m c s).2)
    (stays : ∀ c s a s', R c s a s' → good c a = false → s' = s) {cs : List I.Call} {s s' : σ}
    {t : List (Event I)} {q : Prog I (List (Event I) × Bool)} (exec : Exec R (issue good cs) s t q s') :
    ∃ n, s' = after m (cs.take n) s := by
  induction cs generalizing s t q with
  | nil =>
    obtain ⟨_,_,rfl⟩ := exec_ret exec
    exact ⟨0,rfl⟩
  | cons c cs ih =>
    cases exec with
    | stop => exact ⟨0,rfl⟩
    | @step _ _ _ s₁ _ a _ _ answered rest =>
      dsimp only at rest
      by_cases fine : good c a = true
      · have moved := moves c s a s₁ answered fine
        rw [if_pos fine] at rest
        rcases exec_bind rest with ⟨p',inside,_⟩ | ⟨t₁,t₂,r,s₂,_,first,second⟩
        · obtain ⟨n,reached⟩ := ih inside
          exact ⟨n+1,by rw [List.take_succ_cons,after,← moved,reached]⟩
        · obtain ⟨_,_,rfl⟩ := exec_ret second
          obtain ⟨n,reached⟩ := ih first
          exact ⟨n+1,by rw [List.take_succ_cons,after,← moved,reached]⟩
      · rw [if_neg fine] at rest
        obtain ⟨_,_,rfl⟩ := exec_ret rest
        exact ⟨0,stays c s a s' answered (by simpa using fine)⟩

end Prog
end NuMicroBoot.Calls
