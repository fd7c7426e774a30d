import Mindwtr.Lib.System

/-!
# Computations that await calls

A computation in `Calls Op Answer F` awaits calls of a port, each of which answers or fails. A port maps a
call, a choice of the environment and a state to the outcome of the call and the state after it: a call may
fail before or after it has taken effect.

`Safe port I Q x s` says that `x` run from `s` keeps `I` between any two calls, whatever the environment
chooses, and ends with `Q`. `Transaction` adds exceptions and local variables, which an exception keeps.
-/

namespace Mindwtr.Lib

inductive Calls (Op : Type) (Answer : Op → Type) (F A : Type) where
  | done (result : A)
  | call (op : Op) (next : Except F (Answer op) → Calls Op Answer F A)

namespace Calls

variable {Op : Type} {Answer : Op → Type} {F A B C S : Type}

def bind (x : Calls Op Answer F A) (f : A → Calls Op Answer F B) : Calls Op Answer F B :=
  match x with
  | .done a => f a
  | .call op next => .call op fun answer => (next answer).bind f

instance : Monad (Calls Op Answer F) where
  pure := .done
  bind := bind

/-- The environment settles the call that is awaited. -/
def step (port : (op : Op) → C → S → Except F (Answer op) × S) (x : S × Calls Op Answer F A) (choice : C) :
    Option (S × Calls Op Answer F A) :=
  match x with
  | (_, .done _) => none
  | (s, .call op next) => some ((port op choice s).2, next (port op choice s).1)

def Safe (port : (op : Op) → C → S → Except F (Answer op) × S) (I : S → Prop) (Q : A → S → Prop) :
    Calls Op Answer F A → S → Prop
  | .done a, s => I s ∧ Q a s
  | .call op next, s => I s ∧ ∀ choice, Safe port I Q (next (port op choice s).1) (port op choice s).2

variable {port : (op : Op) → C → S → Except F (Answer op) × S} {I J : S → Prop} {Q Q' : A → S → Prop}
  {s t : S} {x y : Calls Op Answer F A}

theorem Safe.inv (h : Safe port I Q x s) : I s := by
  cases x with
  | done a => exact h.1
  | call op next => exact h.1

theorem Safe.mono (h : Safe port I Q x s) (hI : ∀ s, I s → J s) (hQ : ∀ a s, Q a s → Q' a s) :
    Safe port J Q' x s := by
  induction x generalizing s with
  | done a => exact ⟨hI _ h.1, hQ _ _ h.2⟩
  | call op next ih => exact ⟨hI _ h.1, fun choice => ih _ (h.2 choice)⟩

theorem Safe.bind {f : A → Calls Op Answer F B} {P : B → S → Prop} (h : Safe port I Q x s)
    (hf : ∀ a t, I t → Q a t → Safe port I P (f a) t) : Safe port I P (x >>= f) s := by
  induction x generalizing s with
  | done a => exact hf _ _ h.1 h.2
  | call op next ih => exact ⟨h.1, fun choice => ih _ (h.2 choice)⟩

/-- Safety is kept along every run. -/
theorem Safe.of_reaches {ok : S × Calls Op Answer F A → C → Prop} (h : Safe port I Q x s)
    (hrun : Reaches (step port) ok (s, x) (t, y)) : Safe port I Q y t := by
  have hinv : ∀ z, Reaches (step port) ok (s, x) z → Safe port I Q z.2 z.1 := by
    intro z hz
    refine hz.invariant (P := fun z => Safe port I Q z.2 z.1) h ?_
    rintro ⟨s, x⟩ choice z hsafe - hstep
    cases x with
    | done a => cases hstep
    | call op next =>
      obtain rfl := Option.some.inj hstep
      exact hsafe.2 choice
  exact hinv _ hrun

end Calls

/-! ### Exceptions and local variables -/

abbrev Transaction (Op : Type) (Answer : Op → Type) (F E V : Type) := ExceptT E (StateT V (Calls Op Answer F))

namespace Transaction

variable {Op : Type} {Answer : Op → Type} {F E V A B C S : Type}

/-- Awaits a call and throws its failure. -/
def call (wrap : F → E) (op : Op) : Transaction Op Answer F E V (Answer op) :=
  ExceptT.mk fun v => .call op fun
    | .ok answer => .done (.ok answer, v)
    | .error failure => .done (.error (wrap failure), v)

def check (condition : Bool) (error : E) : Transaction Op Answer F E V Unit :=
  if condition then pure () else throw error

def Safe (port : (op : Op) → C → S → Except F (Answer op) × S) (I : S → Prop) (Q : A → V → S → Prop)
    (R : E → V → S → Prop) (x : Transaction Op Answer F E V A) (v : V) (s : S) : Prop :=
  Calls.Safe port I (fun r s =>
    match r.1 with
    | .ok a => Q a r.2 s
    | .error e => R e r.2 s) (x.run.run v) s

variable {port : (op : Op) → C → S → Except F (Answer op) × S} {I J : S → Prop} {Q Q' : A → V → S → Prop}
  {P : B → V → S → Prop} {R R' : E → V → S → Prop} {v : V} {s : S} {x : Transaction Op Answer F E V A}

theorem safe_pure {a : A} (hs : I s) (h : Q a v s) : Safe port I Q R (pure a) v s := ⟨hs, h⟩

theorem safe_throw {e : E} (hs : I s) (h : R e v s) : Safe port I Q R (throw e) v s := ⟨hs, h⟩

theorem safe_modify {f : V → V} {Q : PUnit → V → S → Prop} (hs : I s) (h : Q ⟨⟩ (f v) s) :
    Safe port I Q R (modify f) v s := ⟨hs, h⟩

theorem safe_get {Q : V → V → S → Prop} (hs : I s) (h : Q v v s) : Safe port I Q R get v s := ⟨hs, h⟩

theorem safe_check {condition : Bool} {e : E} {Q : Unit → V → S → Prop} (hs : I s)
    (hok : condition = true → Q () v s) (hfail : condition = false → R e v s) :
    Safe port I Q R (check condition e) v s := by
  cases condition with
  | false => exact safe_throw hs (hfail rfl)
  | true => exact safe_pure hs (hok rfl)

theorem safe_call {wrap : F → E} (op : Op) {Q : Answer op → V → S → Prop} (hs : I s)
    (h : ∀ choice, I (port op choice s).2 ∧
      match (port op choice s).1 with
      | .ok answer => Q answer v (port op choice s).2
      | .error failure => R (wrap failure) v (port op choice s).2) :
    Safe port I Q R (call wrap op) v s := by
  refine ⟨hs, fun choice => ?_⟩
  obtain ⟨hinv, hout⟩ := h choice
  cases hcall : (port op choice s).1 with
  | ok answer =>
    rw [hcall] at hout
    exact ⟨hinv, hout⟩
  | error failure =>
    rw [hcall] at hout
    exact ⟨hinv, hout⟩

theorem Safe.mono (h : Safe port I Q R x v s) (hI : ∀ s, I s → J s) (hQ : ∀ a v s, Q a v s → Q' a v s)
    (hR : ∀ e v s, R e v s → R' e v s) : Safe port J Q' R' x v s := by
  refine Calls.Safe.mono h hI ?_
  rintro ⟨a | e, v⟩ s hr
  · exact hR _ _ _ hr
  · exact hQ _ _ _ hr

theorem safe_bind {f : A → Transaction Op Answer F E V B} (h : Safe port I Q R x v s)
    (hf : ∀ a v t, I t → Q a v t → Safe port I P R (f a) v t) : Safe port I P R (x >>= f) v s := by
  refine Calls.Safe.bind h ?_
  rintro ⟨e | a, v⟩ t ht hr
  · exact ⟨ht, hr⟩
  · exact hf _ _ _ ht hr

/-- Both branches go on with `f`. -/
theorem safe_ite_bind {c : Prop} [Decidable c] {y : Transaction Op Answer F E V A}
    {f : A → Transaction Op Answer F E V B} (hx : Safe port I Q R x v s) (hy : Safe port I Q R y v s)
    (hf : ∀ a v t, I t → Q a v t → Safe port I P R (f a) v t) :
    Safe port I P R (if c then x >>= f else y >>= f) v s := by
  split
  · exact safe_bind hx hf
  · exact safe_bind hy hf

/-- What follows a read of the variables starts from them. -/
theorem safe_get_bind {f : V → Transaction Op Answer F E V A} (h : Safe port I Q R (f v) v s) :
    Safe port I Q R (get >>= f) v s := h

theorem safe_modify_bind {f : V → V} {y : PUnit → Transaction Op Answer F E V A}
    (h : Safe port I Q R (y ⟨⟩) (f v) s) : Safe port I Q R (modify f >>= y) v s := h

theorem safe_tryCatch {handler : E → Transaction Op Answer F E V A} (h : Safe port I Q R x v s)
    (hcatch : ∀ e v t, I t → R e v t → Safe port I Q R' (handler e) v t) :
    Safe port I Q R' (tryCatch x handler) v s := by
  refine Calls.Safe.bind h ?_
  rintro ⟨e | a, v⟩ t ht hr
  · exact hcatch _ _ _ ht hr
  · exact ⟨ht, hr⟩

end Transaction

end Mindwtr.Lib
