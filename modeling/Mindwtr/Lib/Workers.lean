import Mindwtr.Lib.Calls

/-!
# Workers over separate cells

`Calls.Ends port ok Q x s` says that every run of `x` from `s` whose calls are settled as `ok` says ends
with `Q`; `Attempt` adds failures that end a computation.

A `WorkerPool` runs a list of jobs with a limited number of workers, in any interleaving. Each job works on a cell
of its own, which may also be disturbed from outside while no worker is at it. `WorkerPool.done_of_reaches` takes
what each job does alone to what the pool has done to all cells when nothing is left to do.
-/

namespace Mindwtr.Lib

namespace Calls

variable {Op : Type} {Answer : Op → Type} {F A B C S : Type}

theorem bind_done (x : Calls Op Answer F A) : x.bind .done = x := by
  induction x with
  | done a => rfl
  | call op next ih => exact congrArg (Calls.call op) (funext ih)

theorem bind_bind (x : Calls Op Answer F A) (f : A → Calls Op Answer F B) {D : Type} (g : B → Calls Op Answer F D) :
    (x.bind f).bind g = x.bind fun a => (f a).bind g := by
  induction x with
  | done a => rfl
  | call op next ih => exact congrArg (Calls.call op) (funext ih)

instance : LawfulMonad (Calls Op Answer F) :=
  LawfulMonad.mk' _ bind_done (fun _ _ => rfl) fun x f g => bind_bind x f g

def Ends (port : (op : Op) → C → S → Except F (Answer op) × S) (ok : (op : Op) → C → S → Prop) (Q : A → S → Prop) :
    Calls Op Answer F A → S → Prop
  | .done a, s => Q a s
  | .call op next, s => ∀ choice, ok op choice s → Ends port ok Q (next (port op choice s).1) (port op choice s).2

variable {port : (op : Op) → C → S → Except F (Answer op) × S} {ok : (op : Op) → C → S → Prop}
  {Q Q' : A → S → Prop} {P : B → S → Prop} {s : S} {x : Calls Op Answer F A}

theorem Ends.mono (h : Ends port ok Q x s) (hQ : ∀ a s, Q a s → Q' a s) : Ends port ok Q' x s := by
  induction x generalizing s with
  | done a => exact hQ a s h
  | call op next ih => exact fun choice hok => ih _ (h choice hok)

theorem Ends.bind {f : A → Calls Op Answer F B} (h : Ends port ok Q x s)
    (hf : ∀ a t, Q a t → Ends port ok P (f a) t) : Ends port ok P (x >>= f) s := by
  induction x generalizing s with
  | done a => exact hf a s h
  | call op next ih => exact fun choice hok => ih _ (h choice hok)

end Calls

/-! ### Failures -/

/-- A computation that ends with the first call that fails. -/
abbrev Attempt (Op : Type) (Answer : Op → Type) (F : Type) := ExceptT F (Calls Op Answer F)

namespace Attempt

variable {Op : Type} {Answer : Op → Type} {F A B C S : Type}

def call (op : Op) : Attempt Op Answer F (Answer op) := ExceptT.mk (.call op .done)

/-- `Q` of what it returns, and `R` where it fails. -/
def Outcome (Q : A → S → Prop) (R : S → Prop) : Except F A → S → Prop
  | .ok a, s => Q a s
  | .error _, s => R s

def Ends (port : (op : Op) → C → S → Except F (Answer op) × S) (ok : (op : Op) → C → S → Prop) (Q : A → S → Prop)
    (R : S → Prop) (x : Attempt Op Answer F A) (s : S) : Prop := Calls.Ends port ok (Outcome Q R) x.run s

variable {port : (op : Op) → C → S → Except F (Answer op) × S} {ok : (op : Op) → C → S → Prop}
  {Q : A → S → Prop} {P : B → S → Prop} {R : S → Prop} {s : S} {x : Attempt Op Answer F A}

theorem ends_pure {a : A} (h : Q a s) : Ends port ok Q R (pure a) s := h

theorem ends_call (op : Op) {Q : Answer op → S → Prop}
    (h : ∀ choice, ok op choice s → Outcome Q R (port op choice s).1 (port op choice s).2) :
    Ends port ok Q R (call op) s := h

theorem ends_bind {f : A → Attempt Op Answer F B} (h : Ends port ok Q R x s)
    (hf : ∀ a t, Q a t → Ends port ok P R (f a) t) : Ends port ok P R (x >>= f) s := by
  refine Calls.Ends.bind h ?_
  rintro (e | a) t hr
  · exact hr
  · exact hf a t hr

end Attempt

/-! ### Pools -/

structure WorkerPool (K Op : Type) (Answer : Op → Type) (F A : Type) where
  waiting : List (K × Calls Op Answer F A)
  running : List (K × Calls Op Answer F A) := []
  results : List A := []

inductive WorkerEvent (K C D : Type) where
  /-- A free worker takes the next job. -/
  | take
  /-- The `n`-th running job gets an answer, or is over. -/
  | advance (n : Nat) (choice : C)
  | disturb (k : K) (d : D)

namespace WorkerPool

variable {K Op : Type} {Answer : Op → Type} {F A C D S : Type}

/-- One step of the workers, or of the outside world. -/
def step [DecidableEq K] (limit : Nat) (port : (op : Op) → C → S → Except F (Answer op) × S) (disturbed : D → S → S)
    (s : (K → S) × WorkerPool K Op Answer F A) (e : WorkerEvent K C D) : Option ((K → S) × WorkerPool K Op Answer F A) :=
  match e with
  | .take =>
    match s.2.waiting with
    | [] => none
    | job :: rest =>
      if s.2.running.length < limit then some (s.1, { s.2 with waiting := rest, running := job :: s.2.running })
      else none
  | .advance n choice =>
    match s.2.running[n]? with
    | none => none
    | some (_, .done result) =>
      some (s.1, { s.2 with running := s.2.running.eraseIdx n, results := s.2.results ++ [result] })
    | some (k, .call op next) =>
      let (answer, cell) := port op choice (s.1 k)
      some (Function.update s.1 k cell, { s.2 with running := s.2.running.set n (k, next answer) })
  | .disturb k d =>
    if s.2.running.any (·.1 = k) then none else some (Function.update s.1 k (disturbed d (s.1 k)), s.2)

/-- A call is settled as `ok` says. -/
def Settles (ok : (op : Op) → C → S → Prop) (s : (K → S) × WorkerPool K Op Answer F A) (e : WorkerEvent K C D) : Prop :=
  ∀ n choice k op next, e = .advance n choice → s.2.running[n]? = some (k, .call op next) → ok op choice (s.1 k)

def IsOver (pool : WorkerPool K Op Answer F A) : Bool := pool.waiting.isEmpty && pool.running.isEmpty

/-- Jobs that wait have cells they can start from, jobs that run will leave theirs as wanted, and so are the others. -/
structure Inv (port : (op : Op) → C → S → Except F (Answer op) × S) (ok : (op : Op) → C → S → Prop)
    (Ready Done : K → S → Prop) (cells : K → S) (pool : WorkerPool K Op Answer F A) : Prop where
  nodup : ((pool.waiting ++ pool.running).map Prod.fst).Nodup
  ready : ∀ job ∈ pool.waiting, Ready job.1 (cells job.1)
  ends : ∀ job ∈ pool.waiting, ∀ cell, Ready job.1 cell → job.2.Ends port ok (fun _ => Done job.1) cell
  running : ∀ job ∈ pool.running, job.2.Ends port ok (fun _ => Done job.1) (cells job.1)
  rest : ∀ k, k ∉ (pool.waiting ++ pool.running).map Prod.fst → Done k (cells k)

variable {limit : Nat} {port : (op : Op) → C → S → Except F (Answer op) × S} {disturbed : D → S → S}
  {ok : (op : Op) → C → S → Prop} {Ready Done : K → S → Prop} {s t : (K → S) × WorkerPool K Op Answer F A}
  {e : WorkerEvent K C D}

theorem Inv.take {cells : K → S} {job : K × Calls Op Answer F A} {waiting running : List (K × Calls Op Answer F A)}
    {results results' : List A} (h : Inv port ok Ready Done cells ⟨job :: waiting, running, results⟩) :
    Inv port ok Ready Done cells ⟨waiting, job :: running, results'⟩ := by
  have hperm : (waiting ++ job :: running).Perm (job :: waiting ++ running) := List.perm_middle
  constructor
  · exact (hperm.map Prod.fst).nodup_iff.2 h.nodup
  · exact fun other hother => h.ready other (List.mem_cons_of_mem _ hother)
  · exact fun other hother => h.ends other (List.mem_cons_of_mem _ hother)
  · intro other hother
    rcases List.mem_cons.1 hother with rfl | hother
    · exact h.ends other List.mem_cons_self _ (h.ready other List.mem_cons_self)
    · exact h.running other hother
  · intro k hk
    exact h.rest k fun hmem => hk ((hperm.map Prod.fst).mem_iff.2 hmem)

theorem Inv.finish {cells : K → S} {waiting running : List (K × Calls Op Answer F A)} {results results' : List A}
    {n : Nat} {k : K} {result : A} (h : Inv port ok Ready Done cells ⟨waiting, running, results⟩)
    (hn : running[n]? = some (k, .done result)) :
    Inv port ok Ready Done cells ⟨waiting, running.eraseIdx n, results'⟩ := by
  obtain ⟨hlt, hget⟩ := List.getElem?_eq_some_iff.1 hn
  have hsub : (waiting ++ running.eraseIdx n).Sublist (waiting ++ running) :=
    (List.eraseIdx_sublist running n).append_left waiting
  constructor
  · exact (hsub.map Prod.fst).nodup h.nodup
  · exact h.ready
  · exact h.ends
  · exact fun job hjob => h.running job (List.mem_of_mem_eraseIdx hjob)
  · intro other hother
    by_cases hk : other = k
    · subst hk
      exact h.running _ (List.mem_of_getElem? hn)
    · refine h.rest other fun hmem => hother ?_
      have hperm : ((k, Calls.done result) :: running.eraseIdx n).Perm running := hget ▸ List.getElem_cons_eraseIdx_perm hlt
      have hmem' := ((hperm.append_left waiting).map Prod.fst).mem_iff.2 hmem
      simp only [List.map_append, List.map_cons, List.mem_append, List.mem_cons, hk, false_or] at hmem' ⊢
      exact hmem'

/-- What a job does to its cell is of no concern to the others. -/
theorem Inv.settle [DecidableEq K] {cells : K → S} {cell : S} {waiting running : List (K × Calls Op Answer F A)} {results : List A}
    {n : Nat} {k : K} {x y : Calls Op Answer F A} (h : Inv port ok Ready Done cells ⟨waiting, running, results⟩)
    (hn : running[n]? = some (k, x)) (hy : y.Ends port ok (fun _ => Done k) cell) :
    Inv port ok Ready Done (Function.update cells k cell) ⟨waiting, running.set n (k, y), results⟩ := by
  obtain ⟨hlt, hget⟩ := List.getElem?_eq_some_iff.1 hn
  have hkeys : (waiting ++ running.set n (k, y)).map Prod.fst = (waiting ++ running).map Prod.fst := by
    have hfirst : (running.map Prod.fst)[n]? = some k := by rw [List.getElem?_map, hn, Option.map_some]
    rw [List.map_append, List.map_append, List.map_set]
    congr 1
    apply List.ext_getElem?
    intro i
    rw [List.getElem?_set]
    split_ifs with hi
    · subst hi
      exact hfirst.symm
    · subst hi
      exact absurd (List.length_map Prod.fst ▸ hlt) (by assumption)
    · rfl
  have hnodup : ((waiting ++ running.set n (k, y)).map Prod.fst).Nodup := hkeys ▸ h.nodup
  have hmem : (k, y) ∈ running.set n (k, y) := List.mem_set hlt _
  have hother : ∀ job ∈ waiting ++ running.set n (k, y), job ≠ (k, y) → job.1 ≠ k := by
    intro job hjob hne hk
    exact hne (List.inj_on_of_nodup_map hnodup hjob (List.mem_append_right _ hmem) hk)
  have hwaiting : ∀ job ∈ waiting, job.1 ≠ k := by
    rintro job hjob rfl
    have hfirst : (job.1, x) ∈ running := List.mem_of_getElem? hn
    have hdisjoint := List.disjoint_of_nodup_append (List.map_append ▸ h.nodup)
    exact hdisjoint (List.mem_map_of_mem hjob) (List.mem_map.2 ⟨_, hfirst, rfl⟩)
  constructor
  · exact hnodup
  · intro job hjob
    rw [Function.update_of_ne (hwaiting job hjob)]
    exact h.ready job hjob
  · exact h.ends
  · intro job hjob
    by_cases heq : job = (k, y)
    · subst heq
      rw [Function.update_self]
      exact hy
    · rw [Function.update_of_ne (hother job (List.mem_append_right _ hjob) heq)]
      rcases List.mem_or_eq_of_mem_set hjob with hjob | hjob
      · exact h.running job hjob
      · exact absurd hjob heq
  · intro other houter
    have houter' : other ∉ (waiting ++ running).map Prod.fst := hkeys ▸ houter
    have hne : other ≠ k := by
      rintro rfl
      exact houter' (List.mem_map.2 ⟨_, List.mem_append_right _ (List.mem_of_getElem? hn), rfl⟩)
    rw [Function.update_of_ne hne]
    exact h.rest other houter'

theorem Inv.disturb [DecidableEq K] {cells : K → S} {pool : WorkerPool K Op Answer F A} {k : K} {cell : S}
    (h : Inv port ok Ready Done cells pool) (hk : ∀ job ∈ pool.running, job.1 ≠ k)
    (hready : Ready k (cells k) → Ready k cell) (hdone : Done k (cells k) → Done k cell) :
    Inv port ok Ready Done (Function.update cells k cell) pool := by
  constructor
  · exact h.nodup
  · intro job hjob
    by_cases hkey : job.1 = k
    · subst hkey
      rw [Function.update_self]
      exact hready (h.ready job hjob)
    · rw [Function.update_of_ne hkey]
      exact h.ready job hjob
  · exact h.ends
  · intro job hjob
    rw [Function.update_of_ne (hk job hjob)]
    exact h.running job hjob
  · intro other hmem
    by_cases hkey : other = k
    · subst hkey
      rw [Function.update_self]
      exact hdone (h.rest other hmem)
    · rw [Function.update_of_ne hkey]
      exact h.rest other hmem

theorem Inv.start {cells : K → S} {waiting : List (K × Calls Op Answer F A)} (hnodup : (waiting.map Prod.fst).Nodup)
    (hready : ∀ job ∈ waiting, Ready job.1 (cells job.1))
    (hends : ∀ job ∈ waiting, ∀ cell, Ready job.1 cell → job.2.Ends port ok (fun _ => Done job.1) cell)
    (hrest : ∀ k, k ∉ waiting.map Prod.fst → Done k (cells k)) :
    Inv port ok Ready Done cells { waiting } := by
  refine ⟨by simpa using hnodup, hready, hends, fun job hjob => absurd hjob List.not_mem_nil, fun k hk => ?_⟩
  exact hrest k (by simpa using hk)

/-- The workers keep to what was said of the jobs, as long as disturbances do. -/
theorem Inv.step [DecidableEq K] (h : Inv port ok Ready Done s.1 s.2) (hok : Settles ok s e)
    (hready : ∀ k d, e = .disturb k d → Ready k (s.1 k) → Ready k (disturbed d (s.1 k)))
    (hdone : ∀ k d, e = .disturb k d → Done k (s.1 k) → Done k (disturbed d (s.1 k)))
    (hstep : WorkerPool.step limit port disturbed s e = some t) : Inv port ok Ready Done t.1 t.2 := by
  obtain ⟨cells, waiting, running, results⟩ := s
  cases e with
  | take =>
    cases waiting with
    | nil => cases hstep
    | cons job rest =>
      simp only [WorkerPool.step] at hstep
      split_ifs at hstep
      obtain rfl := Option.some.inj hstep
      exact h.take
  | advance n choice =>
    simp only [WorkerPool.step] at hstep
    split at hstep
    · cases hstep
    · rename_i k result hn
      obtain rfl := Option.some.inj hstep
      exact h.finish hn
    · rename_i k op next hn
      obtain rfl := Option.some.inj hstep
      exact h.settle hn (h.running _ (List.mem_of_getElem? hn) choice (hok n choice k op next rfl hn))
  | disturb k d =>
    simp only [WorkerPool.step] at hstep
    split_ifs at hstep with hany
    obtain rfl := Option.some.inj hstep
    refine h.disturb (fun job hjob hk => hany ?_) (hready k d rfl) (hdone k d rfl)
    exact List.any_eq_true.2 ⟨job, hjob, decide_eq_true hk⟩

/-- Where nothing is left to do, every cell is as wanted. -/
theorem Inv.done {cells : K → S} {pool : WorkerPool K Op Answer F A} (h : Inv port ok Ready Done cells pool)
    (hover : pool.IsOver = true) (k : K) : Done k (cells k) := by
  simp only [IsOver, Bool.and_eq_true, List.isEmpty_iff] at hover
  exact h.rest k (by simp [hover])

end WorkerPool

end Mindwtr.Lib
