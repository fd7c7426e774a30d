import Mindwtr.Entity.Projection

/-!
# The shared projection budget

What `expandCalendarRecurringTaskSetInRange` makes of its budget. The one thing it needs of a series' own expansion is
that it lists the occurrences in their order, up to the number it is asked for (`ExpandsInOrder`). Each round keeps the
shares level: no share is more than one above an active one (`Pool.level`), and what the shares have emitted stays in
the budget. A round raises an allocation, so the rounds end (`waterFill_pool`).
-/

namespace Mindwtr

open Mindwtr.Js Mindwtr.Lib Mindwtr.Store Mindwtr.Sync

section
variable {ε α β : Type}

theorem mapM_eq_ok {f : α → Except ε β} {l : List α} {l' : List β} (h : l.mapM f = .ok l') :
    List.Forall₂ (fun a b => f a = .ok b) l l' := by
  induction l generalizing l' with
  | nil =>
    obtain rfl := Except.ok.inj h
    exact .nil
  | cons a l ih =>
    rw [List.mapM_cons] at h
    obtain ⟨b, hb, h⟩ := bind_eq_ok h
    obtain ⟨bs, hbs, h⟩ := bind_eq_ok h
    obtain rfl := Except.ok.inj h
    exact .cons hb (ih hbs)

theorem mapM_eq_error {f : α → Except ε β} {l : List α} {e : ε} (h : l.mapM f = .error e) :
    ∃ a ∈ l, f a = .error e := by
  induction l with
  | nil => cases h
  | cons a l ih =>
    rw [List.mapM_cons] at h
    cases ha : f a with
    | error e' =>
      rw [ha] at h
      cases h
      exact ⟨a, by simp, ha⟩
    | ok b =>
      rw [ha] at h
      cases hrest : l.mapM f with
      | error e' =>
        rw [hrest] at h
        cases h
        obtain ⟨a', hmem, ha'⟩ := ih hrest
        exact ⟨a', by simp [hmem], ha'⟩
      | ok bs => rw [hrest] at h; cases h

end

/-- A series' expansion shows the task and then its occurrences, the same ones in the same order whatever the number
asked for. -/
structure ExpandsInOrder (expansionOf : Task → Nat → Except JsError (List Task)) : Prop where
  bounded : ∀ {task n list}, expansionOf task n = .ok list → 0 < list.length ∧ list.length ≤ n + 1
  take : ∀ {task m n list}, m ≤ n → expansionOf task n = .ok list → expansionOf task m = .ok (list.take (m + 1))
  exhausted : ∀ {task m n list}, m ≤ n → expansionOf task m = .ok list → list.length ≤ m →
    expansionOf task n = .ok list

/-! ### One series -/

section
variable [LocalCalendar]

omit [LocalCalendar] in
theorem rangeProjectionCap_natCast (n : Nat) : rangeProjectionCap n = min 62 n := by
  have h : min (calendarRangeProjectionPerTaskCap : Rat) (n : Rat) = ((min 62 n : Nat) : Rat) := by
    push_cast
    rfl
  rw [rangeProjectionCap, h, Int.ceil_natCast, Int.toNat_natCast]

theorem expandsInOrder (range : CalendarRecurrenceRange) (projectedAtIso : String) (clock : Int) :
    ExpandsInOrder fun task n => expandCalendarRecurringTasksInRange task range projectedAtIso clock n := by
  -- either the number asked for plays no part, or it is the bound of a walk
  have hforms : ∀ task, (∃ result, (∀ n : Nat,
        expandCalendarRecurringTasksInRange task range projectedAtIso clock n = result) ∧
        ∀ list, result = .ok list → list.length = 1) ∨
      ∃ current, ∃ w : RangeWalk, ∃ s, ∀ n : Nat,
        expandCalendarRecurringTasksInRange task range projectedAtIso clock n =
          (walk w.step maxRangeProjectionIterations s (min 62 n)).map (current :: ·) := by
    intro task
    unfold expandCalendarRecurringTasksInRange
    cases hcurrent : createCurrentRecurringCalendarTask task projectedAtIso clock with
    | error e => exact .inl ⟨.error e, fun n => rfl, fun list h => by cases h⟩
    | ok current =>
      by_cases hplain : (!truthy task.showFutureRecurrence || isProjectedRecurringTask task || truthy task.deletedAt ||
          !isTaskActionable task) = true
      · refine .inl ⟨.ok [current.getD task], fun n => ?_, fun list h => ?_⟩
        · simp only [hplain]
          rfl
        · rw [← Except.ok.inj h]
          rfl
      · cases hrule : getRecurrenceRule task.recurrence with
        | none =>
          refine .inl ⟨.ok [current.getD task], fun n => ?_, fun list h => ?_⟩
          · simp only [hplain]
            rfl
          · rw [← Except.ok.inj h]
            rfl
        | some rule =>
          cases hend : parseDate (some range.endIso) with
          | none =>
            refine .inl ⟨.ok [current.getD task], fun n => ?_, fun list h => ?_⟩
            · simp only [hplain]
              rfl
            · rw [← Except.ok.inj h]
              rfl
          | some rangeEnd =>
            refine .inr ⟨current.getD task,
              rangeWalk task (current.getD task) rule (parseDate (some range.startIso)) rangeEnd projectedAtIso clock,
              ⟨scheduleDates (current.getD task), 0⟩, fun n => ?_⟩
            simp only [hplain, rangeProjectionCap_natCast]
            rfl
  constructor
  · intro task n list h
    rcases hforms task with ⟨result, hresult, hone⟩ | ⟨current, w, s, hwalk⟩
    · rw [hone list ((hresult n).symm.trans h)]
      omega
    · simp only [hwalk] at h
      obtain ⟨items, hitems, rfl⟩ := map_eq_ok h
      have hlength := length_walk_le hitems
      rw [List.length_cons]
      omega
  · intro task m n list hle h
    rcases hforms task with ⟨result, hresult, hone⟩ | ⟨current, w, s, hwalk⟩
    · have hlist := hone list ((hresult n).symm.trans h)
      rw [List.take_of_length_le (by omega)]
      exact (hresult m).trans ((hresult n).symm.trans h)
    · simp only [hwalk] at h ⊢
      obtain ⟨items, hitems, rfl⟩ := map_eq_ok h
      have hlength := length_walk_le hitems
      rw [walk_take (show min 62 m ≤ min 62 n by omega) hitems, List.take_succ_cons]
      have htake : items.take (min 62 m) = items.take m := by
        by_cases hm : m ≤ 62
        · rw [Nat.min_eq_right hm]
        · rw [List.take_of_length_le (by omega), List.take_of_length_le (by omega)]
      rw [htake]
      rfl
  · intro task m n list hle h hlength
    rcases hforms task with ⟨result, hresult, hone⟩ | ⟨current, w, s, hwalk⟩
    · exact (hresult n).trans ((hresult m).symm.trans h)
    · simp only [hwalk] at h ⊢
      obtain ⟨items, hitems, rfl⟩ := map_eq_ok h
      have hbound := length_walk_le hitems
      rw [List.length_cons] at hlength
      by_cases hlt : items.length < min 62 m
      · rw [walk_of_length_lt (show min 62 m ≤ min 62 n by omega) hlt hitems]
        rfl
      · have hcap : min 62 n = min 62 m := by omega
        rw [hcap, hitems]
        rfl

end

/-! ### The pool of shares -/

section
variable {expansionOf : Task → Nat → Except JsError (List Task)} {boundedTotalCap perTaskCap : Nat}

/-- A share and its expansion. An inactive share has run dry or is full. -/
structure ShareOk (expansionOf : Task → Nat → Except JsError (List Task)) (perTaskCap : Nat) (share : ProjectionShare) :
    Prop where
  unexpanded : share.allocation = 0 → share.expansion = [share.task]
  expanded : share.allocation ≠ 0 → expansionOf share.task share.allocation = .ok share.expansion
  bounded : share.allocation ≤ perTaskCap
  active : share.active = true → share.emitted = share.allocation ∧ (share.allocation < perTaskCap ∨ perTaskCap = 0)
  inactive : share.active = false → share.emitted < share.allocation ∨ share.allocation = perTaskCap

/-- What every round keeps. -/
structure Pool (expansionOf : Task → Nat → Except JsError (List Task)) (boundedTotalCap perTaskCap : Nat)
    (shares : List ProjectionShare) : Prop where
  ok : ∀ share ∈ shares, ShareOk expansionOf perTaskCap share
  level : ∀ low ∈ shares, low.active = true → ∀ share ∈ shares, share.allocation ≤ low.allocation + 1
  total : projectedCount shares ≤ boundedTotalCap

theorem ShareOk.emitted_le (hexp : ExpandsInOrder expansionOf) {share : ProjectionShare}
    (h : ShareOk expansionOf perTaskCap share) : share.emitted ≤ share.allocation := by
  by_cases hzero : share.allocation = 0
  · rw [ProjectionShare.emitted, h.unexpanded hzero, hzero]
    rfl
  · have hlength := (hexp.bounded (h.expanded hzero)).2
    rw [ProjectionShare.emitted]
    omega

/-- Expanding an active share makes its entries agree with its allocation. -/
theorem expand_shareOk (hexp : ExpandsInOrder expansionOf) {share out : ProjectionShare} (hactive : share.active = true)
    (hbounded : share.allocation ≤ perTaskCap) (h : share.expand expansionOf perTaskCap = .ok out) :
    ShareOk expansionOf perTaskCap out ∧ out.task = share.task ∧ out.allocation = share.allocation := by
  unfold ProjectionShare.expand at h
  by_cases hzero : share.allocation = 0
  · rw [if_pos hzero] at h
    obtain rfl := Except.ok.inj h
    refine ⟨⟨fun _ => rfl, fun hne => absurd hzero hne, hbounded, fun _ => ⟨?_, ?_⟩, fun hin => ?_⟩, rfl, rfl⟩
    · simp [ProjectionShare.emitted, hzero]
    · simp only [hzero]
      omega
    · simp only [hactive] at hin
      cases hin
  · rw [if_neg hzero] at h
    obtain ⟨expansion, hexpansion, h⟩ := bind_eq_ok h
    obtain rfl := Except.ok.inj h
    have hlength := (hexp.bounded hexpansion).2
    refine ⟨⟨fun heq => absurd heq hzero, fun _ => hexpansion, hbounded, fun hon => ?_, fun hoff => ?_⟩, rfl, rfl⟩
    · simp only [hactive, Bool.true_and, Bool.not_eq_true', Bool.or_eq_false_iff, decide_eq_false_iff_not, not_lt,
        not_le] at hon
      simp only [ProjectionShare.emitted]
      omega
    · simp only [hactive, Bool.true_and, Bool.not_eq_false', Bool.or_eq_true, decide_eq_true_eq] at hoff
      simp only [ProjectionShare.emitted]
      omega

theorem expansionOf_error {share : ProjectionShare} {e : JsError} (h : share.expand expansionOf perTaskCap = .error e) :
    expansionOf share.task share.allocation = .error e := by
  unfold ProjectionShare.expand at h
  split at h
  · cases h
  · cases hone : expansionOf share.task share.allocation with
    | error e' =>
      rw [hone] at h
      cases h
      rfl
    | ok expansion =>
      rw [hone] at h
      cases h

/-! ### Raising the lowest shares -/

/-- An entry of the raised list: the share itself, or an active share of the lowest level, raised and marked. -/
def Raised (minimum increase : Nat) (share : ProjectionShare) (entry : ProjectionShare × Bool) : Prop :=
  entry = (share, false) ∨
    share.active = true ∧ share.allocation = minimum ∧ entry = ({ share with allocation := minimum + increase }, true)

theorem raiseLowest_raised (minimum increase n : Nat) (shares : List ProjectionShare) :
    List.Forall₂ (Raised minimum increase) shares (raiseLowest minimum increase n shares) := by
  induction shares generalizing n with
  | nil => exact .nil
  | cons share rest ih =>
    rw [raiseLowest]
    split_ifs with hraise
    · exact .cons (.inr ⟨hraise.1, hraise.2.1, rfl⟩) (ih _)
    · exact .cons (.inl rfl) (ih _)

theorem countP_raiseLowest_le (minimum increase n : Nat) (shares : List ProjectionShare) :
    (raiseLowest minimum increase n shares).countP (·.2) ≤ n := by
  induction shares generalizing n with
  | nil => simp [raiseLowest]
  | cons share rest ih =>
    rw [raiseLowest]
    split_ifs with hraise
    · have hrest := ih (n - 1)
      simp only [List.countP_cons, if_true]
      omega
    · simpa using ih n

theorem activeLevels_cons (share : ProjectionShare) (rest : List ProjectionShare) :
    activeLevels (share :: rest) =
      if share.active = true then share.allocation :: activeLevels rest else activeLevels rest := by
  unfold activeLevels
  rw [List.filter_cons]
  split_ifs
  · rfl
  · rfl

theorem mem_activeLevels {shares : List ProjectionShare} {level : Nat} :
    level ∈ activeLevels shares ↔ ∃ share ∈ shares, share.active = true ∧ share.allocation = level := by
  simp [activeLevels, and_assoc]

theorem countP_raiseLowest_pos {minimum increase n : Nat} {shares : List ProjectionShare} (hn : 0 < n)
    (hmem : minimum ∈ activeLevels shares) : 0 < (raiseLowest minimum increase n shares).countP (·.2) := by
  induction shares with
  | nil => simp [activeLevels] at hmem
  | cons share rest ih =>
    rw [raiseLowest]
    split_ifs with hraise
    · simp
    · obtain ⟨other, hother, hactive, hlevel⟩ := mem_activeLevels.1 hmem
      rcases List.mem_cons.1 hother with rfl | hother
      · exact absurd ⟨hactive, hlevel, hn⟩ hraise
      · simpa using ih (mem_activeLevels.2 ⟨other, hother, hactive, hlevel⟩)

/-- With room for all of the lowest level, none of it is left behind. -/
theorem raiseLowest_all {minimum increase n : Nat} {shares : List ProjectionShare}
    (hn : (activeLevels shares).count minimum ≤ n) {entry : ProjectionShare × Bool}
    (hmem : entry ∈ raiseLowest minimum increase n shares) (hmark : entry.2 = false) :
    ¬ (entry.1.active = true ∧ entry.1.allocation = minimum) := by
  induction shares generalizing n with
  | nil => simp [raiseLowest] at hmem
  | cons share rest ih =>
    rw [raiseLowest] at hmem
    rw [activeLevels_cons] at hn
    split_ifs at hmem with hraise
    · rcases List.mem_cons.1 hmem with rfl | hmem
      · simp at hmark
      · refine ih ?_ hmem
        rw [if_pos hraise.1, hraise.2.1, List.count_cons_self] at hn
        omega
    · rcases List.mem_cons.1 hmem with rfl | hmem
      · rintro ⟨hactive, hlevel⟩
        simp only at hactive hlevel
        rw [if_pos hactive, hlevel, List.count_cons_self] at hn
        exact hraise ⟨hactive, hlevel, by omega⟩
      · refine ih ?_ hmem
        split_ifs at hn
        · exact (List.count_le_count_cons).trans hn
        · exact hn

/-- How a round raises: within the remainder and the bound, and past no active share by more than one. -/
structure Pours (perTaskCap remainder minimum : Nat) (shares : List ProjectionShare)
    (poured : List (ProjectionShare × Bool)) (increase : Nat) : Prop where
  raised : List.Forall₂ (Raised minimum increase) shares poured
  positive : 0 < increase
  some : 0 < poured.countP (·.2)
  remainder : increase * poured.countP (·.2) ≤ remainder
  bounded : minimum + increase ≤ perTaskCap
  left : ∀ entry ∈ poured, entry.2 = false → entry.1.active = true → minimum + increase ≤ entry.1.allocation + 1

theorem mem_of_raised {minimum increase : Nat} {shares : List ProjectionShare} {poured : List (ProjectionShare × Bool)}
    (h : List.Forall₂ (Raised minimum increase) shares poured) {entry : ProjectionShare × Bool} (hmem : entry ∈ poured) :
    ∃ share ∈ shares, Raised minimum increase share entry := by
  induction h with
  | nil => cases hmem
  | cons hraised _ ih =>
    rcases List.mem_cons.1 hmem with rfl | hmem
    · exact ⟨_, by simp, hraised⟩
    · obtain ⟨share, hshare, hr⟩ := ih hmem
      exact ⟨share, by simp [hshare], hr⟩

theorem pour_pours {remainder minimum : Nat} {shares : List ProjectionShare} (hremainder : 0 < remainder)
    (hmem : minimum ∈ activeLevels shares) (hlowest : ∀ level ∈ activeLevels shares, minimum ≤ level)
    (hroom : minimum < perTaskCap) :
    ∃ increase, Pours perTaskCap remainder minimum shares (pour perTaskCap remainder minimum shares) increase := by
  have hcount : 0 < (activeLevels shares).count minimum := List.count_pos_iff.2 hmem
  unfold pour
  dsimp only
  generalize hnext : min perTaskCap ((((activeLevels shares).filter (minimum < ·)).min?).getD perTaskCap) = nextLevel
  have habove : ∀ level ∈ activeLevels shares, minimum < level → nextLevel ≤ level := by
    intro level hlevel hlt
    have hfilter : level ∈ (activeLevels shares).filter (minimum < ·) := by simp [hlevel, hlt]
    obtain ⟨least, hleast⟩ : ∃ least, ((activeLevels shares).filter (minimum < ·)).min? = some least :=
      Option.isSome_iff_exists.1 (by
        rw [List.isSome_min?_iff]
        exact List.ne_nil_of_mem hfilter)
    have hle := (List.min?_eq_some_iff.1 hleast).2 level hfilter
    rw [hleast] at hnext
    simp only [Option.getD_some] at hnext
    omega
  have hcap : nextLevel ≤ perTaskCap := by omega
  split_ifs with hfull
  · generalize hincrease : min (nextLevel - minimum) (remainder / (activeLevels shares).count minimum) = increase at hfull ⊢
    have hraised := raiseLowest_raised minimum increase ((activeLevels shares).count minimum) shares
    refine ⟨increase, hraised, hfull, countP_raiseLowest_pos hcount hmem, ?_, by omega, ?_⟩
    · have hdiv : increase * (activeLevels shares).count minimum ≤ remainder := by
        rw [Nat.mul_comm]
        exact (Nat.mul_le_mul_left _ (by omega)).trans (Nat.mul_div_le _ _)
      exact (Nat.mul_le_mul_left _ (countP_raiseLowest_le _ _ _ _)).trans hdiv
    · intro entry hentry hmark hactive
      have hnot := raiseLowest_all le_rfl hentry hmark
      obtain ⟨share, hshare, hr⟩ := mem_of_raised hraised hentry
      rcases hr with rfl | ⟨-, -, rfl⟩
      · have hlevel := mem_activeLevels.2 ⟨share, hshare, hactive, rfl⟩
        have hmin := hlowest _ hlevel
        have hlt : minimum < share.allocation := lt_of_le_of_ne hmin fun heq => hnot ⟨hactive, heq.symm⟩
        have hnextLe := habove _ hlevel hlt
        show minimum + increase ≤ share.allocation + 1
        omega
      · cases hmark
  · have hraised := raiseLowest_raised minimum 1 remainder shares
    refine ⟨1, hraised, by omega, countP_raiseLowest_pos hremainder hmem, ?_, by omega, ?_⟩
    · simpa using countP_raiseLowest_le minimum 1 remainder shares
    · intro entry hentry hmark hactive
      obtain ⟨share, hshare, hr⟩ := mem_of_raised hraised hentry
      rcases hr with rfl | ⟨-, -, rfl⟩
      · have hmin := hlowest _ (mem_activeLevels.2 ⟨share, hshare, hactive, rfl⟩)
        show minimum + 1 ≤ share.allocation + 1
        omega
      · cases hmark

/-! ### One round -/

/-- How far the allocations are from the bound of a series. -/
def allocationRoom (perTaskCap : Nat) (shares : List ProjectionShare) : Nat :=
  (shares.map fun share => perTaskCap - share.allocation).sum

/-- What a round leaves of a share. -/
def RoundOf (expansionOf : Task → Nat → Except JsError (List Task)) (perTaskCap minimum increase : Nat)
    (poured : List (ProjectionShare × Bool)) (shares : List ProjectionShare) (out : ProjectionShare) : Prop :=
  (out, false) ∈ poured ∧ out ∈ shares ∨ ShareOk expansionOf perTaskCap out ∧ out.allocation = minimum + increase

/-- The lists before and after the round, entry by entry. -/
structure RoundLists (expansionOf : Task → Nat → Except JsError (List Task)) (perTaskCap minimum increase : Nat)
    (shares : List ProjectionShare) (poured : List (ProjectionShare × Bool)) (out : List ProjectionShare) : Prop where
  tasks : out.map (·.task) = shares.map (·.task)
  emitted : projectedCount out ≤ projectedCount shares + increase * poured.countP (·.2)
  room : allocationRoom perTaskCap out + increase * poured.countP (·.2) ≤ allocationRoom perTaskCap shares
  entries : ∀ share ∈ out, RoundOf expansionOf perTaskCap minimum increase poured shares share

theorem roundLists_of_expanded (hexp : ExpandsInOrder expansionOf) {minimum increase : Nat} {shares out : List ProjectionShare}
    {poured : List (ProjectionShare × Bool)} (hraised : List.Forall₂ (Raised minimum increase) shares poured)
    (hok : ∀ share ∈ shares, ShareOk expansionOf perTaskCap share) (hbounded : minimum + increase ≤ perTaskCap)
    (h : expandChanged expansionOf perTaskCap poured = .ok out) :
    RoundLists expansionOf perTaskCap minimum increase shares poured out := by
  have hall := mapM_eq_ok h
  clear h
  induction hraised generalizing out with
  | nil =>
    cases hall
    exact ⟨rfl, by simp [projectedCount], by simp [allocationRoom], by simp⟩
  | @cons share entry shares poured hentry _ ih =>
    cases hall with
    | @cons _ first _ rest hfirst hrest =>
    obtain ⟨htasks, hemitted, hroom, hentries⟩ := ih (fun s hs => hok s (by simp [hs])) hrest
    have hshare := hok share (by simp)
    have hweaken : ∀ s ∈ rest, RoundOf expansionOf perTaskCap minimum increase (entry :: poured) (share :: shares) s := by
      intro s hs
      rcases hentries s hs with ⟨hpoured, hmem⟩ | hnew
      · exact .inl ⟨by simp [hpoured], by simp [hmem]⟩
      · exact .inr hnew
    simp only [projectedCount, allocationRoom] at hemitted hroom
    rcases hentry with rfl | ⟨hactive, hlevel, rfl⟩
    · obtain rfl := Except.ok.inj hfirst
      have hcount : ((share, false) :: poured).countP (·.2) = poured.countP (·.2) := by simp
      refine ⟨by simp [htasks], ?_, ?_, ?_⟩
      · simp only [projectedCount, List.map_cons, List.sum_cons, hcount]
        omega
      · simp only [allocationRoom, List.map_cons, List.sum_cons, hcount]
        omega
      · intro s hs
        rcases List.mem_cons.1 hs with rfl | hs
        · exact .inl ⟨by simp, by simp⟩
        · exact hweaken s hs
    · obtain ⟨hnew, htask, hallocation⟩ := @expand_shareOk _ _ hexp { share with allocation := minimum + increase }
        first hactive hbounded hfirst
      have hnewEmitted := hnew.emitted_le hexp
      have hold := (hshare.active hactive).1
      simp only at htask hallocation
      have hcount : increase * (({ share with allocation := minimum + increase }, true) :: poured).countP (·.2) =
          increase * poured.countP (·.2) + increase := by
        rw [List.countP_cons_of_pos rfl]
        ring
      refine ⟨by simp [htasks, htask], ?_, ?_, ?_⟩
      · simp only [projectedCount, List.map_cons, List.sum_cons, hcount]
        omega
      · simp only [allocationRoom, List.map_cons, List.sum_cons, hcount, hallocation]
        omega
      · intro s hs
        rcases List.mem_cons.1 hs with rfl | hs
        · exact .inr ⟨hnew, hallocation⟩
        · exact hweaken s hs

/-- A round keeps the pool and uses up room. -/
theorem expandChanged_pool (hexp : ExpandsInOrder expansionOf) {minimum increase : Nat} {shares out : List ProjectionShare}
    {poured : List (ProjectionShare × Bool)} (hpool : Pool expansionOf boundedTotalCap perTaskCap shares)
    (hlowest : minimum ∈ activeLevels shares)
    (hpours : Pours perTaskCap (boundedTotalCap - projectedCount shares) minimum shares poured increase)
    (h : expandChanged expansionOf perTaskCap poured = .ok out) :
    Pool expansionOf boundedTotalCap perTaskCap out ∧ out.map (·.task) = shares.map (·.task) ∧
      allocationRoom perTaskCap out < allocationRoom perTaskCap shares := by
  obtain ⟨htasks, hemitted, hroom, hentries⟩ :=
    roundLists_of_expanded hexp hpours.raised hpool.ok hpours.bounded h
  obtain ⟨lowest, hlow, hlowActive, hlowLevel⟩ := mem_activeLevels.1 hlowest
  have hused := Nat.mul_pos hpours.positive hpours.some
  have hremainder := hpours.remainder
  have htotal := hpool.total
  refine ⟨⟨?_, ?_, by omega⟩, htasks, by omega⟩
  · intro share hshare
    rcases hentries share hshare with ⟨_, hmem⟩ | ⟨hnew, _⟩
    · exact hpool.ok share hmem
    · exact hnew
  · intro low hlowMem hactive share hshare
    have hpositive := hpours.positive
    rcases hentries share hshare with ⟨_, hmem⟩ | ⟨_, hlevel⟩
    · rcases hentries low hlowMem with ⟨_, hlowOld⟩ | ⟨_, hlowNew⟩
      · exact hpool.level low hlowOld hactive share hmem
      · have hold := hpool.level lowest hlow hlowActive share hmem
        omega
    · rcases hentries low hlowMem with ⟨hpoured, _⟩ | ⟨_, hlowNew⟩
      · have hleft := hpours.left _ hpoured rfl hactive
        simp only at hleft
        omega
      · omega

/-- The rounds end, and what is left then is either nothing of the budget or no series that could take more. A failure is
that of a series. -/
theorem waterFill_pool (hexp : ExpandsInOrder expansionOf) (hempty : perTaskCap = 0 → boundedTotalCap = 0) {fuel : Nat}
    {shares : List ProjectionShare} (hpool : Pool expansionOf boundedTotalCap perTaskCap shares)
    (hfuel : allocationRoom perTaskCap shares < fuel) :
    (∀ out, waterFill expansionOf boundedTotalCap perTaskCap fuel shares = .ok out →
      Pool expansionOf boundedTotalCap perTaskCap out ∧ out.map (·.task) = shares.map (·.task) ∧
        (projectedCount out = boundedTotalCap ∨ ∀ share ∈ out, share.active = false)) ∧
    ∀ e, waterFill expansionOf boundedTotalCap perTaskCap fuel shares = .error e →
      ∃ share ∈ shares, ∃ n ≤ perTaskCap, expansionOf share.task n = .error e := by
  induction fuel generalizing shares with
  | zero => omega
  | succ fuel ih =>
    rw [waterFill]
    cases hminimum : (activeLevels shares).min? with
    | none =>
      refine ⟨fun out h => ?_, fun e h => by cases h⟩
      obtain rfl := Except.ok.inj h
      refine ⟨hpool, rfl, .inr fun share hshare => ?_⟩
      rw [List.min?_eq_none_iff] at hminimum
      by_contra hactive
      have hmem : share.allocation ∈ activeLevels shares :=
        mem_activeLevels.2 ⟨share, hshare, by simpa using hactive, rfl⟩
      rw [hminimum] at hmem
      cases hmem
    | some minimum =>
      obtain ⟨hmem, hlowest⟩ := List.min?_eq_some_iff.1 hminimum
      by_cases hspent : boundedTotalCap - projectedCount shares = 0
      · simp only [hspent, if_true]
        refine ⟨fun out h => ?_, fun e h => by cases h⟩
        obtain rfl := Except.ok.inj h
        have htotal := hpool.total
        exact ⟨hpool, rfl, .inl (by omega)⟩
      · obtain ⟨lowest, hlow, hactive, hlevel⟩ := mem_activeLevels.1 hmem
        have hroom : minimum < perTaskCap := by
          rcases ((hpool.ok lowest hlow).active hactive).2 with hlt | hzero
          · omega
          · have hcap := hempty hzero
            omega
        obtain ⟨increase, hpours⟩ := pour_pours
          (show 0 < boundedTotalCap - projectedCount shares by omega) hmem hlowest hroom
        have hchanged : (pour perTaskCap (boundedTotalCap - projectedCount shares) minimum shares).all (!·.2) = false := by
          obtain ⟨entry, hentry, hmark⟩ := List.countP_pos_iff.1 hpours.some
          rw [List.all_eq_false]
          exact ⟨entry, hentry, by simp [hmark]⟩
        simp only [hspent, hchanged, if_false, Bool.false_eq_true]
        cases hround : expandChanged expansionOf perTaskCap
            (pour perTaskCap (boundedTotalCap - projectedCount shares) minimum shares) with
        | error e =>
          refine ⟨fun out h => (by cases h), fun e' h => ?_⟩
          obtain rfl := Except.error.inj h
          obtain ⟨entry, hentry, hfail⟩ := mapM_eq_error hround
          obtain ⟨share, hshare, hr⟩ := mem_of_raised hpours.raised hentry
          rcases hr with rfl | ⟨-, -, rfl⟩
          · cases hfail
          · exact ⟨share, hshare, minimum + increase, hpours.bounded,
              @expansionOf_error expansionOf perTaskCap { share with allocation := minimum + increase } e hfail⟩
        | ok round =>
          obtain ⟨hnext, htasks, hless⟩ := expandChanged_pool hexp hpool hmem hpours hround
          obtain ⟨hreturns, hfails⟩ := ih hnext (by omega)
          refine ⟨fun out h => ?_, fun e h => ?_⟩
          · obtain ⟨hout, houtTasks, hend⟩ := hreturns out h
            exact ⟨hout, houtTasks.trans htasks, hend⟩
          · obtain ⟨share, hshare, n, hn, hfail⟩ := hfails e h
            have htask : share.task ∈ shares.map (·.task) := by
              rw [← htasks]
              exact List.mem_map_of_mem hshare
            obtain ⟨old, hold, hsame⟩ := List.mem_map.1 htask
            exact ⟨old, hold, n, hn, by rw [hsame]; exact hfail⟩

/-! ### The first shares -/

theorem allocate_shares {baseShare remainder : Nat} {tasks : List Task} (hbase : baseShare ≤ perTaskCap) :
    (allocate baseShare perTaskCap remainder tasks).map (·.task) = tasks ∧
      ((allocate baseShare perTaskCap remainder tasks).map (·.allocation)).sum ≤ baseShare * tasks.length + remainder ∧
      ∀ share ∈ allocate baseShare perTaskCap remainder tasks,
        share.active = true ∧ baseShare ≤ share.allocation ∧ share.allocation ≤ baseShare + 1 ∧
          share.allocation ≤ perTaskCap := by
  induction tasks generalizing remainder with
  | nil => simp [allocate]
  | cons task rest ih =>
    rw [allocate]
    generalize hextra : (if baseShare < perTaskCap ∧ 0 < remainder then 1 else 0) = extra
    have hextraLe : extra ≤ remainder ∧ extra ≤ 1 ∧ baseShare + extra ≤ perTaskCap := by
      split_ifs at hextra <;> omega
    obtain ⟨htasks, hsum, hall⟩ := @ih (remainder - extra)
    refine ⟨by simp [htasks], ?_, ?_⟩
    · simp only [List.map_cons, List.sum_cons, List.length_cons]
      have hmul : baseShare * (rest.length + 1) = baseShare * rest.length + baseShare := by ring
      omega
    · intro share hshare
      rcases List.mem_cons.1 hshare with rfl | hshare
      · exact ⟨rfl, by simp, by simpa using hextraLe.2.1, hextraLe.2.2⟩
      · exact hall share hshare

/-- The first expansion, share by share. -/
theorem expandAll_shares (hexp : ExpandsInOrder expansionOf) {shares out : List ProjectionShare}
    (hactive : ∀ share ∈ shares, share.active = true) (hbounded : ∀ share ∈ shares, share.allocation ≤ perTaskCap)
    (h : shares.mapM (·.expand expansionOf perTaskCap) = .ok out) :
    out.map (·.task) = shares.map (·.task) ∧ out.map (·.allocation) = shares.map (·.allocation) ∧
      ∀ share ∈ out, ShareOk expansionOf perTaskCap share := by
  have hall := mapM_eq_ok h
  clear h
  induction hall with
  | nil => exact ⟨rfl, rfl, by simp⟩
  | @cons share first shares rest hfirst _ ih =>
    obtain ⟨htasks, hallocations, hok⟩ := ih (fun s hs => hactive s (by simp [hs])) (fun s hs => hbounded s (by simp [hs]))
    obtain ⟨hnew, htask, hallocation⟩ := expand_shareOk hexp (hactive share (by simp)) (hbounded share (by simp)) hfirst
    refine ⟨by simp [htasks, htask], by simp [hallocations, hallocation], ?_⟩
    intro s hs
    rcases List.mem_cons.1 hs with rfl | hs
    · exact hnew
    · exact hok s hs

theorem projectedCount_le_allocations (hexp : ExpandsInOrder expansionOf) {shares : List ProjectionShare}
    (hok : ∀ share ∈ shares, ShareOk expansionOf perTaskCap share) :
    projectedCount shares ≤ (shares.map (·.allocation)).sum := by
  induction shares with
  | nil => simp [projectedCount]
  | cons share rest ih =>
    have hshare := (hok share (by simp)).emitted_le hexp
    have hrest := ih fun s hs => hok s (by simp [hs])
    simp only [projectedCount, List.map_cons, List.sum_cons] at hrest ⊢
    omega

theorem allocationRoom_le (perTaskCap : Nat) (shares : List ProjectionShare) : allocationRoom perTaskCap shares ≤ shares.length * perTaskCap := by
  induction shares with
  | nil => simp [allocationRoom]
  | cons share rest ih =>
    have hmul : (rest.length + 1) * perTaskCap = rest.length * perTaskCap + perTaskCap := by ring
    simp only [allocationRoom, List.map_cons, List.sum_cons, List.length_cons, hmul] at ih ⊢
    omega

/-- The shares at the end: the pool of the candidates, with the budget spent or every series done. -/
theorem projectionShares_pool (boundedTotalCap : Nat) (hexp : ExpandsInOrder expansionOf) {candidates : List Task} (hne : candidates ≠ []) :
    (∀ out, projectionShares expansionOf boundedTotalCap candidates = .ok out →
      Pool expansionOf boundedTotalCap (min 62 boundedTotalCap) out ∧ out.map (·.task) = candidates ∧
        (projectedCount out = boundedTotalCap ∨ ∀ share ∈ out, share.active = false)) ∧
    ∀ e, projectionShares expansionOf boundedTotalCap candidates = .error e →
      ∃ task ∈ candidates, ∃ n ≤ min 62 boundedTotalCap, expansionOf task n = .error e := by
  unfold projectionShares
  have hlength : 0 < candidates.length := List.length_pos_of_ne_nil hne
  have hcap : min calendarRangeProjectionPerTaskCap boundedTotalCap = min 62 boundedTotalCap := rfl
  simp only [hcap]
  generalize hperTask : min 62 boundedTotalCap = perTask
  generalize hbase : min perTask (boundedTotalCap / candidates.length) = baseShare
  have hspent : baseShare * candidates.length ≤ boundedTotalCap :=
    (Nat.mul_le_mul_right _ (by omega)).trans (Nat.div_mul_le_self _ _)
  obtain ⟨htasks, hsum, hall⟩ := @allocate_shares perTask baseShare (boundedTotalCap - baseShare * candidates.length)
    candidates (by omega)
  generalize allocate baseShare perTask (boundedTotalCap - baseShare * candidates.length) candidates = first
    at htasks hsum hall
  cases hfirst : first.mapM (·.expand expansionOf perTask) with
  | error e =>
    refine ⟨fun out h => (by cases h), fun e' h => ?_⟩
    obtain rfl := Except.error.inj h
    obtain ⟨share, hshare, hfail⟩ := mapM_eq_error hfirst
    exact ⟨share.task, htasks ▸ List.mem_map_of_mem hshare, share.allocation, (hall share hshare).2.2.2,
      expansionOf_error hfail⟩
  | ok shares =>
    obtain ⟨hsameTasks, hsameAllocations, hok⟩ := expandAll_shares hexp (fun s hs => (hall s hs).1)
      (fun s hs => (hall s hs).2.2.2) hfirst
    have hrange : ∀ share ∈ shares, baseShare ≤ share.allocation ∧ share.allocation ≤ baseShare + 1 := by
      intro share hshare
      have hmem : share.allocation ∈ first.map (·.allocation) := by
        rw [← hsameAllocations]
        exact List.mem_map_of_mem hshare
      obtain ⟨old, hold, heq⟩ := List.mem_map.1 hmem
      rw [← heq]
      exact ⟨(hall old hold).2.1, (hall old hold).2.2.1⟩
    have hcount := projectedCount_le_allocations hexp hok
    rw [hsameAllocations] at hcount
    have hpool : Pool expansionOf boundedTotalCap perTask shares := by
      refine ⟨hok, fun low hlow _ share hshare => ?_, by omega⟩
      have hlowLevel := (hrange low hlow).1
      have hshareLevel := (hrange share hshare).2
      omega
    have hsize : shares.length = candidates.length := by
      have hmaps := congrArg List.length (hsameTasks.trans htasks)
      simpa using hmaps
    have hroom := allocationRoom_le perTask shares
    rw [hsize] at hroom
    obtain ⟨hreturns, hfails⟩ := waterFill_pool hexp (by omega) hpool
      (show _ < candidates.length * perTask + 1 by omega)
    refine ⟨fun out h => ?_, fun e h => ?_⟩
    · obtain ⟨hout, houtTasks, hend⟩ := hreturns out h
      exact ⟨hout, houtTasks.trans (hsameTasks.trans htasks), hend⟩
    · obtain ⟨share, hshare, n, hn, hfail⟩ := hfails e h
      refine ⟨share.task, ?_, n, hn, hfail⟩
      rw [← htasks, ← hsameTasks]
      exact List.mem_map_of_mem hshare

end

/-! ### The expansion of a set -/

/-- What becomes of the budget: `block task` is the task as it is shown, followed by the occurrences it was given. -/
structure FairExpansion [LocalCalendar] (expansionOf : Task → Nat → Except JsError (List Task)) (boundedTotalCap : Nat)
    (tasks : List Task) (block : Task → List Task) : Prop where
  total : (tasks.map fun task => (block task).tail.length).sum ≤ boundedTotalCap
  perTask : ∀ task ∈ tasks, (block task).tail.length ≤ 62
  other : ∀ task ∈ tasks, isProjectionCandidate task = false → block task = [task]
  /-- The occurrences of a series are the first ones of its own expansion. -/
  initial : ∀ task ∈ tasks, isProjectionCandidate task = true → ∀ list, expansionOf task 62 = .ok list →
    (block task).tail <+: list.tail
  /-- No series gets more than one occurrence more than a series that has further ones. -/
  fair : ∀ task ∈ tasks, isProjectionCandidate task = true → ∀ list, expansionOf task 62 = .ok list →
    (block task).tail.length < list.tail.length →
    ∀ other ∈ tasks, isProjectionCandidate other = true → (block other).tail.length ≤ (block task).tail.length + 1
  /-- The budget is spent, or every series has all of its own expansion. -/
  exact : (tasks.map fun task => (block task).tail.length).sum = boundedTotalCap ∨
    ∀ task ∈ tasks, isProjectionCandidate task = true → ∀ list, expansionOf task 62 = .ok list →
      (block task).tail = list.tail

section
variable [LocalCalendar] {expansionOf : Task → Nat → Except JsError (List Task)} {boundedTotalCap : Nat}

omit [LocalCalendar] in
theorem sum_map_filter {α : Type} (p : α → Bool) (f : α → Nat) (l : List α) (h : ∀ a ∈ l, p a = false → f a = 0) :
    (l.map f).sum = ((l.filter p).map f).sum := by
  induction l with
  | nil => rfl
  | cons a l ih =>
    have hrest := ih fun b hb => h b (by simp [hb])
    cases hp : p a with
    | true => simp [hp, hrest]
    | false => simp [hp, hrest, h a (by simp) hp]

omit [LocalCalendar] in
theorem ShareOk.initial (hexp : ExpandsInOrder expansionOf) {perTaskCap : Nat} (hcap : perTaskCap ≤ 62)
    {share : ProjectionShare} (h : ShareOk expansionOf perTaskCap share) {list : List Task}
    (hlist : expansionOf share.task 62 = .ok list) : share.expansion.tail <+: list.tail := by
  by_cases hzero : share.allocation = 0
  · rw [h.unexpanded hzero]
    exact List.nil_prefix
  · have htake := hexp.take (h.bounded.trans hcap) hlist
    have heq := Except.ok.inj ((h.expanded hzero).symm.trans htake)
    rw [heq, List.tail_take_eq_take_tail]
    exact List.take_prefix _ _

omit [LocalCalendar] in
/-- A series that ran dry has all of its own expansion. -/
theorem ShareOk.exhausted (hexp : ExpandsInOrder expansionOf) {perTaskCap : Nat} (hcap : perTaskCap ≤ 62)
    {share : ProjectionShare} (h : ShareOk expansionOf perTaskCap share) (hdry : share.emitted < share.allocation)
    {list : List Task} (hlist : expansionOf share.task 62 = .ok list) : share.expansion.tail = list.tail := by
  have hexpanded := h.expanded (by omega)
  have hall := hexp.exhausted (h.bounded.trans hcap) hexpanded (by rw [ProjectionShare.emitted] at hdry; omega)
  rw [Except.ok.inj (hall.symm.trans hlist)]

theorem fairExpansion_of_pool (hexp : ExpandsInOrder expansionOf) {tasks : List Task} (hids : (tasks.map (·.id)).Nodup)
    {shares : List ProjectionShare} (hpool : Pool expansionOf boundedTotalCap (min 62 boundedTotalCap) shares)
    (htasks : shares.map (·.task) = tasks.filter isProjectionCandidate)
    (hend : projectedCount shares = boundedTotalCap ∨ ∀ share ∈ shares, share.active = false) :
    FairExpansion expansionOf boundedTotalCap tasks fun task =>
      ((shares.find? fun share => share.task.id == task.id).map (·.expansion)).getD [task] := by
  have hsource : ∀ share ∈ shares, share.task ∈ tasks ∧ isProjectionCandidate share.task = true := by
    intro share hshare
    have hmem : share.task ∈ tasks.filter isProjectionCandidate := by
      rw [← htasks]
      exact List.mem_map_of_mem hshare
    exact List.mem_filter.1 hmem
  have hsame : ∀ share ∈ shares, ∀ task ∈ tasks, share.task.id = task.id → share.task = task :=
    fun share hshare task htask hid => List.inj_on_of_nodup_map hids (hsource share hshare).1 htask hid
  -- the entry of a candidate is its share, and there is none for another task
  generalize hblock : (fun task : Task =>
    ((shares.find? fun share => share.task.id == task.id).map (·.expansion)).getD [task]) = block
  have hother : ∀ task ∈ tasks, isProjectionCandidate task = false → block task = [task] := by
    intro task htask hcandidate
    have hnone : (shares.find? fun share => share.task.id == task.id) = none := by
      rw [List.find?_eq_none]
      intro share hshare hid
      have heq := hsame share hshare task htask (by simpa using hid)
      rw [← heq, (hsource share hshare).2] at hcandidate
      cases hcandidate
    rw [← hblock]
    simp only [hnone]
    rfl
  have hshare : ∀ task ∈ tasks, isProjectionCandidate task = true →
      ∃ share ∈ shares, share.task = task ∧ block task = share.expansion := by
    intro task htask hcandidate
    have hmem : task ∈ shares.map (·.task) := by
      rw [htasks]
      exact List.mem_filter.2 ⟨htask, hcandidate⟩
    obtain ⟨own, hown, howner⟩ := List.mem_map.1 hmem
    obtain ⟨share, hfind⟩ : ∃ share, (shares.find? fun share => share.task.id == task.id) = some share :=
      Option.isSome_iff_exists.1 (List.find?_isSome.2 ⟨own, hown, by simp [howner]⟩)
    have hfound := List.mem_of_find?_eq_some hfind
    have hid := List.find?_some hfind
    refine ⟨share, hfound, hsame share hfound task htask (by simpa using hid), ?_⟩
    rw [← hblock]
    simp only [hfind]
    rfl
  have hemitted : ∀ share ∈ shares, (block share.task).tail.length = share.emitted := by
    intro share hmem
    obtain ⟨found, hfound, heq, hexpansion⟩ := hshare share.task (hsource share hmem).1 (hsource share hmem).2
    have hnodup : (shares.map (·.task)).Nodup := by
      rw [htasks]
      exact (List.Nodup.of_map _ hids).filter _
    have hunique := List.inj_on_of_nodup_map hnodup hfound hmem heq
    rw [hexpansion, hunique, List.length_tail]
    rfl
  have hsum : (tasks.map fun task => (block task).tail.length).sum = projectedCount shares := by
    rw [sum_map_filter isProjectionCandidate (fun task => (block task).tail.length) tasks, ← htasks, List.map_map,
      projectedCount]
    · congr 1
      exact List.map_congr_left hemitted
    · intro task htask hcandidate
      simp [hother task htask hcandidate]
  have hcap : min 62 boundedTotalCap ≤ 62 := Nat.min_le_left _ _
  have hlength : ∀ task ∈ tasks, isProjectionCandidate task = true → ∃ share ∈ shares, share.task = task ∧
      block task = share.expansion ∧ (block task).tail.length = share.emitted := by
    intro task htask hcandidate
    obtain ⟨share, hmem, heq, hexpansion⟩ := hshare task htask hcandidate
    exact ⟨share, hmem, heq, hexpansion, heq ▸ hemitted share hmem⟩
  refine ⟨hsum ▸ hpool.total, ?_, hother, ?_, ?_, ?_⟩
  · intro task htask
    cases hcandidate : isProjectionCandidate task with
    | false => simp [hother task htask hcandidate]
    | true =>
      obtain ⟨share, hmem, -, -, hcount⟩ := hlength task htask hcandidate
      have hok := hpool.ok share hmem
      have hle := hok.emitted_le hexp
      have hbounded := hok.bounded
      omega
  · intro task htask hcandidate list hlist
    obtain ⟨share, hmem, rfl, hexpansion, -⟩ := hlength task htask hcandidate
    rw [hexpansion]
    exact (hpool.ok share hmem).initial hexp hcap hlist
  · intro task htask hcandidate list hlist hfurther other hotherMem hotherCandidate
    obtain ⟨share, hmem, rfl, hexpansion, hcount⟩ := hlength task htask hcandidate
    obtain ⟨second, hsecond, rfl, -, hsecondCount⟩ := hlength other hotherMem hotherCandidate
    have hok := hpool.ok share hmem
    have hsecondOk := hpool.ok second hsecond
    have hsecondLe := hsecondOk.emitted_le hexp
    rw [hcount, hsecondCount]
    cases hactive : share.active with
    | true =>
      have hlevel := hpool.level share hmem hactive second hsecond
      have hfull := (hok.active hactive).1
      omega
    | false =>
      by_cases hdry : share.emitted < share.allocation
      · rw [hexpansion, hok.exhausted hexp hcap hdry hlist] at hfurther
        omega
      · have hfull := hok.inactive hactive
        have hbounded := hsecondOk.bounded
        omega
  · rw [hsum]
    by_cases hspent : projectedCount shares = boundedTotalCap
    · exact .inl hspent
    · refine .inr fun task htask hcandidate list hlist => ?_
      obtain ⟨share, hmem, rfl, hexpansion, hcount⟩ := hlength task htask hcandidate
      have hok := hpool.ok share hmem
      have hactive := (hend.resolve_left hspent) share hmem
      by_cases hdry : share.emitted < share.allocation
      · rw [hexpansion, hok.exhausted hexp hcap hdry hlist]
      · -- the share is full, and one that took the whole budget would have spent it
        have hle := hok.emitted_le hexp
        have hfull := (hok.inactive hactive).resolve_left hdry
        have hpart : share.emitted ≤ projectedCount shares :=
          List.single_le_sum (by simp) _ (List.mem_map_of_mem hmem)
        have htotal := hpool.total
        have hprefix := hok.initial hexp hcap hlist
        have hbound := (hexp.bounded hlist).2
        rw [← hexpansion] at hprefix
        refine hprefix.eq_of_length_le ?_
        rw [hcount, List.length_tail]
        omega

end

section
variable [LocalCalendar]

/-- The expansion of a set either is fair or fails as one of its series does. -/
theorem expandSet_fair_or_fails (tasks : List Task) (range : CalendarRecurrenceRange) (projectedAtIso : String)
    (clock : Int) (totalProjectionCap : Rat) (hids : (tasks.map (·.id)).Nodup) :
    (∃ block, expandCalendarRecurringTaskSetInRange tasks range projectedAtIso clock totalProjectionCap =
        .ok (tasks.flatMap block) ∧
      FairExpansion (fun task n => expandCalendarRecurringTasksInRange task range projectedAtIso clock n)
        ⌊totalProjectionCap⌋.toNat tasks block) ∨
    ∃ task ∈ tasks, isProjectionCandidate task = true ∧ ∃ n : Nat, n ≤ 62 ∧ ∃ e,
      expandCalendarRecurringTasksInRange task range projectedAtIso clock n = .error e ∧
      expandCalendarRecurringTaskSetInRange tasks range projectedAtIso clock totalProjectionCap = .error e := by
  have hexp := expandsInOrder range projectedAtIso clock
  unfold expandCalendarRecurringTaskSetInRange
  by_cases hempty : tasks.filter isProjectionCandidate = []
  · have hnone : ∀ task ∈ tasks, isProjectionCandidate task = false := by
      intro task htask
      have hnot := List.filter_eq_nil_iff.1 hempty task htask
      simpa using hnot
    refine .inl ⟨fun task => [task], ?_, ?_⟩
    · simp [hempty]
    · refine ⟨by simp, by simp, fun _ _ _ => rfl, fun task h hc => ?_, fun task h hc => ?_, .inr fun task h hc => ?_⟩
      all_goals
        rw [hnone task h] at hc
        cases hc
  · obtain ⟨hreturns, hfails⟩ := projectionShares_pool ⌊totalProjectionCap⌋.toNat hexp hempty
    simp only [hempty, if_false]
    cases hshares : projectionShares
        (fun task n => expandCalendarRecurringTasksInRange task range projectedAtIso clock (n : Nat))
        ⌊totalProjectionCap⌋.toNat (tasks.filter isProjectionCandidate) with
    | ok shares =>
      obtain ⟨hpool, hsources, hend⟩ := hreturns shares hshares
      exact .inl ⟨_, rfl, fairExpansion_of_pool hexp hids hpool hsources hend⟩
    | error e =>
      obtain ⟨task, hmem, n, hn, hfail⟩ := hfails e hshares
      obtain ⟨htask, hcandidate⟩ := List.mem_filter.1 hmem
      exact .inr ⟨task, htask, hcandidate, n, by omega, e, hfail, rfl⟩

end

section run

/-- A device in UTC that also reads the numeral `1e308`. -/
@[reducible] def exponentCalendar : LocalCalendar :=
  { utcCalendar with toNumber := fun s => if s = "1e308" then some (10 ^ 308) else utcCalendar.toNumber s }

attribute [local instance] exponentCalendar

def januaryRange : CalendarRecurrenceRange where
  startIso := "2026-01-01"
  endIso := "2026-01-14"

def standup : Task where
  id := "t1"
  status := some (.str "next")
  showFutureRecurrence := some (.bool true)
  dueDate := some (.str "2026-01-05")
  recurrence := some (.obj [("rule", .str "daily")])

def review : Task where
  id := "t2"
  status := some (.str "next")
  showFutureRecurrence := some (.bool true)
  dueDate := some (.str "2026-01-05")
  recurrence := some (.obj [("rule", .str "weekly")])

theorem isOk_eq_true {ε α : Type} {x : Except ε α} (h : x.isOk = true) : ∃ a, x = .ok a := by
  cases x with
  | error e => cases h
  | ok a => exact ⟨a, rfl⟩

/-- Its next occurrence is the first Monday of a month that no date lies in. -/
def farTask : Task where
  id := "t3"
  status := some (.str "next")
  showFutureRecurrence := some (.bool true)
  dueDate := some (.str "2026-01-31")
  recurrence := some (.obj [("rule", .str "monthly"),
    ("rrule", .str "FREQ=MONTHLY;INTERVAL=1e308;BYDAY=1MO")])

end run

end Mindwtr
