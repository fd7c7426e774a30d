import Mindwtr.Sync.Commute

/-!
# Which version outranks which

The rule a merge decides by, stated once for one version against another and without the cascade:
`Outranks now a b`. Across deletion the later operation counts, inside the ambiguous window the
revision; between versions of one kind the revision, then the time, then the writer, then the
signature. The winner of a pair outranks the other version or has the same full signature
(`winnerSide_outranks`).
-/

namespace Mindwtr.Sync

open Mindwtr.Js MergeableEntity

section
variable [Runtime] {α : Type} [MergeableEntity α]

def OutranksBySignature (a b : α) : Prop :=
  signatureGt (plainSignature a) (plainSignature b) = true ∨
    plainSignature a = plainSignature b ∧ signatureGt (fullSignature a) (fullSignature b) = true

def OutranksByTime (now : Int) (a b : α) : Prop := 0 < comparableUpdatedTimeDiff now b a

def NamesTwoWriters (a b : α) : Prop := revByOf a ≠ revByOf b ∧ revByOf a ≠ "" ∧ revByOf b ≠ ""

/-- Two versions of one kind, at least one of which carries a revision. -/
def OutranksRevised (now : Int) (a b : α) : Prop :=
  revOf b < revOf a ∨ revOf a = revOf b ∧
    (OutranksByTime now a b ∨ comparableUpdatedTimeDiff now a b = 0 ∧
      (NamesTwoWriters a b ∧ jsLt (revByOf b) (revByOf a) = true ∨
        ¬NamesTwoWriters a b ∧ OutranksBySignature a b))

/-- Two versions of one kind without any revision: the time where it is decisive, else the
signature. -/
def OutranksUnrevised (now : Int) (a b : α) : Prop :=
  if requiresStrictTimestampOrdering now a b = true ∨ withinSkew now a b = false then
    OutranksByTime now a b
  else OutranksBySignature a b

/-- A live version restored from a backup no earlier than the operation of the other one. -/
def RestoresOver (now : Int) (a b : α) : Prop :=
  isBackupRestoreLiveCandidate a = true ∧ resolveOperationTime now b ≤ resolveOperationTime now a

/-- A deleted version against a live one. -/
def OutranksAcross (now : Int) (a b : α) : Prop :=
  RestoresOver now a b ∨ ¬RestoresOver now b a ∧
    if |operationDiff now a b| ≤ deleteVsLiveAmbiguousWindowMs then
      if hasRevision a b = true then
        revOf b < revOf a ∨ revOf a = revOf b ∧ isDeleted b = true
      else isDeleted a = true
    else resolveOperationTime now b < resolveOperationTime now a

def Outranks (now : Int) (a b : α) : Prop :=
  if isDeleted a = isDeleted b then
    if hasRevision a b = true then OutranksRevised now a b else OutranksUnrevised now a b
  else OutranksAcross now a b

/-! ### The winner outranks the other version -/

theorem chooseDeterministic_localItem {l i : α} (hl : HasSignature (record l))
    (hi : HasSignature (record i)) (h : chooseDeterministic l i = .localItem) :
    OutranksBySignature l i := by
  unfold chooseDeterministic chooseDeterministicWinner at h
  simp only at h
  split_ifs at h with hplain hfull hgt hgt
  · refine .inr ⟨hplain, ?_⟩
    rw [fullSignature, fullSignature, signatureGt_of_ne hi.2 hl.2 (Ne.symm hfull), Bool.not_eq_true']
    exact eq_false_of_ne_true hgt
  · refine .inl ?_
    rw [plainSignature, plainSignature, signatureGt_of_ne hi.1 hl.1 (Ne.symm hplain), Bool.not_eq_true']
    exact eq_false_of_ne_true hgt

omit [Runtime] in
theorem byTimeDiff_localItem {d : Int} (hd : d ≠ 0) (h : byTimeDiff d = .localItem) : d < 0 := by
  unfold byTimeDiff at h
  split_ifs at h with hpos
  omega

omit [Runtime] in
theorem byRevDiff_localItem {l i : α} (h : byRevDiff l i = .localItem) : revOf i < revOf l := by
  unfold byRevDiff at h
  split_ifs at h with hpos
  linarith

theorem outranksByTime_of_neg {now : Int} {l i : α} (h : comparableUpdatedTimeDiff now l i < 0) :
    OutranksByTime now l i := by
  unfold OutranksByTime
  rw [comparableUpdatedTimeDiff_swap]
  omega

theorem restoredSide_localItem {now : Int} {l i : α} (h : restoredSide now l i = some .localItem) :
    RestoresOver now l i := by
  unfold restoredSide at h
  split_ifs at h with hl hop hi hop
  · exact ⟨hl, hop⟩
  · simp at h

/-- Without a restored side neither version restores over the other. -/
theorem not_restoresOver_of_none {now : Int} {l i : α} (hdel : isDeleted l ≠ isDeleted i)
    (h : restoredSide now l i = none) : ¬RestoresOver now i l := by
  rintro ⟨hi, hop⟩
  unfold restoredSide at h
  have hl : isBackupRestoreLiveCandidate l = false := by
    unfold isBackupRestoreLiveCandidate at hi ⊢
    cases hdl : isDeleted l <;> cases hdi : isDeleted i <;> simp_all
  rw [hl, if_neg (by simp), if_pos hi, if_pos hop] at h
  cases h

theorem resolveDeleteVsLiveWinner_localItem {now : Int} {l i : α} (hdel : isDeleted l ≠ isDeleted i)
    (h : (resolveDeleteVsLiveWinner now l i).winner = .localItem) : OutranksAcross now l i := by
  unfold resolveDeleteVsLiveWinner at h
  cases hr : restoredSide now l i with
  | some side =>
    rw [hr] at h
    obtain rfl : side = .localItem := h
    exact .inl (restoredSide_localItem hr)
  | none =>
    refine .inr ⟨not_restoresOver_of_none hdel hr, ?_⟩
    simp only [hr] at h
    by_cases hwindow : |operationDiff now l i| ≤ deleteVsLiveAmbiguousWindowMs
    · rw [if_pos hwindow] at h ⊢
      by_cases hrev : hasRevision l i = true
      · rw [if_pos hrev]
        by_cases hrevs : revOf l - revOf i = 0
        · refine .inr ⟨by linarith, ?_⟩
          rw [if_neg fun hc => hc.2 hrevs, if_pos hrev] at h
          unfold preferLiveCandidate at h
          cases hl : isDeleted l <;> cases hi : isDeleted i <;> simp_all
        · rw [if_pos ⟨hrev, hrevs⟩] at h
          exact .inl (byRevDiff_localItem h)
      · rw [if_neg hrev]
        rw [if_neg fun hc => hrev hc.1, if_neg hrev] at h
        unfold preferDeletedCandidate at h
        cases hl : isDeleted l <;> cases hi : isDeleted i <;> simp_all
    · rw [if_neg hwindow] at h ⊢
      split_ifs at h with hpos hneg
      · unfold operationDiff at hneg
        omega
      · -- outside the window the difference is not zero
        have h0 : operationDiff now l i = 0 := by omega
        rw [h0] at hwindow
        exact absurd (by decide) hwindow

theorem winnerSide_localItem {now : Int} {l i : α} (hl : HasSignature (record l))
    (hi : HasSignature (record i)) (h : winnerSide now l i = .localItem) : Outranks now l i := by
  unfold winnerSide at h
  unfold Outranks
  simp only at h
  by_cases hdel : isDeleted l = isDeleted i
  · rw [if_pos hdel]
    rw [if_neg (not_not.2 hdel)] at h
    by_cases hrev : hasRevision l i = true
    · rw [if_pos hrev] at h ⊢
      split_ifs at h with hrevs htime hby hlt
      · exact .inl (byRevDiff_localItem h)
      · refine .inr ⟨by simpa [sub_eq_zero] using hrevs, .inl ?_⟩
        exact outranksByTime_of_neg (byTimeDiff_localItem htime h)
      · refine .inr ⟨by simpa [sub_eq_zero] using hrevs, .inr ⟨not_not.1 htime, .inl ⟨hby, ?_⟩⟩⟩
        rw [Bool.not_eq_true] at hlt
        rw [jsLt_of_ne hby.1, hlt]
        rfl
      · refine .inr ⟨by simpa [sub_eq_zero] using hrevs, .inr ⟨not_not.1 htime, .inr ⟨hby, ?_⟩⟩⟩
        exact chooseDeterministic_localItem hl hi h
    · rw [if_neg hrev] at h ⊢
      unfold OutranksUnrevised
      by_cases hstrict : requiresStrictTimestampOrdering now l i = true
      · rw [if_pos hstrict] at h
        rw [if_pos (.inl hstrict)]
        refine outranksByTime_of_neg (byTimeDiff_localItem ?_ h)
        unfold requiresStrictTimestampOrdering at hstrict
        simp only [Bool.and_eq_true, bne_iff_ne, ne_eq] at hstrict
        exact hstrict.1
      · rw [if_neg hstrict] at h
        by_cases hskew : withinSkew now l i = true
        · rw [if_pos hskew] at h
          rw [if_neg (by simp [hstrict, hskew])]
          exact chooseDeterministic_localItem hl hi h
        · rw [if_neg hskew] at h
          rw [if_pos (.inr (by simpa using hskew))]
          -- times further apart than the skew threshold are not equal
          have hne : comparableUpdatedTimeDiff now l i ≠ 0 := by
            unfold withinSkew at hskew
            simp only [decide_eq_true_eq] at hskew
            have hsafe : (updatedTime now i).safe - (updatedTime now l).safe ≠ 0 := by
              intro h0
              rw [h0] at hskew
              exact hskew (by decide)
            unfold comparableUpdatedTimeDiff getMergeTimestampComparison
            simp only [if_pos hsafe]
            exact hsafe
          rw [if_pos hne] at h
          exact outranksByTime_of_neg (byTimeDiff_localItem hne h)
  · rw [if_neg hdel]
    rw [if_pos hdel] at h
    exact resolveDeleteVsLiveWinner_localItem hdel h

/-- **The winner outranks the other version**, unless both have the same full signature. -/
theorem winnerSide_outranks (now : Int) {l i : α} (hl : HasSignature (record l))
    (hi : HasSignature (record i)) :
    fullSignature l = fullSignature i ∨
      winnerSide now l i = .localItem ∧ Outranks now l i ∨
      winnerSide now l i = .incomingItem ∧ Outranks now i l := by
  rcases winnerSide_swap now hl hi with hswap | hsig
  · right
    cases hside : winnerSide now l i with
    | localItem => exact .inl ⟨rfl, winnerSide_localItem hl hi hside⟩
    | incomingItem =>
      refine .inr ⟨rfl, winnerSide_localItem hi hl ?_⟩
      rw [hswap, hside]
      rfl
  · exact .inl hsig

end

end Mindwtr.Sync
