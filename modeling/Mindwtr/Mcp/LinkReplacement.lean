import Mindwtr.Lib.Precedence
import Mindwtr.Mcp.LinkAttachments

/-!
# Replacing the links

Every link that is live after a replacement was made by one of the inputs (`made_of_live`). The replacement is exact,
and a second one changes nothing, where no input takes the link of another (`replaces_exactly_iff`).
-/

namespace Mindwtr.Mcp

open Mindwtr.Js Mindwtr.Lib

/-! ### Normalised inputs -/

/-- Two ids differ, and an input without id repeats no uri. -/
def Apart (m n : NormalizedLinkInput) : Prop :=
  (∀ id, m.id = some id → n.id ≠ some id) ∧ (n.id = none → m.uri ≠ n.uri)

section
variable [Runtime] {may may' : Option String → String → Bool} {state state' : NormalizeState}
  {input : LinkAttachmentInput} {inputs : List LinkAttachmentInput}

structure Seen (state : NormalizeState) : Prop where
  uris : ∀ u, u ∈ state.seenUris ↔ ∃ n ∈ state.normalized, n.uri = u
  ids : ∀ id, id ∈ state.seenIds ↔ ∃ n ∈ state.normalized, n.id = some id
  apart : state.normalized.Pairwise Apart

/-- An input is dropped, or it is the last of the normalised ones. -/
theorem normalizeInput_cases (h : normalizeInput may state input = .ok state') :
    (state' = state ∧ (input.id.map trim).filter (· != "") = none ∧
        (isNetworkShareUri (trim input.uri) = true → may none input.uri = true ∧ input.uri ∈ state.seenUris)) ∨
      ∃ n : NormalizedLinkInput, state' =
          { seenUris := n.uri :: state.seenUris
            seenIds := n.id.toList ++ state.seenIds
            normalized := state.normalized ++ [n] } ∧
        n.id = (input.id.map trim).filter (· != "") ∧ (∀ id ∈ n.id, id ∉ state.seenIds) ∧
        (n.id = none → n.uri ∉ state.seenUris) ∧
        (isNetworkShareUri (trim input.uri) = true → may n.id input.uri = true ∧ n.uri = input.uri) := by
  unfold normalizeInput at h
  extract_lets trimmedUri id networkShare preservedNetworkShare uri at h
  have hkept : networkShare = true → ¬(networkShare && !preservedNetworkShare) = true →
      may id input.uri = true ∧ uri = input.uri := by
    intro hnetwork hshare
    simp only [preservedNetworkShare, hnetwork, Bool.true_and, Bool.not_eq_true', Bool.not_eq_false] at hshare
    exact ⟨hshare, if_pos (by simp [preservedNetworkShare, hnetwork, hshare])⟩
  clear_value preservedNetworkShare uri
  split_ifs at h with hempty hshare hseen hdrop
  · rw [Bool.and_eq_true, Option.isNone_iff_eq_none, List.contains_iff_mem] at hdrop
    refine .inl ⟨(Except.ok.inj h).symm, hdrop.1, ?_⟩
    intro hnetwork
    obtain ⟨hmay, huri⟩ := hkept hnetwork hshare
    rw [hdrop.1] at hmay
    rw [huri] at hdrop
    exact ⟨hmay, hdrop.2⟩
  · have hownId : ∀ own ∈ id, own ∉ state.seenIds := by
      intro own hown hmem
      apply hseen
      rw [Option.mem_def.1 hown]
      simpa using hmem
    have hownUri : id = none → uri ∉ state.seenUris := by
      intro hnone hmem
      apply hdrop
      simp [hnone, hmem]
    let title := ((input.title.map trim).filter (· != "")).getD (defaultTitle uri)
    exact .inr ⟨{ id, title, uri, preservedNetworkShare }, (Except.ok.inj h).symm, rfl, hownId, hownUri,
      fun hnetwork => hkept hnetwork hshare⟩

theorem Seen.step (hseen : Seen state) (h : normalizeInput may state input = .ok state') : Seen state' := by
  rcases normalizeInput_cases h with ⟨rfl, -⟩ | ⟨n, rfl, -, hid, huri, -⟩
  · exact hseen
  · refine ⟨?_, ?_, ?_⟩
    · intro u
      simp only [List.mem_cons, hseen.uris, List.mem_append, List.not_mem_nil, or_false]
      constructor
      · rintro (rfl | ⟨m, hm, rfl⟩)
        · exact ⟨n, .inr rfl, rfl⟩
        · exact ⟨m, .inl hm, rfl⟩
      · rintro ⟨m, hm | rfl, rfl⟩
        · exact .inr ⟨m, hm, rfl⟩
        · exact .inl rfl
    · intro id
      simp only [List.mem_append, hseen.ids, Option.mem_toList, List.mem_cons, List.not_mem_nil, or_false]
      constructor
      · rintro (hown | ⟨m, hm, hmid⟩)
        · exact ⟨n, .inr rfl, hown⟩
        · exact ⟨m, .inl hm, hmid⟩
      · rintro ⟨m, hm | rfl, hmid⟩
        · exact .inr ⟨m, hm, hmid⟩
        · exact .inl hmid
    · rw [List.pairwise_append]
      refine ⟨hseen.apart, List.pairwise_singleton _ _, ?_⟩
      intro m hm m' hm'
      rw [List.mem_singleton.1 hm']
      refine ⟨?_, ?_⟩
      · intro id hmid hnid
        exact hid id hnid ((hseen.ids id).2 ⟨m, hm, hmid⟩)
      · intro hnone heq
        exact huri hnone ((hseen.uris _).2 ⟨m, hm, heq⟩)

theorem normalized_subset (h : normalizeInput may state input = .ok state') :
    ∀ n ∈ state.normalized, n ∈ state'.normalized := by
  intro n hn
  rcases normalizeInput_cases h with ⟨rfl, -⟩ | ⟨m, rfl, -⟩
  · exact hn
  · exact List.mem_append_left _ hn

theorem foldlM_normalizeInput (hseen : Seen state) (h : inputs.foldlM (normalizeInput may) state = .ok state') :
    Seen state' ∧ ∀ n ∈ state.normalized, n ∈ state'.normalized := by
  induction inputs generalizing state with
  | nil =>
    obtain rfl := Except.ok.inj h
    exact ⟨hseen, fun n hn => hn⟩
  | cons input inputs ih =>
    rw [List.foldlM_cons] at h
    obtain ⟨next, hnext, hrest⟩ := bind_eq_ok h
    obtain ⟨hfinal, hsub⟩ := ih (hseen.step hnext) hrest
    exact ⟨hfinal, fun n hn => hsub n (normalized_subset hnext n hn)⟩

/-- Another permission gives the same where it allows what was kept. -/
theorem normalizeInput_congr (hseen : Seen state) (h : normalizeInput may state input = .ok state')
    (hmay : ∀ n ∈ state'.normalized, may' n.id n.uri = true ∧ may' none n.uri = true) :
    normalizeInput may' state input = .ok state' := by
  have hsame : (isNetworkShareUri (trim input.uri) && may' ((input.id.map trim).filter (· != "")) input.uri) =
      (isNetworkShareUri (trim input.uri) && may ((input.id.map trim).filter (· != "")) input.uri) := by
    cases hnetwork : isNetworkShareUri (trim input.uri) with
    | false => rfl
    | true =>
      rw [Bool.true_and, Bool.true_and]
      rcases normalizeInput_cases h with ⟨rfl, hid, hshare⟩ | ⟨n, rfl, hid, -, -, hshare⟩
      · obtain ⟨hold, hmem⟩ := hshare hnetwork
        obtain ⟨n, hn, huri⟩ := (hseen.uris _).1 hmem
        rw [hid, hold, ← huri]
        exact (hmay n hn).2
      · obtain ⟨hold, huri⟩ := hshare hnetwork
        rw [← hid, hold, ← huri]
        exact (hmay n (by simp)).1
  rw [← h]
  unfold normalizeInput
  simp only [hsame]

theorem foldlM_normalizeInput_congr (hseen : Seen state)
    (h : inputs.foldlM (normalizeInput may) state = .ok state')
    (hmay : ∀ n ∈ state'.normalized, may' n.id n.uri = true ∧ may' none n.uri = true) :
    inputs.foldlM (normalizeInput may') state = .ok state' := by
  induction inputs generalizing state with
  | nil =>
    rw [List.foldlM_nil] at h ⊢
    exact h
  | cons input inputs ih =>
    rw [List.foldlM_cons] at h ⊢
    obtain ⟨next, hnext, hrest⟩ := bind_eq_ok h
    have hsub := (foldlM_normalizeInput (hseen.step hnext) hrest).2
    rw [normalizeInput_congr hseen hnext fun n hn => hmay n (hsub n hn)]
    exact ih (hseen.step hnext) hrest

omit [Runtime] in
theorem seen_start : Seen {} := ⟨by simp, by simp, List.Pairwise.nil⟩

theorem pairwise_apart {requests : List NormalizedLinkInput} (h : normalizeInputs may inputs = .ok requests) :
    requests.Pairwise Apart := by
  obtain ⟨final, hfinal, rfl⟩ := map_eq_ok h
  exact (foldlM_normalizeInput seen_start hfinal).1.apart

theorem normalizeInputs_congr {requests : List NormalizedLinkInput} (h : normalizeInputs may inputs = .ok requests)
    (hmay : ∀ n ∈ requests, may' n.id n.uri = true ∧ may' none n.uri = true) :
    normalizeInputs may' inputs = .ok requests := by
  obtain ⟨final, hfinal, rfl⟩ := map_eq_ok h
  rw [normalizeInputs, foldlM_normalizeInput_congr seen_start hfinal hmay]
  rfl

end

section
variable {requests : List NormalizedLinkInput} {m n : NormalizedLinkInput}

theorem nodup_of_apart (h : requests.Pairwise Apart) : requests.Nodup := by
  apply h.imp
  rintro m n ⟨hid, huri⟩ rfl
  cases hm : m.id with
  | some id => exact hid id hm hm
  | none => exact huri hm rfl

theorem eq_of_same_id (h : requests.Pairwise Apart) (hm : m ∈ requests) (hn : n ∈ requests) {id : String}
    (hmid : m.id = some id) (hnid : n.id = some id) : m = n := by
  by_contra hne
  rcases pair_sublist_or hm hn hne with hpair | hpair
  · exact (rel_of_pair_sublist h hpair).1 id hmid hnid
  · exact (rel_of_pair_sublist h hpair).1 id hnid hmid

/-- Any other input with the uri of one without id comes after it and has an id. -/
theorem after_of_same_uri (h : requests.Pairwise Apart) (hn : n ∈ requests) (hm : m ∈ requests)
    (hid : n.id = none) (huri : m.uri = n.uri) (hne : m ≠ n) : [n, m].Sublist requests ∧ m.id ≠ none := by
  rcases pair_sublist_or hn hm (Ne.symm hne) with hpair | hpair
  · exact ⟨hpair, fun hnone => (rel_of_pair_sublist h hpair).2 hnone huri.symm⟩
  · exact absurd huri ((rel_of_pair_sublist h hpair).2 hid)

end

/-! ### Matches -/

def firstLive (current : List Attachment) (uri : String) : Option Attachment :=
  current.find? fun a => isLiveLink a && asStr? a.uri == some uri

/-- The input is written into the link with this id. -/
def Takes (current : List Attachment) (n : NormalizedLinkInput) (id : String) : Prop :=
  ∃ found, matchOf current n = some found ∧ found.id = id

section
variable {current : List Attachment} {n : NormalizedLinkInput} {r a b : Attachment} {id uri : String}

theorem asStr?_eq_some {v : Option Json} : asStr? v = some uri ↔ v = some (.str uri) := by
  constructor
  · intro h
    cases v with
    | none => cases h
    | some v => cases v <;> simp_all [Json.asStr?]
  · rintro rfl
    rfl

theorem eq_of_str {v : Option Json} {s t : String} (hs : v = some (.str s)) (ht : v = some (.str t)) : s = t := by
  rw [hs] at ht
  exact Json.str.inj (Option.some.inj ht)

theorem get?_foldl_addByUri (links : List Attachment) (m : JsMap Attachment) (uri : String) :
    (links.foldl addByUri m).get? uri = (m.get? uri).or (links.find? fun a => asStr? a.uri == some uri) := by
  induction links generalizing m with
  | nil => simp
  | cons a links ih =>
    rw [List.foldl_cons, ih, addByUri]
    cases huri : asStr? a.uri with
    | none => simp [huri]
    | some own =>
      by_cases hown : own = uri
      · subst hown
        dsimp only
        split
        · rename_i hsome
          obtain ⟨b, hb⟩ := Option.isSome_iff_exists.1 hsome
          simp [hb]
        · rename_i hnone
          rw [Option.not_isSome_iff_eq_none] at hnone
          simp [hnone, huri]
      · have hne : ¬uri = own := fun h => hown h.symm
        dsimp only
        split <;> simp [huri, hown, hne]

theorem get?_liveLinksByUri (current : List Attachment) (uri : String) :
    (liveLinksByUri current).get? uri = firstLive current uri := by
  rw [liveLinksByUri, get?_foldl_addByUri, JsMap.get?_empty, Option.none_or, List.find?_filter, firstLive]
  simp only [Bool.decide_and, Bool.decide_eq_true]

theorem firstLive_spec (h : firstLive current uri = some r) :
    r ∈ current ∧ isLiveLink r = true ∧ r.uri = some (.str uri) := by
  have hprops := List.find?_some h
  simp only [Bool.and_eq_true, beq_iff_eq, asStr?_eq_some] at hprops
  exact ⟨List.mem_of_find?_eq_some h, hprops⟩

theorem firstLive_isSome (ha : a ∈ current) (hlive : isLiveLink a = true) (huri : a.uri = some (.str uri)) :
    ∃ f, firstLive current uri = some f := by
  rw [← Option.isSome_iff_exists, firstLive, List.find?_isSome]
  exact ⟨a, ha, by simp [hlive, huri]⟩

theorem isLink_of_live (h : isLiveLink a = true) : isLink a = true := by
  rw [isLiveLink, Bool.and_eq_true] at h
  exact h.1

theorem anyLinkById_eq_some (hids : (current.map (·.id)).Nodup) :
    (anyLinkById current).get? id = some r ↔ r ∈ current ∧ isLink r = true ∧ r.id = id := by
  have hnodup : ((current.filter isLink).map (·.id)).Nodup := hids.sublist (List.filter_sublist.map _)
  rw [anyLinkById, JsMap.get?_ofItems hnodup, List.mem_filter, and_assoc]

theorem liveLinksById_eq_some (hids : (current.map (·.id)).Nodup) :
    (liveLinksById current).get? id = some r ↔ r ∈ current ∧ isLiveLink r = true ∧ r.id = id := by
  have hnodup : ((current.filter isLiveLink).map (·.id)).Nodup := hids.sublist (List.filter_sublist.map _)
  rw [liveLinksById, JsMap.get?_ofItems hnodup, List.mem_filter, and_assoc]

theorem eq_of_ids (hids : (current.map (·.id)).Nodup) (ha : a ∈ current) (hb : b ∈ current) (h : a.id = b.id) :
    a = b :=
  List.inj_on_of_nodup_map hids ha hb h

theorem matchOf_of_none (hid : n.id = none) : matchOf current n = firstLive current n.uri := by
  rw [matchOf, hid]
  exact get?_liveLinksByUri current n.uri

theorem matchOf_of_id (hids : (current.map (·.id)).Nodup) (hr : r ∈ current) (hlink : isLink r = true)
    (hid : n.id = some r.id) : matchOf current n = some r := by
  rw [matchOf, hid]
  exact (anyLinkById_eq_some hids).2 ⟨hr, hlink, rfl⟩

theorem matchOf_spec (hids : (current.map (·.id)).Nodup) (h : matchOf current n = some r) :
    r ∈ current ∧ isLink r = true ∧ ∀ id, n.id = some id → r.id = id := by
  cases hid : n.id with
  | some id =>
    rw [matchOf, hid] at h
    obtain ⟨hr, hlink, hrid⟩ := (anyLinkById_eq_some hids).1 h
    refine ⟨hr, hlink, ?_⟩
    intro own hown
    rw [hrid, Option.some.inj hown]
  | none =>
    rw [matchOf_of_none hid] at h
    obtain ⟨hr, hlive, -⟩ := firstLive_spec h
    exact ⟨hr, isLink_of_live hlive, fun own hown => by cases hown⟩

theorem takes_of_id (hids : (current.map (·.id)).Nodup) (hr : r ∈ current) (hlink : isLink r = true)
    (hid : n.id = some r.id) : Takes current n r.id :=
  ⟨r, matchOf_of_id hids hr hlink hid, rfl⟩

end

/-! ### What an input writes -/

section
variable {now : String} {r : Attachment} {n : NormalizedLinkInput}

/-- The attachment is live, as the input says. -/
structure Carries (n : NormalizedLinkInput) (a : Attachment) : Prop where
  live : isLiveLink a = true
  title : a.title = some (.str n.title)
  uri : a.uri = some (.str n.uri)
  id : ∀ id, n.id = some id → a.id = id

theorem rewriteLink_id (now : String) (r : Attachment) (n : NormalizedLinkInput) :
    (rewriteLink now r n).id = r.id ∧ isLink (rewriteLink now r n) = isLink r := by
  unfold rewriteLink
  split_ifs <;> exact ⟨rfl, rfl⟩

theorem carries_rewriteLink (hlink : isLink r = true) (hid : ∀ id, n.id = some id → r.id = id) :
    Carries n (rewriteLink now r n) := by
  have hown := rewriteLink_id now r n
  unfold rewriteLink at hown ⊢
  split_ifs at hown ⊢ with hsame
  · simp only [Bool.and_eq_true, Bool.not_eq_true', beq_iff_eq] at hsame
    exact ⟨by simp [isLiveLink, hlink, hsame.1.1], hsame.1.2, hsame.2, hid⟩
  · refine ⟨?_, rfl, rfl, hid⟩
    rw [isLiveLink, hown.2, hlink]
    rfl

theorem rewriteLink_eq_self (hlive : isLiveLink r = true) (htitle : r.title = some (.str n.title))
    (huri : r.uri = some (.str n.uri)) : rewriteLink now r n = r := by
  rw [isLiveLink, Bool.and_eq_true] at hlive
  rw [rewriteLink, if_pos]
  simp only [Bool.and_eq_true, beq_iff_eq]
  exact ⟨⟨hlive.2, htitle⟩, huri⟩

theorem carries_newLink {id : String} (hid : ∀ own, n.id = some own → id = own) : Carries n (newLink now id n) :=
  ⟨rfl, rfl, rfl, hid⟩

end

/-! ### One run -/

/-- What the inputs leave for an id: the last one that takes it wins. -/
def replacement (current : List Attachment) (now : String) : List NormalizedLinkInput → String → Option Attachment
  | [], _ => none
  | n :: rest, id =>
    (replacement current now rest id).or
      (((matchOf current n).filter (·.id == id)).map fun found => rewriteLink now found n)

/-- The inputs that match no link, with the ids of their new links. -/
def additions (current : List Attachment) (makeId : Nat → String) :
    Nat → List NormalizedLinkInput → List (NormalizedLinkInput × String)
  | _, [] => []
  | made, n :: rest =>
    if (matchOf current n).isSome then additions current makeId made rest
    else
      match n.id with
      | some id => (n, id) :: additions current makeId made rest
      | none => (n, makeId made) :: additions current makeId (made + 1) rest

def outcome (current : List Attachment) (now : String) (makeId : Nat → String) (requests : List NormalizedLinkInput) :
    List Attachment :=
  current.map (replaceLink now (replacement current now requests)) ++
    (additions current makeId 0 requests).map fun p => newLink now p.2 p.1

/-- No input names a file. -/
def NamesLinks (current : List Attachment) (requests : List NormalizedLinkInput) : Prop :=
  ∀ n ∈ requests, matchOf current n = none → ∀ id, n.id = some id → id ∉ current.map (·.id)

section
variable {current : List Attachment} {now : String} {makeId : Nat → String} {requests : List NormalizedLinkInput}
  {state final : ApplyState} {n : NormalizedLinkInput} {a : Attachment} {id : String}

theorem replacement_eq_none :
    replacement current now requests id = none ↔ ∀ n ∈ requests, ¬Takes current n id := by
  induction requests with
  | nil => simp [replacement]
  | cons n requests ih =>
    rw [replacement, Option.or_eq_none_iff, ih, Option.map_eq_none_iff, List.forall_mem_cons, and_comm]
    refine and_congr_left' ?_
    rw [Option.filter_eq_none_iff, Takes]
    simp

/-- The last input that takes an id. -/
theorem replacement_eq_some (h : replacement current now requests id = some a) :
    ∃ n ∈ requests, ∃ found, matchOf current n = some found ∧ found.id = id ∧ a = rewriteLink now found n ∧
      ∀ m ∈ requests, Takes current m id → m = n ∨ [m, n].Sublist requests := by
  induction requests with
  | nil => cases h
  | cons n requests ih =>
    rw [replacement] at h
    rcases Option.or_eq_some_iff.1 h with h | ⟨hnone, h⟩
    · obtain ⟨last, hlast, found, hfound, hid, ha, hbefore⟩ := ih h
      refine ⟨last, List.mem_cons_of_mem _ hlast, found, hfound, hid, ha, ?_⟩
      intro m hm htakes
      rcases List.mem_cons.1 hm with rfl | hm
      · exact .inr (List.Sublist.cons_cons _ (List.singleton_sublist.2 hlast))
      · exact (hbefore m hm htakes).imp_right fun hpair => hpair.cons _
    · obtain ⟨found, hfound, rfl⟩ := Option.map_eq_some_iff.1 h
      obtain ⟨hfound, hid⟩ := Option.filter_eq_some_iff.1 hfound
      refine ⟨n, List.mem_cons_self, found, hfound, by simpa using hid, rfl, ?_⟩
      intro m hm htakes
      rcases List.mem_cons.1 hm with rfl | hm
      · exact .inl rfl
      · exact absurd htakes (replacement_eq_none.1 hnone m hm)

theorem foldlM_applyInput (h : requests.foldlM (applyInput current now makeId) state = .ok final) :
    (∀ id, final.touched.get? id = (replacement current now requests id).or (state.touched.get? id)) ∧
      final.added =
        state.added ++ (additions current makeId state.made requests).map (fun p => newLink now p.2 p.1) ∧
      NamesLinks current requests := by
  induction requests generalizing state with
  | nil =>
    obtain rfl := Except.ok.inj h
    exact ⟨fun id => rfl, (List.append_nil _).symm, nofun⟩
  | cons n requests ih =>
    rw [List.foldlM_cons] at h
    obtain ⟨next, hnext, hrest⟩ := bind_eq_ok h
    obtain ⟨htouched, hadded, hnames⟩ := ih hrest
    unfold applyInput at hnext
    cases hmatch : matchOf current n with
    | some found =>
      rw [hmatch] at hnext
      obtain rfl := Except.ok.inj hnext
      refine ⟨?_, ?_, ?_⟩
      · intro id
        rw [htouched, replacement, hmatch, Option.or_assoc, JsMap.get?_set]
        by_cases hid : found.id = id
        · subst hid
          have hfilter : (some found).filter (·.id == found.id) = some found := if_pos (beq_self_eq_true _)
          rw [hfilter, if_pos rfl]
          rfl
        · have hne : ¬id = found.id := fun h => hid h.symm
          simp [hid, hne, Option.filter_some]
      · rw [hadded, additions, hmatch]
        rfl
      · intro m hm hnone
        rcases List.mem_cons.1 hm with rfl | hm
        · rw [hmatch] at hnone
          cases hnone
        · exact hnames m hm hnone
    | none =>
      rw [hmatch] at hnext
      cases hid : n.id with
      | some id =>
        simp only [hid] at hnext
        split_ifs at hnext with hany
        obtain rfl := Except.ok.inj hnext
        refine ⟨?_, ?_, ?_⟩
        · intro id
          rw [htouched, replacement, hmatch, Option.or_assoc]
          rfl
        · rw [hadded, additions, hmatch, hid]
          simp
        · intro m hm hnone own hown
          rcases List.mem_cons.1 hm with rfl | hm
          · rw [hid] at hown
            obtain rfl := Option.some.inj hown
            simpa using hany
          · exact hnames m hm hnone own hown
      | none =>
        simp only [hid] at hnext
        obtain rfl := Except.ok.inj hnext
        refine ⟨?_, ?_, ?_⟩
        · intro id
          rw [htouched, replacement, hmatch, Option.or_assoc]
          rfl
        · rw [hadded, additions, hmatch, hid]
          simp
        · intro m hm hnone own hown
          rcases List.mem_cons.1 hm with rfl | hm
          · rw [hid] at hown
            cases hown
          · exact hnames m hm hnone own hown

theorem exists_foldlM_applyInput (now : String) (makeId : Nat → String) (hnames : NamesLinks current requests)
    (state : ApplyState) : ∃ final, requests.foldlM (applyInput current now makeId) state = .ok final := by
  induction requests generalizing state with
  | nil => exact ⟨state, rfl⟩
  | cons n requests ih =>
    have hstep : ∃ next, applyInput current now makeId state n = .ok next := by
      unfold applyInput
      cases hmatch : matchOf current n with
      | some found => exact ⟨_, rfl⟩
      | none =>
        cases hid : n.id with
        | some id =>
          have hnot := hnames n List.mem_cons_self hmatch id hid
          have hany : current.any (·.id == id) = false := by simpa using hnot
          simp only [hany]
          exact ⟨_, rfl⟩
        | none => exact ⟨_, rfl⟩
    obtain ⟨next, hnext⟩ := hstep
    obtain ⟨final, hfinal⟩ := ih (fun m hm => hnames m (List.mem_cons_of_mem _ hm)) next
    exact ⟨final, by rw [List.foldlM_cons, hnext]; exact hfinal⟩

end

section
variable {current : List Attachment} {makeId : Nat → String} {requests : List NormalizedLinkInput} {made : Nat}
  {p : NormalizedLinkInput × String}

/-- A new id is neither there nor asked for, and is made once. -/
structure FreshIds (current : List Attachment) (requests : List NormalizedLinkInput) (makeId : Nat → String) : Prop where
  injective : Function.Injective makeId
  current : ∀ k, makeId k ∉ current.map (·.id)
  requests : ∀ k, ∀ n ∈ requests, n.id ≠ some (makeId k)

theorem mem_additions (h : p ∈ additions current makeId made requests) :
    p.1 ∈ requests ∧ matchOf current p.1 = none ∧ (∀ id, p.1.id = some id → p.2 = id) ∧
      (p.1.id = none → ∃ k, made ≤ k ∧ p.2 = makeId k) := by
  induction requests generalizing made with
  | nil => cases h
  | cons n requests ih =>
    rw [additions] at h
    split_ifs at h with hmatch
    · obtain ⟨hmem, hrest⟩ := ih h
      exact ⟨List.mem_cons_of_mem _ hmem, hrest⟩
    · rw [Option.not_isSome_iff_eq_none] at hmatch
      cases hid : n.id with
      | some id =>
        simp only [hid] at h
        rcases List.mem_cons.1 h with rfl | h
        · refine ⟨List.mem_cons_self, hmatch, ?_, ?_⟩
          · intro own hown
            rw [hid] at hown
            exact Option.some.inj hown
          · intro hnone
            rw [hid] at hnone
            cases hnone
        · obtain ⟨hmem, hrest⟩ := ih h
          exact ⟨List.mem_cons_of_mem _ hmem, hrest⟩
      | none =>
        simp only [hid] at h
        rcases List.mem_cons.1 h with rfl | h
        · refine ⟨List.mem_cons_self, hmatch, ?_, fun _ => ⟨made, le_rfl, rfl⟩⟩
          intro own hown
          rw [hid] at hown
          cases hown
        · obtain ⟨hmem, hnone, hown, hmade⟩ := ih h
          refine ⟨List.mem_cons_of_mem _ hmem, hnone, hown, ?_⟩
          intro hid
          obtain ⟨k, hk, heq⟩ := hmade hid
          exact ⟨k, by omega, heq⟩

theorem map_fst_additions (made : Nat) : (additions current makeId made requests).map Prod.fst =
    requests.filter fun n => (matchOf current n).isNone := by
  induction requests generalizing made with
  | nil => rfl
  | cons n requests ih =>
    rw [additions]
    cases hmatch : matchOf current n with
    | some found => simp [hmatch, ih]
    | none => cases hid : n.id <;> simp [hmatch, ih]

theorem nodup_snd_additions (hapart : requests.Pairwise Apart) (hfresh : FreshIds current requests makeId) :
    ((additions current makeId made requests).map Prod.snd).Nodup := by
  induction requests generalizing made with
  | nil => exact List.nodup_nil
  | cons n requests ih =>
    obtain ⟨hn, hrest⟩ := List.pairwise_cons.1 hapart
    have hfresh' : FreshIds current requests makeId :=
      ⟨hfresh.injective, hfresh.current, fun k m hm => hfresh.requests k m (List.mem_cons_of_mem _ hm)⟩
    rw [additions]
    split_ifs with hmatch
    · exact ih hrest hfresh'
    · cases hid : n.id with
      | some id =>
        refine List.nodup_cons.2 ⟨?_, ih hrest hfresh'⟩
        intro hmem
        obtain ⟨p, hp, hpid⟩ := List.mem_map.1 hmem
        obtain ⟨hpmem, -, hown, hmade⟩ := mem_additions hp
        cases hpown : p.1.id with
        | some own =>
          have heq : own = id := (hown own hpown).symm.trans hpid
          exact (hn p.1 hpmem).1 id hid (by rw [hpown, heq])
        | none =>
          obtain ⟨k, -, hk⟩ := hmade hpown
          have heq : id = makeId k := hpid.symm.trans hk
          exact hfresh.requests k n List.mem_cons_self (by rw [hid, heq])
      | none =>
        refine List.nodup_cons.2 ⟨?_, ih hrest hfresh'⟩
        intro hmem
        obtain ⟨p, hp, hpid⟩ := List.mem_map.1 hmem
        obtain ⟨hpmem, -, hown, hmade⟩ := mem_additions hp
        change p.2 = makeId made at hpid
        cases hpown : p.1.id with
        | some own =>
          have heq : own = makeId made := (hown own hpown).symm.trans hpid
          exact hfresh'.requests made p.1 hpmem (by rw [hpown, heq])
        | none =>
          obtain ⟨k, hk, hpk⟩ := hmade hpown
          have heq : made = k := hfresh.injective (hpid.symm.trans hpk)
          omega

end

/-! ### What one run leaves -/

/-- What is known of a replacement that was accepted. -/
structure Accepted (current : List Attachment) (now : String) (makeId : Nat → String)
    (requests : List NormalizedLinkInput) : Prop where
  ids : (current.map (·.id)).Nodup
  apart : requests.Pairwise Apart
  names : NamesLinks current requests
  fresh : FreshIds current requests makeId
  now : now ≠ ""

/-- `a` is what the input `n` has left. -/
def Makes (current : List Attachment) (now : String) (makeId : Nat → String) (requests : List NormalizedLinkInput)
    (n : NormalizedLinkInput) (a : Attachment) : Prop :=
  (∃ found, matchOf current n = some found ∧ a = replaceLink now (replacement current now requests) found ∧
    ∀ m ∈ requests, Takes current m found.id → m = n ∨ [m, n].Sublist requests) ∨
  ∃ id, (n, id) ∈ additions current makeId 0 requests ∧ a = newLink now id n

section
variable {current : List Attachment} {now : String} {makeId : Nat → String} {requests : List NormalizedLinkInput}
  {m n : NormalizedLinkInput} {found a b : Attachment}

theorem replaceLink_eq_of_none (hlink : isLink a = true) (hnone : replacement current now requests a.id = none) :
    replaceLink now (replacement current now requests) a = if truthy a.deletedAt then a else buryLink now a := by
  rw [replaceLink, hlink, hnone]
  rfl

theorem replaceLink_eq_of_some (hlink : isLink a = true) (hsome : replacement current now requests a.id = some b) :
    replaceLink now (replacement current now requests) a = b := by
  rw [replaceLink, hlink, hsome]
  rfl

theorem replaceLink_file (hfile : isLink a = false) : replaceLink now (replacement current now requests) a = a := by
  rw [replaceLink, hfile]
  rfl

theorem replaceLink_id (now : String) (requests : List NormalizedLinkInput) (a : Attachment) :
    (replaceLink now (replacement current now requests) a).id = a.id := by
  cases hlink : isLink a with
  | false => rw [replaceLink_file hlink]
  | true =>
    cases hsome : replacement current now requests a.id with
    | none =>
      rw [replaceLink_eq_of_none hlink hsome]
      split_ifs <;> rfl
    | some b =>
      obtain ⟨n, -, found, -, hid, rfl, -⟩ := replacement_eq_some hsome
      rw [replaceLink_eq_of_some hlink hsome, (rewriteLink_id now found n).1, hid]

theorem mem_outcome_of_mem (now : String) (makeId : Nat → String) (requests : List NormalizedLinkInput)
    (ha : a ∈ current) :
    replaceLink now (replacement current now requests) a ∈ outcome current now makeId requests :=
  List.mem_append_left _ (List.mem_map_of_mem ha)

theorem mem_outcome_of_addition (now : String) {id : String} (h : (n, id) ∈ additions current makeId 0 requests) :
    newLink now id n ∈ outcome current now makeId requests := by
  apply List.mem_append_right
  exact List.mem_map_of_mem (f := fun p : NormalizedLinkInput × String => newLink now p.2 p.1) h

theorem nodup_outcome (hrun : Accepted current now makeId requests) :
    ((outcome current now makeId requests).map (·.id)).Nodup := by
  have hids : (current.map (replaceLink now (replacement current now requests))).map (·.id) = current.map (·.id) := by
    rw [List.map_map]
    exact List.map_congr_left fun a _ => replaceLink_id now requests a
  have hnew : ((additions current makeId 0 requests).map fun p => newLink now p.2 p.1).map (·.id) =
      (additions current makeId 0 requests).map Prod.snd := by
    rw [List.map_map]
    rfl
  rw [outcome, List.map_append, hids, hnew, List.nodup_append]
  refine ⟨hrun.ids, nodup_snd_additions hrun.apart hrun.fresh, ?_⟩
  rintro id hid other hother rfl
  obtain ⟨p, hp, rfl⟩ := List.mem_map.1 hother
  obtain ⟨hmem, hnone, hown, hmade⟩ := mem_additions hp
  cases hpid : p.1.id with
  | some own =>
    rw [hown own hpid] at hid
    exact hrun.names p.1 hmem hnone own hpid hid
  | none =>
    obtain ⟨k, -, hk⟩ := hmade hpid
    rw [hk] at hid
    exact hrun.fresh.current k hid

/-- The last input that takes a link makes it. -/
theorem makes_of_last (hrun : Accepted current now makeId requests) (hn : n ∈ requests)
    (hmatch : matchOf current n = some found)
    (hlast : ∀ m ∈ requests, Takes current m found.id → m = n ∨ [m, n].Sublist requests) :
    Carries n (replaceLink now (replacement current now requests) found) ∧
      Makes current now makeId requests n (replaceLink now (replacement current now requests) found) := by
  refine ⟨?_, .inl ⟨found, hmatch, rfl, hlast⟩⟩
  obtain ⟨-, hlink, hid⟩ := matchOf_spec hrun.ids hmatch
  have hne : replacement current now requests found.id ≠ none := by
    rw [Ne, replacement_eq_none]
    exact fun hnot => hnot n hn ⟨found, hmatch, rfl⟩
  obtain ⟨b, hb⟩ := Option.ne_none_iff_exists'.1 hne
  obtain ⟨m, hm, other, hother, hotherId, rfl, hbefore⟩ := replacement_eq_some hb
  have heq : m = n := by
    by_contra hmn
    have hfirst := (hlast m hm ⟨other, hother, hotherId⟩).resolve_left hmn
    have hsecond := (hbefore n hn ⟨found, hmatch, rfl⟩).resolve_left (Ne.symm hmn)
    exact not_nodup_of_pair_sublist hfirst hsecond (nodup_of_apart hrun.apart)
  subst heq
  rw [hmatch] at hother
  obtain rfl := Option.some.inj hother
  rw [replaceLink_eq_of_some hlink hb]
  exact carries_rewriteLink hlink hid

theorem makes_of_addition (now : String) {id : String} (h : (n, id) ∈ additions current makeId 0 requests) :
    Carries n (newLink now id n) ∧ Makes current now makeId requests n (newLink now id n) := by
  obtain ⟨-, -, hown, -⟩ := mem_additions h
  exact ⟨carries_newLink fun own hid => hown own hid, .inr ⟨id, h, rfl⟩⟩

theorem exists_addition (makeId : Nat → String) (hn : n ∈ requests) (hmatch : matchOf current n = none) :
    ∃ id, (n, id) ∈ additions current makeId 0 requests := by
  have hmem : n ∈ (additions current makeId 0 requests).map Prod.fst := by
    rw [map_fst_additions, List.mem_filter]
    exact ⟨hn, by simp [hmatch]⟩
  obtain ⟨p, hp, rfl⟩ := List.mem_map.1 hmem
  exact ⟨p.2, hp⟩

/-- A link that is live after the replacement was made by an input. -/
theorem made_of_live (hrun : Accepted current now makeId requests) (ha : a ∈ outcome current now makeId requests)
    (hlive : isLiveLink a = true) :
    ∃ n ∈ requests, Carries n a ∧ Makes current now makeId requests n a := by
  rw [outcome, List.mem_append] at ha
  rcases ha with ha | ha
  · obtain ⟨b, hb, rfl⟩ := List.mem_map.1 ha
    cases hlink : isLink b with
    | false =>
      rw [replaceLink_file hlink] at hlive
      rw [isLink_of_live hlive] at hlink
      cases hlink
    | true =>
      cases hsome : replacement current now requests b.id with
      | none =>
        rw [replaceLink_eq_of_none hlink hsome] at hlive
        split_ifs at hlive with hdeleted
        · simp [isLiveLink, hdeleted] at hlive
        · simp [isLiveLink, buryLink, hrun.now] at hlive
      | some c =>
        obtain ⟨n, hn, found, hfound, hid, -, hlast⟩ := replacement_eq_some hsome
        have heq : found = b := eq_of_ids hrun.ids (matchOf_spec hrun.ids hfound).1 hb hid
        subst heq
        exact ⟨n, hn, makes_of_last hrun hn hfound hlast⟩
  · obtain ⟨p, hp, rfl⟩ := List.mem_map.1 ha
    exact ⟨p.1, (mem_additions hp).1, makes_of_addition now hp⟩

/-- An input makes one link. -/
theorem eq_of_makes (hrun : Accepted current now makeId requests) (ha : Makes current now makeId requests n a)
    (hb : Makes current now makeId requests n b) : a = b := by
  have hadded : ∀ {id}, (n, id) ∈ additions current makeId 0 requests → matchOf current n = none :=
    fun h => (mem_additions h).2.1
  rcases ha with ⟨found, hfound, rfl, -⟩ | ⟨id, hid, rfl⟩
  · rcases hb with ⟨other, hother, rfl, -⟩ | ⟨id, hid, rfl⟩
    · rw [hfound] at hother
      rw [Option.some.inj hother]
    · rw [hadded hid] at hfound
      cases hfound
  · rcases hb with ⟨other, hother, rfl, -⟩ | ⟨other, hother, rfl⟩
    · rw [hadded hid] at hother
      cases hother
    · have hnodup : ((additions current makeId 0 requests).map Prod.fst).Nodup := by
        rw [map_fst_additions]
        exact (nodup_of_apart hrun.apart).filter _
      have heq := List.inj_on_of_nodup_map hnodup hid hother rfl
      rw [(Prod.mk.inj heq).2]

theorem eq_replaceLink_of_id (hrun : Accepted current now makeId requests)
    (ha : a ∈ outcome current now makeId requests) (hb : b ∈ current) (hid : a.id = b.id) :
    a = replaceLink now (replacement current now requests) b := by
  apply eq_of_ids (nodup_outcome hrun) ha (mem_outcome_of_mem now makeId requests hb)
  rw [hid, replaceLink_id]

/-- Of the inputs that take a link, one without id is the only one of its kind. -/
theorem eq_of_takes (hrun : Accepted current now makeId requests) (hn : n ∈ requests) (hid : n.id = none)
    (hmatch : matchOf current n = some found) (hm : m ∈ requests) (htakes : Takes current m found.id) :
    m = n ∨ m.id = some found.id := by
  obtain ⟨other, hother, hotherId⟩ := htakes
  obtain ⟨hmem, -, hown⟩ := matchOf_spec hrun.ids hother
  cases hmid : m.id with
  | some own => exact .inr (by rw [← hown own hmid, hotherId])
  | none =>
    refine .inl ?_
    have heq : other = found := eq_of_ids hrun.ids hmem (matchOf_spec hrun.ids hmatch).1 hotherId
    rw [matchOf_of_none hmid, heq] at hother
    rw [matchOf_of_none hid] at hmatch
    have huri := eq_of_str (firstLive_spec hother).2.2 (firstLive_spec hmatch).2.2
    by_contra hne
    exact (after_of_same_uri hrun.apart hn hm hid huri hne).2 hmid

end

/-! ### Requested links -/

/-- An input without id does not lose its link to one with an id, and stands before those with its uri. -/
structure KeepsItsLink (current : List Attachment) (requests : List NormalizedLinkInput) (n : NormalizedLinkInput) :
    Prop where
  taken : ∀ found, firstLive current n.uri = some found → ∀ m ∈ requests, m.id = some found.id →
    [n, m].Sublist requests ∧ ∃ k ∈ requests, k.id ≠ none ∧ k.uri = n.uri ∧ k.title = n.title
  shared : ∀ m ∈ requests, m.uri = n.uri → ∀ other ∈ current, m.id = some other.id →
    ∃ found, firstLive current n.uri = some found ∧
      ((∀ k ∈ requests, k.id ≠ some found.id) → [found, other].Sublist current)

section
variable {current : List Attachment} {now : String} {makeId : Nat → String} {requests : List NormalizedLinkInput}
  {m n : NormalizedLinkInput} {found a b : Attachment}

def Carried (current : List Attachment) (now : String) (makeId : Nat → String) (requests : List NormalizedLinkInput) :
    Prop :=
  ∀ n ∈ requests, ∃ a ∈ outcome current now makeId requests, Carries n a

/-- An input with an id has its link where no later input without id takes it. -/
theorem carried_of_id (hrun : Accepted current now makeId requests) (hn : n ∈ requests) (hid : n.id ≠ none)
    (htaken : ∀ m ∈ requests, m.id = none → ∀ found, firstLive current m.uri = some found →
      n.id = some found.id → [m, n].Sublist requests) :
    ∃ a ∈ outcome current now makeId requests, Carries n a := by
  obtain ⟨id, hid⟩ := Option.ne_none_iff_exists'.1 hid
  cases hmatch : matchOf current n with
  | none =>
    obtain ⟨new, hnew⟩ := exists_addition makeId hn hmatch
    exact ⟨_, mem_outcome_of_addition now hnew, (makes_of_addition now hnew).1⟩
  | some found =>
    obtain ⟨hfound, -, hown⟩ := matchOf_spec hrun.ids hmatch
    have hfoundId := hown id hid
    refine ⟨_, mem_outcome_of_mem now makeId requests hfound, (makes_of_last hrun hn hmatch ?_).1⟩
    rintro m hm ⟨other, hother, hotherId⟩
    obtain ⟨hmem, -, hownM⟩ := matchOf_spec hrun.ids hother
    cases hmid : m.id with
    | some own =>
      refine .inl (eq_of_same_id hrun.apart hm hn hmid ?_)
      rw [hid, ← hownM own hmid, hotherId, hfoundId]
    | none =>
      rw [matchOf_of_none hmid] at hother
      exact .inr (htaken m hm hmid other hother (by rw [hid, hotherId, hfoundId]))

theorem carried_iff (hrun : Accepted current now makeId requests) :
    Carried current now makeId requests ↔ ∀ n ∈ requests, n.id = none →
      ∀ found, firstLive current n.uri = some found → ∀ m ∈ requests, m.id = some found.id →
        [n, m].Sublist requests ∧ ∃ k ∈ requests, k.id ≠ none ∧ k.uri = n.uri ∧ k.title = n.title := by
  constructor
  · intro hcarried n hn hid found hfound m hm hmid
    have hmatch : matchOf current n = some found := by rw [matchOf_of_none hid, hfound]
    obtain ⟨hmem, hlive, huri⟩ := firstLive_spec hfound
    have hne : n ≠ m := by
      rintro rfl
      rw [hid] at hmid
      cases hmid
    have htakesOf : ∀ k ∈ requests, Takes current k found.id → k = n ∨ k = m := by
      intro k hk htakes
      exact (eq_of_takes hrun hn hid hmatch hk htakes).imp_right fun hkid => eq_of_same_id hrun.apart hk hm hkid hmid
    have hbefore : [n, m].Sublist requests := by
      refine (pair_sublist_or hn hm hne).resolve_right ?_
      intro hpair
      have hlast := makes_of_last hrun hn hmatch fun k hk htakes =>
        (htakesOf k hk htakes).imp_right fun heq => by rw [heq]; exact hpair
      obtain ⟨a, ha, hcarries⟩ := hcarried m hm
      have heq := eq_replaceLink_of_id hrun ha hmem (hcarries.id found.id hmid)
      have huris := eq_of_str hcarries.uri ((congrArg (·.uri) heq).trans hlast.1.uri)
      exact (rel_of_pair_sublist hrun.apart hpair).2 hid huris
    refine ⟨hbefore, ?_⟩
    obtain ⟨a, ha, hcarries⟩ := hcarried n hn
    obtain ⟨k, hk, hkcarries, hkmakes⟩ := made_of_live hrun ha hcarries.live
    have huris := eq_of_str hkcarries.uri hcarries.uri
    have htitles := eq_of_str hkcarries.title hcarries.title
    refine ⟨k, hk, ?_, huris, htitles⟩
    intro hkid
    have heq : k = n := by
      by_contra hkn
      exact (after_of_same_uri hrun.apart hn hk hid huris hkn).2 hkid
    subst heq
    rcases hkmakes with ⟨other, hother, -, hlast⟩ | ⟨id, hadded, -⟩
    · rw [hmatch] at hother
      obtain rfl := Option.some.inj hother
      have htakes := takes_of_id hrun.ids hmem (isLink_of_live hlive) hmid
      have hpair := (hlast m hm htakes).resolve_left (Ne.symm hne)
      exact not_nodup_of_pair_sublist hbefore hpair (nodup_of_apart hrun.apart)
    · rw [(mem_additions hadded).2.1] at hmatch
      cases hmatch
  · intro htaken n hn
    have hofId : ∀ k ∈ requests, k.id ≠ none → ∃ a ∈ outcome current now makeId requests, Carries k a := by
      intro k hk hkid
      apply carried_of_id hrun hk hkid
      intro m hm hmid found hfound hkfound
      exact (htaken m hm hmid found hfound k hk hkfound).1
    by_cases hid : n.id = none
    · cases hmatch : matchOf current n with
      | none =>
        obtain ⟨new, hnew⟩ := exists_addition makeId hn hmatch
        exact ⟨_, mem_outcome_of_addition now hnew, (makes_of_addition now hnew).1⟩
      | some found =>
        have hfirst := hmatch
        rw [matchOf_of_none hid] at hfirst
        by_cases hnamed : ∃ m ∈ requests, m.id = some found.id
        · obtain ⟨m, hm, hmid⟩ := hnamed
          obtain ⟨-, k, hk, hkid, huri, htitle⟩ := htaken n hn hid found hfirst m hm hmid
          obtain ⟨a, ha, hcarries⟩ := hofId k hk hkid
          refine ⟨a, ha, hcarries.live, by rw [hcarries.title, htitle], by rw [hcarries.uri, huri], ?_⟩
          intro own hown
          rw [hid] at hown
          cases hown
        · refine ⟨_, mem_outcome_of_mem now makeId requests (firstLive_spec hfirst).1, (makes_of_last hrun hn hmatch ?_).1⟩
          intro m hm htakes
          refine (eq_of_takes hrun hn hid hmatch hm htakes).imp_right fun hmid => ?_
          exact absurd ⟨m, hm, hmid⟩ hnamed
    · exact hofId n hn hid

/-! ### The same inputs again -/

theorem exists_match_again (hrun : Accepted current now makeId requests)
    (hcarried : Carried current now makeId requests) (hn : n ∈ requests) :
    ∃ found, matchOf (outcome current now makeId requests) n = some found := by
  obtain ⟨a, ha, hcarries⟩ := hcarried n hn
  cases hid : n.id with
  | none =>
    rw [matchOf_of_none hid]
    exact firstLive_isSome ha hcarries.live hcarries.uri
  | some id =>
    refine ⟨a, matchOf_of_id (nodup_outcome hrun) ha (isLink_of_live hcarries.live) ?_⟩
    rw [hid, hcarries.id id hid]

theorem additions_eq_nil {makeId : Nat → String} {made : Nat}
    (h : ∀ n ∈ requests, ∃ found, matchOf current n = some found) : additions current makeId made requests = [] := by
  have hfilter : (requests.filter fun n => (matchOf current n).isNone) = [] := by
    rw [List.filter_eq_nil_iff]
    intro n hn
    obtain ⟨found, hfound⟩ := h n hn
    simp [hfound]
  rw [← List.map_eq_nil_iff, map_fst_additions, hfilter]

theorem map_eq_self_iff {f : Attachment → Attachment} {l : List Attachment} : l.map f = l ↔ ∀ a ∈ l, f a = a := by
  conv_lhs =>
    rhs
    rw [← List.map_id l]
  exact List.map_inj_left

/-- Nothing changes exactly where every live link is taken again. -/
theorem outcome_again_iff (hrun : Accepted current now makeId requests)
    (hcarried : Carried current now makeId requests) {later : String} (hlater : later ≠ "") (makeId' : Nat → String) :
    outcome (outcome current now makeId requests) later makeId' requests = outcome current now makeId requests ↔
      ∀ a ∈ outcome current now makeId requests, isLiveLink a = true →
        ∃ n ∈ requests, Takes (outcome current now makeId requests) n a.id := by
  have hnodup := nodup_outcome hrun
  have hadded : additions (outcome current now makeId requests) makeId' 0 requests = [] :=
    additions_eq_nil fun n hn => exists_match_again hrun hcarried hn
  rw [outcome, hadded, List.map_nil, List.append_nil, map_eq_self_iff]
  refine forall₂_congr fun a ha => ?_
  constructor
  · intro hsame hlive
    by_contra hnot
    have hnone : replacement (outcome current now makeId requests) later requests a.id = none := by
      rw [replacement_eq_none]
      exact fun n hn htakes => hnot ⟨n, hn, htakes⟩
    rw [replaceLink_eq_of_none (isLink_of_live hlive) hnone] at hsame
    rw [isLiveLink, Bool.and_eq_true, Bool.not_eq_true'] at hlive
    rw [hlive.2, if_neg (by simp)] at hsame
    have hdeleted := hlive.2
    rw [← hsame] at hdeleted
    simp [buryLink, hlater] at hdeleted
  · intro htaken
    cases hlink : isLink a with
    | false => exact replaceLink_file hlink
    | true =>
      cases hsome : replacement (outcome current now makeId requests) later requests a.id with
      | none =>
        rw [replaceLink_eq_of_none hlink hsome]
        refine if_pos ?_
        by_contra hdeleted
        obtain ⟨n, hn, htakes⟩ := htaken (by simp [isLiveLink, hlink, hdeleted])
        exact replacement_eq_none.1 hsome n hn htakes
      | some b =>
        obtain ⟨n, hn, found, hfound, hid, rfl, hlast⟩ := replacement_eq_some hsome
        rw [replaceLink_eq_of_some hlink hsome]
        have heq : found = a := eq_of_ids hnodup (matchOf_spec hnodup hfound).1 ha hid
        subst heq
        have hcarries : Carries n found := by
          cases hnid : n.id with
          | some own =>
            obtain ⟨c, hc, hcarries⟩ := hcarried n hn
            have hown := (matchOf_spec hnodup hfound).2.2 own hnid
            have heq : c = found := eq_of_ids hnodup hc ha ((hcarries.id own hnid).trans hown.symm)
            exact heq ▸ hcarries
          | none =>
            rw [matchOf_of_none hnid] at hfound
            obtain ⟨-, hlive, huri⟩ := firstLive_spec hfound
            obtain ⟨k, hk, hkcarries, -⟩ := made_of_live hrun ha hlive
            have huris := eq_of_str hkcarries.uri huri
            by_cases hkn : k = n
            · exact hkn ▸ hkcarries
            · obtain ⟨hpair, hkid⟩ := after_of_same_uri hrun.apart hn hk hnid huris hkn
              obtain ⟨own, hown⟩ := Option.ne_none_iff_exists'.1 hkid
              have hkid' : k.id = some found.id := by rw [hown, hkcarries.id own hown]
              have hback := (hlast k hk (takes_of_id hnodup ha hlink hkid')).resolve_left hkn
              exact absurd (nodup_of_apart hrun.apart) (not_nodup_of_pair_sublist hpair hback)
        exact rewriteLink_eq_self hcarries.live hcarries.title hcarries.uri

/-- A link of an input without id is left alone where another live link with its uri stands before it. -/
theorem not_taken_again (hrun : Accepted current now makeId requests) (hcarries : Carries n a)
    (ha : a ∈ outcome current now makeId requests) (hnamed : ∀ k ∈ requests, k.id ≠ some a.id)
    (hb : b ∈ outcome current now makeId requests) (hlive : isLiveLink b = true) (huri : b.uri = some (.str n.uri))
    (hpair : [b, a].Sublist (outcome current now makeId requests)) :
    ∀ k ∈ requests, ¬Takes (outcome current now makeId requests) k a.id := by
  rintro k hk ⟨found, hfound, hfoundId⟩
  have hnodup := nodup_outcome hrun
  have hne : a ≠ b := by
    rintro rfl
    have hpair' := (List.Nodup.of_map _ hnodup).sublist hpair
    simp at hpair'
  have heq : found = a := eq_of_ids hnodup (matchOf_spec hnodup hfound).1 ha hfoundId
  cases hkid : k.id with
  | some own =>
    have hown := (matchOf_spec hnodup hfound).2.2 own hkid
    exact hnamed k hk (by rw [hkid, ← hown, hfoundId])
  | none =>
    rw [matchOf_of_none hkid, heq] at hfound
    have huris := eq_of_str (firstLive_spec hfound).2.2 hcarries.uri
    rw [huris] at hfound
    have hback := pair_sublist_of_find? hfound hb (by simp [hlive, huri]) hne
    exact not_nodup_of_pair_sublist hpair hback (List.Nodup.of_map _ hnodup)

theorem taken_again_iff (hrun : Accepted current now makeId requests)
    (hcarried : Carried current now makeId requests) :
    (∀ a ∈ outcome current now makeId requests, isLiveLink a = true →
        ∃ n ∈ requests, Takes (outcome current now makeId requests) n a.id) ↔
      ∀ n ∈ requests, n.id = none → ∀ m ∈ requests, m.uri = n.uri → ∀ other ∈ current, m.id = some other.id →
        ∃ found, firstLive current n.uri = some found ∧
          ((∀ k ∈ requests, k.id ≠ some found.id) → [found, other].Sublist current) := by
  have hnodup := nodup_outcome hrun
  have himage : ∀ {r b : Attachment}, [r, b].Sublist current →
      [replaceLink now (replacement current now requests) r,
        replaceLink now (replacement current now requests) b].Sublist (outcome current now makeId requests) :=
    fun hpair => (hpair.map _).trans (List.sublist_append_left _ _)
  constructor
  · intro htaken n hn hid m hm huri other hother hmid
    obtain ⟨b, hb, hbcarries⟩ := hcarried m hm
    have hburi : b.uri = some (.str n.uri) := by rw [hbcarries.uri, huri]
    have hbeq := eq_replaceLink_of_id hrun hb hother (hbcarries.id other.id hmid)
    cases hmatch : matchOf current n with
    | none =>
      obtain ⟨id, hadded⟩ := exists_addition makeId hn hmatch
      obtain ⟨hcarries, -⟩ := makes_of_addition now hadded
      have ha := mem_outcome_of_addition now hadded
      have hpair : [b, newLink now id n].Sublist (outcome current now makeId requests) := by
        rw [hbeq]
        refine pair_sublist_append (List.mem_map_of_mem hother) ?_
        exact List.mem_map_of_mem (f := fun p : NormalizedLinkInput × String => newLink now p.2 p.1) hadded
      obtain ⟨k, hk, htakes⟩ := htaken _ ha hcarries.live
      refine absurd htakes (not_taken_again hrun hcarries ha ?_ hb hbcarries.live hburi hpair k hk)
      intro l hl hlid
      obtain ⟨j, -, hj⟩ := (mem_additions hadded).2.2.2 hid
      exact hrun.fresh.requests j l hl (by rw [hlid, ← hj]; rfl)
    | some found =>
      have hfirst := hmatch
      rw [matchOf_of_none hid] at hfirst
      refine ⟨found, hfirst, fun hnamed => ?_⟩
      have hfound := (firstLive_spec hfirst).1
      have hne : found ≠ other := by
        rintro rfl
        exact hnamed m hm hmid
      refine (pair_sublist_or hfound hother hne).resolve_right fun hpair => ?_
      obtain ⟨hcarries, -⟩ := makes_of_last hrun hn hmatch fun k hk htakes =>
        (eq_of_takes hrun hn hid hmatch hk htakes).imp_right fun hkid => absurd hkid (hnamed k hk)
      have ha := mem_outcome_of_mem now makeId requests hfound
      obtain ⟨k, hk, htakes⟩ := htaken _ ha hcarries.live
      refine not_taken_again hrun hcarries ha ?_ hb hbcarries.live hburi (hbeq ▸ himage hpair) k hk htakes
      rw [replaceLink_id]
      exact hnamed
  · intro hshared a ha hlive
    obtain ⟨n, hn, hcarries, hmakes⟩ := made_of_live hrun ha hlive
    by_cases hnamed : ∃ k ∈ requests, k.id = some a.id
    · obtain ⟨k, hk, hkid⟩ := hnamed
      exact ⟨k, hk, takes_of_id hnodup ha (isLink_of_live hlive) hkid⟩
    cases hid : n.id with
    | some own => exact absurd ⟨n, hn, by rw [hid, hcarries.id own hid]⟩ hnamed
    | none =>
      obtain ⟨f, hf⟩ := firstLive_isSome ha hlive hcarries.uri
      by_cases hfa : f = a
      · refine ⟨n, hn, a, ?_, rfl⟩
        rw [matchOf_of_none hid, hf, hfa]
      · exfalso
        obtain ⟨hfmem, hflive, hfuri⟩ := firstLive_spec hf
        have hafter : [f, a].Sublist (outcome current now makeId requests) :=
          pair_sublist_of_find? hf ha (by simp [hlive, hcarries.uri]) hfa
        obtain ⟨m, hm, hmcarries, hmmakes⟩ := made_of_live hrun hfmem hflive
        have huris := eq_of_str hmcarries.uri hfuri
        have hmn : m ≠ n := by
          rintro rfl
          exact hfa (eq_of_makes hrun hmmakes hmakes)
        obtain ⟨hpair, hmid⟩ := after_of_same_uri hrun.apart hn hm hid huris hmn
        obtain ⟨own, hown⟩ := Option.ne_none_iff_exists'.1 hmid
        have hmid : m.id = some f.id := by rw [hown, hmcarries.id own hown]
        have hbefore : [a, f].Sublist (outcome current now makeId requests) := by
          rcases hmakes with ⟨r, hr, rfl, -⟩ | ⟨id, hadded, rfl⟩
          · rcases hmmakes with ⟨other, hother, rfl, -⟩ | ⟨id, hadded, rfl⟩
            · rw [replaceLink_id] at hmid
              obtain ⟨found, hfound, hpair⟩ := hshared n hn hid m hm huris other (matchOf_spec hrun.ids hother).1 hmid
              rw [matchOf_of_none hid, hfound] at hr
              obtain rfl := Option.some.inj hr
              refine himage (hpair fun k hk hkid => hnamed ⟨k, hk, ?_⟩)
              rw [replaceLink_id, hkid]
            · refine pair_sublist_append (List.mem_map_of_mem (matchOf_spec hrun.ids hr).1) ?_
              exact List.mem_map_of_mem (f := fun p : NormalizedLinkInput × String => newLink now p.2 p.1) hadded
          · rcases hmmakes with ⟨other, hother, rfl, -⟩ | ⟨otherId, hotherAdded, rfl⟩
            · rw [replaceLink_id] at hmid
              obtain ⟨found, hfound, -⟩ := hshared n hn hid m hm huris other (matchOf_spec hrun.ids hother).1 hmid
              have hnone := (mem_additions hadded).2.1
              rw [matchOf_of_none hid, hfound] at hnone
              cases hnone
            · have hfilter : [n, m].Sublist ((additions current makeId 0 requests).map Prod.fst) := by
                rw [map_fst_additions]
                have hpair' := hpair.filter fun n => (matchOf current n).isNone
                simpa [(mem_additions hadded).2.1, (mem_additions hotherAdded).2.1] using hpair'
              obtain ⟨p, q, hp, hq, hpq⟩ := pair_sublist_of_map hfilter
              have hunique : ((additions current makeId 0 requests).map Prod.fst).Nodup := by
                rw [map_fst_additions]
                exact (nodup_of_apart hrun.apart).filter _
              have hpeq : p = (n, id) := List.inj_on_of_nodup_map hunique (hpq.subset (by simp)) hadded hp
              have hqeq : q = (m, otherId) := List.inj_on_of_nodup_map hunique (hpq.subset (by simp)) hotherAdded hq
              subst hpeq hqeq
              exact (hpq.map fun p => newLink now p.2 p.1).trans (List.sublist_append_right _ _)
        exact not_nodup_of_pair_sublist hafter hbefore (List.Nodup.of_map _ hnodup)

end

/-! ### The whole function -/

section
variable [Runtime] {existing : Option (List Attachment)} {inputs : Option (List LinkAttachmentInput)} {now : String}
  {makeId : Nat → String} {requests : List NormalizedLinkInput} {result : ApplyLinkAttachmentsResult}

/-- `requests` are the inputs without those that repeat a uri and have no id. -/
structure ReplacesExactly (current : List Attachment) (inputs : Option (List LinkAttachmentInput))
    (requests : List NormalizedLinkInput) (next : List Attachment) : Prop where
  ids : (next.map (·.id)).Nodup
  keeps : ∀ a ∈ current, ∃ b ∈ next, b.id = a.id
  files : ∀ a ∈ current, isLink a = false → a ∈ next
  deleted : ∀ a ∈ current, truthy a.deletedAt = true → (∀ n ∈ requests, n.id ≠ some a.id) → a ∈ next
  carried : ∀ n ∈ requests, ∃ a ∈ next, Carries n a
  only : ∀ a ∈ next, isLiveLink a = true → ∃ n ∈ requests, Carries n a
  again : ∀ (now : String) (makeId : Nat → String), now ≠ "" →
    ∃ again, applyLinkAttachmentsWithResult (some next) inputs now makeId = .ok again ∧ again.attachments = next

theorem apply_eq (now : String) (makeId : Nat → String)
    (hrequests : normalizeInputs (mayPreserve (existing.getD [])) (inputs.getD []) = .ok requests) :
    applyLinkAttachmentsWithResult existing inputs now makeId =
      (requests.foldlM (applyInput (existing.getD []) now makeId) {}).map fun state =>
        { attachments := (existing.getD []).map (replaceLink now state.touched.get?) ++ state.added
          preservedNetworkLinkCount := state.preservedNetworkLinkCount } := by
  unfold applyLinkAttachmentsWithResult
  dsimp only
  rw [hrequests]
  rfl

theorem attachments_eq_outcome (existing : Option (List Attachment))
    (hrequests : normalizeInputs (mayPreserve (existing.getD [])) (inputs.getD []) = .ok requests)
    (hresult : applyLinkAttachmentsWithResult existing inputs now makeId = .ok result) :
    NamesLinks (existing.getD []) requests ∧
      result.attachments = outcome (existing.getD []) now makeId requests := by
  rw [apply_eq now makeId hrequests] at hresult
  obtain ⟨state, hstate, rfl⟩ := map_eq_ok hresult
  obtain ⟨htouched, hadded, hnames⟩ := foldlM_applyInput hstate
  have htouched' : state.touched.get? = replacement (existing.getD []) now requests := by
    funext id
    rw [htouched, JsMap.get?_empty, Option.or_none]
  refine ⟨hnames, ?_⟩
  rw [outcome, ← htouched', hadded]
  rfl

theorem exists_result (existing : Option (List Attachment)) (now : String) (makeId : Nat → String)
    (hrequests : normalizeInputs (mayPreserve (existing.getD [])) (inputs.getD []) = .ok requests)
    (hnames : NamesLinks (existing.getD []) requests) :
    ∃ result, applyLinkAttachmentsWithResult existing inputs now makeId = .ok result ∧
      result.attachments = outcome (existing.getD []) now makeId requests := by
  obtain ⟨state, hstate⟩ := exists_foldlM_applyInput now makeId hnames {}
  have hresult := apply_eq now makeId hrequests
  rw [hstate] at hresult
  exact ⟨_, hresult, (attachments_eq_outcome existing hrequests hresult).2⟩

/-- The inputs that were accepted are accepted again. -/
theorem normalizeInputs_again {current : List Attachment} {inputs : List LinkAttachmentInput}
    (hrequests : normalizeInputs (mayPreserve current) inputs = .ok requests)
    (hrun : Accepted current now makeId requests) (hcarried : Carried current now makeId requests) :
    normalizeInputs (mayPreserve (outcome current now makeId requests)) inputs = .ok requests := by
  have hnodup := nodup_outcome hrun
  apply normalizeInputs_congr hrequests
  intro n hn
  obtain ⟨a, ha, hcarries⟩ := hcarried n hn
  have hbyUri : mayPreserve (outcome current now makeId requests) none n.uri = true := by
    obtain ⟨f, hf⟩ := firstLive_isSome ha hcarries.live hcarries.uri
    have huri := (firstLive_spec hf).2.2
    simp only [mayPreserve, get?_liveLinksByUri, hf, Option.any_some, huri, beq_self_eq_true]
  refine ⟨?_, hbyUri⟩
  cases hid : n.id with
  | none => exact hbyUri
  | some id =>
    have hfound := (liveLinksById_eq_some hnodup).2 ⟨ha, hcarries.live, hcarries.id id hid⟩
    simp only [mayPreserve, hfound, Option.any_some, hcarries.uri, beq_self_eq_true]

/-- The replacement is exact just where every input without id keeps its link. -/
theorem replaces_exactly_iff (hids : ((existing.getD []).map (·.id)).Nodup) (hnow : now ≠ "")
    (hfresh : FreshIds (existing.getD []) requests makeId)
    (hrequests : normalizeInputs (mayPreserve (existing.getD [])) (inputs.getD []) = .ok requests)
    (hresult : applyLinkAttachmentsWithResult existing inputs now makeId = .ok result) :
    ReplacesExactly (existing.getD []) inputs requests result.attachments ↔
      ∀ n ∈ requests, n.id = none → KeepsItsLink (existing.getD []) requests n := by
  obtain ⟨hnames, hattachments⟩ := attachments_eq_outcome existing hrequests hresult
  have hrun : Accepted (existing.getD []) now makeId requests :=
    ⟨hids, pairwise_apart hrequests, hnames, hfresh, hnow⟩
  rw [hattachments]
  constructor
  · intro hexact n hn hid
    have htaken := (carried_iff hrun).mp hexact.carried n hn hid
    refine ⟨htaken, ?_⟩
    obtain ⟨again, hagain, hsame⟩ := hexact.again now makeId hnow
    have hnormalized := normalizeInputs_again hrequests hrun hexact.carried
    rw [(attachments_eq_outcome (some _) hnormalized hagain).2] at hsame
    have hliveTaken := (outcome_again_iff hrun hexact.carried hnow makeId).mp hsame
    exact (taken_again_iff hrun hexact.carried).mp hliveTaken n hn hid
  · intro hkeeps
    have hcarried : Carried (existing.getD []) now makeId requests :=
      (carried_iff hrun).mpr fun n hn hid => (hkeeps n hn hid).taken
    refine
      { ids := nodup_outcome hrun
        keeps := fun a ha => ⟨_, mem_outcome_of_mem now makeId requests ha, replaceLink_id now requests a⟩
        files := ?_
        deleted := ?_
        carried := hcarried
        only := ?_
        again := ?_ }
    · intro a ha hfile
      have hmem := mem_outcome_of_mem now makeId requests ha
      rw [replaceLink_file hfile] at hmem
      exact hmem
    · intro a ha hdeleted hnamed
      have hmem := mem_outcome_of_mem now makeId requests ha
      cases hlink : isLink a with
      | false =>
        rw [replaceLink_file hlink] at hmem
        exact hmem
      | true =>
        have hnone : replacement (existing.getD []) now requests a.id = none := by
          rw [replacement_eq_none]
          rintro n hn ⟨found, hfound, hfoundId⟩
          obtain ⟨hmem, -, hown⟩ := matchOf_spec hids hfound
          cases hid : n.id with
          | some own => exact hnamed n hn (by rw [hid, ← hown own hid, hfoundId])
          | none =>
            rw [matchOf_of_none hid, eq_of_ids hids hmem ha hfoundId] at hfound
            have hlive := (firstLive_spec hfound).2.1
            simp [isLiveLink, hdeleted] at hlive
        rw [replaceLink_eq_of_none hlink hnone, if_pos hdeleted] at hmem
        exact hmem
    · intro a ha hlive
      obtain ⟨n, hn, hcarries, -⟩ := made_of_live hrun ha hlive
      exact ⟨n, hn, hcarries⟩
    · intro later makeId' hlater
      have hnormalized := normalizeInputs_again hrequests hrun hcarried
      have hagainNames : NamesLinks (outcome (existing.getD []) now makeId requests) requests := by
        intro n hn hnone
        obtain ⟨found, hfound⟩ := exists_match_again hrun hcarried hn
        rw [hfound] at hnone
        cases hnone
      obtain ⟨again, hagain, hsame⟩ := exists_result (some _) later makeId' hnormalized hagainNames
      refine ⟨again, hagain, hsame.trans ?_⟩
      refine (outcome_again_iff hrun hcarried hlater makeId').mpr ?_
      exact (taken_again_iff hrun hcarried).mpr fun n hn hid => (hkeeps n hn hid).shared

end

section
attribute [local instance] isoRuntime

def noteLink (id uri : String) : Attachment where
  id := id
  kind := some (.str "link")
  title := some (.str "Note")
  uri := some (.str uri)

def planFile : Attachment := { id := "f1", kind := some (.str "file"), title := some (.str "plan.pdf") }

def newLinkIds (n : Nat) : String := String.ofList (List.replicate (n + 3) 'u')

theorem freshIds_newLinkIds {current : List Attachment} {requests : List NormalizedLinkInput}
    (hcurrent : ∀ a ∈ current, a.id.toList.length < 3)
    (hrequests : ∀ n ∈ requests, ∀ id, n.id = some id → id.toList.length < 3) :
    FreshIds current requests newLinkIds := by
  have hlength : ∀ k, (newLinkIds k).toList.length = k + 3 := fun k => by simp [newLinkIds]
  refine ⟨?_, ?_, ?_⟩
  · intro j k hjk
    have heq := congrArg (fun s : String => s.toList.length) hjk
    simp only [hlength] at heq
    omega
  · intro k hmem
    obtain ⟨a, ha, hid⟩ := List.mem_map.1 hmem
    have hshort := hcurrent a ha
    rw [hid, hlength] at hshort
    omega
  · intro k n hn hid
    have hshort := hrequests n hn _ hid
    rw [hlength] at hshort
    omega

def linkedItem : List Attachment := [planFile, noteLink "a" "https://example.com/old"]

def editedAt : String := "2026-09-03T10:00:00.000Z"

/-- A link is moved and one is added. -/
def moveAndAdd : List LinkAttachmentInput :=
  [{ id := some "a", uri := "https://example.com/new" }, { uri := "https://example.com/more" }]

def moveRequest : NormalizedLinkInput :=
  { id := some "a", title := "new", uri := "https://example.com/new", preservedNetworkShare := false }

def addRequest : NormalizedLinkInput :=
  { id := none, title := "more", uri := "https://example.com/more", preservedNetworkShare := false }

def movedLink (title uri : String) : Attachment :=
  { noteLink "a" uri with title := some (.str title), updatedAt := some (.str editedAt) }

theorem replaces_exactly_moved :
    ReplacesExactly linkedItem (some moveAndAdd) [moveRequest, addRequest]
      [planFile, movedLink "new" "https://example.com/new", newLink editedAt "uuu" addRequest] := by
  have hids : ((Option.getD (some linkedItem) []).map (·.id)).Nodup := by decide
  have hrequests : normalizeInputs (mayPreserve (Option.getD (some linkedItem) [])) (Option.getD (some moveAndAdd) []) =
      .ok [moveRequest, addRequest] := by decide +kernel
  have hresult : applyLinkAttachmentsWithResult (some linkedItem) (some moveAndAdd) editedAt newLinkIds =
      .ok
        { attachments := [planFile, movedLink "new" "https://example.com/new", newLink editedAt "uuu" addRequest]
          preservedNetworkLinkCount := 0 } := by
    decide +kernel
  have hfresh : FreshIds (Option.getD (some linkedItem) []) [moveRequest, addRequest] newLinkIds :=
    freshIds_newLinkIds (by decide) (by decide)
  refine (replaces_exactly_iff hids (by decide) hfresh hrequests hresult).mpr ?_
  intro n hn hid
  simp only [List.mem_cons, List.not_mem_nil, or_false] at hn
  rcases hn with rfl | rfl
  · cases hid
  · have hnone : firstLive linkedItem addRequest.uri = none := by decide
    constructor
    · intro found hfound
      rw [show Option.getD (some linkedItem) [] = linkedItem from rfl, hnone] at hfound
      cases hfound
    · intro m hm huri other _ hmid
      simp only [List.mem_cons, List.not_mem_nil, or_false] at hm
      rcases hm with rfl | rfl
      · exact absurd huri (by decide)
      · cases hmid

/-- A link is moved, and a new one is asked for where it was. -/
def moveAndReuse : List LinkAttachmentInput :=
  [{ id := some "a", uri := "https://example.com/new" }, { uri := "https://example.com/old" }]

def reuseRequest : NormalizedLinkInput :=
  { id := none, title := "old", uri := "https://example.com/old", preservedNetworkShare := false }

/-- The link goes back, and nothing is left at the uri it was moved to. -/
theorem applyLinkAttachments_loses_move :
    applyLinkAttachmentsWithResult (some linkedItem) (some moveAndReuse) editedAt newLinkIds =
        .ok
          { attachments := [planFile, movedLink "old" "https://example.com/old"]
            preservedNetworkLinkCount := 0 } ∧
      normalizeInputs (mayPreserve linkedItem) moveAndReuse = .ok [moveRequest, reuseRequest] ∧
      ¬ReplacesExactly linkedItem (some moveAndReuse) [moveRequest, reuseRequest]
        [planFile, movedLink "old" "https://example.com/old"] := by
  refine ⟨by decide +kernel, by decide +kernel, ?_⟩
  intro hexact
  obtain ⟨a, ha, hcarries⟩ := hexact.carried moveRequest List.mem_cons_self
  simp only [List.mem_cons, List.not_mem_nil, or_false] at ha
  have huri := hcarries.uri
  rcases ha with rfl | rfl
  · cases huri
  · exact absurd huri (by decide)

end

end Mindwtr.Mcp
