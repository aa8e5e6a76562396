import Conductor.Api.SessionList
import Conductor.Lib.Checked
import Mathlib.Data.List.Pairwise

/-! When the pages of the catalog are accepted. The provider orders by the texts of the times and
the gateway by the instants that they denote: all pages of a catalog are accepted exactly when the
two orders agree on it. -/

namespace Conductor.Api

open Checked

section Sorting

variable {α κ : Type} [LinearOrder κ]

theorem sortReverse_perm (key : α → κ) (l : List α) : (sortReverse key l).Perm l := List.perm_insertionSort _ l

theorem sortReverse_pairwise (key : α → κ) (l : List α) : (sortReverse key l).Pairwise fun a b => key b ≤ key a := by
  have : Std.Total (fun a b : α => key b ≤ key a) := ⟨fun a b => le_total _ _⟩
  have : IsTrans α fun a b => key b ≤ key a := ⟨fun a b c hab hbc => hbc.trans hab⟩
  exact List.pairwise_insertionSort _ l

theorem sortReverse_eq_self (key : α → κ) (l : List α) :
    l = sortReverse key l ↔ l.Pairwise fun a b => key b ≤ key a := by
  constructor
  · intro h
    rw [h]
    exact sortReverse_pairwise key l
  · exact fun h => (List.Pairwise.insertionSort_eq h).symm

end Sorting

variable {conforms : String → Bool}

/-! ### What the gateway checks -/

/-- The instant of a summary's start, with its id: the key of the gateway's order. -/
def Summary.instantKey (s : Summary) : ℤ ×ₗ String := toLex ((fromIsoFormat s.startedAt).getD 0, s.sessionId)

/-- The checks of a page. -/
structure PageOk (conforms : String → Bool) (page : SessionPage) (limit : ℕ) (takeId : Option String)
    (version : Version) : Prop where
  closed : page.catalogRevision.isSome = decide (version = .v4)
  schema : page.schema = if version = .v4 then "ylx.session-list.v3" else "ylx.session-list.v2"
  revision : page.catalogRevision.all validRevision
  length : page.items.length + page.diagnostics.length ≤ limit
  cursor : page.nextCursor ≠ some ""
  items : ∀ item ∈ page.items, validSummary conforms item takeId version
  distinct : (page.items.map (·.sessionId)).Nodup
  instants : ∀ item ∈ page.items, (fromIsoFormat item.startedAt).isSome
  ordered : page.items.Pairwise fun a b => b.instantKey ≤ a.instantKey
  diagnostics : ∀ d ∈ page.diagnostics, validDiagnostic conforms d

variable {s : Summary} {takeId : Option String} {version : Version} {limit : ℕ} {page : SessionPage}
  {catalog : SessionCatalog conforms}

theorem validSummary_dateTime (h : validSummary conforms s takeId version) : dateTime conforms s.startedAt := by
  simp only [validSummary, Bool.and_eq_true] at h
  exact h.1.1.1.1.1.2

theorem dateTimeValue_eq_ok {text : String} (h : dateTime conforms text) (i : ℤ) :
    dateTimeValue conforms text = .ok i ↔ fromIsoFormat text = some i := by
  rw [dateTimeValue, h]
  cases fromIsoFormat text with
  | none => simp
  | some j => simp

theorem entry_eq_ok {item : Summary} (h : dateTime conforms item.startedAt) (k : ℤ ×ₗ String) :
    (dateTimeValue conforms item.startedAt).map (fun instant => toLex (instant, item.sessionId)) = .ok k ↔
      (fromIsoFormat item.startedAt).isSome ∧ k = item.instantKey := by
  have hdate := dateTimeValue_eq_ok h
  rw [Summary.instantKey]
  cases hiso : fromIsoFormat item.startedAt with
  | none =>
    cases hdv : dateTimeValue conforms item.startedAt with
    | error e => simp [Except.map]
    | ok i => simpa [hiso] using (hdate i).1 hdv
  | some i =>
    rw [(hdate i).2 hiso]
    simp [Except.map, eq_comm]

theorem validateSessionList_ok_iff :
    validateSessionList conforms page limit takeId version = .ok () ↔ PageOk conforms page limit takeId version := by
  have hmap : (∀ item ∈ page.items, validSummary conforms item takeId version) → ∀ order,
      page.items.mapM (fun item => (dateTimeValue conforms item.startedAt).map fun instant =>
        toLex (instant, item.sessionId)) = .ok order ↔
      (∀ item ∈ page.items, (fromIsoFormat item.startedAt).isSome) ∧ order = page.items.map Summary.instantKey :=
    fun hitems order => mapM_eq_ok_iff fun item hitem k => entry_eq_ok (validSummary_dateTime (hitems item hitem)) k
  have hsorted : page.items.map Summary.instantKey = sortReverse id (page.items.map Summary.instantKey) ↔
      page.items.Pairwise fun a b => b.instantKey ≤ a.instantKey := by
    rw [sortReverse_eq_self, List.pairwise_map]
    rfl
  simp only [validateSessionList, ite_error_eq_ok, bind_eq_ok, not_or, not_not, not_lt, List.all_eq_true, ne_eq]
  constructor
  · rintro ⟨hclosed, ⟨hschema, hrevision, hlength, hcursor⟩, hitems, hdistinct, order, horder, hord, hdiag, -⟩
    obtain ⟨hinstants, rfl⟩ := (hmap hitems order).1 horder
    exact ⟨hclosed, hschema, hrevision, hlength, hcursor, hitems, hdistinct, hinstants, hsorted.1 hord, hdiag⟩
  · intro h
    exact ⟨h.closed, ⟨h.schema, h.revision, h.length, h.cursor⟩, h.items, h.distinct, _,
      (hmap h.items _).2 ⟨h.instants, rfl⟩, hsorted.2 h.ordered, h.diagnostics, trivial⟩

/-! ### What the provider pages -/

theorem textKey_injOn : (catalog.summaries.map Summary.textKey).Nodup := by
  refine List.Nodup.of_map (fun k : String ×ₗ String => (ofLex k).2) ?_
  rw [List.map_map]
  exact catalog.distinct

/-- The provider's order is strict, for the ids are distinct. -/
theorem allItems_pairwise (catalog : SessionCatalog conforms) :
    (sortReverse Summary.textKey catalog.summaries).Pairwise fun a b => b.textKey < a.textKey := by
  have hle := sortReverse_pairwise Summary.textKey catalog.summaries
  have hne : ((sortReverse Summary.textKey catalog.summaries).map Summary.textKey).Nodup :=
    ((sortReverse_perm _ _).map _).nodup_iff.2 textKey_injOn
  rw [List.nodup_iff_pairwise_ne, List.pairwise_map] at hne
  exact (hle.and hne).imp fun ⟨h, hn⟩ => lt_of_le_of_ne h (Ne.symm hn)

/-- The two orders agree: each start denotes an instant, and of two sessions the one with the later
text has the later instant (ties go by the session ids). -/
structure SessionCatalog.OrdersAgree (catalog : SessionCatalog conforms) : Prop where
  instants : ∀ s ∈ catalog.summaries, (fromIsoFormat s.startedAt).isSome
  agree : ∀ a ∈ catalog.summaries, ∀ b ∈ catalog.summaries, b.textKey < a.textKey → b.instantKey < a.instantKey

theorem Note.plain_valid {note : Note} (h : validNote .v4 note) (hv : version ≠ .v4) :
    validNote version note.plain := by
  cases note with
  | text summary => simp [validNote] at h
  | coded code summary =>
    simp only [validNote, Bool.and_eq_true] at h
    simp only [plain, validNote, hv, ne_eq, not_false_eq_true, decide_true, Bool.true_and]
    exact h.2

theorem plain_valid (hv : version ≠ .v4)
    (h : validSummary conforms s none .v4) (htake : takeId.all (· = s.takeId)) :
    validSummary conforms s.plain takeId version := by
  simp only [validSummary, Bool.and_eq_true] at h ⊢
  obtain ⟨⟨⟨⟨⟨⟨⟨⟨⟨⟨⟨⟨h1, h2⟩, h3⟩, -⟩, h5⟩, h6⟩, h7⟩, h8⟩, h9⟩, h10⟩, h11⟩, h12⟩, h13⟩ := h
  refine ⟨⟨⟨⟨⟨⟨⟨⟨⟨⟨⟨⟨h1, h2⟩, h3⟩, htake⟩, h5⟩, h6⟩, h7⟩, h8⟩, h9⟩, h10⟩, h11⟩, h12⟩, ?_⟩
  cases hverification : s.verification with
  | none => simp [Summary.plain, hverification]
  | some v =>
    simp only [hverification, Option.all_some, validVerification, Bool.and_eq_true] at h13
    obtain ⟨⟨hfields, hverdict⟩, hnotes⟩ := h13
    rw [List.all_eq_true] at hnotes
    have hcoded : v.diagnostics.filter Note.isCoded = v.diagnostics := by
      refine List.filter_eq_self.2 fun note hnote => ?_
      cases note with
      | coded code summary => rfl
      | text summary => simpa [validNote] using hnotes _ hnote
    simp only [Summary.plain, hverification, Option.map_some, Option.all_some, validVerification, hcoded,
      Bool.and_eq_true]
    refine ⟨⟨hfields, ?_⟩, ?_⟩
    · rwa [List.isEmpty_map]
    · rw [List.all_eq_true]
      intro note hnote
      obtain ⟨note, hmem, rfl⟩ := List.mem_map.1 hnote
      exact Note.plain_valid (hnotes note hmem) hv

/-- The items of a page: some of the catalog in the provider's order, in the form of the version. -/
theorem items_ok (h : catalog.OrdersAgree) {xs : List Summary}
    (hsub : xs.Sublist (sortReverse Summary.textKey catalog.summaries)) {f : Summary → Summary}
    (hstart : ∀ s, (f s).startedAt = s.startedAt) (hid : ∀ s, (f s).sessionId = s.sessionId) :
    ((xs.map f).map (·.sessionId)).Nodup ∧ (∀ item ∈ xs.map f, (fromIsoFormat item.startedAt).isSome) ∧
      (xs.map f).Pairwise fun a b => b.instantKey ≤ a.instantKey := by
  have hperm := sortReverse_perm Summary.textKey catalog.summaries
  have hmem : ∀ s ∈ xs, s ∈ catalog.summaries := fun s hs => hperm.mem_iff.1 (hsub.subset hs)
  have hkey : ∀ s, (f s).instantKey = s.instantKey := fun s => by rw [Summary.instantKey, hstart, hid]; rfl
  refine ⟨?_, fun item hitem => ?_, ?_⟩
  · rw [List.map_map]
    have hids : (fun s : Summary => s.sessionId) ∘ f = fun s => s.sessionId := funext hid
    rw [hids]
    exact ((hperm.map _).nodup_iff.2 catalog.distinct).sublist (hsub.map _)
  · obtain ⟨s, hs, rfl⟩ := List.mem_map.1 hitem
    rw [hstart]
    exact h.instants s (hmem s hs)
  · rw [List.pairwise_map]
    refine ((allItems_pairwise catalog).sublist hsub).imp_of_mem fun {a b} ha hb hlt => ?_
    rw [hkey, hkey]
    exact (h.agree a (hmem a ha) b (hmem b hb) hlt).le

theorem plainPage_ok (h : catalog.OrdersAgree) {items : List Summary}
    (hsub : items.Sublist (sortReverse Summary.textKey catalog.summaries))
    (htake : ∀ s ∈ items, takeId.all (· = s.takeId)) {cursor : Option String}
    (hv : version ≠ .v4) (hpage : plainPage items catalog.diagnostics cursor limit = .ok page) :
    PageOk conforms page limit takeId version := by
  simp only [plainPage] at hpage
  split at hpage
  · cases hpage
  next start _ =>
  cases hpage
  set selected := (items.drop start).take limit with hselected
  have hitems : selected.Sublist items := (List.take_sublist _ _).trans (List.drop_sublist _ _)
  have hcatalog : ∀ s ∈ selected, s ∈ catalog.summaries := fun s hs =>
    (sortReverse_perm Summary.textKey catalog.summaries).mem_iff.1 (hsub.subset (hitems.subset hs))
  have hlength : selected.length ≤ limit := by
    rw [hselected, List.length_take]
    exact Nat.min_le_left _ _
  obtain ⟨hdistinct, hinstants, hordered⟩ :=
    items_ok (f := Summary.plain) h (hitems.trans hsub) (fun _ => rfl) fun _ => rfl
  refine ⟨by simp [hv], by simp [hv], rfl, ?_, ?_, fun item hitem => ?_, hdistinct, hinstants, hordered, fun d hd => ?_⟩
  · change (selected.map Summary.plain).length + (catalog.diagnostics.take (limit - selected.length)).length ≤ limit
    have hdiagnostics := List.length_take_le (limit - selected.length) catalog.diagnostics
    rw [List.length_map]
    omega
  · intro hempty
    dsimp only at hempty
    split at hempty
    · obtain ⟨s, hs, hsid⟩ := Option.map_eq_some_iff.1 hempty
      have hvalid := catalog.summaries_valid s (hcatalog s (List.mem_of_getLast? hs))
      simp only [validSummary, Bool.and_eq_true] at hvalid
      have huuid := hvalid.1.1.1.1.1.1.1.1.1.1.1.1
      rw [hsid] at huuid
      exact absurd huuid (by decide)
    · cases hempty
  · obtain ⟨s, hs, rfl⟩ := List.mem_map.1 hitem
    exact plain_valid hv (catalog.summaries_valid s (hcatalog s hs)) (htake s (hitems.subset hs))
  · exact catalog.diagnostics_valid d (List.mem_of_mem_take hd)

theorem length_sides {α β : Type} (l : List (α ⊕ β)) :
    (l.filterMap Sum.getLeft?).length + (l.filterMap Sum.getRight?).length = l.length := by
  induction l with
  | nil => rfl
  | cons x l ih =>
    cases x with
    | inl a =>
      simp only [List.filterMap_cons, Sum.getLeft?_inl, Sum.getRight?_inl, List.length_cons]
      omega
    | inr b =>
      simp only [List.filterMap_cons, Sum.getLeft?_inr, Sum.getRight?_inr, List.length_cons]
      omega

theorem validSummary_take (h : validSummary conforms s none .v4)
    (htake : takeId.all (· = s.takeId)) : validSummary conforms s takeId .v4 := by
  simp only [validSummary, Bool.and_eq_true] at h ⊢
  obtain ⟨⟨⟨⟨⟨⟨⟨⟨⟨⟨⟨⟨h1, h2⟩, h3⟩, -⟩, h5⟩, h6⟩, h7⟩, h8⟩, h9⟩, h10⟩, h11⟩, h12⟩, h13⟩ := h
  exact ⟨⟨⟨⟨⟨⟨⟨⟨⟨⟨⟨⟨h1, h2⟩, h3⟩, htake⟩, h5⟩, h6⟩, h7⟩, h8⟩, h9⟩, h10⟩, h11⟩, h12⟩, h13⟩

theorem codedPage_ok (h : catalog.OrdersAgree) (codec : CursorCodec) {allItems items : List Summary}
    (hsub : items.Sublist (sortReverse Summary.textKey catalog.summaries))
    (htake : ∀ s ∈ items, takeId.all (· = s.takeId)) {diagnostics : List Diagnostic}
    (hdiagnostics : ∀ d ∈ diagnostics, validDiagnostic conforms d) {cursor : Option String}
    (hpage : codedPage codec allItems items diagnostics cursor limit takeId = .ok page) :
    PageOk conforms page limit takeId .v4 := by
  simp only [codedPage] at hpage
  split at hpage
  · cases hpage
  next start _ =>
  cases hpage
  set ordered : List (Summary ⊕ Diagnostic) := items.map .inl ++ diagnostics.map .inr with hordered
  set selected := (ordered.drop start).take limit with hselected
  have hpart : selected.Sublist ordered := (List.take_sublist _ _).trans (List.drop_sublist _ _)
  have hleft : ordered.filterMap Sum.getLeft? = items := by
    simp [hordered, List.filterMap_append, List.filterMap_map, Function.comp_def]
  have hright : ordered.filterMap Sum.getRight? = diagnostics := by
    simp [hordered, List.filterMap_append, List.filterMap_map, Function.comp_def]
  have hitems : (selected.filterMap Sum.getLeft?).Sublist items := hleft ▸ hpart.filterMap _
  have hcatalog : ∀ s ∈ selected.filterMap Sum.getLeft?, s ∈ catalog.summaries := fun s hs =>
    (sortReverse_perm Summary.textKey catalog.summaries).mem_iff.1 (hsub.subset (hitems.subset hs))
  have hlength : selected.length ≤ limit := by
    rw [hselected, List.length_take]
    exact Nat.min_le_left _ _
  obtain ⟨hdistinct, hinstants, hpairwise⟩ := items_ok (f := fun s => s) h (hitems.trans hsub) (fun _ => rfl) fun _ => rfl
  rw [List.map_id'] at hdistinct hinstants hpairwise
  refine ⟨rfl, rfl, codec.revision_valid _ _, ?_, ?_, fun item hitem => ?_, hdistinct, hinstants, hpairwise,
    fun d hd => ?_⟩
  · exact (length_sides selected).le.trans hlength
  · intro hempty
    dsimp only at hempty
    split at hempty
    · exact codec.encode_ne _ (Option.some.inj hempty)
    · cases hempty
  · exact validSummary_take (catalog.summaries_valid item (hcatalog item hitem)) (htake item (hitems.subset hitem))
  · refine hdiagnostics d ?_
    rw [← hright]
    exact (hpart.filterMap _).subset hd

/-- All pages of a catalog are accepted exactly when the provider's order and the gateway's agree on it. -/
theorem pages_accepted_iff (codec : CursorCodec) (catalog : SessionCatalog conforms) :
    (∀ cursor limit takeId version page, 1 ≤ limit →
      listSessions codec catalog cursor limit takeId version = .ok page →
      validateSessionList conforms page limit takeId version = .ok ()) ↔ catalog.OrdersAgree := by
  constructor
  · intro h
    set allItems := sortReverse Summary.textKey catalog.summaries with hall
    have hperm := sortReverse_perm Summary.textKey catalog.summaries
    -- the first page of an old version, if it is long enough, has the whole catalog
    have hpage : listSessions codec catalog none (allItems.length + 1) none .v3 = .ok
        { schema := "ylx.session-list.v2"
          catalogRevision := none
          items := allItems.map Summary.plain
          diagnostics := catalog.diagnostics.take 1
          nextCursor := none } := by
      have hfilter : (allItems.filter fun item => (none : Option String).all (· = item.takeId)) = allItems :=
        List.filter_eq_self.2 fun _ _ => rfl
      have htake : allItems.take (allItems.length + 1) = allItems := List.take_of_length_le (Nat.le_succ _)
      simp only [listSessions, plainPage, ← hall, hfilter, List.drop_zero, htake, ne_eq, reduceCtorEq, not_false_eq_true,
        if_true, Nat.zero_add, Nat.lt_irrefl, if_false, Nat.add_sub_cancel_left]
    have hok := validateSessionList_ok_iff.1 (h none _ none .v3 _ (Nat.succ_pos _) hpage)
    have hordered : allItems.Pairwise fun a b => b.instantKey ≤ a.instantKey := List.pairwise_map.1 hok.ordered
    -- the two orders, as a relation that does not say which of the two sessions comes first
    let Agree (a b : Summary) : Prop := (b.textKey < a.textKey → b.instantKey ≤ a.instantKey) ∧
      (a.textKey < b.textKey → a.instantKey ≤ b.instantKey)
    have hagree : allItems.Pairwise Agree := by
      refine ((allItems_pairwise catalog).and hordered).imp fun {a b} ⟨hlt, hle⟩ => ⟨fun _ => hle, fun hgt => ?_⟩
      exact absurd hgt hlt.asymm
    refine ⟨fun s hs => ?_, fun a ha b hb hlt => lt_of_le_of_ne ?_ fun heq => ?_⟩
    · exact hok.instants s.plain (List.mem_map_of_mem (hperm.mem_iff.2 hs))
    · have hne : a ≠ b := fun hab => absurd hlt (hab ▸ lt_irrefl _)
      have : Std.Symm Agree := ⟨fun _ _ hab => ⟨hab.2, hab.1⟩⟩
      exact (hagree.forall (hperm.mem_iff.2 ha) (hperm.mem_iff.2 hb) hne).1 hlt
    · have hid : b.sessionId = a.sessionId := congrArg (fun k : ℤ ×ₗ String => (ofLex k).2) heq
      rw [List.inj_on_of_nodup_map catalog.distinct hb ha hid] at hlt
      exact lt_irrefl _ hlt
  · intro h cursor limit takeId version page _ hpage
    rw [validateSessionList_ok_iff]
    have hsub : ((sortReverse Summary.textKey catalog.summaries).filter fun item =>
        takeId.all (· = item.takeId)).Sublist (sortReverse Summary.textKey catalog.summaries) := List.filter_sublist
    simp only [listSessions] at hpage
    split at hpage
    · next hv => exact plainPage_ok h hsub (fun s hs => (List.mem_filter.1 hs).2) hv hpage
    · next hv =>
      rw [ne_eq, not_not] at hv
      subst hv
      refine codedPage_ok h codec hsub (fun s hs => (List.mem_filter.1 hs).2) (fun d hd => ?_) hpage
      exact catalog.diagnostics_valid d ((List.mem_insertionSort _).1 hd)

/-- A summary without a verification. -/
def summarySample (sessionId startedAt : String) : Summary where
  sessionId := sessionId
  producerOutcome := "sealed"
  takeId := "0a1b2c3d-0000-7000-8000-00000000000f"
  takeSequence := 1
  continuationOf := none
  displayName := "take"
  device := ⟨"0a1b2c3d-0000-4000-8000-00000000000f", "YLX-0A1B2C3D"⟩
  startedAt := startedAt
  endedAt := startedAt
  durationSeconds := 1
  totalBytes := 1
  verification := none

/-- A codec with one revision and no way back from a cursor. -/
def codecSample : CursorCodec where
  revision _ _ := "sha256:0000000000000000000000000000000000000000000000000000000000000000"
  revision_valid _ _ := by decide
  encode _ := "cursor"
  encode_ne _ := by decide
  decode _ := none

/-- Two takes, the second half an hour after the first, between which the clock went from summer
time to UTC. -/
def zonesSample : SessionCatalog fun _ => true where
  summaries :=
    [summarySample "0a1b2c3d-0000-7000-8000-000000000001" "2026-03-29T03:00:00.000000+02:00",
      summarySample "0a1b2c3d-0000-7000-8000-000000000002" "2026-03-29T01:30:00.000000+00:00"]
  diagnostics := []
  distinct := by decide
  summaries_valid := by decide
  diagnostics_valid := by decide

set_option maxRecDepth 4000 in
/-- The later take comes second in the order of the texts, and the gateway refuses the page. -/
theorem zones_page_rejected : ∃ page, listSessions codecSample zonesSample none 50 none .v3 = .ok page ∧
    validateSessionList (fun _ => true) page 50 none .v3 = .error (.invalidSourceEvent "session list 排序无效") :=
  ⟨_, rfl, rfl⟩

end Conductor.Api
