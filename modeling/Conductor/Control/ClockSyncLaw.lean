import Conductor.Lib.Concat
import Conductor.Control.ClockSync

/-! Offline clock synchronisation over whole runs: an outstanding challenge was issued after
the last accepted synchronisation and was never presented in a valid request, so a call of
`clock_settime` has the right it needs; and every response is well formed. -/

namespace Conductor.Control.ClockSync

open Runs

/-! ### Responses -/

variable {c principal : String} {i : Issued} {result : Except ClockSyncError PyValue}

theorem response_challenge_valid {wall : ℤ} (hwall : 0 ≤ wall) (hc : isChallenge c = true) :
    validClockResponse (response wall .unsynchronized (some c) false) = true := by
  have htime : 0 ≤ wall / 1000000 := Int.ediv_nonneg hwall (by decide)
  simp [validClockResponse, response, keysAre, PyValue.lookup, PyValue.eqStr, PyValue.asInt, asChallenge, Source.name,
    hc, htime]

theorem response_source_valid {wall : ℤ} {source : Source} {applied : Bool} (hwall : 0 ≤ wall)
    (hsource : source ≠ .unsynchronized) (happlied : applied = true → source = .client) :
    validClockResponse (response wall source none applied) = true := by
  have htime : 0 ≤ wall / 1000000 := Int.ediv_nonneg hwall (by decide)
  cases source with
  | unsynchronized => exact absurd rfl hsource
  | client =>
    simp [validClockResponse, response, keysAre, PyValue.lookup, PyValue.eqStr, PyValue.asInt, asChallenge, Source.name,
      htime]
  | ntp =>
    have hfalse : applied = false := by
      by_contra h
      simpa using happlied (by simpa using h)
    simp [validClockResponse, response, keysAre, PyValue.lookup, PyValue.eqStr, PyValue.asInt, asChallenge, Source.name,
      htime, hfalse]

/-! ### One call -/

variable {s t : Synchronizer} {r : SyncReadings} {body : PyValue}

/-- `_source` drops a stale reference at most, and says why no clock is in force. -/
theorem source_spec {r : SourceReadings} {result : Except ClockSyncError Source}
    (h : s.source r = (result, t)) : t.challenges = s.challenges ∧
      (result = .ok .unsynchronized → ntpSynchronized r.ntp = .ok false ∧ s.referenceValid r = false) := by
  unfold Synchronizer.source at h
  split at h
  · cases h
    exact ⟨rfl, by simp⟩
  · cases h
    exact ⟨rfl, by simp⟩
  · next hntp =>
    split_ifs at h with hvalid
    · cases h
      exact ⟨rfl, by simp⟩
    · cases h
      exact ⟨rfl, fun _ => ⟨hntp, by simpa using hvalid⟩⟩

theorem live_iff {now : ℤ} : live now i = true ↔ 0 ≤ now - i.mono ∧ now - i.mono < 5000000000 := by
  rw [live, Bool.and_eq_true, decide_eq_true_iff, decide_eq_true_iff]
  exact Iff.rfl

theorem mem_setItem {d : List (String × Issued)} {key : String} {value : Issued} (h : ∀ i, (key, i) ∉ d) :
    setItem d key value = d ++ [(key, value)] := by
  unfold setItem
  rw [if_neg]
  rw [List.lookup_isSome_iff]
  rintro ⟨e, he, hkey⟩
  obtain rfl : key = e.1 := by simpa using hkey
  exact h e.2 he

/-- What `status` leaves: its challenges, live ones, and the new one. -/
theorem status_spec {r : StatusReadings} {issued : Option (String × Issued)}
    (h : s.status principal r = (result, issued, t)) (hfresh : ∀ i, (r.token, i) ∉ s.challenges)
    (hlength : s.challenges.length ≤ 64) : t.challenges.length ≤ 64 ∧
      (∀ e ∈ t.challenges, e ∈ s.challenges ∨ issued = some e) ∧
      (∀ e, issued = some e → e = (r.token, ⟨principal, r.now, r.issuedWall⟩)) ∧
      (isChallenge r.token = true → 0 ≤ r.responseWall → ∀ body ∈ returnedBy result, validClockResponse body = true) := by
  unfold Synchronizer.status at h
  split at h
  · next e s' hs =>
    cases h
    rw [(source_spec hs).1]
    exact ⟨hlength, fun e he => Or.inl he, by simp, by simp [returnedBy]⟩
  · next s' hs =>
    have hsame := (source_spec hs).1
    cases h
    have hsub : ∀ e ∈ (if 64 ≤ (s'.challenges.filter fun e => live r.now e.2).length
        then (s'.challenges.filter fun e => live r.now e.2).drop 1
        else s'.challenges.filter fun e => live r.now e.2), e ∈ s.challenges := by
      intro e he
      rw [← hsame]
      split_ifs at he
      · exact List.mem_of_mem_filter (List.mem_of_mem_drop he)
      · exact List.mem_of_mem_filter he
    have hfilter : (s'.challenges.filter fun e => live r.now e.2).length ≤ 64 :=
      (List.length_filter_le _ _).trans (hsame ▸ hlength)
    rw [mem_setItem fun i hi => hfresh i (hsub _ hi)]
    refine ⟨?_, ?_, by simp [eq_comm], ?_⟩
    · rw [List.length_append, List.length_singleton]
      split_ifs with h64
      · rw [List.length_drop]
        omega
      · omega
    · intro e he
      rcases mem_concat.1 he with he | he
      · exact Or.inl (hsub e he)
      · exact Or.inr (by rw [he])
    · intro hc hwall body hbody
      rw [List.mem_singleton.1 hbody]
      exact response_challenge_valid hwall hc
  · next source s' hne hs =>
    cases h
    rw [(source_spec hs).1]
    refine ⟨hlength, fun e he => Or.inl he, by simp, fun _ hwall body hbody => ?_⟩
    rw [List.mem_singleton.1 hbody]
    exact response_source_valid hwall (fun heq => hne (by rw [heq])) (by simp)

/-- The redeemed challenge and the clocks allow the call. -/
def Redeems (s : Synchronizer) (principal c : String) (r : SyncReadings) : Prop :=
  ∃ i, (c, i) ∈ s.challenges ∧ i.principal = principal ∧ live r.now i = true ∧
    |r.checkedWall - i.wall - (r.now - i.mono)| ≤ 1000000000 ∧
    ntpSynchronized r.source.ntp = .ok false ∧ s.referenceValid r.source = false

/-- What a `sync` call with a valid request does. -/
structure SyncSpec (s t : Synchronizer) (principal c : String) (r : SyncReadings) (outcome : SyncOutcome) : Prop where
  consumed : ∀ e ∈ t.challenges, e ∈ s.challenges ∧ e.1 ≠ c
  length : t.challenges.length ≤ s.challenges.length
  cleared : outcome.accepted = true → t.challenges = []
  redeems : ∀ target, outcome.settime = some target → Redeems s principal c r
  valid : 0 ≤ r.responseWall → ∀ body ∈ returnedBy outcome.result, validClockResponse body = true

theorem apply_spec {unixTimeMs : ℤ} {outcome : SyncOutcome} (h : s.apply i unixTimeMs r = (outcome, t)) :
    (t.challenges = s.challenges ∨ t.challenges = []) ∧ (outcome.accepted = true → t.challenges = []) ∧
      (∀ target, outcome.settime = some target →
        live r.now i = true ∧ |r.checkedWall - i.wall - (r.now - i.mono)| ≤ 1000000000) ∧
      (0 ≤ r.responseWall → ∀ body ∈ returnedBy outcome.result, validClockResponse body = true) := by
  unfold Synchronizer.apply at h
  split at h
  · cases h
    exact ⟨Or.inl rfl, by simp, by simp, by simp [returnedBy]⟩
  next hlive =>
  split at h
  · cases h
    exact ⟨Or.inl rfl, by simp, by simp, by simp [returnedBy]⟩
  next hwall =>
  have hright : live r.now i = true ∧ |r.checkedWall - i.wall - (r.now - i.mono)| ≤ 1000000000 :=
    ⟨by simpa using hlive, not_lt.1 hwall⟩
  simp only at h
  split at h
  · cases h
    exact ⟨Or.inl rfl, by simp, fun _ _ => hright, by simp [returnedBy]⟩
  · cases h
    refine ⟨Or.inr rfl, fun _ => rfl, fun _ _ => hright, fun hresponse body hbody => ?_⟩
    rw [List.mem_singleton.1 hbody]
    exact response_source_valid hresponse (by simp) fun _ => rfl

theorem sync_spec {time : ℤ} {outcome : SyncOutcome} (hbody : clockRequest body = some (c, time))
    (h : s.sync principal body r = (outcome, t)) : SyncSpec s t principal c r outcome := by
  have hpop : ∀ e ∈ s.challenges.filter (·.1 ≠ c), e ∈ s.challenges ∧ e.1 ≠ c := fun e he => by
    simpa using List.mem_filter.1 he
  have hlength : (s.challenges.filter (·.1 ≠ c)).length ≤ s.challenges.length := List.length_filter_le _ _
  unfold Synchronizer.sync at h
  simp only [hbody] at h
  split at h
  · cases h
    exact ⟨hpop, hlength, by simp, by simp, by simp [returnedBy]⟩
  next i hi =>
  obtain ⟨hlookup, hprincipal⟩ := Option.filter_eq_some_iff.1 hi
  have hmem : (c, i) ∈ s.challenges := by
    obtain ⟨xs, ys, heq, -⟩ := List.lookup_eq_some_iff.1 hlookup
    rw [heq]
    exact List.mem_append_right _ List.mem_cons_self
  split at h
  · next e s' hs =>
    cases h
    have hsame := (source_spec hs).1
    exact ⟨hsame ▸ hpop, hsame ▸ hlength, by simp, by simp, by simp [returnedBy]⟩
  · next s' hs =>
    obtain ⟨hsame, hclocks⟩ := source_spec hs
    obtain ⟨hntp, hreference⟩ := hclocks rfl
    obtain ⟨hchallenges, hcleared, hright, hvalid⟩ := apply_spec h
    refine ⟨?_, ?_, hcleared, fun target htarget => ?_, hvalid⟩
    · rcases hchallenges with hc | hc <;> rw [hc]
      · exact hsame ▸ hpop
      · simp
    · rcases hchallenges with hc | hc <;> rw [hc]
      · exact hsame ▸ hlength
      · exact Nat.zero_le _
    · obtain ⟨hlive, hwall⟩ := hright target htarget
      exact ⟨i, hmem, by simpa using hprincipal, hlive, hwall, hntp, hreference⟩
  · next source s' hne hs =>
    cases h
    have hsame := (source_spec hs).1
    refine ⟨hsame ▸ hpop, hsame ▸ hlength, by simp, by simp, fun hwall body hmem => ?_⟩
    rw [List.mem_singleton.1 hmem]
    exact response_source_valid hwall (fun heq => hne (by rw [heq])) (by simp)

/-! ### Runs -/

/-- Issued after the last accepted synchronisation, and never presented in a valid request. -/
def Outstanding (log : List Event) (c : String) (i : Issued) : Prop :=
  .presented c true ∉ log ∧ ∃ before after, log = before ++ .issued c i :: after ∧ .accepted ∉ after

structure Inv (s : Sys) : Prop where
  length : s.synchronizer.challenges.length ≤ 64
  outstanding : ∀ e ∈ s.synchronizer.challenges, Outstanding s.log e.1 e.2
  valid : ∀ body ∈ s.returned, validClockResponse body = true

theorem inv_init : Inv {} := ⟨Nat.zero_le _, by simp, by simp⟩

theorem Outstanding.append {log events : List Event} (h : Outstanding log c i)
    (hpresented : .presented c true ∉ events) (haccepted : .accepted ∉ events) : Outstanding (log ++ events) c i := by
  obtain ⟨hlog, before, after, heq, hafter⟩ := h
  refine ⟨by simp [hlog, hpresented], before, after ++ events, by simp [heq], by simp [hafter, haccepted]⟩

theorem Inv.lawful {s : Sys} (hi : Inv s) : Lawful s where
  outstanding := hi.length
  consumed c hc := by
    rw [List.lookup_eq_none_iff]
    intro e he
    by_contra heq
    obtain rfl : c = e.1 := by simpa using heq
    exact (hi.outstanding e he).1 hc
  valid := hi.valid

theorem returned_valid {s : Sys} (hi : Inv s) (h : ∀ body ∈ returnedBy result, validClockResponse body = true) :
    ∀ body ∈ s.returned ++ returnedBy result, validClockResponse body = true := fun body hbody =>
  (List.mem_append.1 hbody).elim (hi.valid body) (h body)

theorem Inv.status {s t : Sys} (hi : Inv s) {r : StatusReadings}
    (ht : step s (.status principal r) = some t) (hs : Supplied s (.status principal r) t) : Inv t := by
  obtain ⟨htoken, hissued, hpresented, hwall⟩ := hs
  have hfresh : ∀ i, (r.token, i) ∉ s.synchronizer.challenges := by
    intro i hmem
    obtain ⟨-, before, after, heq, -⟩ := hi.outstanding _ hmem
    exact hissued i (by rw [heq]; simp)
  obtain ⟨result, issued, synchronizer, hstatus⟩ :
      ∃ result issued t', s.synchronizer.status principal r = (result, issued, t') := ⟨_, _, _, rfl⟩
  obtain ⟨hlength, hkept, hnew, hvalid⟩ := status_spec hstatus hfresh hi.length
  simp only [step, hstatus, Option.some.injEq] at ht
  subst ht
  refine ⟨hlength, fun e he => ?_, returned_valid hi (hvalid htoken hwall)⟩
  rcases hkept e he with hold | hissue
  · refine (hi.outstanding e hold).append ?_ ?_ <;> cases issued <;> simp
  · rw [hissue]
    obtain rfl := hnew e hissue
    refine ⟨by simpa using hpresented true, s.log, [], rfl, by simp⟩

theorem presented_of_request {time : ℤ} (h : clockRequest body = some (c, time)) : presented body = some c := by
  unfold clockRequest at h
  split at h
  · next items =>
    simp only [Option.bind_eq_bind, Option.bind_eq_some_iff] at h
    obtain ⟨-, -, -, -, c', hc, time', -, -, -, hpure⟩ := h
    obtain ⟨v, hv, hvc⟩ := hc
    cases hpure
    unfold asChallenge at hvc
    split at hvc
    · split_ifs at hvc
      cases hvc
      simp [presented, hv]
    · cases hvc
  · cases h

theorem Inv.sync {s t : Sys} (hi : Inv s) (ht : step s (.sync principal body r) = some t) (hs : 0 ≤ r.responseWall) :
    Inv t ∧ StepLawful s (.sync principal body r) t := by
  obtain ⟨outcome, synchronizer, hsync⟩ : ∃ outcome t', s.synchronizer.sync principal body r = (outcome, t') :=
    ⟨_, _, rfl⟩
  simp only [step, hsync, Option.some.injEq] at ht
  unfold StepLawful
  simp only [hsync]
  cases hbody : clockRequest body with
  | none =>
    have hout : outcome.settime = none ∧ outcome.accepted = false ∧ returnedBy outcome.result = [] ∧
        synchronizer = s.synchronizer := by
      simp only [Synchronizer.sync, hbody] at hsync
      cases hsync
      exact ⟨rfl, rfl, rfl, rfl⟩
    obtain ⟨hsettime, haccepted, hreturned, rfl⟩ := hout
    subst ht
    refine ⟨⟨hi.length, fun e he => ?_, by simpa [hreturned] using hi.valid⟩, by simp [hsettime], by simp⟩
    rw [haccepted]
    simp only [hbody, Bool.false_eq_true, if_false, List.append_nil]
    refine (hi.outstanding e he).append ?_ ?_ <;> cases presented body <;> simp
  | some request =>
    obtain ⟨c, time⟩ := request
    have hspec := sync_spec hbody hsync
    have hpresented := presented_of_request hbody
    subst ht
    refine ⟨⟨hspec.length.trans hi.length, fun e he => ?_, returned_valid hi (hspec.valid hs)⟩,
      fun target htarget => ⟨c, time, rfl, ?_⟩, ?_⟩
    · obtain ⟨hold, hne⟩ := hspec.consumed e he
      have haccepted : outcome.accepted = false := by
        by_contra hacc
        rw [hspec.cleared (by simpa using hacc)] at he
        simp at he
      simp only [haccepted, Bool.false_eq_true, if_false, List.append_nil, hpresented, hbody]
      exact (hi.outstanding e hold).append (by simpa using hne) (by simp)
    · obtain ⟨i, hmem, hprincipal, hlive, hwall, hntp, hreference⟩ := hspec.redeems target htarget
      obtain ⟨hnot, before, after, hlog, hafter⟩ := hi.outstanding _ hmem
      obtain ⟨hage, hyoung⟩ := live_iff.1 hlive
      exact ⟨i, before, after, hlog, hprincipal, hafter, hnot, hage, hyoung, hwall, hntp, hreference⟩
    · rintro c' time' heq
      obtain ⟨rfl, rfl⟩ : c = c' ∧ time = time' := by simpa using heq
      rw [List.lookup_eq_none_iff]
      intro e he
      simpa using fun heq : c = e.1 => (hspec.consumed e he).2 heq.symm

theorem Inv.step {s t : Sys} {a : Action} (hi : Inv s) (ht : step s a = some t) (hs : Supplied s a t) :
    Inv t ∧ StepLawful s a t := by
  cases a with
  | status principal r => exact ⟨hi.status ht hs, trivial⟩
  | sync principal body r => exact hi.sync ht hs

/-- In every run the clock is set only by right, a valid request consumes its challenge, and
every response is valid. -/
theorem clock_sync_lawful {as : List Action} {s : Sys} (hr : run step {} as = some s)
    (hs : Along step Supplied {} as) : Lawful s ∧ Along step StepLawful {} as :=
  ⟨(run_invariant_of_along (fun _ _ _ hi ht hg => (hi.step ht hg).1) inv_init hs hr).lawful,
    along_of_guard (fun _ _ _ hi ht hg => hi.step ht hg) inv_init hs⟩

def sampleToken : String := "0123456789abcdef0123456789abcdef"

def sampleRequest (unixTimeMs : ℤ) : PyValue :=
  .dict [(.text "schema", .str (.text "ylx.clock-sync-request.v1")), (.text "challenge", .str (.text sampleToken)),
    (.text "unix_time_ms", .int unixTimeMs)]

def sampleStatus : Action :=
  .status "phone" ⟨⟨some "no", 1000000000, 1000⟩, 2000, sampleToken, 1000001000, 1000002000⟩

def sampleSync (unixTimeMs : ℤ) : Action :=
  .sync "phone" (sampleRequest unixTimeMs)
    ⟨3000, ⟨some "no", 1000002000, 3000⟩, 4000, 1000003000, 1000004000, false, 5000, 1704067200000000000, 1704067200000000000⟩

theorem sample_supplied (requests : List Action) (h : ∀ a ∈ requests, ∃ time, a = sampleSync time) :
    Along step Supplied {} (sampleStatus :: requests) := by
  refine fun t _ => ⟨⟨by decide, fun _ => List.not_mem_nil, fun _ => List.not_mem_nil, by decide⟩, ?_⟩
  clear * - h
  induction requests generalizing t with
  | nil => trivial
  | cons a requests ih =>
    obtain ⟨time, rfl⟩ := h a List.mem_cons_self
    have hwall : (0 : ℤ) ≤ 1704067200000000000 := by decide
    exact fun u _ => ⟨hwall, ih (fun b hb => h b (List.mem_cons_of_mem _ hb)) u⟩

theorem clock_sync_lawful_sample :
    ∃ s, run step {} [sampleStatus, sampleSync 1704067200000] = some s ∧ .accepted ∈ s.log ∧ Lawful s := by
  have hrun : ∃ s, run step {} [sampleStatus, sampleSync 1704067200000] = some s ∧ .accepted ∈ s.log :=
    ⟨_, rfl, by decide⟩
  obtain ⟨s, hs, haccepted⟩ := hrun
  exact ⟨s, hs, haccepted, (clock_sync_lawful hs (sample_supplied _ (by simp))).1⟩

/-- A request with an impossible time leaves its challenge outstanding, and the next request
that presents it sets the clock. -/
theorem invalid_request_keeps_challenge :
    ¬∀ as : List Action, Along step Supplied {} as → Along step (fun s a _ => ∀ principal body r,
      a = .sync principal body r → ∀ target c, (s.synchronizer.sync principal body r).1.settime = some target →
        presented body = some c → ∀ valid, .presented c valid ∉ s.log) {} as := by
  intro h
  have hclaim := h [sampleStatus, sampleSync 5, sampleSync 1704067200000] (sample_supplied _ (by simp))
  have hlast := (((hclaim _ rfl).2 _ rfl).2 _ rfl).1 _ _ _ rfl _ _ rfl rfl false
  exact hlast (by decide)

end Conductor.Control.ClockSync
