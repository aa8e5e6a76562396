import Conductor.Deployment.ReleaseLaw

/-! Install and rollback: every failure or death leaves a safe state, from which the next recovery gives the old
release or the new one, each with its configuration. -/

namespace Conductor.Deployment

open Crash Proc KeyTable Runs

/-- The pairs that an operation may leave. -/
structure Allows (T : Option Commit → Option Payload → Prop) (old : Option Commit) (new : Commit)
    (before after : Option Payload) : Prop where
  kept : T old before
  active : ∀ p q, before = some p → activated p = some q → T old (some q)
  gives : ∀ e, after = some e → T (some new) (some e)
  bare : old = none → ∀ e, after = some e → T none (some e)

variable {T : Option Commit → Option Payload → Prop} {s s₀ : State}

/-! ### Snapshots -/

variable {snapshots : List (Commit × Payload)}

theorem Usable.insert (h : Usable snapshots) {c : Commit} {p q : Payload}
    (hp : activated p = some q) : Usable (insertOrReplace snapshots (c, p)) := by
  intro c' p' hlookup
  rw [lookup_insertOrReplace] at hlookup
  split at hlookup
  · cases hlookup
    rw [hp]
    rfl
  · exact h c' p' hlookup

theorem snapshot_ends (f : Fault) (c : Commit) :
    Ends (snapshotDeviceConfig f c s)
      (fun s' => ∃ p q, s.device = some p ∧ activated p = some q ∧ s' = { s with snapshots := insertOrReplace s.snapshots (c, p) })
      (fun s' => s' = s ∧ (f = .raises ∨ s.device.bind activated = none)) fun s' => s' = s ∧ f = .dies := by
  refine Ends.checked (fun hsome => ?_) fun hnone => ⟨rfl, .inr (Option.not_isSome_iff_eq_none.1 (Bool.eq_false_iff.1 hnone))⟩
  refine Ends.step (fun _ => ?_) (fun hf => ⟨rfl, .inl hf⟩) fun hf => ⟨rfl, hf⟩
  obtain ⟨q, hq⟩ := Option.isSome_iff_exists.1 hsome
  obtain ⟨p, hp, hactivated⟩ := Option.bind_eq_some_iff.1 hq
  refine ⟨p, q, hp, hactivated, ?_⟩
  rw [hp]
  rfl

theorem Held.insert {o c : Commit} (h : Held T snapshots o) (hne : o ≠ c) (p : Payload) :
    Held T (insertOrReplace snapshots (c, p)) o := by
  obtain ⟨p', q, hlookup, hrest⟩ := h
  exact ⟨p', q, by rw [lookup_insertOrReplace, if_neg hne]; exact hlookup, hrest⟩

theorem held_insert {c : Commit} {p q : Payload} (hp : activated p = some q)
    (hT : T (some c) (some q)) : Held T (insertOrReplace snapshots (c, p)) c :=
  ⟨p, q, by rw [lookup_insertOrReplace, if_pos rfl], hp, hT⟩

/-! ### Install -/

/-- What the first block of an install leaves: the old release has its snapshot. -/
structure Ready (T : Option Commit → Option Payload → Prop) (s₀ : State) (commit : Commit) (s : State) : Prop where
  good : Good s
  current : s.current = s₀.current
  device : s.device = s₀.device
  new : commit ∈ s.releases
  held : ∀ o ∈ s₀.current, Held T s.snapshots o
  others : ∀ c, s₀.current ≠ some c → s.snapshots.lookup c = s₀.snapshots.lookup c

/-- A failure in front of the snapshot of the old release. -/
def InstallFaults.Early (f : InstallFaults) (device : Option Payload) : Prop :=
  f.assets = .raises ∨ f.assets = .none ∧ (f.oldSnapshot = .raises ∨ device.bind activated = none)

/-- The process dies behind the document and in front of the snapshot of the new release. -/
def InstallFaults.WindowDies (f : InstallFaults) (after : Option Payload) : Prop :=
  after.isSome = true ∧ (f.ensure = .dies ∨ f.ensure = .none ∧ f.newSnapshot = .dies)

/-- A failure there. -/
def InstallFaults.WindowRaises (f : InstallFaults) (after : Option Payload) : Prop :=
  after = none ∨ f.ensure = .raises ∨ f.ensure = .none ∧ f.newSnapshot = .raises

/-- What the faults of an install leave out. -/
structure InstallFaults.Spares (T : Option Commit → Option Payload → Prop) (f : InstallFaults) (commit : Commit)
    (after : Option Payload) (s : State) : Prop where
  early : f.Early s.device → f.handler.restore = .none → ∀ o ∈ s.current, s.snapshots.lookup o = none ∨ Held T s.snapshots o
  stale : s.current ≠ some commit → Forward T s commit ∨ ¬f.WindowDies after ∧ (f.WindowRaises after → f.handler.Finishes)
  cut : s.current ≠ some commit → f.settle.Behind → f.handler.Together s.current

section Install

variable {f : InstallFaults} {commit : Commit} {identity : String} {after : Option Payload}

/-- The snapshot of the old release. -/
theorem snapshotOld_ends (hgood : Good s) (hnew : commit ∈ s.releases) (hallows : Allows T s.current commit s.device after) :
    Ends (snapshotOld f.oldSnapshot s.current s) (Ready T s commit)
      (fun s' => s' = s ∧ (f.oldSnapshot = .raises ∨ s.device.bind activated = none)) fun s' => s' = s := by
  cases hold : s.current with
  | none => exact ⟨hgood, rfl, rfl, hnew, fun o ho => (nomatch hold.symm.trans ho), fun _ _ => rfl⟩
  | some o =>
    refine (snapshot_ends f.oldSnapshot o).mono ?_ (fun _ h => h) fun _ h => h.1
    rintro s' ⟨p, q, hp, hq, rfl⟩
    refine ⟨{ hgood with usable := hgood.usable.insert hq }, rfl, rfl, hnew, fun o' ho' => ?_, fun c hc => ?_⟩
    · cases hold.symm.trans ho'
      have hT := hallows.active p q hp hq
      rw [hold] at hT
      exact held_insert hq hT
    · rw [hold] at hc
      change (insertOrReplace s.snapshots (o, p)).lookup c = _
      rw [lookup_insertOrReplace, if_neg fun heq => hc (by rw [heq])]

theorem Ready.rest (h : Ready T s₀ commit s) (hallows : Allows T s₀.current commit s₀.device after) : Rest T s := by
  refine ⟨h.good, ?_⟩
  rw [h.current, h.device]
  exact hallows.kept

theorem Ready.base (h : Ready T s₀ commit s) (hallows : Allows T s₀.current commit s₀.device after)
    (hne : s₀.current ≠ some commit) :
    Base T { s with transaction := some (transactionDocument .install s₀.current commit) }
      (transactionDocument .install s₀.current commit) where
  document := rfl
  required := rfl
  new := h.new
  old := fun c hc => h.good.current c (h.current.trans hc)
  differ := hne
  usable := h.good.usable
  link := .inl h.current
  held := h.held
  bare := fun hnone => by
    have hT := hallows.kept
    rw [show s₀.current = none from hnone] at hT
    change T none s.device
    rw [h.device]
    exact hT

/-- The first block. -/
theorem block_ends (hgood : Good s) (hnew : commit ∈ s.releases) (hallows : Allows T s.current commit s.device after)
    (hspares : f.Spares T commit after s) :
    Ends
      (guarded
        (block [pass f.assets,
          snapshotOld f.oldSnapshot s.current,
          pass f.network,
          if s.current ≠ some commit then writeTransaction f.transaction (transactionDocument .install s.current commit) else skip])
        (handler f.handler s.current s.current none) s)
      (fun s' => ∃ s₁, Ready T s commit s₁ ∧
        s' = if s.current ≠ some commit then { s₁ with transaction := some (transactionDocument .install s.current commit) } else s₁)
      (Safe T) (Safe T) := by
  have hrest : Rest T s := ⟨hgood, hallows.kept⟩
  refine Ends.guarded (N := fun s' => s' = s ∧ f.Early s.device ∨ Ready T s commit s') ?_ ?_
  · refine Ends.step (fun hassets => ?_) (fun hf => .inl ⟨rfl, .inl hf⟩) fun _ => hrest.safe
    refine Ends.block_cons ((snapshotOld_ends hgood hnew hallows).mono (fun _ h => h) (fun _ h => .inl ⟨h.1, .inr ⟨hassets, h.2⟩⟩)
      fun _ h => h ▸ hrest.safe) ?_
    intro s₁ h₁
    refine Ends.step (fun _ => ?_) (fun _ => .inr h₁) fun _ => (h₁.rest hallows).safe
    split
    · rename_i hne
      refine Ends.step (fun _ => ?_) (fun _ => .inr h₁) fun _ => (h₁.rest hallows).safe
      exact ⟨s₁, h₁, rfl⟩
    · rename_i heq
      exact ⟨s₁, h₁, rfl⟩
  · rintro s' (⟨rfl, hearly⟩ | h')
    · exact handler_rest hrest _ fun o ho => ⟨ho, fun hf => hspares.early hearly hf o ho⟩
    · exact handler_rest (h'.rest hallows) _ fun o ho => ⟨h'.current.trans ho, fun _ => .inr (h'.held o ho)⟩

/-- The second block of an install of the current release. -/
theorem reinstall_ends (h : Ready T s₀ commit s) (hallows : Allows T s₀.current commit s₀.device (ensured s₀.device identity))
    (heq : s₀.current = some commit) :
    Ends
      (guarded (block [ensureDeviceConfig f.ensure identity, snapshotDeviceConfig f.newSnapshot commit, pass f.reload, skip])
        (handler f.handler s₀.current s₀.current none) s)
      (Switched T s₀.current commit) (Safe T) (Safe T) := by
  have hrest := h.rest hallows
  refine Ends.guarded (N := fun s' => Rest T s' ∧ s'.current = s₀.current ∧ Held T s'.snapshots commit) ?_ ?_
  · have hheld : Held T s.snapshots commit := h.held commit heq
    refine Ends.block_cons (M := fun s' => ∃ e, ensured s₀.device identity = some e ∧ s' = { s with device := some e }) ?_ ?_
    · refine Ends.checked (fun hsome => ?_) fun _ => ⟨hrest, h.current, hheld⟩
      refine Ends.step (fun _ => ?_) (fun _ => ⟨hrest, h.current, hheld⟩) fun _ => hrest.safe
      obtain ⟨e, he⟩ := Option.isSome_iff_exists.1 hsome
      rw [h.device] at he
      refine ⟨e, he, ?_⟩
      rw [h.device, he]
      rfl
    rintro s₁ ⟨e, he, rfl⟩
    have hT := hallows.gives e he
    have h₁ : Rest T { s with device := some e } := ⟨{ h.good with }, by
      change T s.current (some e)
      rw [h.current, heq]
      exact hT⟩
    refine Ends.block_cons ((snapshot_ends f.newSnapshot commit).mono (fun _ h => h) (fun _ hx => ?_) fun _ hx => ?_) ?_
    · rw [hx.1]
      exact ⟨h₁, h.current, hheld⟩
    · rw [hx.1]
      exact h₁.safe
    rintro s₂ ⟨p, q, hp, hq, rfl⟩
    cases hp
    have h₂ : Rest T { s with device := some e, snapshots := insertOrReplace s.snapshots (commit, e) } :=
      ⟨{ h.good with usable := h.good.usable.insert hq }, h₁.2⟩
    have hheld₂ : Held T (insertOrReplace s.snapshots (commit, e)) commit := held_insert (activated_ensured he) hT
    refine Ends.step (fun _ => ?_) (fun _ => ⟨h₂, h.current, hheld₂⟩) fun _ => h₂.safe
    refine Ends.block_cons (Ends.skip ?_) fun _ h => h
    refine ⟨h₂, h.current.trans heq, fun o ho hne => ?_, fun hnone => ?_⟩
    · exact absurd (Option.some.inj (heq.symm.trans ho)).symm hne
    · rw [heq] at hnone
      cases hnone
  · rintro s' ⟨hrest', hcurrent, hheld⟩
    refine handler_rest hrest' _ fun o ho => ⟨hcurrent.trans ho, fun _ => .inr ?_⟩
    cases heq.symm.trans ho
    exact hheld

/-- The transaction is open, and the handler finishes it or leaves it to a recovery. -/
def InstallFaults.Open (T : Option Commit → Option Payload → Prop) (f : InstallFaults) (commit : Commit) (old : Option Commit)
    (s : State) : Prop :=
  ∃ t, t.newCurrent = commit ∧ t.oldCurrent = old ∧ Base T s t ∧
    (f.handler.Finishes ∨ Pending T s t ∧ (t.state = .switched → f.handler.Together t.oldCurrent))

/-- The second block of an install of another release. -/
theorem upgrade_ends (h : Ready T s₀ commit s) (hallows : Allows T s₀.current commit s₀.device (ensured s₀.device identity))
    (hspares : f.Spares T commit (ensured s₀.device identity) s₀) (hne : s₀.current ≠ some commit) :
    Ends
      (guarded
        (block [ensureDeviceConfig f.ensure identity, snapshotDeviceConfig f.newSnapshot commit, pass f.reload,
          settle f.settle (transactionDocument .install s₀.current commit)])
        (handler f.handler s₀.current s₀.current (some commit))
        { s with transaction := some (transactionDocument .install s₀.current commit) })
      (Switched T s₀.current commit) (Safe T) (Safe T) := by
  obtain ⟨t, ht⟩ : ∃ t, t = transactionDocument .install s₀.current commit := ⟨_, rfl⟩
  have hbase := h.base hallows hne
  rw [← ht] at hbase ⊢
  have hold : t.oldCurrent = s₀.current := by rw [ht]; rfl
  have hcommit : t.newCurrent = commit := by rw [ht]; rfl
  have hprepared : t.state ≠ .switched := by
    rw [ht]
    exact nofun
  have hlookup := h.others commit hne
  -- a snapshot that an earlier installation left
  have hpending : ∀ s', Base T s' t → s'.snapshots.lookup commit = s₀.snapshots.lookup commit →
      Forward T s₀ commit → Pending T s' t := fun s' hbase hlookup hforward =>
    { hbase with
      forward := fun p hp q hq => by
        rw [hcommit] at hp ⊢
        rw [hlookup] at hp
        exact hforward p hp q hq
      switched := fun hs => absurd hs hprepared }
  refine Ends.guarded (N := f.Open T commit s₀.current) ?_ ?_
  · have hraises : ∀ s', Base T s' t → s'.snapshots.lookup commit = s₀.snapshots.lookup commit →
        f.WindowRaises (ensured s₀.device identity) → f.Open T commit s₀.current s' := by
      intro s' hbase' hlookup hwindow
      refine ⟨t, hcommit, hold, hbase', ?_⟩
      rcases hspares.stale hne with hforward | ⟨-, hfinishes⟩
      · exact .inr ⟨hpending s' hbase' hlookup hforward, fun hs => absurd hs hprepared⟩
      · exact .inl (hfinishes hwindow)
    have hdies : ∀ s', Base T s' t → s'.snapshots.lookup commit = s₀.snapshots.lookup commit →
        f.WindowDies (ensured s₀.device identity) → Safe T s' := by
      intro s' hbase' hlookup hwindow
      rcases hspares.stale hne with hforward | ⟨hspared, -⟩
      · exact (hpending s' hbase' hlookup hforward).safe
      · exact absurd hwindow hspared
    refine Ends.block_cons (M := fun s' => ∃ e, ensured s₀.device identity = some e ∧ f.ensure = .none ∧
      s' = { s with transaction := some t, device := some e }) ?_ ?_
    · refine Ends.checked (fun hsome => ?_) fun hnone => ?_
      · obtain ⟨e, he⟩ := Option.isSome_iff_exists.1 hsome
        rw [show ensured ({ s with transaction := some t } : State).device identity = ensured s₀.device identity from
          congrArg (ensured · identity) h.device] at he
        refine Ends.step (fun hf => ⟨e, he, hf, ?_⟩) (fun hf => hraises _ hbase hlookup (.inr (.inl hf))) fun hf =>
          hdies _ hbase hlookup ⟨by rw [he]; rfl, .inl hf⟩
        change ({ s with transaction := some t, device := ensured s.device identity } : State) = _
        rw [h.device, he]
      · refine hraises _ hbase hlookup (.inl ?_)
        rw [← Option.not_isSome_iff_eq_none, ← h.device]
        exact Bool.eq_false_iff.1 hnone
    rintro s₁ ⟨e, he, hensure, rfl⟩
    have hT := hallows.gives e he
    have hbase₁ : Base T { s with transaction := some t, device := some e } t :=
      hbase.withDevice fun hnone => hallows.bare (hold.symm.trans hnone) e he
    refine Ends.block_cons ((snapshot_ends f.newSnapshot commit).mono (fun _ h => h) (fun _ hx => ?_) fun _ hx => ?_) ?_
    · rw [hx.1]
      refine hraises _ hbase₁ hlookup (.inr (.inr ⟨hensure, ?_⟩))
      rcases hx.2 with hf | hnone
      · exact hf
      · rw [show ({ s with transaction := some t, device := some e } : State).device.bind activated = activated e from rfl,
          activated_ensured he] at hnone
        cases hnone
    · rw [hx.1]
      exact hdies _ hbase₁ hlookup ⟨by rw [he]; rfl, .inr ⟨hensure, hx.2⟩⟩
    rintro s₂ ⟨p, q, hp, hq, rfl⟩
    cases hp
    have hheld : ∀ o ∈ s₀.current, Held T (insertOrReplace s.snapshots (commit, e)) o := fun o ho =>
      (h.held o ho).insert (fun heq => hne (by rw [← heq]; exact ho)) e
    have hheld' : Held T (insertOrReplace s.snapshots (commit, e)) commit := held_insert (activated_ensured he) hT
    have h₂ : Pending T { s with transaction := some t, device := some e, snapshots := insertOrReplace s.snapshots (commit, e) } t :=
      { hbase₁ with
        usable := hbase₁.usable.insert hq
        held := fun o ho => hheld o (hold.symm.trans ho)
        forward := fun p hp q' hq' => by
          rw [hcommit] at hp ⊢
          obtain ⟨p', q'', hlookup, hactivated, hT'⟩ := hheld'
          cases hlookup.symm.trans hp
          cases hactivated.symm.trans hq'
          exact hT'
        switched := fun hs => absurd hs hprepared }
    refine Ends.step (fun _ => ?_) (fun _ => ⟨t, hcommit, hold, h₂.toBase, .inr ⟨h₂, fun hs => absurd hs hprepared⟩⟩)
      fun _ => h₂.safe
    refine Ends.block_cons (M := Switched T s₀.current commit) ((settle_ends h₂ (hcommit ▸ hT) f.settle).mono (fun s' hs' => ?_) (fun s' hs' => ?_) fun _ h => h) fun _ h => h
    · have hcurrent : s'.current = some commit := hs'.current.trans (by rw [hcommit])
      have hprevious : s'.previous = s₀.current := hs'.previous.trans hold
      refine ⟨hs'.rest, hcurrent, fun o ho _ => ?_, fun hnone => ?_⟩
      · rw [hs'.snapshots]
        exact ⟨(hs'.rest.1.previous o (hprevious.trans ho)).1, hheld o ho, hheld'⟩
      · rw [hs'.device]
        exact hallows.bare hnone e he
    · obtain ⟨t', h', hnew', hold', hbehind⟩ := hs'
      refine ⟨t', hnew'.trans hcommit, hold'.trans hold, h'.toBase, .inr ⟨h', fun hs => ?_⟩⟩
      rcases hbehind hs with hswitched | hbehind
      · exact absurd hswitched hprepared
      · rw [hold', hold]
        exact hspares.cut hne hbehind
  · rintro s' ⟨t', hnew', hold', hbase', hfinishes⟩
    rw [← hnew', ← hold']
    rcases hfinishes with hfinishes | ⟨hpending', htogether⟩
    · exact handler_finishes hbase' hfinishes
    · exact handler_safe hpending' htogether

theorem installFrom_ends (hgood : Good s) (hnew : commit ∈ s.releases)
    (hallows : Allows T s.current commit s.device (ensured s.device identity))
    (hspares : f.Spares T commit (ensured s.device identity) s) (activates : Bool) :
    Ends (installFrom f commit identity activates s.current s) (Safe T) (Safe T) (Safe T) := by
  have hsafe : Safe T s := Rest.safe ⟨hgood, hallows.kept⟩
  refine Ends.step (fun _ => ?_) (fun _ => hsafe) fun _ => hsafe
  refine Ends.block_cons (block_ends hgood hnew hallows hspares) ?_
  rintro s₁ ⟨s₂, hready, rfl⟩
  refine Ends.block_cons (M := Switched T s.current commit) ?_ ?_
  · by_cases heq : s.current = some commit
    · rw [if_neg (not_not.2 heq), if_neg (not_not.2 heq), if_neg (not_not.2 heq)]
      exact reinstall_ends hready hallows heq
    · rw [if_pos heq, if_pos heq, if_pos heq]
      exact upgrade_ends hready hallows hspares heq
  · intro s₃ h₃
    refine Ends.block_cons (M := Safe T) ?_ fun _ h => h
    split
    · exact activate_ends h₃ f.activation
    · exact h₃.rest.safe

theorem install_ends (hgood : Good s) (hallows : Allows T s.current commit s.device (ensured s.device identity))
    (hspares : f.Spares T commit (ensured s.device identity) s) (activates : Bool) :
    Ends (install f commit identity activates s) (Safe T) (Safe T) (Safe T) := by
  have hsafe : Safe T s := Rest.safe ⟨hgood, hallows.kept⟩
  refine Ends.block_cons (M := fun s' => s' = s) (by rw [recover_idle hgood.idle]; rfl) ?_
  rintro s₁ rfl
  refine Ends.step (fun _ => ?_) (fun _ => hsafe) fun _ => hsafe
  refine Ends.step (fun _ => ?_) (fun _ => hsafe) fun _ => hsafe
  have hsub : ∀ c ∈ s₁.releases, c ∈ if commit ∈ s₁.releases then s₁.releases else s₁.releases ++ [commit] := by
    intro c hc
    split
    · exact hc
    · exact List.mem_append_left _ hc
  have hnew : commit ∈ if commit ∈ s₁.releases then s₁.releases else s₁.releases ++ [commit] := by
    split
    · assumption
    · exact List.mem_append_right _ (List.mem_singleton_self _)
  have hgood' : Good { s₁ with releases := if commit ∈ s₁.releases then s₁.releases else s₁.releases ++ [commit] } :=
    { hgood with
      current := fun c hc => hsub c (hgood.current c hc)
      previous := fun c hc => ⟨hsub c (hgood.previous c hc).1, (hgood.previous c hc).2⟩ }
  refine Ends.block_cons (M := Safe T) ?_ fun _ h => h
  exact installFrom_ends hgood' hnew hallows ⟨hspares.early, hspares.stale, hspares.cut⟩ activates

end Install

/-! ### Rollback -/

/-- What the faults of a rollback leave out. -/
def RollbackFaults.Spares (f : RollbackFaults) : Prop := f.settle.Behind → f.handler.restore = .none → f.handler.revert.Together

section Rollback

variable {f : RollbackFaults} {current previous : Commit}

/-- The last block, with the transaction. -/
theorem rolled_ends {t : Transaction} (h : Pending T s t) (hold : t.oldCurrent = some current) (hnew : t.newCurrent = previous)
    (hstate : t.state = .prepared) (hspares : f.Spares) :
    Ends
      (guarded (block [restoreDeviceConfigSnapshot f.restore previous, settle f.settle t])
        (handler f.handler (some current) (some current) (some previous)) s)
      (Switched T (some current) previous) (Safe T) (Safe T) := by
  refine Ends.guarded (N := fun s' => ∃ t', Pending T s' t' ∧ t'.newCurrent = previous ∧ t'.oldCurrent = some current ∧
    (t'.state = .switched → f.settle.Behind)) ?_ ?_
  · have hsame : ∃ t', Pending T s t' ∧ t'.newCurrent = previous ∧ t'.oldCurrent = some current ∧
        (t'.state = .switched → f.settle.Behind) :=
      ⟨t, h, hnew, hold, fun hfalse => by rw [hstate] at hfalse; cases hfalse⟩
    cases hlookup : s.snapshots.lookup previous with
    | none =>
      refine Ends.block_cons ((restore_missing hlookup f.restore).mono (fun _ h => h.elim) (fun _ hx => ?_) fun _ h => h.elim)
        fun _ h => h
      rw [hx]
      exact hsame
    | some p =>
      obtain ⟨q, hq⟩ := Option.isSome_iff_exists.1 (h.usable _ _ hlookup)
      have hheld : Held T s.snapshots previous :=
        ⟨p, q, hlookup, hq, hnew ▸ h.forward p (hnew ▸ hlookup) q hq⟩
      refine Ends.block_cons ((restore_ends hheld f.restore).mono (fun _ h => h) (fun _ hx => ?_) fun _ hx => ?_) ?_
      · rw [hx.2]
        exact hsame
      · rw [hx.2]
        exact h.safe
      rintro s₁ ⟨d, rfl, hd, -⟩
      have h₁ : Pending T { s with device := d } t := h.withDevice fun hnone => by rw [hold] at hnone; cases hnone
      refine Ends.block_cons (M := Switched T (some current) previous)
        ((settle_ends h₁ (hnew ▸ hd) f.settle).mono (fun s' hs' => ?_) (fun s' hs' => ?_) fun _ h => h) fun _ h => h
      · refine ⟨hs'.rest, hs'.current.trans (by rw [hnew]), fun o ho _ => ?_, fun hnone => (nomatch hnone)⟩
        rw [hs'.snapshots]
        exact ⟨(hs'.rest.1.previous o ((hs'.previous.trans hold).trans ho)).1, h.held o (hold.trans ho), hheld⟩
      · obtain ⟨t', h', hnew', hold', hbehind⟩ := hs'
        refine ⟨t', h', hnew'.trans hnew, hold'.trans hold, fun hs => (hbehind hs).resolve_left fun hfalse => ?_⟩
        rw [hstate] at hfalse
        cases hfalse
  · rintro s' ⟨t', h', hnew', hold', hbehind⟩
    rw [← hnew', ← hold']
    refine handler_safe h' fun hs hrestore => hspares (hbehind hs) ?_
    rw [hold'] at hrestore
    exact hrestore.resolve_left fun hfalse => (nomatch hfalse)

theorem rollbackFrom_ends (hgood : Good s) (hcurrent : s.current = some current) (hprevious : s.previous = some previous)
    (hallows : Allows T (some current) previous s.device ((s.snapshots.lookup previous).bind activated))
    (hspares : f.Spares) (activates : Bool) :
    Ends (rollbackFrom f activates current previous s) (Safe T) (Safe T) (Safe T) := by
  have hrest : Rest T s := ⟨hgood, hcurrent ▸ hallows.kept⟩
  obtain ⟨hmem, hdiffer⟩ := hgood.previous previous hprevious
  have hne : previous ≠ current := fun heq => hdiffer (heq ▸ hcurrent)
  refine Ends.checked (fun _ => ?_) fun _ => hrest.safe
  refine Ends.step (fun _ => ?_) (fun _ => hrest.safe) fun _ => hrest.safe
  refine Ends.block_cons (M := fun s' => ∃ p q, s.device = some p ∧ activated p = some q ∧
    s' = { s with snapshots := insertOrReplace s.snapshots (current, p) }) ?_ ?_
  · refine Ends.guarded ((snapshot_ends f.snapshot current).mono (fun _ h => h) (fun _ h => h.1) fun _ h => h.1 ▸ hrest.safe) ?_
    rintro s' rfl
    exact handler_rest hrest _ fun o ho => (nomatch ho)
  rintro s₁ ⟨p, q, hp, hq, rfl⟩
  have hheld : Held T (insertOrReplace s.snapshots (current, p)) current := held_insert hq (hallows.active p q hp hq)
  have h₁ : Rest T { s with snapshots := insertOrReplace s.snapshots (current, p) } :=
    ⟨{ hgood with usable := hgood.usable.insert hq }, hrest.2⟩
  refine Ends.block_cons (M := fun s' => s' = { s with
      snapshots := insertOrReplace s.snapshots (current, p)
      transaction := some (transactionDocument .rollback (some current) previous) }) ?_ ?_
  · refine Ends.guarded (Ends.atomic (fun _ => rfl) (fun _ => rfl) fun _ => h₁.safe) ?_
    rintro s' rfl
    refine handler_rest h₁ _ fun o ho => ?_
    cases ho
    exact ⟨hcurrent, fun _ => .inr hheld⟩
  rintro s₂ rfl
  have h₂ : Pending T
      { s with
        snapshots := insertOrReplace s.snapshots (current, p)
        transaction := some (transactionDocument .rollback (some current) previous) }
      (transactionDocument .rollback (some current) previous) :=
    { document := rfl
      required := rfl
      new := hmem
      old := fun c hc => hgood.current c (hcurrent.trans hc)
      differ := fun heq => hne (Option.some.inj heq).symm
      usable := h₁.1.usable
      link := .inl hcurrent
      held := fun o ho => by rw [← Option.some.inj ho]; exact hheld
      bare := fun hnone => (nomatch hnone)
      forward := fun p' hp' q' hq' => by
        have hlookup : (insertOrReplace s.snapshots (current, p)).lookup previous = some p' := hp'
        rw [lookup_insertOrReplace, if_neg hne] at hlookup
        refine hallows.gives q' ?_
        rw [hlookup]
        exact hq'
      switched := fun hfalse => (nomatch hfalse) }
  refine Ends.block_cons (rolled_ends h₂ rfl rfl rfl hspares) ?_
  intro s₃ h₃
  refine Ends.block_cons (M := Safe T) ?_ fun _ h => h
  split
  · exact activate_ends h₃ f.activation
  · exact h₃.rest.safe

end Rollback

/-! ### Runs -/

/-- The pairs that an operation leaves: the old release with the `device.json` of before (or what is restored of it),
the new one with its own, and no release where there was none. -/
def Outcome (old : Option Commit) (new : Commit) (before after : Option Payload) (c : Option Commit) (d : Option Payload) : Prop :=
  c = old ∧ (d = before ∨ ∃ p q, before = some p ∧ activated p = some q ∧ d = some q) ∨
    (c = some new ∨ c = none ∧ old = none) ∧ ∃ e, after = some e ∧ d = some e

theorem outcome_allows (old : Option Commit) (new : Commit) (before after : Option Payload) :
    Allows (Outcome old new before after) old new before after where
  kept := .inl ⟨rfl, .inl rfl⟩
  active := fun p q hp hq => .inl ⟨rfl, .inr ⟨p, q, hp, hq, rfl⟩⟩
  gives := fun e he => .inr ⟨.inl rfl, e, he, rfl⟩
  bare := fun hold e he => .inr ⟨.inr ⟨rfl, hold⟩, e, he, rfl⟩

/-- No handler of a settle that failed behind the document is cut between its links. -/
def Uncut (s : State) : Act → Prop
  | .edit _ => True
  | .install f commit _ _ => s.current ≠ some commit → f.settle.Behind → f.handler.Together s.current
  | .rollback f _ => f.Spares

/-- Nor does an install restore a snapshot that an earlier operation left. -/
def Spared (s : State) : Act → Prop
  | .edit _ => True
  | .install f commit identity _ =>
    f.Spares (Outcome s.current commit s.device (ensured s.device identity)) commit (ensured s.device identity) s
  | .rollback f _ => f.Spares

/-- What an operation and the recovery behind it leave. -/
def Leaves (s : State) (a : Act) (s' : State) : Prop :=
  match a with
  | .edit device => s' = { s with device := device }
  | .install _ commit identity _ => Outcome s.current commit s.device (ensured s.device identity) s'.current s'.device
  | .rollback _ _ =>
    match s.current, s.previous with
    | some current, some previous =>
      Outcome (some current) previous s.device ((s.snapshots.lookup previous).bind activated) s'.current s'.device
    | _, _ => s' = s

theorem Ends.safe {x : Ending × State} (h : Ends x (Safe T) (Safe T) (Safe T)) : Safe T x.2 := by
  obtain ⟨ending, s⟩ := x
  cases ending with
  | returns => exact h
  | raises => exact h
  | dies => exact h

theorem install_resumes {f : InstallFaults} {commit : Commit} {identity : String} (activates : Bool) (hgood : Good s)
    (hallows : Allows T s.current commit s.device (ensured s.device identity))
    (hspares : f.Spares T commit (ensured s.device identity) s) :
    ∃ s', step s (.install f commit identity activates) = some s' ∧ Good s' ∧ T s'.current s'.device :=
  (Ends.safe (install_ends hgood hallows hspares activates)).resumes

theorem rollback_resumes {f : RollbackFaults} (activates : Bool) {current previous : Commit} (hgood : Good s)
    (hcurrent : s.current = some current) (hprevious : s.previous = some previous)
    (hallows : Allows T (some current) previous s.device ((s.snapshots.lookup previous).bind activated)) (hspares : f.Spares) :
    ∃ s', step s (.rollback f activates) = some s' ∧ Good s' ∧ T s'.current s'.device := by
  refine Safe.resumes (Ends.safe (T := T) ?_)
  refine Ends.block_cons (M := fun s' => s' = s) (by rw [recover_idle hgood.idle]; rfl) ?_
  rintro s₁ rfl
  refine Ends.block_cons (M := Safe T) (Ends.reading ?_) fun _ h => h
  rw [hcurrent, hprevious]
  exact rollbackFrom_ends hgood hcurrent hprevious hallows hspares activates

/-- A rollback without both links does nothing. -/
theorem rollback_unavailable {f : RollbackFaults} {activates : Bool} (hgood : Good s)
    (hlinks : s.current = none ∨ s.previous = none) : step s (.rollback f activates) = some s := by
  have hrun : rollback f activates s = (.raises, s) := by
    unfold rollback block seq
    rw [recover_idle hgood.idle]
    unfold block seq reading
    dsimp only
    rcases hlinks with h | h
    · rw [h]
      rfl
    · rw [h]
      cases s.current <;> rfl
  change resume (rollback f activates s).2 = some s
  unfold resume
  rw [hrun, recover_idle hgood.idle]

theorem step_leaves (hgood : Good s) {a : Act} (ha : Spared s a) : ∃ s', step s a = some s' ∧ Good s' ∧ Leaves s a s' := by
  cases a with
  | edit device => exact ⟨_, rfl, { hgood with }, rfl⟩
  | install f commit identity activates => exact install_resumes activates hgood (outcome_allows ..) ha
  | rollback f activates =>
    simp only [Leaves]
    split
    · rename_i current previous hcurrent hprevious
      exact rollback_resumes activates hgood hcurrent hprevious (outcome_allows ..) ha
    · rename_i hlinks
      refine ⟨s, rollback_unavailable hgood ?_, hgood, rfl⟩
      rcases Option.eq_none_or_eq_some s.current with hnone | ⟨current, hcurrent⟩
      · exact .inl hnone
      · rcases Option.eq_none_or_eq_some s.previous with hnone | ⟨previous, hprevious⟩
        · exact .inr hnone
        · exact absurd hprevious (hlinks current previous hcurrent)

theorem step_good (hgood : Good s) {a : Act} (ha : Uncut s a) {s' : State} (hstep : step s a = some s') : Good s' := by
  have hallows : ∀ old new before after, Allows (fun _ _ => True) old new before after := fun _ _ _ _ =>
    ⟨trivial, fun _ _ _ _ => trivial, fun _ _ => trivial, fun _ _ _ => trivial⟩
  cases a with
  | edit device =>
    cases hstep
    exact { hgood with }
  | install f commit identity activates =>
    have hspares : f.Spares (fun _ _ => True) commit (ensured s.device identity) s := by
      refine ⟨fun _ _ o _ => ?_, fun _ => .inl fun _ _ _ _ => trivial, ha⟩
      cases hlookup : s.snapshots.lookup o with
      | none => exact .inl rfl
      | some p =>
        obtain ⟨q, hq⟩ := Option.isSome_iff_exists.1 (hgood.usable _ _ hlookup)
        exact .inr ⟨p, q, hlookup, hq, trivial⟩
    obtain ⟨s'', hstep', hgood', -⟩ := install_resumes activates hgood (hallows _ _ _ _) hspares
    cases hstep.symm.trans hstep'
    exact hgood'
  | rollback f activates =>
    by_cases hlinks : s.current = none ∨ s.previous = none
    · rw [rollback_unavailable hgood hlinks] at hstep
      cases hstep
      exact hgood
    · obtain ⟨current, hcurrent⟩ := Option.ne_none_iff_exists'.1 fun h => hlinks (.inl h)
      obtain ⟨previous, hprevious⟩ := Option.ne_none_iff_exists'.1 fun h => hlinks (.inr h)
      obtain ⟨s'', hstep', hgood', -⟩ :=
        rollback_resumes activates hgood hcurrent hprevious (hallows _ _ _ _) ha
      cases hstep.symm.trans hstep'
      exact hgood'

theorem init_good : Good State.init := by
  refine ⟨rfl, fun c hc => ?_, fun c hc => ?_, fun c p hp => ?_⟩
  · cases hc
  · cases hc
  · cases hp

/-- Interrupted upgrades leave a release with its own configuration. -/
theorem upgrades_recover {acts : List Act} {s : State} (hrun : run step State.init acts = some s)
    (huncut : Along step (fun s a _ => Uncut s a) State.init acts) :
    Good s ∧ ∀ a, Spared s a → ∃ s', step s a = some s' ∧ Good s' ∧ Leaves s a s' := by
  have hkeeps : ∀ s a t, Good s → step s a = some t → Uncut s a → Good t := fun _ _ _ hs hstep ha => step_good hs ha hstep
  have hgood : Good s := run_invariant_of_along hkeeps init_good huncut hrun
  exact ⟨hgood, fun a ha => step_leaves hgood ha⟩

/-! ### Two releases -/

def noHandlerFaults : HandlerFaults := ⟨.none, noRevertFaults, .none⟩

def noActivationFaults : ActivationFaults := ⟨.none, .none, .none, .none, .none, .none, noSettleFaults, .none⟩

def noInstallFaults : InstallFaults :=
  ⟨noRecoverFaults, .none, .none, .none, .none, .none, .none, .none, .none, .none, .none, noSettleFaults, noHandlerFaults,
    noActivationFaults⟩

def noRollbackFaults : RollbackFaults :=
  ⟨noRecoverFaults, .none, .none, .none, .none, noSettleFaults, noHandlerFaults, noActivationFaults⟩

def sampleDevice (profile : Profile) (others : String) : Payload := jsonBytes ⟨⟨some profile, ""⟩, others⟩

def sampleInstall (commit : Commit) (f : InstallFaults) : Act := .install f commit "id" true

/-- The second release is installed and rolled back, and the operator edits `device.json`. -/
def sampleActs (profile : Profile) : List Act :=
  [.edit (some (sampleDevice .lab "0")), sampleInstall "a" noInstallFaults, sampleInstall "b" noInstallFaults,
    .rollback noRollbackFaults true, .edit (some (sampleDevice profile "1"))]

def sampleState (profile : Profile) : State := (run step State.init (sampleActs profile)).getD State.init

/-- The process dies between the transaction of a third release and its `device.json`. -/
def interrupted : Act := sampleInstall "c" { noInstallFaults with ensure := .dies }

theorem interrupted_spared : Spared (sampleState .lab) interrupted where
  early h := by rcases h with h | ⟨-, h | h⟩ <;> cases h
  stale _ := .inl fun p hp => (nomatch hp)
  cut _ h := by rcases h.2.2 with h | ⟨-, h | ⟨-, h⟩⟩ <;> cases h

theorem upgrades_recover_sample :
    (sampleState .lab).current = some "a" ∧ (sampleState .lab).previous = some "b" ∧ Good (sampleState .lab) ∧
      ∃ s', step (sampleState .lab) interrupted = some s' ∧ Good s' ∧ Leaves (sampleState .lab) interrupted s' ∧
        s'.current = some "a" ∧ s'.device = some (sampleDevice .lab "1") := by
  have hquiet : ¬noSettleFaults.Behind := fun h => by rcases h.2.2 with h | ⟨-, h | ⟨-, h⟩⟩ <;> cases h
  have huncut : Along step (fun s a _ => Uncut s a) State.init (sampleActs .lab) :=
    fun _ _ => ⟨trivial, fun _ _ => ⟨fun _ h => absurd h hquiet, fun _ _ => ⟨fun _ h => absurd h hquiet,
      fun _ _ => ⟨fun h => absurd h hquiet, fun _ _ => ⟨trivial, trivial⟩⟩⟩⟩⟩
  obtain ⟨hgood, hleaves⟩ := upgrades_recover (show run step State.init (sampleActs .lab) = some (sampleState .lab) from rfl) huncut
  obtain ⟨s', hs', hgood', hleft⟩ := hleaves interrupted interrupted_spared
  refine ⟨rfl, rfl, hgood, s', hs', hgood', hleft, ?_⟩
  cases hs'
  decide

/-- An upgrade that fails behind its transaction leaves the customer's configuration as a lab one. The rest are slips: a
failure in front of the snapshot restores an old one; a death in front of the new snapshot goes forward to an old one; and a
handler that dies between the links leaves one release in both. -/
theorem upgrades_recover_fails :
    (step (sampleState .customer) (sampleInstall "c" { noInstallFaults with ensure := .raises })).map (fun s => (s.current, s.device)) =
        some (some "a", some (jsonBytes ⟨labSecurity, "1"⟩)) ∧
      (step (sampleState .lab) (sampleInstall "c" { noInstallFaults with assets := .raises })).map (fun s => (s.current, s.device)) =
        some (some "a", some (sampleDevice .lab "0")) ∧
      (step (sampleState .lab) (sampleInstall "b" { noInstallFaults with ensure := .dies })).map (fun s => (s.current, s.device)) =
        some (some "b", some (sampleDevice .lab "0")) ∧
      (step (sampleState .lab) (sampleInstall "c"
          { noInstallFaults with
            settle := { noSettleFaults with previous := .raises }
            handler := { noHandlerFaults with revert := { noRevertFaults with previous := .dies } } })).map
        (fun s => (s.current, s.previous)) = some (some "a", some "a") := by
  decide

end Conductor.Deployment
