import Conductor.Deployment.Release

/-! What the operations and the next recovery leave. A state is `Safe` where it rests (no transaction, consistent
links, an allowed pair of release and configuration) or where a recovery of its transaction gives such a state. -/

namespace Conductor.Deployment

open Crash Proc KeyTable Runs

theorem activated_activated {p q : Payload} (h : activated p = some q) : activated q = some q := by
  cases p with
  | text bytes => cases h
  | object layout config =>
    simp only [activated] at h
    split at h
    · cases h
    · rename_i hlab
      cases h
      simp only [activated, hlab]
    · cases h
      rfl

theorem activated_ensured {device : Option Payload} {identity : String} {e : Payload} (h : ensured device identity = some e) :
    activated e = some e := by
  unfold ensured at h
  split at h
  · exact activated_activated h
  · cases h
  · exact activated_activated h

/-! ### States -/

def Usable (snapshots : List (Commit × Payload)) : Prop := ∀ c p, snapshots.lookup c = some p → (activated p).isSome = true

/-- No operation is under way, and the links are what they should be. -/
structure Good (s : State) : Prop where
  idle : s.transaction = none
  current : ∀ c ∈ s.current, c ∈ s.releases
  previous : ∀ c ∈ s.previous, c ∈ s.releases ∧ s.current ≠ some c
  usable : Usable s.snapshots

section States

variable (T : Option Commit → Option Payload → Prop)

/-- The snapshot of a release gives an allowed pair. -/
def Held (snapshots : List (Commit × Payload)) (o : Commit) : Prop :=
  ∃ p q, snapshots.lookup o = some p ∧ activated p = some q ∧ T (some o) (some q)

/-- The transaction can be reverted. -/
structure Base (s : State) (t : Transaction) : Prop where
  document : s.transaction = some t
  required : t.configSnapshotRequired = true
  new : t.newCurrent ∈ s.releases
  old : ∀ c ∈ t.oldCurrent, c ∈ s.releases
  differ : t.oldCurrent ≠ some t.newCurrent
  usable : Usable s.snapshots
  link : s.current = t.oldCurrent ∨ s.current = some t.newCurrent
  held : ∀ o ∈ t.oldCurrent, Held T s.snapshots o
  bare : t.oldCurrent = none → T none s.device

/-- A snapshot of the new release gives an allowed pair. -/
def Forward (s : State) (c : Commit) : Prop := ∀ p ∈ s.snapshots.lookup c, ∀ q ∈ activated p, T (some c) (some q)

/-- The transaction can be recovered. -/
structure Pending (s : State) (t : Transaction) : Prop extends Base T s t where
  forward : Forward T s t.newCurrent
  switched : t.state = .switched → s.current = some t.newCurrent

def Rest (s : State) : Prop := Good s ∧ T s.current s.device

def Safe (s : State) : Prop := Rest T s ∨ ∃ t, Pending T s t

end States

variable {T : Option Commit → Option Payload → Prop} {s : State} {t : Transaction}

theorem Rest.safe (h : Rest T s) : Safe T s := .inl h

theorem Pending.safe (h : Pending T s t) : Safe T s := .inr ⟨t, h⟩

variable {d : Option Payload} {old : Option Commit}

theorem Base.withDevice (h : Base T s t) (hd : t.oldCurrent = none → T none d) :
    Base T { s with device := d } t := { h with bare := hd }

theorem Pending.withDevice (h : Pending T s t) (hd : t.oldCurrent = none → T none d) :
    Pending T { s with device := d } t := { h with bare := hd }

/-! ### Settling -/

/-- Both links and the document are written, and what follows raises. -/
def SettleFaults.Behind (f : SettleFaults) : Prop :=
  f.current = .none ∧ f.document = .none ∧
    (f.previous = .raises ∨ f.previous = .none ∧ (f.prune = .raises ∨ f.prune = .none ∧ f.unlink = .raises))

theorem Pending.pruned (h : Pending T s t) : Pending T { s with releases := s.releases.filter (· ∈ t.kept) } t := by
  refine { h with new := ?_, old := fun c hc => ?_ }
  · exact List.mem_filter.2 ⟨h.new, by simp [Transaction.kept]⟩
  · have hc' : t.oldCurrent = some c := hc
    exact List.mem_filter.2 ⟨h.old c hc, by simp [Transaction.kept, hc']⟩

/-- The last statement of a transaction. -/
theorem Pending.unlinked (h : Pending T s t) (hcurrent : s.current = some t.newCurrent) (hprevious : s.previous = t.oldCurrent) :
    Good { s with transaction := none } := by
  refine ⟨rfl, fun c hc => ?_, fun c hc => ?_, h.usable⟩
  · have hc' : s.current = some c := hc
    cases hcurrent.symm.trans hc'
    exact h.new
  · have hc' : s.previous = some c := hc
    rw [hprevious] at hc'
    refine ⟨h.old c hc', fun heq => h.differ ?_⟩
    have heq' : s.current = some c := heq
    rw [hc', ← heq', hcurrent]

/-- What a returning settle leaves. -/
structure Settles (T : Option Commit → Option Payload → Prop) (s : State) (t : Transaction) (s' : State) : Prop where
  rest : Rest T s'
  current : s'.current = some t.newCurrent
  previous : s'.previous = t.oldCurrent
  device : s'.device = s.device
  snapshots : s'.snapshots = s.snapshots

theorem settle_ends (h : Pending T s t) (hdevice : T (some t.newCurrent) s.device) (f : SettleFaults) :
    Ends (settle f t s) (Settles T s t)
      (fun s' => ∃ t', Pending T s' t' ∧ t'.newCurrent = t.newCurrent ∧ t'.oldCurrent = t.oldCurrent ∧
        (t'.state = .switched → t.state = .switched ∨ f.Behind))
      (Safe T) := by
  refine Ends.checked (fun _ => ?_) fun hnew => absurd h.new (by simpa using hnew)
  -- the link and the document
  refine Ends.block_cons (M := fun s' => ∃ t', Pending T s' t' ∧ t'.newCurrent = t.newCurrent ∧ t'.oldCurrent = t.oldCurrent ∧
    (t'.state = .switched → t.state = .switched ∨ f.current = .none ∧ f.document = .none) ∧ s'.current = some t.newCurrent ∧
      s'.device = s.device ∧ s'.snapshots = s.snapshots) ?_ ?_
  · split
    · rename_i hprepared
      refine Ends.step (fun hcurrent => ?_) (fun _ => ⟨t, h, rfl, rfl, .inl⟩) fun _ => h.safe
      have h₁ : Pending T { s with current := some t.newCurrent } t := { h with link := .inr rfl, switched := fun _ => rfl }
      refine Ends.step (fun hdocument => ?_) (fun _ => ⟨t, h₁, rfl, rfl, .inl⟩) fun _ => h₁.safe
      refine ⟨{ t with state := .switched }, ?_, rfl, rfl, fun _ => .inr ⟨hcurrent, hdocument⟩, rfl, rfl, rfl⟩
      exact
        { document := rfl
          required := h.required
          new := h.new
          old := h.old
          differ := h.differ
          usable := h.usable
          link := .inr rfl
          held := h.held
          bare := h.bare
          forward := h.forward
          switched := fun _ => rfl }
    · rename_i hswitched
      have hstate : t.state = .switched := by
        cases hstate : t.state with
        | prepared => exact absurd hstate hswitched
        | switched => rfl
      exact ⟨t, h, rfl, rfl, .inl, h.switched hstate, rfl, rfl⟩
  rintro s₁ ⟨t₁, h₁, hnew, hold, hbehind, hcurrent, hdevice₁, hsnapshots⟩
  rw [if_neg h.differ]
  refine Ends.step (fun hprevious => ?_)
    (fun hprevious => ⟨t₁, h₁, hnew, hold, fun hs => (hbehind hs).imp id fun h => ⟨h.1, h.2, .inl hprevious⟩⟩) fun _ => h₁.safe
  have h₂ : Pending T { s₁ with previous := t.oldCurrent } t₁ := { h₁ with }
  refine Ends.step (fun hprune => ?_)
    (fun hprune => ⟨t₁, h₂, hnew, hold, fun hs => (hbehind hs).imp id fun h => ⟨h.1, h.2, .inr ⟨hprevious, .inl hprune⟩⟩⟩)
    fun _ => h₂.safe
  have hkept : t.kept = t₁.kept := by
    unfold Transaction.kept
    rw [hnew, hold]
  have h₃ := h₂.pruned
  rw [← hkept] at h₃
  refine Ends.step (fun _ => ?_)
    (fun hunlink => ⟨t₁, h₃, hnew, hold,
      fun hs => (hbehind hs).imp id fun h => ⟨h.1, h.2, .inr ⟨hprevious, .inr ⟨hprune, hunlink⟩⟩⟩⟩)
    fun _ => h₃.safe
  refine ⟨⟨h₃.unlinked (by rw [hnew]; exact hcurrent) hold.symm, ?_⟩, hcurrent, rfl, hdevice₁, hsnapshots⟩
  change T s₁.current s₁.device
  rw [hcurrent, hdevice₁]
  exact hdevice

/-! ### Reverting -/

theorem Base.reverted (h : Base T s t) :
    Good { s with current := t.oldCurrent, previous := some t.newCurrent, transaction := none } := by
  refine ⟨rfl, h.old, fun c hc => ?_, h.usable⟩
  cases hc
  exact ⟨h.new, h.differ⟩

def RevertFaults.Finishes (f : RevertFaults) : Prop := f.current = .none ∧ f.previous = .none ∧ f.unlink = .none

/-- Where the first link is switched, the rest follows. -/
def RevertFaults.Together (f : RevertFaults) : Prop := f.current = .none → f.previous = .none ∧ f.unlink = .none

theorem revert_finishes (h : Base T s t) {f : RevertFaults} (hf : f.Finishes) :
    Ends (revertReleaseSwitch f t.oldCurrent t.newCurrent s)
      (fun s' => s' = { s with current := t.oldCurrent, previous := some t.newCurrent, transaction := none })
      (fun _ => False) fun _ => False := by
  obtain ⟨h1, h2, h3⟩ := hf
  refine Ends.checked (fun _ => ?_) fun hlink => ?_
  · refine Ends.step (fun _ => ?_) (fun hf => by rw [h1] at hf; cases hf) fun hf => by rw [h1] at hf; cases hf
    refine Ends.step (fun _ => ?_) (fun hf => by rw [h2] at hf; cases hf) fun hf => by rw [h2] at hf; cases hf
    exact Ends.step (fun _ => rfl) (fun hf => by rw [h3] at hf; cases hf) fun hf => by rw [h3] at hf; cases hf
  · simp only [Bool.or_eq_false_iff, decide_eq_false_iff_not] at hlink
    exact h.link.elim hlink.1 hlink.2

theorem revert_safe (h : Pending T s t) (hdevice : T t.oldCurrent s.device) {f : RevertFaults}
    (hf : t.state = .switched → f.Together) :
    Ends (revertReleaseSwitch f t.oldCurrent t.newCurrent s) (Rest T) (Safe T) (Safe T) := by
  cases hstate : t.state with
  | switched =>
    -- nothing or everything is done
    have htogether := hf hstate
    cases hcurrent : f.current with
    | none =>
      refine (revert_finishes h.toBase ⟨hcurrent, htogether hcurrent⟩).mono ?_ (fun _ h => h.elim) fun _ h => h.elim
      rintro s' rfl
      exact ⟨h.toBase.reverted, hdevice⟩
    | raises =>
      refine Ends.checked (fun _ => ?_) fun _ => h.safe
      exact Ends.step (fun hf => (nomatch hcurrent.symm.trans hf)) (fun _ => h.safe) fun _ => h.safe
    | dies =>
      refine Ends.checked (fun _ => ?_) fun _ => h.safe
      exact Ends.step (fun hf => (nomatch hcurrent.symm.trans hf)) (fun _ => h.safe) fun _ => h.safe
  | prepared =>
    have h₁ : Pending T { s with current := t.oldCurrent } t :=
      { h with link := .inl rfl, switched := fun hfalse => by rw [hstate] at hfalse; cases hfalse }
    have h₂ : Pending T { s with current := t.oldCurrent, previous := some t.newCurrent } t := { h₁ with }
    refine Ends.checked (fun _ => ?_) fun _ => h.safe
    refine Ends.step (fun _ => ?_) (fun _ => h.safe) fun _ => h.safe
    refine Ends.step (fun _ => ?_) (fun _ => h₁.safe) fun _ => h₁.safe
    exact Ends.step (fun _ => ⟨h.toBase.reverted, hdevice⟩) (fun _ => h₂.safe) fun _ => h₂.safe

/-! ### Restoring -/

theorem restore_ends {c : Commit} (h : Held T s.snapshots c) (f : Fault) :
    Ends (restoreDeviceConfigSnapshot f c s) (fun s' => ∃ d, s' = { s with device := d } ∧ T (some c) d ∧ f = .none)
      (fun s' => f = .raises ∧ s' = s) fun s' => f = .dies ∧ s' = s := by
  obtain ⟨p, q, hlookup, hactivated, hT⟩ := h
  refine Ends.checked (fun _ => ?_) fun hnone => ?_
  · refine Ends.step (fun hf => ?_) (fun hf => ⟨hf, rfl⟩) fun hf => ⟨hf, rfl⟩
    refine ⟨_, rfl, ?_, hf⟩
    rw [hlookup, Option.bind_some, hactivated]
    exact hT
  · rw [hlookup, Option.bind_some, hactivated] at hnone
    cases hnone

theorem restore_missing {c : Commit} (h : s.snapshots.lookup c = none) (f : Fault) :
    Ends (restoreDeviceConfigSnapshot f c s) (fun _ => False) (fun s' => s' = s) fun _ => False :=
  Ends.checked (fun hsome => by rw [h] at hsome; cases hsome) fun _ => rfl

theorem restoreOld_ends (h : ∀ o ∈ old, Held T s.snapshots o) (hbare : old = none → T none s.device) (f : Fault) :
    Ends (restoreOld f old s) (fun s' => ∃ d, s' = { s with device := d } ∧ T old d ∧ (old = none ∨ f = .none))
      (fun s' => f = .raises ∧ s' = s) fun s' => f = .dies ∧ s' = s := by
  cases old with
  | none => exact ⟨s.device, rfl, hbare rfl, .inl rfl⟩
  | some o => exact (restore_ends (h o rfl) f).mono (fun _ ⟨d, hd, hT, hf⟩ => ⟨d, hd, hT, .inr hf⟩) (fun _ h => h) fun _ h => h

/-! ### Recovery -/

theorem recover_idle (h : s.transaction = none) (f : RecoverFaults) : recover f s = (.returns, s) := by
  unfold recover reading
  rw [h]
  rfl

/-- A settle without a failure. -/
theorem settle_returns (hnew : t.newCurrent ∈ s.releases) (hdiffer : t.oldCurrent ≠ some t.newCurrent)
    (hswitched : t.state = .switched → s.current = some t.newCurrent) :
    settle noSettleFaults t s =
      (.returns,
        { s with
          current := some t.newCurrent
          previous := t.oldCurrent
          releases := s.releases.filter (· ∈ t.kept)
          transaction := none }) := by
  have hcheck : releaseMetadata t.newCurrent s = (.returns, s) := by
    unfold releaseMetadata check
    rw [if_pos (by simpa using hnew)]
  unfold settle
  rw [if_neg hdiffer]
  unfold block seq
  rw [hcheck]
  cases hstate : t.state with
  | prepared => rfl
  | switched =>
    rw [← hswitched hstate]
    rfl

theorem recover_pending (h : Pending T s t) : Ends (recover noRecoverFaults s) (Rest T) (fun _ => False) fun _ => False := by
  refine Ends.reading ?_
  rw [h.document]
  refine Ends.checked (fun _ => ?_) fun hnew => absurd h.new (by simpa using hnew)
  refine Ends.block_cons (M := Rest T) ?_ fun s' hs' => hs'
  rw [h.required, if_pos rfl]
  refine Ends.reading ?_
  cases hlookup : s.snapshots.lookup t.newCurrent with
  | none =>
    refine Ends.block_cons (revert_finishes h.toBase ⟨rfl, rfl, rfl⟩) ?_
    rintro s₁ rfl
    refine Ends.block_cons (M := Rest T) ?_ fun s' hs' => hs'
    refine (restoreOld_ends (T := T) ?_ ?_ .none).mono ?_ (fun _ h => (nomatch h.1)) fun _ h => (nomatch h.1)
    · exact h.held
    · exact h.bare
    rintro s₂ ⟨d, rfl, hd, -⟩
    exact ⟨{ h.toBase.reverted with }, hd⟩
  | some p =>
    obtain ⟨q, hq⟩ := Option.isSome_iff_exists.1 (h.usable _ _ hlookup)
    have hheld : Held T s.snapshots t.newCurrent := ⟨p, q, hlookup, hq, h.forward p hlookup q hq⟩
    refine Ends.block_cons ((restore_ends hheld .none).mono (fun _ h => h) (fun _ h => (nomatch h.1)) fun _ h => (nomatch h.1)) ?_
    rintro s₁ ⟨d, rfl, hd, -⟩
    refine Ends.block_cons (M := Rest T) ?_ fun s' hs' => hs'
    have hsettle : settle noSettleFaults t { s with device := d } = _ := settle_returns h.new h.differ h.switched
    rw [show noRecoverFaults.settle = noSettleFaults from rfl, hsettle]
    have hpruned : Pending T
        { s with
          current := some t.newCurrent
          previous := t.oldCurrent
          releases := s.releases.filter (· ∈ t.kept) } t := { h.pruned with link := .inr rfl, switched := fun _ => rfl }
    exact ⟨{ hpruned.unlinked rfl rfl with }, hd⟩

/-- The next recovery of a safe state. -/
theorem Safe.resumes (h : Safe T s) : ∃ s', resume s = some s' ∧ Rest T s' := by
  unfold resume
  rcases h with hrest | ⟨t, hpending⟩
  · rw [recover_idle hrest.1.idle]
    exact ⟨s, rfl, hrest⟩
  · have hends := recover_pending hpending
    generalize recover noRecoverFaults s = x at hends
    obtain ⟨ending, s'⟩ := x
    obtain ⟨hreturns, hrest⟩ := hends.returned
    obtain rfl : ending = .returns := hreturns
    exact ⟨s', rfl, hrest⟩

/-! ### The handlers -/

def HandlerFaults.Finishes (f : HandlerFaults) : Prop := f.restore = .none ∧ f.revert.Finishes

/-- Where the handler gets to switch the first link back, it unlinks the transaction. -/
def HandlerFaults.Together (f : HandlerFaults) (old : Option Commit) : Prop := old = none ∨ f.restore = .none → f.revert.Together

variable {f : HandlerFaults}

theorem handler_finishes (h : Base T s t) (hf : f.Finishes) :
    Ends (handler f t.oldCurrent t.oldCurrent (some t.newCurrent) s) (Safe T) (Safe T) (Safe T) := by
  refine Ends.block_cons ((restoreOld_ends h.held h.bare f.restore).mono (fun _ h => h) (fun _ hx => ?_) fun _ hx => ?_) ?_
  · rw [hf.1] at hx
    cases hx.1
  · rw [hf.1] at hx
    cases hx.1
  rintro s₁ ⟨d, rfl, hd, -⟩
  have h₁ : Base T { s with device := d } t := h.withDevice fun hnone => by rw [hnone] at hd; exact hd
  refine Ends.block_cons ((revert_finishes h₁ hf.2).mono (fun _ h => h) (fun _ h => h.elim) fun _ h => h.elim) ?_
  rintro s₂ rfl
  have hrest : Rest T { s with device := d, current := t.oldCurrent, previous := some t.newCurrent, transaction := none } :=
    ⟨h₁.reverted, hd⟩
  exact Ends.step (fun _ => hrest.safe) (fun _ => hrest.safe) fun _ => hrest.safe

theorem handler_safe (h : Pending T s t) (hf : t.state = .switched → f.Together t.oldCurrent) :
    Ends (handler f t.oldCurrent t.oldCurrent (some t.newCurrent) s) (Safe T) (Safe T) (Safe T) := by
  refine Ends.block_cons ((restoreOld_ends h.held h.bare f.restore).mono (fun _ h => h) (fun _ hx => ?_) fun _ hx => ?_) ?_
  · rw [hx.2]
    exact h.safe
  · rw [hx.2]
    exact h.safe
  rintro s₁ ⟨d, rfl, hd, hf'⟩
  have h₁ : Pending T { s with device := d } t := h.withDevice fun hnone => by rw [hnone] at hd; exact hd
  refine Ends.block_cons (revert_safe h₁ hd fun hs => hf hs hf') ?_
  intro s₂ hrest
  exact Ends.step (fun _ => hrest.safe) (fun _ => hrest.safe) fun _ => hrest.safe

/-- The handler without a transaction. -/
theorem handler_rest (h : Rest T s) {restores : Option Commit} (old : Option Commit)
    (hr : ∀ o ∈ restores, s.current = some o ∧ (f.restore = .none → s.snapshots.lookup o = none ∨ Held T s.snapshots o)) :
    Ends (handler f restores old none s) (Safe T) (Safe T) (Safe T) := by
  have hservices : ∀ s', Safe T s' → Ends (block [skip, pass f.services] s') (Safe T) (Safe T) (Safe T) := fun s' hs' =>
    Ends.block_cons (Ends.skip hs') fun _ hs => Ends.step (fun _ => hs) (fun _ => hs) fun _ => hs
  refine Ends.block_cons (M := Safe T) ?_ hservices
  cases restores with
  | none => exact h.safe
  | some o =>
    obtain ⟨hcurrent, hheld⟩ := hr o rfl
    refine Ends.checked (fun hsome => Ends.step (fun hf => ?_) (fun _ => h.safe) fun _ => h.safe) fun _ => h.safe
    rcases hheld hf with hnone | ⟨p, q, hlookup, hactivated, hT⟩
    · rw [hnone] at hsome
      cases hsome
    · refine Rest.safe ⟨{ h.1 with }, ?_⟩
      change T s.current ((s.snapshots.lookup o).bind activated)
      rw [hcurrent, hlookup, Option.bind_some, hactivated]
      exact hT

/-! ### Activation -/

/-- What an activation finds. -/
structure Switched (T : Option Commit → Option Payload → Prop) (old : Option Commit) (new : Commit) (s : State) : Prop where
  rest : Rest T s
  current : s.current = some new
  held : ∀ o ∈ old, o ≠ new → o ∈ s.releases ∧ Held T s.snapshots o ∧ Held T s.snapshots new
  bare : old = none → T none s.device

theorem activate_ends {new : Commit} (h : Switched T old new s) (f : ActivationFaults) :
    Ends (activate f old new s) (Safe T) (Safe T) (Safe T) := by
  refine Ends.guarded (N := fun s' => s' = s) (Ends.atomic (fun _ => h.rest.safe) (fun _ => rfl) fun _ => h.rest.safe) ?_
  rintro s' rfl
  have hsafe := h.rest.safe
  cases old with
  | none =>
    have h₁ : Rest T { s' with current := none } :=
      ⟨{ h.rest.1 with
          current := fun c hc => (nomatch hc)
          previous := fun c hc => ⟨(h.rest.1.previous c hc).1, fun heq => (nomatch heq)⟩ }, h.bare rfl⟩
    refine Ends.step (fun _ => ?_) (fun _ => hsafe) fun _ => hsafe
    refine Ends.step (fun _ => ?_) (fun _ => hsafe) fun _ => hsafe
    refine Ends.step (fun _ => ?_) (fun _ => h₁.safe) fun _ => h₁.safe
    refine Rest.safe ⟨{ h₁.1 with previous := fun c hc => ?_ }, h.bare rfl⟩
    cases hc
    exact ⟨h.rest.1.current _ h.current, fun heq => (nomatch heq)⟩
  | some o =>
    dsimp only
    split
    · rename_i hne
      obtain ⟨hmem, hheld, hheld'⟩ := h.held o rfl hne
      have h₁ : Pending T { s' with transaction := some (transactionDocument .rollback (some new) o) }
          (transactionDocument .rollback (some new) o) :=
        { document := rfl
          required := rfl
          new := hmem
          old := fun c hc => by rw [← Option.some.inj hc]; exact h.rest.1.current _ h.current
          differ := fun heq => hne (Option.some.inj heq).symm
          usable := h.rest.1.usable
          link := .inl h.current
          held := fun c hc => by rw [← Option.some.inj hc]; exact hheld'
          bare := fun hnone => (nomatch hnone)
          forward := fun p hp q hq => by
            obtain ⟨p', q', hlookup, hactivated, hT⟩ := hheld
            cases hlookup.symm.trans hp
            cases hactivated.symm.trans hq
            exact hT
          switched := fun hfalse => (nomatch hfalse) }
      refine Ends.step (fun _ => ?_) (fun _ => hsafe) fun _ => hsafe
      refine Ends.step (fun _ => ?_) (fun _ => hsafe) fun _ => hsafe
      refine Ends.block_cons ((restore_ends (s := { s' with transaction := some _ }) hheld f.restore).mono (fun _ h => h) (fun _ hx => ?_) fun _ hx => ?_) ?_
      · rw [hx.2]
        exact h₁.safe
      · rw [hx.2]
        exact h₁.safe
      rintro s₂ ⟨d, rfl, hd, -⟩
      have h₂ := h₁.withDevice (d := d) fun hnone => (nomatch hnone)
      refine Ends.block_cons ((settle_ends h₂ hd f.settle).mono (fun _ h => h.rest.safe) (fun _ ⟨_, h, _⟩ => h.safe) fun _ h => h) ?_
      exact fun s₃ hs₃ => Ends.step (fun _ => hs₃) (fun _ => hs₃) fun _ => hs₃
    · exact Ends.atomic (fun _ => hsafe) (fun _ => hsafe) fun _ => hsafe

end Conductor.Deployment
