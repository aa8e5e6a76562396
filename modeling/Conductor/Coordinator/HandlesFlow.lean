import Conductor.Coordinator.HandlesLaw

/-! What the commands of the coordinator leave of the flow. A stop and a failure have one owner each,
and one call where there are both; what only the owner changes is a context of its program. Once its
take is over a stop may lose the ownership, to a close or to a safe swap that is asked for again. -/

namespace Conductor.Handles

open Sections Coordinator

variable {owned : Prop} {installs : Bool} {i : ℕ} {α : Type} {X Z : World → Prop} {Y : α → World → Prop}

/-- A section under the lock of the coordinator that changes the flow. -/
structure FlowStep (owned : Prop) (i : ℕ) (w : World) (flow : Flow) : Prop where
  inv : Inv owned { w with flow }
  stop : ∀ j, j ≠ i → w.flow.stopInflight = some j → w.flow.active.isSome → StopKept owned w { w with flow }
  failure : ∀ j, j ≠ i → w.flow.failureInflight = some j → FailureKept w { w with flow }
  closing : ∀ j, j ≠ i → w.closeLock = some j → w.flow.closing = true →
    flow.closing = true ∧ (w.flow.active = none → flow.active = none)
  past : ∀ session, w.flow.Past session → flow.Past session

/-- Nobody but the call has the lock. -/
def free (i : ℕ) (lock : Option ℕ) : Prop := lock = none ∨ lock = some i

theorem free.other {lock : Option ℕ} (h : free i lock) {j : ℕ} (hj : j ≠ i) : lock ≠ some j := by
  rintro rfl
  rcases h with h | h
  · cases h
  · exact hj (Option.some.inj h)

variable {flow : Flow} {w : World} {f : World → Outcomes α} {o : Except Error α} {r : Except Error α × World} {session : Session}

theorem FlowStep.moves (h : FlowStep owned i w flow) (hlock : free i w.lock) :
    Moves owned installs i w { w with flow } where
  others j hj :=
    { inv := fun _ => h.inv
      hands := rfl
      locked := fun hl => absurd hl (hlock.other hj)
      stop := h.stop j hj
      failure := h.failure j hj
      closing := fun hc => ⟨hc, h.closing j hj hc⟩
      past := h.past
      taken := id }
  engine _ hn := hn
  taken := .inl

/-- What a section under the lock may give. -/
def Outcome (owned : Prop) (i : ℕ) (w : World) (Y : α → World → Prop) (Z : World → Prop) (r : Except Error α × World) : Prop :=
  ∃ flow, r.2 = { w with flow } ∧ FlowStep owned i w flow ∧ Gives Y (fun _ => Z) r

theorem Outcome.moved (hr : r ∈ [(o, { w with flow })]) (h : FlowStep owned i w flow)
    (hgives : Gives Y (fun _ => Z) (o, { w with flow })) : Outcome owned i w Y Z r := by
  rw [List.mem_singleton.1 hr]
  exact ⟨flow, rfl, h, hgives⟩

/-- A section of a call that has no engine in its hands. -/
theorem triple_locked (hX : Stable (Others owned i) X) (hY : ∀ a, Stable (Others owned i) (Y a)) (hZ : Stable (Others owned i) Z)
    (h : ∀ w, Inv owned w → X w → ∀ r ∈ f w, Outcome owned i w Y Z r) : Does owned installs i X (locked i f) Y Z := by
  refine triple_critical (stable_hands hX []) (fun a => stable_hands (hY a) []) (fun _ => stable_hands hZ [])
    fun w hw r hr => ?_
  split at hr
  · next hlock =>
    obtain ⟨flow, hsame, hstep, hgives⟩ := h w hw.inv hw.context r hr
    obtain ⟨o, t⟩ := r
    obtain rfl : t = { w with flow } := hsame
    refine ⟨hstep.moves hlock, ?_⟩
    cases o with
    | ok a => exact ⟨hstep.inv, hw.hands, hgives⟩
    | error e => exact ⟨hstep.inv, hw.hands, hgives⟩
  · cases hr

theorem leaves_act (hX : Stable (Others owned i) X) (e : Error) : Leaves owned installs i X (act e) :=
  keeps_act (stable_hands hX []) e

theorem leaves_pure (hX : Stable (Others owned i) X) (a : α) : Leaves owned installs i X (pure a) :=
  keeps_pure (stable_hands hX []) a

/-- What raises leaves less. -/
theorem Leaves.raises {p : Program α} (h : Leaves owned installs i X p) (hZ : ∀ w, X w → Z w) :
    Does owned installs i X p (fun _ => X) Z := h.mono (fun _ h => h) (fun _ _ h => h) fun _ _ hw => hw.imp (hZ _)

/-! ### Quiet changes -/

/-- What a change of the flow leaves to the owners; a safe swap may end. -/
structure Quiet (f g : Flow) : Prop where
  stop : g.stopInflight = f.stopInflight
  inflight : g.failureInflight = f.failureInflight
  active : g.active = f.active
  sessions : g.sessions = f.sessions
  commit : g.failurePendingCommit = f.failurePendingCommit
  projection : g.failureProjection = f.failureProjection
  closing : f.closing = true → g.closing = true
  pending : g.pendingSafeSwap = none ∨ g.pendingSafeSwap = f.pendingSafeSwap

theorem Quiet.counts (f : Flow) (openRepresentations : ℕ) (catalogVerification pendingSourceFailure : Bool) :
    Quiet f { f with openRepresentations, catalogVerification, pendingSourceFailure } :=
  ⟨rfl, rfl, rfl, rfl, rfl, rfl, id, .inr rfl⟩

theorem Quiet.refl (f : Flow) : Quiet f f := .counts f _ _ _

theorem Quiet.past {f g : Flow} (h : Quiet f g) (hf : f.Past session) : g.Past session := by
  rw [Flow.Past, h.active, h.sessions]
  exact hf

theorem Quiet.flowStep (h : Quiet w.flow flow) (hw : Inv owned w) : FlowStep owned i w flow where
  inv := by
    refine ⟨hw.sources, fun hp => ?_, ?_, ?_, ?_, ?_⟩
    · dsimp only at hp ⊢
      rw [h.active, h.projection, h.inflight]
      rcases h.pending with hnone | hsame
      · rw [hnone] at hp
        cases hp
      · exact hw.pending (hsame ▸ hp)
    · dsimp only
      rw [h.projection, h.inflight, h.commit]
      exact hw.projection
    · dsimp only
      rw [h.commit, h.active]
      exact hw.commit
    · dsimp only
      rw [h.inflight, h.stop]
      exact hw.owners
    · dsimp only
      rw [h.active, h.sessions]
      exact hw.numbered
  stop _ _ _ _ := ⟨h.stop, h.inflight, h.active, h.commit, h.projection, fun _ hr => hr⟩
  failure _ _ _ := ⟨h.inflight, h.active, h.commit⟩
  closing _ _ _ hc := ⟨h.closing hc, fun hn => h.active.trans hn⟩
  past _ := h.past

theorem Outcome.kept (hr : r ∈ [(o, w)]) (hw : Inv owned w) (hgives : Gives Y (fun _ => Z) (o, w)) : Outcome owned i w Y Z r :=
  .moved hr ((Quiet.refl w.flow).flowStep hw) hgives

/-- A context that a quiet change leaves. -/
def Unmoved (X : World → Prop) : Prop := ∀ w flow, Quiet w.flow flow → X w → X { w with flow }

theorem keeps_quiet (hX : Stable (Others owned i) X) (hquiet : Unmoved X)
    (h : ∀ w, ∀ r ∈ f w, ∃ flow, r.2 = { w with flow } ∧ Quiet w.flow flow) :
    Leaves owned installs i X (locked i f) := by
  refine triple_locked hX (fun _ => hX) hX fun w hw hx r hr => ?_
  obtain ⟨flow, hsame, hflow⟩ := h w r hr
  refine ⟨flow, hsame, hflow.flowStep hw, ?_⟩
  obtain ⟨o, t⟩ := r
  obtain rfl : t = { w with flow } := hsame
  cases o <;> exact hquiet w flow hflow hx

/-- A section that reads the flow. -/
theorem keeps_read (hX : Stable (Others owned i) X) (h : ∀ w, ∀ r ∈ f w, r.2 = w) : Leaves owned installs i X (locked i f) := by
  refine triple_locked hX (fun _ => hX) hX fun w hw hx r hr => ?_
  obtain ⟨o, t⟩ := r
  obtain rfl : t = w := h w _ hr
  cases o <;> exact .kept (List.mem_singleton_self _) hw hx

theorem keeps_publishSafeSwap (hX : Stable (Others owned i) X) (hquiet : Unmoved X) :
    Leaves owned installs i X (publishSafeSwap i) := by
  have hR := others_rely owned i
  refine Keeps.bind hR (keeps_read hX fun w r hr => ?_) fun session => ?_
  · unfold countHandles at hr
    split at hr
    · rw [List.mem_singleton.1 hr]
    · split at hr <;> rw [List.mem_singleton.1 hr]
  refine (leaves_act hX _).bind hR fun _ => Keeps.bind hR (keeps_read hX fun w r hr => ?_) fun _ => ?_
  · split at hr <;> rw [List.mem_singleton.1 hr]
  refine (leaves_act hX _).bind hR fun _ => keeps_quiet hX hquiet fun w r hr => ?_
  rw [List.mem_singleton.1 hr]
  exact ⟨_, rfl, ⟨rfl, rfl, rfl, rfl, rfl, rfl, id, .inl rfl⟩⟩

/-- `act` and what only reads need no context. -/
theorem stable_true : Stable (Others owned i) fun _ => True := fun _ _ _ _ => trivial

theorem stable_free : Stable (Others owned i) (Hands owned i [] fun _ => True) := stable_hands stable_true []

theorem unmoved_true : Unmoved fun _ => True := fun _ _ _ _ => trivial

theorem keeps_representation : Leaves owned installs i (fun _ => True) (representation i) := by
  refine Keeps.bind (others_rely owned i) (keeps_quiet stable_true unmoved_true fun w r hr => ?_) fun _ =>
    Keeps.ensure (others_rely owned i) stable_free (leaves_act stable_true _) (keeps_quiet stable_true unmoved_true fun w r hr => ?_)
  · split at hr
    all_goals
      rw [List.mem_singleton.1 hr]
      exact ⟨_, rfl, .counts ..⟩
  · rw [List.mem_singleton.1 hr]
    exact ⟨_, rfl, .counts ..⟩

theorem keeps_verification (allowPending : Bool) :
    Leaves owned installs i (fun _ => True) (verification i allowPending) := by
  refine Keeps.bind (others_rely owned i) (keeps_quiet stable_true unmoved_true fun w r hr => ?_) fun _ =>
    Keeps.ensure (others_rely owned i) stable_free (leaves_act stable_true _) (keeps_quiet stable_true unmoved_true fun w r hr => ?_)
  · split at hr
    · rw [List.mem_singleton.1 hr]
      exact ⟨_, rfl, .refl _⟩
    · split at hr
      all_goals
        rw [List.mem_singleton.1 hr]
        exact ⟨_, rfl, .counts ..⟩
  · rw [List.mem_singleton.1 hr]
    exact ⟨_, rfl, .counts ..⟩

/-! ### Failures -/

/-- The call has the stop, where a failure comes from one and the take is not over. -/
def FromStop (fromStop : Bool) (session : Session) (i : ℕ) (w : World) : Prop :=
  fromStop = true → (w.flow.active = some session ∧ w.flow.stopInflight = some i) ∨ w.flow.Past session

theorem FromStop.past {fromStop : Bool} (h : w.flow.Past session) : FromStop fromStop session i w := fun _ => .inr h

theorem stable_fromStop (fromStop : Bool) (session : Session) : Stable (Others owned i) (FromStop fromStop session i) := by
  intro s t hs h hfrom
  rcases hs hfrom with ⟨hactive, hstop⟩ | hpast
  · have hkept := h.stop hstop (Option.isSome_of_eq_some hactive)
    exact .inl ⟨hkept.active.trans hactive, hkept.stop.trans hstop⟩
  · exact .inr (h.past session hpast)

theorem unmoved_fromStop (fromStop : Bool) (session : Session) : Unmoved (FromStop fromStop session i) :=
  fun _ _ hq h hfrom => (h hfrom).imp (fun hown => ⟨hq.active.trans hown.1, hq.stop.trans hown.2⟩) hq.past

/-- The call has the failure. -/
structure Failing (fromStop : Bool) (session : Session) (i : ℕ) (w : World) : Prop where
  inflight : w.flow.failureInflight = some i
  fromStop : FromStop fromStop session i w

theorem stable_failing (fromStop : Bool) (session : Session) : Stable (Others owned i) (Failing fromStop session i) :=
  fun s t hs h => ⟨(h.failure hs.inflight).inflight.trans hs.inflight, stable_fromStop fromStop session s t hs.fromStop h⟩

/-- The call has the failure of the take. -/
def Claimed (fromStop : Bool) (session : Session) (i : ℕ) (w : World) : Prop :=
  Failing fromStop session i w ∧ w.flow.active = some session

theorem stable_claimed (fromStop : Bool) (session : Session) : Stable (Others owned i) (Claimed fromStop session i) :=
  fun s t hs h => ⟨stable_failing fromStop session s t hs.1 h, (h.failure hs.1.inflight).active.trans hs.2⟩

/-- The call has the stop of the take, and there is no failure. -/
structure Stopping (session : Session) (i : ℕ) (w : World) : Prop where
  stop : w.flow.stopInflight = some i
  inflight : w.flow.failureInflight = none
  active : w.flow.active = some session

theorem Stopping.kept {t : World} (hs : Stopping session i w) (h : Others owned i w t) : StopKept owned w t :=
  h.stop hs.stop (Option.isSome_of_eq_some hs.active)

theorem stable_stopping (session : Session) : Stable (Others owned i) (Stopping session i) :=
  fun _ _ hs h => ⟨(hs.kept h).stop.trans hs.stop, (hs.kept h).inflight.trans hs.inflight, (hs.kept h).active.trans hs.active⟩

theorem Stopping.fromStop (h : Stopping session i w) : FromStop true session i w := fun _ => .inl ⟨h.active, h.stop⟩

/-- The only owner there is. -/
def Sole (i : ℕ) (w : World) : Prop :=
  w.flow.failureInflight = some i ∨ w.flow.stopInflight = some i ∧ w.flow.failureInflight = none

theorem Failing.sole {fromStop : Bool} (h : Failing fromStop session i w) : Sole i w := .inl h.inflight

theorem Stopping.sole (h : Stopping session i w) : Sole i w := .inr ⟨h.stop, h.inflight⟩

theorem Sole.not_stop (h : Sole i w) (hw : Inv owned w) {j : ℕ} (hj : j ≠ i) : w.flow.stopInflight ≠ some j := by
  intro hstop
  rcases h with hfailure | ⟨hsame, -⟩
  · exact hj (hw.owners i j hfailure hstop).symm
  · rw [hsame] at hstop
    exact hj (Option.some.inj hstop).symm

theorem Sole.not_failure (h : Sole i w) {j : ℕ} (hj : j ≠ i) : w.flow.failureInflight ≠ some j := by
  intro hfailure
  rcases h with hsame | ⟨-, hnone⟩
  · rw [hsame] at hfailure
    exact hj (Option.some.inj hfailure).symm
  · rw [hnone] at hfailure
    cases hfailure

/-- The take stays, or it is over. -/
def Ends (f g : Flow) : Prop := g.sessions = f.sessions ∧ (g.active = f.active ∨ g.active = none)

theorem Ends.past {f g : Flow} (h : Ends f g) (hf : f.Past session) : g.Past session := by
  refine ⟨?_, h.1 ▸ hf.2⟩
  rcases h.2 with hsame | hnone
  · exact hsame ▸ hf.1
  · rw [hnone]
    exact nofun

/-- What the only owner changes is nobody else's. -/
theorem Sole.flowStep (h : Sole i w) (hw : Inv owned w) (hinv : Inv owned { w with flow }) (hends : Ends w.flow flow)
    (hclosing : flow.closing = w.flow.closing) : FlowStep owned i w flow where
  inv := hinv
  stop _ hj hs _ := absurd hs (h.not_stop hw hj)
  failure _ hj hf := absurd hf (h.not_failure hj)
  closing _ _ _ hc := ⟨hclosing.trans hc, fun hn => hends.2.elim (fun hsame => hsame.trans hn) id⟩
  past _ := hends.past

theorem triple_claimFailure (session : Session) (fromStop : Bool) :
    Does owned installs i (FromStop fromStop session i) (locked i (claimFailure i session fromStop))
      (fun claimed => if claimed then Claimed fromStop session i else FromStop fromStop session i) (FromStop fromStop session i) := by
  have hfrom : Stable (Others owned i) (FromStop fromStop session i) := stable_fromStop fromStop session
  refine triple_locked hfrom (fun claimed => ?_) hfrom fun w hw hx r hr => ?_
  · cases claimed with
    | false => exact hfrom
    | true => exact stable_claimed fromStop session
  · unfold claimFailure at hr
    split at hr
    · exact .kept hr hw hx
    · next hactive =>
      obtain ⟨hactive, hnone, hcommit⟩ : w.flow.active = some session ∧ w.flow.failureInflight = none ∧
          w.flow.failurePendingCommit ≠ some session := by simpa using hactive
      split at hr
      · exact .moved hr ((Quiet.counts ..).flowStep hw) (unmoved_fromStop _ _ w _ (.counts ..) hx)
      · next hguard =>
        -- a stop that is somebody else's would have kept the failure
        have howner : ∀ j, w.flow.stopInflight = some j → i = j := by
          intro j hstop
          rw [hstop] at hguard
          have hfrom : fromStop = true := by simpa using hguard
          rcases hx hfrom with ⟨-, hown⟩ | hpast
          · exact Option.some.inj (hown.symm.trans hstop)
          · exact absurd hactive hpast.1
        refine .moved hr ⟨⟨hw.sources, fun hp => ?_, fun _ => .inl rfl, hw.commit, ?_, hw.numbered⟩, ?_, ?_, ?_, fun _ => id⟩
          ⟨⟨rfl, hx⟩, hactive⟩
        · cases hactive.symm.trans (hw.pending hp).1
        · intro a b ha hb
          obtain rfl : i = a := Option.some.inj ha
          exact howner b hb
        · exact fun j hj hs _ => absurd (howner j hs).symm hj
        · intro j hj hf
          cases hnone.symm.trans hf
        · exact fun j _ _ hc => ⟨hc, id⟩

theorem Inv.pending_none (hw : Inv owned w) (h : w.flow.active = some session) : w.flow.pendingSafeSwap = none := by
  by_contra hp
  cases h.symm.trans (hw.pending (Option.isSome_iff_ne_none.2 hp)).1

/-- Recovery is committed by the owner of the failure, or by a stop that tries again. -/
theorem triple_commitActiveFailure (hX : Stable (Others owned i) X) (hZ : Stable (Others owned i) Z) (hsole : ∀ w, X w → Sole i w)
    (hXZ : ∀ w, X w → Z w) (hcommit : ∀ w flow, flow.Past session → flow.failureInflight = w.flow.failureInflight →
      X w → Z { w with flow }) : Does owned installs i X (commitActiveFailure i session) (fun _ => Z) Z := by
  refine triple_bind (others_rely owned i) (Leaves.raises (leaves_act hX _) hXZ) fun _ =>
    triple_locked hX (fun _ => hZ) hZ fun w hw hx r hr => ?_
  split at hr
  · next hguard =>
    refine .moved hr ((hsole w hx).flowStep hw ⟨hw.sources, fun hp => ?_, fun hprojection => ?_, nofun, hw.owners, nofun⟩
      ⟨rfl, .inr rfl⟩ rfl) (hcommit w _ ⟨nofun, hw.numbered session hguard.1⟩ rfl hx)
    · have hnone := hw.pending_none hguard.1
      rw [show w.flow.pendingSafeSwap = none from hnone] at hp
      cases hp
    · exact .inl (Bool.and_eq_true_iff.1 hprojection).2
  · exact .kept hr hw (hXZ w hx)

theorem triple_finishFailure (session : Session) (fromStop : Bool) :
    Does owned installs i (Claimed fromStop session i) (finishFailure i session) (fun _ => FromStop fromStop session i)
      (FromStop fromStop session i) := by
  have hR := others_rely owned i
  have hfailing : Stable (Others owned i) (Failing fromStop session i) := stable_failing fromStop session
  have hfrom : Stable (Others owned i) (FromStop fromStop session i) := stable_fromStop fromStop session
  have hbody : Does owned installs i (Claimed fromStop session i)
      (do
        act .other
        locked i fun w => pass () (w.setFlow fun f => { f with failurePendingCommit := some session })
        commitActiveFailure i session) (fun _ => Failing fromStop session i) (Failing fromStop session i) := by
    refine triple_bind hR (Leaves.raises (leaves_act (stable_claimed fromStop session) _) fun _ => And.left) fun _ => ?_
    refine triple_bind (M := fun _ => Hands owned i [] (Failing fromStop session i)) hR ?_ fun _ =>
      triple_commitActiveFailure hfailing hfailing (fun _ h => h.sole) (fun _ h => h) fun w flow hpast hf h =>
        ⟨hf.trans h.inflight, .past hpast⟩
    refine triple_locked (stable_claimed fromStop session) (fun _ => hfailing) hfailing fun w hw hx r hr => ?_
    refine .moved hr (hx.1.sole.flowStep hw ⟨hw.sources, hw.pending, fun _ => .inr rfl, fun other hother => ?_, hw.owners,
      hw.numbered⟩ ⟨rfl, .inl rfl⟩ rfl) ⟨hx.1.inflight, hx.1.fromStop⟩
    rw [← Option.some.inj hother]
    exact hx.2
  have hclear : Does owned installs i (Failing fromStop session i)
      (locked i fun w => pass () (w.setFlow fun f =>
        { f with failureInflight := none, failureProjection := f.failureProjection && f.failurePendingCommit = some session }))
      (fun _ => FromStop fromStop session i) (FromStop fromStop session i) := by
    refine triple_locked hfailing (fun _ => hfrom) hfrom fun w hw hx r hr => ?_
    refine .moved hr (hx.sole.flowStep hw ⟨hw.sources, fun hp => ?_, fun hprojection => ?_, hw.commit, nofun, hw.numbered⟩
      ⟨rfl, .inl rfl⟩ rfl) hx.fromStop
    · obtain ⟨hnone, hprojection, hinflight, -⟩ := hw.pending hp
      cases hx.inflight.symm.trans hinflight
    · have hcommit := (Bool.and_eq_true_iff.1 hprojection).2
      exact .inr (Option.isSome_of_eq_some (of_decide_eq_true hcommit))
  exact triple_ensure hR (fun _ => stable_hands hfrom []) (fun _ => stable_hands hfrom []) hbody (fun _ => hclear) fun _ => hclear

theorem keeps_retainActiveFailure (session : Session) (fromStop : Bool) :
    Leaves owned installs i (FromStop fromStop session i) (retainActiveFailure i session fromStop) := by
  refine triple_bind (others_rely owned i) (triple_claimFailure session fromStop) fun claimed => ?_
  cases claimed with
  | false => exact leaves_pure (stable_fromStop fromStop session) _
  | true => exact triple_finishFailure session fromStop

/-- A failure that does not come from a stop needs no context. -/
theorem keeps_failure (session : Session) : Leaves owned installs i (fun _ => True) (retainActiveFailure i session false) :=
  (keeps_retainActiveFailure session false).mono (fun _ hw => hw.imp fun _ => nofun) (fun _ _ hw => hw.imp fun _ => trivial)
    fun _ _ hw => hw.imp fun _ => trivial

theorem context_true : Context owned i fun _ => True := ⟨stable_true, fun _ _ _ => id⟩

theorem keeps_sourceFailure (tap : ℕ) (session : Session) : Leaves owned installs i (fun _ => True) (sourceFailure i tap session) :=
  (keeps_drop context_true tap).bind (others_rely owned i) fun _ => keeps_failure session

theorem keeps_reportMediaLoss : Leaves owned installs i (fun _ => True) (reportMediaLoss i) := by
  have hR := others_rely owned i
  refine Keeps.bind hR (keeps_read stable_true fun w r hr => ?_) fun active => ?_
  · rw [List.mem_singleton.1 hr]
  cases active with
  | none => exact leaves_pure stable_true _
  | some session =>
    exact (Keeps.attempt hR (keeps_stop context_true) fun _ => leaves_pure stable_true _).bind hR fun _ => keeps_failure session

/-! ### Commands under the lock -/

/-- The call has the lock of the coordinator; nobody else changes the flow. -/
structure Locked (i : ℕ) (F : Flow → Prop) (w : World) : Prop where
  lock : w.lock = some i
  flow : F w.flow

theorem context_locked (i : ℕ) (F : Flow → Prop) : Context owned i (Locked i F) where
  stable s t hs h := by
    obtain ⟨hlock, hflow⟩ := h.locked hs.lock
    exact ⟨hlock, hflow ▸ hs.flow⟩
  frame _ _ _ h := ⟨h.lock, h.flow⟩

theorem moves_lock (h : free i w.lock) (lock : Option ℕ) : Moves owned installs i w { w with lock } :=
  ⟨fun _ hj => .same rfl rfl (fun hl => absurd hl (h.other hj)) id, fun _ hn => hn, .inl⟩

/-- The lock is taken and given back around a command. -/
theorem keeps_withLock {p : Program Unit} (hp : Leaves owned installs i (Locked i fun _ => True) p) :
    Leaves owned installs i (fun _ => True) (withLock i p) := by
  have hR := others_rely owned i
  have hlocked : Stable (Others owned i) (Hands owned i [] (Locked i fun _ => True)) := stable_hands (context_locked i _).stable []
  refine triple_bind (M := fun _ => Hands owned i [] (Locked i fun _ => True)) hR ?_ fun _ =>
    triple_ensure hR (fun _ => stable_free) (fun _ => stable_free) hp (fun _ => ?_) fun _ => ?_
  · refine triple_critical stable_free (fun _ => hlocked) (fun _ => stable_free) fun w hw r hr => ?_
    split at hr
    · next hfree =>
      rw [List.mem_singleton.1 hr]
      exact ⟨moves_lock hfree _, hw.inv.same rfl rfl, hw.hands, rfl, trivial⟩
    · cases hr
  all_goals
    refine triple_critical hlocked (fun _ => stable_free) (fun _ => stable_free) fun w hw r hr => ?_
    split at hr
    · next hfree =>
      rw [List.mem_singleton.1 hr]
      exact ⟨moves_lock hfree _, hw.inv.same rfl rfl, hw.hands, trivial⟩
    · cases hr

/-- There is no owner, nothing to recover and no close. -/
structure Idle (flow : Flow) : Prop where
  stop : flow.stopInflight = none
  inflight : flow.failureInflight = none
  commit : flow.failurePendingCommit = none
  projection : flow.failureProjection = false
  closing : flow.closing = false

theorem Idle.flowStep (h : Idle w.flow) (hw : Inv owned w) (hidle : Idle flow) (hpending : flow.pendingSafeSwap = none)
    (hnumbered : ∀ session, flow.active = some session → session < flow.sessions)
    (hpast : ∀ session, w.flow.Past session → flow.Past session) : FlowStep owned i w flow where
  inv := by
    refine ⟨hw.sources, fun hp => ?_, fun hp => ?_, fun session hs => ?_, fun a b ha _ => ?_, hnumbered⟩
    · rw [show ({ w with flow } : World).flow.pendingSafeSwap = none from hpending] at hp
      cases hp
    · exact absurd (hidle.projection.symm.trans hp) (by decide)
    · cases hidle.commit.symm.trans hs
    · cases hidle.inflight.symm.trans ha
  stop _ _ hs := by cases h.stop.symm.trans hs
  failure _ _ hf := by cases h.inflight.symm.trans hf
  closing _ _ _ hc := by cases h.closing.symm.trans hc
  past := hpast

theorem triple_admitStart :
    Does owned installs i (Locked i fun _ => True) (locked i admitStart) (fun _ => Locked i Idle) (Locked i fun _ => True) := by
  refine triple_locked (context_locked i _).stable (fun _ => (context_locked i Idle).stable) (context_locked i _).stable
    fun w hw hx r hr => ?_
  unfold admitStart at hr
  split at hr
  · exact .kept hr hw hx
  · next hguard =>
    obtain ⟨⟨⟨⟨hactive, hclosing⟩, hstop⟩, hinflight⟩, hprojection⟩ : (((w.flow.active = none ∧ w.flow.closing = false) ∧
        w.flow.stopInflight = none) ∧ w.flow.failureInflight = none) ∧ w.flow.failureProjection = false := by
      simpa using hguard
    refine .kept hr hw ⟨hx.lock, hstop, hinflight, ?_, hprojection, hclosing⟩
    cases hcommit : w.flow.failurePendingCommit with
    | none => rfl
    | some session => cases hactive.symm.trans (hw.commit session hcommit)

/-- A start that goes through. -/
structure Begun (flow : Flow) : Prop where
  idle : Idle flow
  pending : flow.pendingSafeSwap = none

theorem keeps_startCapture (restore : Bool) : Leaves owned true i (fun _ => True) (startCapture i restore) := by
  have hR := others_rely owned i
  have hidle : Context owned i (Locked i Idle) := context_locked i _
  have hbegun : Context owned i (Locked i Begun) := context_locked i _
  have hany : Context owned i (Locked i fun _ => True) := context_locked i _
  have hweak : ∀ {F : Flow → Prop} (w : World), Locked i F w → Locked i (fun _ => True) w := fun _ h => ⟨h.lock, trivial⟩
  refine keeps_withLock (triple_bind hR triple_admitStart fun _ => ?_)
  have hrestore : Leaves owned true i (Locked i Idle) (if restore then control i else pure ()) := by
    split
    · exact keeps_control hidle
    · exact leaves_pure hidle.stable _
  refine triple_bind hR (hrestore.raises hweak) fun _ => triple_bind hR (Leaves.raises (leaves_act hidle.stable _) hweak) fun _ => ?_
  refine triple_bind (M := fun _ => Hands owned i [] (Locked i Begun)) hR ?_ fun _ =>
    triple_attempt (M := fun _ => Hands owned i [] (Locked i Begun)) hR ?_ fun _ => ?_
  · refine triple_locked hidle.stable (fun _ => hbegun.stable) hany.stable fun w hw hx r hr => ?_
    have hflow : Idle { w.flow with
        active := some w.flow.sessions
        sessions := w.flow.sessions + 1
        pendingSourceFailure := false
        pendingSafeSwap := none } :=
      ⟨hx.flow.stop, hx.flow.inflight, hx.flow.commit, hx.flow.projection, hx.flow.closing⟩
    refine .moved hr (hx.flow.flowStep hw hflow rfl (fun session hs => ?_) fun session hpast => ⟨fun hs => ?_, ?_⟩)
      ⟨hx.lock, hflow, rfl⟩
    · rw [← Option.some.inj hs]
      exact Nat.lt_succ_self _
    · exact Nat.ne_of_gt hpast.2 (Option.some.inj hs)
    · exact Nat.lt_succ_of_lt hpast.2
  · have hstart : Leaves owned true i (Locked i Begun) (do
        act .other
        start i) :=
      (leaves_act hbegun.stable _).bind hR fun _ => keeps_start hbegun fun _ h _ => ⟨h.flow.pending, h.flow.idle.stop⟩
    exact hstart.mono (fun _ h => h) (fun _ _ hw => hw.imp (hweak _)) fun _ _ h => h
  · refine triple_bind (M := fun _ => Hands owned i [] (Locked i fun _ => True)) hR ?_ fun _ =>
      keeps_raise (stable_hands hany.stable []) _
    refine triple_locked hbegun.stable (fun _ => hany.stable) hany.stable fun w hw hx r hr => ?_
    have hends : Ends w.flow { w.flow with active := none } := ⟨rfl, .inr rfl⟩
    exact .moved hr (hx.flow.idle.flowStep hw
      ⟨hx.flow.idle.stop, hx.flow.idle.inflight, hx.flow.idle.commit, hx.flow.idle.projection, hx.flow.idle.closing⟩
      hx.flow.pending nofun fun _ => hends.past) ⟨hx.lock, trivial⟩

theorem keeps_setCameraFocus : Leaves owned true i (fun _ => True) (withLock i (control i)) :=
  keeps_withLock (keeps_control (context_locked i _))

/-! ### Stops -/

/-- The sources are stopped. -/
structure Stopped (owned : Prop) (session : Session) (i : ℕ) (w : World) : Prop where
  stopping : Stopping session i w
  recording : owned → w.sources.recording = none

theorem stable_stopped (session : Session) : Stable (Others owned i) (Stopped owned session i) :=
  fun s t hs h => ⟨stable_stopping session s t hs.stopping h, fun ho => (hs.stopping.kept h).recording ho (hs.recording ho)⟩

/-- Nothing is left to recover. -/
structure Sealing (owned : Prop) (session : Session) (i : ℕ) (w : World) : Prop where
  stopped : Stopped owned session i w
  commit : w.flow.failurePendingCommit ≠ some session

theorem stable_sealing (session : Session) : Stable (Others owned i) (Sealing owned session i) :=
  fun s t hs h => ⟨stable_stopped session s t hs.stopped h, by rw [(hs.stopped.stopping.kept h).commit]; exact hs.commit⟩

theorem triple_stop (session : Session) :
    Does owned installs i (Stopping session i) stop (fun _ => Stopped owned session i) (Stopping session i) := by
  have hstopped : Stable (Others owned i) (Hands owned i [] (Stopped owned session i)) := stable_hands (stable_stopped session) []
  have hstopping : Stable (Others owned i) (Hands owned i [] (Stopping session i)) := stable_hands (stable_stopping session) []
  refine triple_bind (M := fun _ => Hands owned i [] (Stopped owned session i)) (others_rely owned i) ?_ fun engine => ?_
  · refine triple_critical hstopping (fun _ => hstopped) (fun _ => hstopping) fun w hw r hr => ?_
    obtain ⟨result, hmem, rfl⟩ := List.mem_map.1 hr
    rw [List.mem_singleton.1 hmem, hw.inv.sources.stop_cases]
    have hnone : RecordingKept owned w { w.sources with recording := none } := .inl rfl
    have hstep : SourcesStep owned installs i w _ := recording_step hw.inv hnone
    exact ⟨hstep.moves, hstep.inv_world hw.inv, hw.hands, ⟨hw.context.stop, hw.context.inflight, hw.context.active⟩, fun _ => rfl⟩
  · have hkeeps : Leaves owned installs i (Stopped owned session i) (if engine then act .other else pure ()) := by
      split
      · exact leaves_act (stable_stopped session) _
      · exact leaves_pure (stable_stopped session) _
    exact hkeeps.raises fun _ h => h.stopping

theorem checkOwner_same {r : Except Error Unit × World} (hr : r ∈ checkOwner session w) : r.2 = w := by
  unfold checkOwner at hr
  split at hr
  · rw [List.mem_singleton.1 hr]
  · split at hr <;> rw [List.mem_singleton.1 hr]

theorem checkOwner_cases (session : Session) (w : World) :
    (∃ e, checkOwner session w = fail e w) ∨ checkOwner session w = pass () w ∧ w.flow.active = some session := by
  unfold checkOwner
  split
  · exact .inl ⟨_, rfl⟩
  · split
    · exact .inl ⟨_, rfl⟩
    · next hactive => exact .inr ⟨rfl, not_not.1 hactive⟩

/-- A take that is sealed may leave a safe swap. -/
theorem triple_endTake (session : Session) (safeSwap : Bool) :
    Does owned installs i (Sealing owned session i) (locked i (endTake session safeSwap)) (fun _ => FromStop true session i)
      (FromStop true session i) := by
  have hfrom : Stable (Others owned i) (FromStop true session i) := stable_fromStop true session
  refine triple_locked (stable_sealing session) (fun _ => hfrom) hfrom fun w hw hx r hr => ?_
  obtain ⟨⟨hstopping, hrecording⟩, hnot⟩ := hx
  unfold endTake at hr
  rcases checkOwner_cases session w with ⟨e, he⟩ | ⟨hok, hactive⟩
  · rw [he] at hr
    exact .kept hr hw hstopping.fromStop
  · rw [hok] at hr
    have hcommit : w.flow.failurePendingCommit = none := by
      cases hcommit : w.flow.failurePendingCommit with
      | none => rfl
      | some other => exact absurd (hcommit.trans ((hw.commit other hcommit).symm.trans hactive)) hnot
    have hprojection : w.flow.failureProjection = false := by
      by_contra hp
      have howner := hw.projection (by simpa using hp)
      rw [hstopping.inflight, hcommit] at howner
      simp at howner
    exact .moved hr (hstopping.sole.flowStep hw ⟨hw.sources, fun _ => ⟨rfl, hprojection, hstopping.inflight, hrecording⟩,
      hw.projection, fun _ hother => (nomatch hcommit.symm.trans hother), hw.owners, nofun⟩ ⟨rfl, .inr rfl⟩ rfl)
      (.past ⟨nofun, hw.numbered session hactive⟩)

theorem triple_sealTake (session : Session) (safeSwap : Bool) :
    Does owned installs i (Sealing owned session i) (sealTake i session safeSwap) (fun _ => FromStop true session i)
      (FromStop true session i) := by
  have hR := others_rely owned i
  have hfrom : Stable (Others owned i) (FromStop true session i) := stable_fromStop true session
  have hpass : ∀ {p : Program Unit}, Leaves owned installs i (Sealing owned session i) p →
      Does owned installs i (Sealing owned session i) p (fun _ => Sealing owned session i) (FromStop true session i) :=
    fun h => h.raises fun _ hs => hs.stopped.stopping.fromStop
  refine triple_bind hR (hpass (keeps_read (stable_sealing session) fun w r hr => ?_)) fun _ => ?_
  · split at hr <;> rw [List.mem_singleton.1 hr]
  refine triple_bind hR (hpass (leaves_act (stable_sealing session) _)) fun _ => ?_
  refine triple_bind hR (hpass (keeps_read (stable_sealing session) fun w r hr => checkOwner_same hr)) fun _ => ?_
  refine triple_bind hR (hpass (leaves_act (stable_sealing session) _)) fun _ =>
    triple_bind hR (triple_endTake session safeSwap) fun _ => Keeps.bind hR (leaves_act hfrom _) fun _ => ?_
  split
  · exact (keeps_publishSafeSwap hfrom (unmoved_fromStop true session)).bind hR fun _ => leaves_act hfrom _
  · exact leaves_pure hfrom _

/-- The owner of a stop gives it up. -/
theorem keeps_endStop {g : Flow → Flow} (h : ∀ flow, Quiet { flow with stopInflight := none } (g flow)) :
    Leaves owned installs i (fun _ => True)
      (locked i fun w => pass () (w.setFlow fun f => if f.stopInflight = some i then g f else f)) := by
  refine triple_locked stable_true (fun _ => stable_true) stable_true fun w hw _ r hr => ?_
  have hstep : FlowStep owned i w (if w.flow.stopInflight = some i then g w.flow else w.flow) := by
    split
    · next hstop =>
      have hquiet := h w.flow
      have hnone : Inv owned { w with flow := { w.flow with stopInflight := none } } :=
        ⟨hw.sources, hw.pending, hw.projection, hw.commit, nofun, hw.numbered⟩
      exact ⟨(hquiet.flowStep (i := i) hnone).inv, fun j hj hs => absurd (Option.some.inj (hs.symm.trans hstop)) hj,
        fun _ _ _ => ⟨hquiet.inflight, hquiet.active, hquiet.commit⟩,
        fun _ _ _ hc => ⟨hquiet.closing hc, fun hn => hquiet.active.trans hn⟩, fun _ => hquiet.past⟩
    · exact (Quiet.refl _).flowStep hw
  exact .moved hr hstep trivial

/-- A failure that comes from the stop is retained before the stop raises. -/
theorem triple_retainAndRaise (session : Session) (e : Error) (Q : Unit → World → Prop) :
    Triple (Others owned i) (Moves owned installs i) (Hands owned i [] (FromStop true session i))
      (do
        retainActiveFailure i session true
        .raise e) Q fun _ => Hands owned i [] fun _ => True :=
  triple_bind (others_rely owned i) (Leaves.raises (keeps_retainActiveFailure session true) fun _ _ => trivial) fun _ =>
    triple_raise stable_free fun _ hw => hw.imp fun _ => trivial

theorem triple_retainRecordingError (session : Session) (e : Error) :
    Does owned installs i (FromStop true session i) (retainRecordingError i session e) (fun _ _ => True) fun _ => True := by
  unfold retainRecordingError
  split
  · exact triple_retainAndRaise session _ _
  · exact triple_raise stable_free fun _ hw => hw.imp fun _ => trivial

/-- The owner of the stop looks for a failure to commit again. -/
theorem triple_readRetry (session : Session) :
    Does owned installs i (Stopped owned session i)
      (locked i fun w => pass (decide (w.flow.failurePendingCommit = some session)) w)
      (fun retry => if retry then Stopping session i else Sealing owned session i) fun _ => True := by
  refine triple_locked (stable_stopped session) (fun retry => ?_) stable_true fun w hw hx r hr => ?_
  · cases retry with
    | false => exact stable_sealing session
    | true => exact stable_stopping session
  · refine .kept hr hw ?_
    by_cases hcommit : w.flow.failurePendingCommit = some session
    · rw [decide_eq_true hcommit]
      exact hx.stopping
    · rw [decide_eq_false hcommit]
      exact ⟨hx, hcommit⟩

theorem triple_finishStopCapture (session : Session) (safeSwap : Bool) :
    Does owned installs i (Stopping session i) (finishStopCapture i session safeSwap) (fun _ _ => True) fun _ => True := by
  have hR := others_rely owned i
  refine triple_ensure (M := fun _ => Hands owned i [] fun _ => True) (N := fun _ => Hands owned i [] fun _ => True) hR
    (fun _ => stable_free) (fun _ => stable_free) ?_ (fun _ => keeps_endStop fun _ => .counts ..) fun _ =>
      keeps_endStop fun _ => .counts ..
  refine triple_bind (M := fun _ => Hands owned i [] (Stopped owned session i)) hR
    (triple_attempt hR (triple_stop session) fun _ => ?_) fun _ => triple_bind hR (triple_readRetry session) fun retry => ?_
  · exact (triple_retainAndRaise session _ _).mono (fun _ hw => hw.imp Stopping.fromStop) (fun _ _ h => h) fun _ _ h => h
  · cases retry with
    | true =>
      exact triple_commitActiveFailure (stable_stopping session) stable_true (fun _ h => h.sole) (fun _ _ => trivial)
        fun _ _ _ _ _ => trivial
    | false =>
      exact triple_attempt hR ((triple_sealTake session safeSwap).mono (fun _ h => h) (fun _ _ hw => hw.imp fun _ => trivial)
        fun _ _ h => h) (triple_retainRecordingError session)

/-- A call becomes the owner of the stop. -/
theorem claim_flowStep (hw : Inv owned w) (hstop : w.flow.stopInflight = none ∨ w.flow.active = none)
    (hinflight : w.flow.failureInflight = none) : FlowStep owned i w { w.flow with stopInflight := some i } where
  inv := ⟨hw.sources, hw.pending, hw.projection, hw.commit, fun a _ ha _ => (nomatch hinflight.symm.trans ha), hw.numbered⟩
  stop _ _ hs ha := by
    rcases hstop with hnone | hnone
    · cases hnone.symm.trans hs
    · rw [hnone] at ha
      cases ha
  failure _ _ hf := by cases hinflight.symm.trans hf
  closing _ _ _ hc := ⟨hc, id⟩
  past _ := id

theorem claim_cases {asked : Asked} (hr : r ∈ claim asked f w) : r = (.error .captureBusy, w) ∨
    (asked = .replayed ∨ w.flow.stopInflight = none ∧ w.flow.failureInflight = none) ∧ r ∈ f w := by
  unfold claim at hr
  split at hr
  · exact .inl (List.mem_singleton.1 hr)
  · split at hr
    · split at hr
      · cases hr
      · exact .inl (List.mem_singleton.1 hr)
    · next hguard =>
      refine .inr ⟨?_, hr⟩
      by_cases hasked : asked = .replayed
      · exact .inl hasked
      · have hfree := not_and.1 hguard hasked
        exact .inr (by simpa using hfree)

theorem keeps_stopCapture (requested safeSwap : Bool) :
    Leaves owned installs i (fun _ => True) (stopCapture i requested safeSwap) := by
  refine triple_bind (M := fun (claimed : Option Session) => Hands owned i [] fun w => ∀ session ∈ claimed, Stopping session i w)
    (others_rely owned i)
    (triple_locked (Y := fun (claimed : Option Session) w => ∀ session ∈ claimed, Stopping session i w) stable_true
      (fun _ s t hs h session hsession => stable_stopping session s t (hs session hsession) h) stable_true fun w hw _ r hr => ?_)
    fun claimed => ?_
  · rcases claim_cases hr with rfl | ⟨hfree, hr⟩
    · exact .kept (List.mem_singleton_self _) hw trivial
    · obtain ⟨hstop, hinflight⟩ := hfree.resolve_left (by split <;> nofun)
      unfold claimStop at hr
      split at hr
      · exact .kept hr hw nofun
      · next session hactive =>
        split at hr
        · exact .kept hr hw trivial
        · refine .moved hr (claim_flowStep hw (.inl hstop) hinflight) ?_
          rintro _ ⟨⟩
          exact ⟨rfl, hinflight, hactive⟩
  · cases claimed with
    | none => exact triple_ret (stable_hands stable_true []) fun w hw => hw.imp fun _ => trivial
    | some session =>
      exact (triple_finishStopCapture session safeSwap).mono (fun w hw => hw.imp fun h => h session rfl) (fun _ _ h => h)
        fun _ _ h => h

theorem keeps_resumeSafeSwap (asked : Asked) : Leaves owned installs i (fun _ => True) (resumeSafeSwap i asked) := by
  have hR := others_rely owned i
  refine Keeps.bind hR (triple_locked stable_true (fun _ => stable_true) stable_true fun w hw _ r hr => ?_) fun claimed => ?_
  · rcases claim_cases hr with rfl | ⟨-, hr⟩
    · exact .kept (List.mem_singleton_self _) hw trivial
    · unfold claimResume at hr
      split at hr
      · exact .kept hr hw trivial
      · next hguard =>
        obtain ⟨hactive, hpending⟩ : w.flow.active = none ∧ w.flow.pendingSafeSwap.isSome := by
          simpa [Option.isSome_iff_ne_none] using hguard
        exact .moved hr (claim_flowStep hw (.inr hactive) (hw.pending hpending).2.2.1) trivial
  · cases claimed with
    | false => exact leaves_pure stable_true _
    | true => exact Keeps.ensure hR stable_free (keeps_publishSafeSwap stable_true unmoved_true) (keeps_endStop fun _ => .refl _)

/-! ### Closing -/

/-- The call closes the coordinator. -/
structure Closing (i : ℕ) (w : World) : Prop where
  lock : w.closeLock = some i
  closing : w.flow.closing = true

theorem stable_closeLock : Stable (Others owned i) fun w => w.closeLock = some i := fun _ _ hs h => (h.closing hs).1

theorem context_closing : Context owned i (Closing i) where
  stable s t hs h := by
    obtain ⟨hlock, hkept⟩ := h.closing hs.lock
    exact ⟨hlock, (hkept hs.closing).1⟩
  frame _ _ _ h := ⟨h.lock, h.closing⟩

/-- What a close has once the owners are gone: the stop of the take, or no take. -/
structure CloseOwner (active : Bool) (i : ℕ) (w : World) : Prop where
  closing : Closing i w
  owner : if active then ∃ session, Stopping session i w else w.flow.active = none

theorem stable_closeOwner (active : Bool) : Stable (Others owned i) (CloseOwner active i) := by
  intro s t hs h
  refine ⟨context_closing.stable s t hs.closing h, ?_⟩
  have howner := hs.owner
  cases active with
  | true =>
    obtain ⟨session, hstopping⟩ := howner
    exact ⟨session, stable_stopping session s t hstopping h⟩
  | false => exact ((h.closing hs.closing.lock).2 hs.closing.closing).2 howner

theorem triple_claimClose :
    Does owned installs i (Closing i) (locked i (claimClose i)) (CloseOwner · i) fun w => w.closeLock = some i := by
  refine triple_locked context_closing.stable stable_closeOwner stable_closeLock fun w hw hx r hr => ?_
  unfold claimClose at hr
  split at hr
  · cases hr
  · next hguard =>
    obtain ⟨⟨hinflight, hstop⟩, -⟩ : (w.flow.failureInflight = none ∧ w.flow.stopInflight = none) ∧
      w.flow.catalogVerification = false := by simpa using hguard
    split at hr
    · next hactive => exact .kept hr hw ⟨hx, Option.isNone_iff_eq_none.1 hactive⟩
    · next hactive =>
      obtain ⟨session, hsession⟩ := Option.ne_none_iff_exists'.1 fun hnone => hactive (Option.isNone_iff_eq_none.2 hnone)
      exact .moved hr (claim_flowStep hw (.inl hstop) hinflight) ⟨⟨hx.lock, hx.closing⟩, session, rfl, hinflight, hsession⟩

/-- There is no take, or the close has its stop. -/
def Ending (i : ℕ) (w : World) : Prop := CloseOwner false i w ∨ CloseOwner true i w

theorem stable_ending : Stable (Others owned i) (Ending i) :=
  fun s t hs h => hs.imp (stable_closeOwner false s t · h) (stable_closeOwner true s t · h)

theorem CloseOwner.ending {active : Bool} (h : CloseOwner active i w) : Ending i w := by
  cases active with
  | false => exact .inl h
  | true => exact .inr h

/-- The take of a coordinator that closes is given up. -/
theorem triple_giveUp (active : Bool) :
    Does owned installs i (CloseOwner active i) (locked i fun w =>
      let t := if active then
          w.setFlow fun f => { f with active := none, failurePendingCommit := none, failureProjection := false }
        else w
      pass () t ++ fail .persistence t) (fun _ => Ending i) (Ending i) := by
  refine triple_locked (stable_closeOwner active) (fun _ => stable_ending) stable_ending fun w hw hx r hr => ?_
  have howner := hx.owner
  cases active with
  | false =>
    rcases List.mem_pair.1 hr with rfl | rfl
    all_goals exact .kept (List.mem_singleton_self _) hw hx.ending
  | true =>
    obtain ⟨session, hstopping⟩ := howner
    have hinv : Inv owned (w.setFlow fun f => { f with active := none, failurePendingCommit := none, failureProjection := false }) :=
      ⟨hw.sources, fun hp => ⟨rfl, rfl, (hw.pending hp).2.2⟩, nofun, nofun, hw.owners, nofun⟩
    have hstep := hstopping.sole.flowStep hw hinv ⟨rfl, .inr rfl⟩ rfl
    rcases List.mem_pair.1 hr with rfl | rfl
    all_goals exact .moved (List.mem_singleton_self _) hstep (.inl ⟨⟨hx.closing.lock, hx.closing.closing⟩, rfl⟩)

theorem triple_endClose :
    Does owned installs i (Ending i) (locked i fun w => pass () (w.setFlow fun f => { f with stopInflight := none }))
      (fun _ w => w.closeLock = some i) fun w => w.closeLock = some i := by
  refine triple_locked stable_ending (fun _ => stable_closeLock) stable_closeLock fun w hw hx r hr => ?_
  have hlock : w.closeLock = some i := hx.elim (fun h => h.closing.lock) fun h => h.closing.lock
  refine .moved hr ⟨⟨hw.sources, hw.pending, hw.projection, hw.commit, nofun, hw.numbered⟩, fun j hj hs ha => ?_,
    fun _ _ _ => ⟨rfl, rfl, rfl⟩, fun _ _ _ hc => ⟨hc, id⟩, fun _ => id⟩ hlock
  rcases hx with ⟨-, hnone⟩ | ⟨-, session, hstopping⟩
  · rw [show w.flow.active = none from hnone] at ha
    cases ha
  · exact absurd (Option.some.inj (hs.symm.trans hstopping.stop)) hj

theorem keeps_closeCapture : Leaves owned installs i (fun w => w.closeLock = some i) (closeCapture i) := by
  have hR := others_rely owned i
  have hlock : Stable (Others owned i) (Hands owned i [] fun w => w.closeLock = some i) := stable_hands stable_closeLock []
  refine triple_bind (M := fun _ => Hands owned i [] (Closing i)) hR ?_ fun _ =>
    triple_bind (M := fun _ => Hands owned i [] (Closing i)) hR ?_ fun _ => triple_bind hR triple_claimClose fun active => ?_
  · refine triple_locked stable_closeLock (fun _ => context_closing.stable) stable_closeLock fun w hw hx r hr => ?_
    exact .moved hr (Quiet.flowStep ⟨rfl, rfl, rfl, rfl, rfl, rfl, fun _ => rfl, .inr rfl⟩ hw) ⟨hx, rfl⟩
  · exact (triple_close context_closing).mono (fun _ h => h) (fun _ _ hw => hw.imp And.left) fun _ _ hw => hw.imp Closing.lock
  · have hkeeps : Leaves owned installs i (CloseOwner active i) (if active then act .other else pure ()) := by
      split
      · exact leaves_act (stable_closeOwner _) _
      · exact leaves_pure (stable_closeOwner _) _
    exact triple_ensure hR (fun _ => hlock) (fun _ => hlock)
      (triple_bind hR (hkeeps.raises fun _ h => h.ending) fun _ => triple_giveUp active) (fun _ => triple_endClose) fun _ =>
        triple_endClose

/-- The lock of the close changes hands. -/
theorem moves_closeLock (h : free i w.closeLock) (closeLock : Option ℕ) : Moves owned installs i w { w with closeLock } :=
  ⟨fun _ hj => .same rfl rfl id fun hc => absurd hc (h.other hj), fun _ hn => hn, .inl⟩

theorem keeps_closeCoordinator : Leaves owned installs i (fun _ => True) (closeCoordinator i) := by
  have hR := others_rely owned i
  have hlock : Stable (Others owned i) (Hands owned i [] fun w => w.closeLock = some i) := stable_hands stable_closeLock []
  refine triple_bind (M := fun _ => Hands owned i [] fun w => w.closeLock = some i) hR ?_ fun _ =>
    triple_ensure hR (fun _ => stable_free) (fun _ => stable_free) keeps_closeCapture (fun _ => ?_) fun _ => ?_
  · refine triple_critical stable_free (fun _ => hlock) (fun _ => stable_free) fun w hw r hr => ?_
    split at hr
    · next hnone =>
      rw [List.mem_singleton.1 hr]
      exact ⟨moves_closeLock (.inl hnone) _, hw.inv.same rfl rfl, hw.hands, rfl⟩
    · cases hr
  all_goals
    exact triple_update hlock stable_free fun w hw => ⟨moves_closeLock (.inr hw.context) _, hw.inv.same rfl rfl, hw.hands, trivial⟩

end Conductor.Handles
