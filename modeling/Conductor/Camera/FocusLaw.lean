import Conductor.Camera.Focus

/-! What `set_focus` leaves in the camera: what it answers is what the controls are; and where a call
that has begun to write goes through, a request that is refused has changed nothing. -/

namespace Conductor.Camera

/-! ### Calls that fail -/

namespace Control

variable {α β : Type}

/-- `Q` holds of the value of a call and of the camera after it, or `E` of its error. -/
def Wp (m : Control α) (faults : Faults) (Q : α → Io → Prop) (E : String → Io → Prop) (io : Io) : Prop :=
  match m faults io with
  | (.ok a, io) => Q a io
  | (.error code, io) => E code io

variable {faults : Faults} {Q Q' : α → Io → Prop} {E E' : String → Io → Prop} {io : Io}

@[simp] theorem wp_pure (a : α) : Wp (pure a) faults Q E io ↔ Q a io := Iff.rfl

@[simp] theorem wp_fail (code : String) : Wp (fail code : Control α) faults Q E io ↔ E code io := Iff.rfl

@[simp] theorem wp_bind (m : Control β) (k : β → Control α) :
    Wp (m >>= k) faults Q E io ↔ Wp m faults (fun b => Wp (k b) faults Q E) E io := by
  change (match Control.bind m k faults io with | (.ok a, io) => Q a io | (.error code, io) => E code io) ↔ _
  unfold Control.bind Wp
  rcases m faults io with ⟨_ | _, _⟩ <;> rfl

theorem Wp.mono {m : Control α} (h : Wp m faults Q E io) (hQ : ∀ a io, Q a io → Q' a io)
    (hE : ∀ code io, E code io → E' code io) : Wp m faults Q' E' io := by
  unfold Wp at *
  rcases hm : m faults io with ⟨o, io'⟩
  rw [hm] at h
  cases o with
  | ok a => exact hQ a io' h
  | error code => exact hE code io' h

theorem wp_true (m : Control α) (faults : Faults) (io : Io) : Wp m faults (fun _ _ => True) (fun _ _ => True) io := by
  unfold Wp
  rcases m faults io with ⟨_ | _, _⟩ <;> trivial

theorem Wp.and {m : Control α} (h : Wp m faults Q E io) (h' : Wp m faults Q' E' io) :
    Wp m faults (fun a io => Q a io ∧ Q' a io) (fun code io => E code io ∧ E' code io) io := by
  unfold Wp at *
  rcases hm : m faults io with ⟨_ | _, io'⟩ <;> (rw [hm] at h h'; exact ⟨h, h'⟩)

end Control

open Control

variable {α : Type} {faults : Faults} {Q : α → Io → Prop} {E : String → Io → Prop} {io : Io}

theorem wp_queryControl (declared : Option α) {Q : Option α → Io → Prop} :
    Wp (queryControl declared) faults Q E io ↔
      match faults io.calls with
      | none => Q declared { io with calls := io.calls + 1 }
      | some .unsupported => Q none { io with calls := io.calls + 1 }
      | some .failed => E "camera_focus_query_failed" { io with calls := io.calls + 1 } := by
  unfold Wp queryControl ioctl
  rcases faults io.calls with _ | _ | _ <;> rfl

theorem wp_getControl (read : Controls → α) :
    Wp (getControl read) faults Q E io ↔
      match faults io.calls with
      | none => Q (read io.controls) { io with calls := io.calls + 1 }
      | some _ => E "camera_focus_get_failed" { io with calls := io.calls + 1 } := by
  unfold Wp getControl ioctl
  rcases faults io.calls with _ | _ | _ <;> rfl

theorem wp_setControl (write : Controls → Controls) {Q : Unit → Io → Prop} :
    Wp (setControl write) faults Q E io ↔
      match faults io.calls with
      | none => Q () ⟨write io.controls, io.calls + 1⟩
      | some _ => E "camera_focus_set_failed" { io with calls := io.calls + 1 } := by
  unfold Wp setControl ioctl
  rcases faults io.calls with _ | _ | _ <;> rfl

/-! ### The status -/

/-- A status is of these controls, in the ranges of the device. -/
structure Reads (d : Device) (s : FocusStatus) (c : Controls) : Prop where
  value : s.value = c.focus
  auto : ∀ enabled ∈ s.autoEnabled, c.auto = enabled
  supported : s.autoSupported = false → s.autoEnabled = none
  ranges : ∃ q, d.focus = some q ∧ s.minimum = q.minimum ∧ s.maximum = q.maximum ∧ s.step = max q.step 1 ∧
    s.default = q.defaultValue

theorem wp_focusStatus (d : Device) (io : Io) :
    Wp d.focusStatus faults (fun status io' => io'.controls = io.controls ∧ ∀ s ∈ status, Reads d s io.controls)
      (fun _ io' => io'.controls = io.controls) io := by
  unfold Device.focusStatus Device.queryFocus Device.queryAuto
  rw [wp_bind, wp_queryControl]
  rcases hfocus : faults io.calls with _ | _ | _
  · cases hq : d.focus with
    | none => exact ⟨rfl, nofun⟩
    | some q =>
      dsimp only [Option.map_some]
      rw [wp_bind, wp_getControl]
      rcases faults _ with _ | _
      · dsimp only
        rw [wp_bind, wp_queryControl]
        rcases faults _ with _ | _ | _
        · cases hauto : d.auto with
          | false =>
            refine ⟨rfl, fun s hs => ?_⟩
            cases hs
            exact ⟨rfl, nofun, fun _ => rfl, q, hq, rfl, rfl, rfl, rfl⟩
          | true =>
            rw [if_pos rfl]
            dsimp only
            rw [wp_bind, wp_getControl]
            rcases faults _ with _ | _
            · refine ⟨rfl, fun s hs => ?_⟩
              cases hs
              exact ⟨rfl, fun enabled he => Option.some.inj he, nofun, q, hq, rfl, rfl, rfl, rfl⟩
            · rfl
        · refine ⟨rfl, fun s hs => ?_⟩
          cases hs
          exact ⟨rfl, nofun, fun _ => rfl, q, hq, rfl, rfl, rfl, rfl⟩
        · rfl
      · rfl
  · exact ⟨rfl, nofun⟩
  · rfl

variable {q : QueryControl}

/-- Where nothing fails the camera answers. -/
theorem wp_focusStatus_answers {d : Device} (hq : d.focus = some q) (io : Io)
    (h : ∀ k, io.calls ≤ k → faults k = none) :
    Wp d.focusStatus faults (fun status _ => status.isSome) (fun _ _ => False) io := by
  unfold Device.focusStatus Device.queryFocus Device.queryAuto
  rw [wp_bind, wp_queryControl, h _ (by omega), hq]
  dsimp only [Option.map_some]
  rw [wp_bind, wp_getControl, h _ (by dsimp only; omega)]
  dsimp only
  rw [wp_bind, wp_queryControl, h _ (by dsimp only; omega)]
  cases d.auto with
  | false => rfl
  | true =>
    rw [if_pos rfl]
    dsimp only
    rw [wp_bind, wp_getControl, h _ (by dsimp only; omega)]
    rfl

theorem wp_queryFocus (d : Device) (io : Io) {Q : Option QueryControl → Io → Prop}
    (hsome : ∀ q, d.focus = some q → Q (some { q with step := max q.step 1 }) { io with calls := io.calls + 1 })
    (hnone : d.focus = none ∨ faults io.calls = some .unsupported → Q none { io with calls := io.calls + 1 })
    (hE : E "camera_focus_query_failed" { io with calls := io.calls + 1 }) : Wp d.queryFocus faults Q E io := by
  unfold Device.queryFocus
  rw [wp_queryControl]
  rcases hfault : faults io.calls with _ | _ | _
  · cases hq : d.focus with
    | none => exact hnone (.inl hq)
    | some q => exact hsome q hq
  · exact hnone (.inr hfault)
  · exact hE

/-- The auto focus that is found is one that the camera has. -/
theorem wp_queryAuto (d : Device) (io : Io) :
    Wp d.queryAuto faults (fun auto io' => io' = { io with calls := io.calls + 1 } ∧ (auto.isSome → d.auto = true))
      (fun code io' => io' = { io with calls := io.calls + 1 } ∧ code = "camera_focus_query_failed") io := by
  unfold Device.queryAuto
  rw [wp_queryControl]
  rcases faults io.calls with _ | _ | _
  · refine ⟨rfl, fun h => ?_⟩
    cases hauto : d.auto with
    | true => rfl
    | false =>
      rw [hauto] at h
      cases h
  · exact ⟨rfl, nofun⟩
  · exact ⟨rfl, rfl⟩

/-! ### Requests -/

/-- What is answered is what the controls are. -/
theorem wp_setFocus_reads (d : Device) (value : Option ℤ) (autoEnabled : Option Bool) (io : Io) :
    Wp (d.setFocus value autoEnabled) faults (fun status io' => Reads d status io'.controls) (fun _ _ => True) io := by
  unfold Device.setFocus
  rw [wp_bind]
  refine (wp_true _ _ _).mono (fun focus io1 _ => ?_) fun _ _ _ => trivial
  cases focus with
  | none => trivial
  | some focus =>
    dsimp only
    rw [wp_bind]
    refine (wp_true _ _ _).mono (fun auto io2 _ => ?_) fun _ _ _ => trivial
    rw [wp_bind]
    refine (wp_true _ _ _).mono (fun _ io3 _ => ?_) fun _ _ _ => trivial
    rw [wp_bind]
    refine (wp_true _ _ _).mono (fun _ io4 _ => ?_) fun _ _ _ => trivial
    rw [wp_bind]
    refine (wp_focusStatus d io4).mono (fun status io5 hstatus => ?_) fun _ _ _ => trivial
    cases status with
    | none => trivial
    | some status =>
      rw [wp_pure, hstatus.1]
      exact hstatus.2 status rfl

/-- The controls that a restore asks for. -/
structure Asked (value : ℤ) (autoEnabled : Option Bool) (c : Controls) : Prop where
  focus : c.focus = value
  auto : ∀ enabled ∈ autoEnabled, c.auto = enabled

def Controls.withAuto (c : Controls) (autoEnabled : Option Bool) : Controls := { c with auto := autoEnabled.getD c.auto }

theorem Controls.withAuto_auto (c : Controls) {autoEnabled : Option Bool} {enabled : Bool} (h : enabled ∈ autoEnabled) :
    (c.withAuto autoEnabled).auto = enabled := by
  cases h
  rfl

theorem Controls.withAuto_same {c : Controls} {autoEnabled : Option Bool} (h : ∀ enabled ∈ autoEnabled, enabled = c.auto) :
    c.withAuto autoEnabled = c := by
  cases autoEnabled with
  | none => rfl
  | some enabled =>
    unfold withAuto
    rw [h enabled rfl]
    rfl

theorem wp_requestAuto (supported : Bool) (autoEnabled : Option Bool) (io : Io) :
    Wp (requestAuto supported autoEnabled) faults
      (fun _ io' => io'.controls = io.controls.withAuto autoEnabled ∧ (io' = io ∨ io'.calls = io.calls + 1))
      (fun code io' => io'.controls = io.controls ∧ code ≠ "camera_focus_unsupported") io := by
  cases autoEnabled with
  | none => exact ⟨rfl, .inl rfl⟩
  | some enabled =>
    unfold requestAuto
    dsimp only
    cases supported with
    | false => exact ⟨rfl, by decide⟩
    | true =>
      rw [if_pos rfl, setAuto, wp_setControl]
      rcases faults io.calls with _ | _
      · exact ⟨rfl, .inr rfl⟩
      · exact ⟨rfl, by decide⟩

/-- A preference without auto focus is restored, or the camera does not know the control. -/
theorem wp_setFocus_restores (d : Device) (value : ℤ) {autoEnabled : Option Bool} (hauto : autoEnabled ≠ some true) (c : Controls) :
    Wp (d.setFocus (some value) autoEnabled) faults (fun _ io' => Asked value autoEnabled io'.controls)
      (fun code io' => code = "camera_focus_unsupported" →
        d.focus = none ∨ faults 0 = some .unsupported ∨ Asked value autoEnabled io'.controls) ⟨c, 0⟩ := by
  unfold Device.setFocus
  rw [wp_bind]
  refine wp_queryFocus d _ (fun q hq => ?_) (fun h _ => ?_) fun h => absurd h (by decide)
  · dsimp only
    rw [wp_bind]
    refine (wp_queryAuto d _).mono (fun auto io2 _ => ?_) fun _ _ h hcode => absurd (h.2.symm.trans hcode) (by decide)
    rw [wp_bind]
    refine (wp_requestAuto auto.isSome autoEnabled io2).mono (fun _ io3 h3 => ?_) fun _ _ h hcode => absurd hcode h.2
    rw [wp_bind]
    unfold requestValue
    dsimp only
    split
    · rw [wp_bind]
      -- auto focus is switched off where the preference does not say it is off
      have hoff : Wp (if auto.isSome && autoEnabled != some false then setAuto false else pure ()) faults
          (fun _ io' => ∀ enabled ∈ autoEnabled, io'.controls.auto = enabled) (fun code _ => code ≠ "camera_focus_unsupported") io3 := by
        split
        · rw [setAuto, wp_setControl]
          rcases faults io3.calls with _ | _
          · intro enabled he
            cases enabled with
            | false => rfl
            | true => exact absurd he hauto
          · exact (by decide : "camera_focus_set_failed" ≠ "camera_focus_unsupported")
        · intro enabled he
          rw [h3.1]
          exact io2.controls.withAuto_auto he
      refine hoff.mono (fun _ io4 h4 => ?_) fun _ _ h hcode => absurd hcode h
      rw [wp_setControl]
      rcases faults io4.calls with _ | _
      · dsimp only
        rw [wp_bind]
        refine (wp_focusStatus d _).mono (fun status io5 h5 => ?_) fun _ _ h _ => .inr (.inr ?_)
        · have hasked : Asked value autoEnabled io5.controls := by
            rw [h5.1]
            exact ⟨rfl, h4⟩
          cases status with
          | none => exact fun _ => .inr (.inr hasked)
          | some status => exact hasked
        · rw [h]
          exact ⟨rfl, h4⟩
      · exact fun hcode => absurd hcode (by decide)
    · exact fun hcode => absurd hcode (by decide)
  · rcases h with hnone | hfault
    · exact .inl hnone
    · exact .inr (.inl hfault)

/-! ### Requests that are clean -/

/-- The request is refused before anything is set, or sets the auto focus to what it is. -/
def Device.Refuses (d : Device) (c : Controls) (value : Option ℤ) (autoEnabled : Option Bool) : Prop :=
  d.focus = none ∨ autoEnabled.isSome ∧ d.auto = false ∨
    (∀ enabled ∈ autoEnabled, enabled = c.auto) ∧ ∃ next ∈ value, ∀ q ∈ d.focus, ({ q with step := max q.step 1 } : QueryControl).accepts next = false

/-- The request asks for what the controls are. -/
structure Device.Repeats (d : Device) (c : Controls) (value : Option ℤ) (autoEnabled : Option Bool) : Prop where
  sameValue : ∀ next ∈ value, next = c.focus
  sameAuto : ∀ enabled ∈ autoEnabled, enabled = c.auto
  manual : value.isSome → d.auto = true → c.auto = false

/-- The value is one that the camera takes and reports well, and no ioctl fails but the two queries
and the first that sets a control. -/
structure Device.Takes (d : Device) (c : Controls) (value : Option ℤ) (faults : Faults) (q : QueryControl) : Prop where
  declared : d.focus = some q
  accepts : ∀ next ∈ value, ({ q with step := max q.step 1 } : QueryControl).accepts next = true
  runs : ∀ k, 3 ≤ k → faults k = none
  range : q.minimum ≤ value.getD c.focus ∧ value.getD c.focus ≤ q.maximum
  aligned : (value.getD c.focus - q.minimum).fmod (max q.step 1) = 0
  default : q.minimum ≤ q.defaultValue ∧ q.defaultValue ≤ q.maximum

def Device.Clean (d : Device) (c : Controls) (value : Option ℤ) (autoEnabled : Option Bool) (faults : Faults) : Prop :=
  d.Refuses c value autoEnabled ∨ d.Repeats c value autoEnabled ∨ ∃ q, d.Takes c value faults q

/-- What a request leaves of the controls where it gives no status that counts. -/
def Unchanged (c : Controls) (m : Control FocusStatus) (faults : Faults) : Prop :=
  Wp m faults (fun status io' => validCameraFocusStatus status = false → io'.controls = c) (fun _ io' => io'.controls = c) ⟨c, 0⟩

variable {d : Device} {c : Controls} {value : Option ℤ} {autoEnabled : Option Bool}

/-- A status of a focus that the camera takes is one that counts. -/
theorem Device.Takes.valid (h : d.Takes c value faults q) {status : FocusStatus} {controls : Controls}
    (hfocus : controls.focus = value.getD c.focus) (hreads : Reads d status controls) : validCameraFocusStatus status = true := by
  obtain ⟨q', hq', hmin, hmax, hstep, hdefault⟩ := hreads.ranges
  obtain rfl : q' = q := Option.some.inj (hq'.symm.trans h.declared)
  have hauto : (!status.autoSupported && status.autoEnabled.isSome) = false := by
    cases hsupported : status.autoSupported with
    | true => rfl
    | false =>
      rw [hreads.supported hsupported]
      rfl
  have hvalue : status.value = value.getD c.focus := hreads.value.trans hfocus
  have hrange := h.range
  have hpositive : ¬max q'.step 1 ≤ 0 := by omega
  unfold validCameraFocusStatus
  rw [hauto, hvalue, hmin, hmax, hstep, hdefault]
  simp only [gt_iff_lt, Bool.or_false, Bool.not_eq_true', Bool.or_eq_false_iff, decide_eq_false_iff_not, Bool.and_eq_true,
    Bool.not_eq_false', decide_eq_true_eq, not_not]
  exact ⟨⟨⟨⟨by omega, hpositive⟩, hrange⟩, h.aligned⟩, h.default⟩

/-- From here on nothing is written. -/
theorem wp_answer (io : Io) (hio : io.controls = c) :
    Wp (do
        match ← d.focusStatus with
        | none => .fail "camera_focus_unsupported"
        | some status => pure status) faults
      (fun status io' => validCameraFocusStatus status = false → io'.controls = c) (fun _ io' => io'.controls = c) io := by
  rw [wp_bind]
  refine (wp_focusStatus d io).mono (fun status io' h => ?_) fun _ _ h => h.trans hio
  cases status with
  | none => exact h.1.trans hio
  | some status => exact fun _ => h.1.trans hio

theorem Device.Refuses.unchanged (h : d.Refuses c value autoEnabled) : Unchanged c (d.setFocus value autoEnabled) faults := by
  unfold Unchanged Device.setFocus
  rw [wp_bind]
  refine wp_queryFocus d _ (fun q hq => ?_) (fun _ => rfl) rfl
  dsimp only
  rw [wp_bind]
  refine (wp_queryAuto d _).mono (fun auto io2 h2 => ?_) fun _ _ h => by rw [h.1]
  rw [wp_bind]
  obtain ⟨rfl, hauto⟩ := h2
  rcases h with hnone | ⟨hasked, hmissing⟩ | ⟨hsame, next, hnext, hrefused⟩
  · cases hq.symm.trans hnone
  · -- a camera without auto focus
    have hnone : auto.isSome = false := by
      rw [Bool.eq_false_iff]
      exact fun hsome => absurd (hmissing.symm.trans (hauto hsome)) (by decide)
    obtain ⟨enabled, rfl⟩ := Option.isSome_iff_exists.1 hasked
    rw [hnone]
    rfl
  · refine (wp_requestAuto auto.isSome autoEnabled _).mono (fun _ io3 h3 => ?_) fun _ _ h => h.1
    obtain rfl := Option.mem_def.1 hnext
    rw [wp_bind]
    unfold requestValue
    dsimp only
    rw [hrefused q hq]
    exact h3.1.trans (Controls.withAuto_same hsame)

theorem Device.Repeats.unchanged (h : d.Repeats c value autoEnabled) : Unchanged c (d.setFocus value autoEnabled) faults := by
  unfold Unchanged Device.setFocus
  rw [wp_bind]
  refine wp_queryFocus d _ (fun q hq => ?_) (fun _ => rfl) rfl
  dsimp only
  rw [wp_bind]
  refine (wp_queryAuto d _).mono (fun auto io2 h2 => ?_) fun _ _ h => by rw [h.1]
  obtain ⟨rfl, hauto⟩ := h2
  rw [wp_bind]
  refine (wp_requestAuto auto.isSome autoEnabled _).mono (fun _ io3 h3 => ?_) fun _ _ h => h.1
  have h3 : io3.controls = c := h3.1.trans (Controls.withAuto_same h.sameAuto)
  rw [wp_bind]
  have hvalue : Wp (requestValue { q with step := max q.step 1 } auto.isSome autoEnabled value) faults (fun _ io' => io'.controls = c)
      (fun _ io' => io'.controls = c) io3 := by
    cases value with
    | none => exact h3
    | some next =>
      unfold requestValue
      dsimp only
      split
      · rw [wp_bind]
        have hoff : Wp (if auto.isSome && autoEnabled != some false then setAuto false else pure ()) faults
            (fun _ io' => io'.controls = c) (fun _ io' => io'.controls = c) io3 := by
          split
          · next hguard =>
            rw [setAuto, wp_setControl]
            rcases faults io3.calls with _ | _
            · change ({ io3.controls with auto := false } : Controls) = c
              rw [h3, ← h.manual rfl (hauto (Bool.and_eq_true_iff.1 hguard).1)]
            · exact h3
          · exact h3
        refine hoff.mono (fun _ io4 h4 => ?_) fun _ _ h => h
        rw [wp_setControl]
        rcases faults io4.calls with _ | _
        · change ({ io4.controls with focus := next } : Controls) = c
          rw [h4, h.sameValue next rfl]
        · exact h4
      · exact h3
  exact hvalue.mono (fun _ io4 h4 => wp_answer io4 h4) fun _ _ h => h

/-- Where the request has begun to write it goes through. -/
theorem Device.Takes.wp_requestValue (h : d.Takes c value faults q) (supported : Bool) {io : Io}
    (hfocus : io.controls.focus = c.focus) (hio : io = ⟨c, 2⟩ ∨ 3 ≤ io.calls) :
    Wp (requestValue { q with step := max q.step 1 } supported autoEnabled value) faults
      (fun _ io' => io'.controls.focus = value.getD c.focus ∧ (io' = ⟨c, 2⟩ ∨ 3 ≤ io'.calls)) (fun _ io' => io'.controls = c) io := by
  have hwritten : ∀ {io : Io}, io = ⟨c, 2⟩ ∨ 3 ≤ io.calls → ∀ {f : Fault}, faults io.calls = some f → io.controls = c := by
    intro io hio f hf
    rcases hio with rfl | hcalls
    · rfl
    · rw [h.runs _ hcalls] at hf
      cases hf
  have hlater : ∀ {io : Io}, io = ⟨c, 2⟩ ∨ 3 ≤ io.calls → 3 ≤ io.calls + 1 := by
    intro io hio
    rcases hio with rfl | hcalls
    · exact Nat.le_refl 3
    · omega
  cases value with
  | none => exact ⟨hfocus, hio⟩
  | some next =>
    unfold requestValue
    dsimp only
    rw [if_pos (h.accepts next rfl), wp_bind]
    have hoff : Wp (if supported && autoEnabled != some false then setAuto false else pure ()) faults
        (fun _ io' => io' = ⟨c, 2⟩ ∨ 3 ≤ io'.calls) (fun _ io' => io'.controls = c) io := by
      split
      · rw [setAuto, wp_setControl]
        rcases hf : faults io.calls with _ | _
        · exact .inr (hlater hio)
        · exact @hwritten io hio _ hf
      · exact hio
    refine hoff.mono (fun _ io' h' => ?_) fun _ _ h => h
    rw [wp_setControl]
    rcases hf : faults io'.calls with _ | _
    · exact ⟨rfl, .inr (hlater h')⟩
    · exact @hwritten io' h' _ hf

theorem Device.Takes.unchanged (h : d.Takes c value faults q) : Unchanged c (d.setFocus value autoEnabled) faults := by
  unfold Unchanged Device.setFocus
  rw [wp_bind]
  refine wp_queryFocus d _ (fun q' hq => ?_) (fun _ => rfl) rfl
  obtain rfl : q' = q := Option.some.inj (hq.symm.trans h.declared)
  dsimp only
  rw [wp_bind]
  refine (wp_queryAuto d _).mono (fun auto io2 h2 => ?_) fun _ _ h => by rw [h.1]
  obtain ⟨rfl, hauto⟩ := h2
  rw [wp_bind]
  refine (wp_requestAuto auto.isSome autoEnabled _).mono (fun _ io3 h3 => ?_) fun _ _ h => h.1
  rw [wp_bind]
  have hio : io3 = ⟨c, 2⟩ ∨ 3 ≤ io3.calls := h3.2.imp id fun hcalls => Nat.le_of_eq hcalls.symm
  have hfocus : io3.controls.focus = c.focus := by rw [h3.1]; rfl
  refine (h.wp_requestValue auto.isSome hfocus hio).mono (fun _ io4 h4 => ?_) fun _ _ h => h
  rcases h4.2 with rfl | hcalls
  · exact wp_answer _ rfl
  · rw [wp_bind]
    refine ((wp_focusStatus d io4).and (wp_focusStatus_answers h.declared io4 fun k hk => h.runs k (by omega))).mono
      (fun status io5 h5 => ?_) fun _ _ h => h.2.elim
    obtain ⟨⟨hsame, hreads⟩, hsome⟩ := h5
    obtain ⟨status, rfl⟩ := Option.isSome_iff_exists.1 hsome
    intro hinvalid
    exact absurd (hinvalid.symm.trans (h.valid h4.1 (hreads status rfl))) (by decide)

/-- A clean request gives a status that counts, or leaves the controls. -/
theorem Device.Clean.unchanged (h : d.Clean c value autoEnabled faults) : Unchanged c (d.setFocus value autoEnabled) faults := by
  rcases h with hrefuses | hrepeats | ⟨q, htakes⟩
  · exact hrefuses.unchanged
  · exact hrepeats.unchanged
  · exact htakes.unchanged

end Conductor.Camera
