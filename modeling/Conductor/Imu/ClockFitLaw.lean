import Conductor.Lib.Concat
import Conductor.Imu.ClockFit

/-! The retained points increase in both clocks, so the fit has a positive denominator and a positive
slope, and no accepted evidence makes it fail. -/

namespace Conductor.Imu

open LeastSquares

/-- Later on both clocks. -/
def Before (p q : SyncPoint) : Prop := p.deviceTicks < q.deviceTicks ∧ p.hostNs < q.hostNs

theorem Before.trans {p q r : SyncPoint} (h : Before p q) (h' : Before q r) : Before p r :=
  ⟨UInt64.lt_trans h.1 h'.1, UInt64.lt_trans h.2 h'.2⟩

/-- The points of the fit. -/
def line (points : List SyncPoint) : List (ℚ × ℚ) := points.map fun p => (ticks p, host p)

section Fit

variable (points : List SyncPoint)

theorem line_fst : (line points).map Prod.fst = points.map ticks := by
  rw [line, List.map_map]
  rfl

theorem line_snd : (line points).map Prod.snd = points.map host := by
  rw [line, List.map_map]
  rfl

theorem denominator_eq : denominator points = product (meanX points) (diagonal (line points)) := by
  have hfst : (diagonal (line points)).map Prod.fst = (line points).map Prod.fst := by
    rw [diagonal, List.map_map]
    rfl
  rw [product, hfst, line_fst, diagonal, line, List.map_map, List.map_map]
  rfl

theorem scale_eq : scale points = LeastSquares.slope (line points) := by
  have hproduct : product (meanY points) (line points) =
      (points.map fun p => (ticks p - meanX points) * (host p - meanY points)).sum := by
    rw [product, line_fst, line, List.map_map]
    rfl
  rw [LeastSquares.slope, line_fst, line_snd]
  exact congrArg₂ (· / ·) hproduct.symm (denominator_eq points)

theorem offset_eq : offset points = intercept (line points) := by
  rw [offset, scale_eq, intercept, line_fst, line_snd]
  rfl

variable {points}

theorem increasing_line (h : points.Pairwise Before) : Increasing (line points) :=
  List.pairwise_map.2 (h.imp fun hpq =>
    ⟨Nat.cast_lt.2 (UInt64.lt_iff_toNat_lt.1 hpq.1), Nat.cast_lt.2 (UInt64.lt_iff_toNat_lt.1 hpq.2)⟩)

variable (h : points.Pairwise Before) (hlen : 2 ≤ points.length)

include h hlen

theorem denominator_pos : 0 < denominator points := by
  rw [denominator_eq]
  exact product_pos (increasing_line h).diagonal (by simpa [diagonal, line] using hlen) _

theorem scale_pos : 0 < scale points := by
  rw [scale_eq]
  exact slope_pos (increasing_line h) (by simpa [line] using hlen)

end Fit

/-- The distance of every point from the line is at most the residual of the fit. -/
theorem le_fitResidual {points : List SyncPoint} {p : SyncPoint} (hp : p ∈ points) :
    |host p - (offset points + scale points * ticks p)| ≤ fitResidual points :=
  (le_foldl_max _ 0).2 _ (List.mem_map_of_mem hp)

theorem estimate_eq {points : List SyncPoint} (h : points.Pairwise Before) :
    estimate points = if points.length < minimumPoints then .ok insufficient
    else
      let residual := (min ⌈fitResidual points⌉₊ (2 ^ 64 - 1) + uncertainty points) % 2 ^ 64
      .ok ⟨some (asI64 (roundAway (offset points))), some residual,
        if goodResidualNs < residual then .degraded else .good⟩ := by
  unfold estimate
  by_cases hlen : points.length < minimumPoints
  · rw [if_pos hlen, if_pos hlen]
  · have hlen2 : 2 ≤ points.length := by
      unfold minimumPoints at hlen
      omega
    rw [if_neg hlen, if_neg hlen, if_neg (denominator_pos h hlen2).ne', if_neg (not_le.2 (scale_pos h hlen2))]

/-! ### The host clock -/

/-- The reads end in the first 73 years of the host clock. -/
def hostLimit : ℕ := 2 ^ 61

/-- A point of such a read. -/
def Early (p : SyncPoint) : Prop := p.hostNs.toNat + p.uncertaintyNs.toNat < hostLimit

theorem early_midpoint {t a b : UInt64} (hle : a ≤ b) (hb : b.toNat < hostLimit) : Early ⟨t, midpointNs a b, (b - a) / 2⟩ := by
  have hab := UInt64.le_iff_toNat_le.1 hle
  have hhalf : ((b - a) / 2).toNat = (b.toNat - a.toNat) / 2 := by
    rw [UInt64.toNat_div, UInt64.toNat_sub_of_le _ _ hle]
    rfl
  have hsum : (midpointNs a b).toNat = a.toNat + (b.toNat - a.toNat) / 2 := by
    have hlt := b.toNat_lt
    rw [midpointNs, UInt64.toNat_add, hhalf]
    omega
  show (midpointNs a b).toNat + ((b - a) / 2).toNat < hostLimit
  omega

/-- With early points the sum at the end of the fit has no overflow. -/
theorem residual_fits {points : List SyncPoint} (h : points.Pairwise Before) (hlen : 2 ≤ points.length)
    (hwindow : points.length ≤ windowPoints) (hearly : ∀ p ∈ points, Early p) :
    (min ⌈fitResidual points⌉₊ (2 ^ 64 - 1) + uncertainty points) % 2 ^ 64 = ⌈fitResidual points⌉₊ + uncertainty points := by
  have hstrip : ∀ q ∈ line points, |q.2 - 2 ^ 60| ≤ (2 ^ 60 : ℚ) := by
    intro q hq
    obtain ⟨p, hp, rfl⟩ := List.mem_map.1 hq
    have hlt : p.hostNs.toNat < 2 ^ 61 := lt_of_le_of_lt (Nat.le_add_right _ _) (hearly p hp)
    have hcast : host p < 2 ^ 61 := by
      show ((p.hostNs.toNat : ℕ) : ℚ) < 2 ^ 61
      exact_mod_cast hlt
    have hnonneg : 0 ≤ host p := Nat.cast_nonneg _
    rw [abs_le]
    constructor <;> linarith
  have hfar := residual_le (increasing_line h) (by simpa [line] using hlen) hstrip (k := 8) (by simpa [line, windowPoints] using hwindow)
  have hfit : fitResidual points ≤ (2 ^ 63 : ℕ) := by
    refine foldl_max_le (by positivity) fun x hx => ?_
    obtain ⟨p, hp, rfl⟩ := List.mem_map.1 hx
    have := hfar _ (List.mem_map_of_mem hp)
    rw [← offset_eq, ← scale_eq] at this
    refine this.trans ?_
    norm_num
  have hceil := Nat.ceil_le.2 hfit
  have huncertainty : uncertainty points ≤ 2 ^ 61 := by
    refine foldl_max_le (Nat.zero_le _) fun x hx => ?_
    obtain ⟨p, hp, rfl⟩ := List.mem_map.1 hx
    have : p.hostNs.toNat + p.uncertaintyNs.toNat < 2 ^ 61 := hearly p hp
    omega
  omega

/-! ### The calls -/

namespace TimeSynchronizer

/-- Both clocks move forward in a call. -/
def Forward (s : TimeSynchronizer) (deviceTicks startNs endNs : UInt64) : Prop :=
  startNs ≤ endNs ∧ ∀ previous ∈ s.points.getLast?, previous.deviceTicks < deviceTicks ∧
    ∀ last ∈ s.lastHostNs, last < midpointNs startNs endNs

/-- The window with a new point. -/
def moved (s : TimeSynchronizer) (point : SyncPoint) : List SyncPoint :=
  (if s.points.length = windowPoints then s.points.tail else s.points) ++ [point]

/-- What every call keeps. -/
structure Window (s : TimeSynchronizer) : Prop where
  length_le : s.points.length ≤ windowPoints
  increasing : s.points.Pairwise Before
  last : ∀ p ∈ s.points.getLast?, ∃ host, s.lastHostNs = some host ∧ p.hostNs ≤ host

theorem window_default : Window default := ⟨Nat.zero_le _, .nil, by simp [default]⟩

/-- A point that is later than the last one is later than all. -/
theorem before_of_last {points : List SyncPoint} {q r : SyncPoint} (h : points.Pairwise Before)
    (hlast : points.getLast? = some q) (hr : Before q r) : ∀ p ∈ points, Before p r := by
  obtain ⟨before, rfl⟩ := List.getLast?_eq_some_iff.1 hlast
  intro p hp
  rcases mem_concat.1 hp with hp | hp
  · exact ((List.pairwise_append.1 h).2.2 p hp q (List.mem_singleton_self q)).trans hr
  · rwa [hp]

variable {s : TimeSynchronizer}

theorem retain_window (h : Window s) {point : SyncPoint}
    (hall : ∀ p ∈ s.points, Before p point) : Window (s.retain point).2 := by
  have hkept : (if s.points.length = windowPoints then s.points.tail else s.points).Pairwise Before ∧
      (if s.points.length = windowPoints then s.points.tail else s.points).length + 1 ≤ windowPoints ∧
      ∀ p ∈ (if s.points.length = windowPoints then s.points.tail else s.points), p ∈ s.points := by
    have hle := h.length_le
    split
    · next hfull =>
      refine ⟨h.increasing.sublist (List.tail_sublist _), ?_, fun p hp => List.mem_of_mem_tail hp⟩
      rw [List.length_tail, hfull]
      decide
    · next hfull => exact ⟨h.increasing, by omega, fun _ hp => hp⟩
  obtain ⟨hpair, hlen, hmem⟩ := hkept
  refine ⟨?_, ?_, ?_⟩
  · show (_ ++ [point]).length ≤ windowPoints
    rw [List.length_append, List.length_singleton]
    exact hlen
  · show (_ ++ [point]).Pairwise Before
    refine List.pairwise_append.2 ⟨hpair, List.pairwise_singleton _ _, fun p hp q hq => ?_⟩
    rw [List.mem_singleton.1 hq]
    exact hall p (hmem p hp)
  · intro p hp
    have hlast : (s.retain point).2.points.getLast? = some point := by
      show (_ ++ [point]).getLast? = some point
      simp
    rw [hlast] at hp
    obtain rfl : point = p := Option.some.inj hp
    exact ⟨_, rfl, UInt64.le_refl _⟩

/-- What one call does: it refuses and changes nothing, it only moves the last host time, or it
retains a point that is later than all others. -/
theorem add_cases (h : Window s) (deviceTicks startNs endNs : UInt64) : ¬Forward s deviceTicks startNs endNs ∧
      ((s.add deviceTicks startNs endNs) = (.error invalidTimeEvidence, s) ∨
        (s.add deviceTicks startNs endNs) = (.error nonMonotonicTime, s)) ∨ (¬Forward s deviceTicks startNs endNs ∧
      ∃ host, (s.add deviceTicks startNs endNs) = (.ok insufficient, { s with lastHostNs := some host }) ∧
        ∀ last ∈ s.lastHostNs, last < host) ∨ Forward s deviceTicks startNs endNs ∧
      (s.add deviceTicks startNs endNs) = s.retain ⟨deviceTicks, midpointNs startNs endNs, (endNs - startNs) / 2⟩ ∧
      ∀ p ∈ s.points, Before p ⟨deviceTicks, midpointNs startNs endNs, (endNs - startNs) / 2⟩ := by
  unfold add Forward
  split
  · next hlt => exact .inl ⟨fun hforward => absurd hforward.1 (UInt64.not_le.2 hlt), .inl rfl⟩
  · next hlt =>
    have hle := UInt64.not_lt.1 hlt
    cases hlast : s.points.getLast? with
    | none =>
      obtain hnil := List.getLast?_eq_none_iff.1 hlast
      exact .inr (.inr ⟨⟨hle, nofun⟩, rfl, by simp [hnil]⟩)
    | some previous =>
      obtain ⟨host, hhost, hbefore⟩ := h.last previous hlast
      simp only
      split
      · next hback =>
        refine .inl ⟨fun hforward => ?_, .inr rfl⟩
        obtain ⟨hticks, hhosts⟩ := hforward.2 previous rfl
        rcases hback with hback | ⟨last, hmem, hback⟩
        · exact UInt64.lt_irrefl _ (UInt64.lt_trans hback hticks)
        · exact UInt64.lt_irrefl _ (UInt64.lt_of_le_of_lt hback (hhosts last hmem))
      · next hforward =>
        simp only [not_or, UInt64.not_lt, not_exists, not_and] at hforward
        obtain ⟨hticks, hhosts⟩ := hforward
        have hlater := fun last hmem => UInt64.not_le.1 (hhosts last hmem)
        split
        · next heq =>
          exact .inr (.inl ⟨fun hforward => UInt64.lt_irrefl _ (heq ▸ (hforward.2 previous rfl).1), _, rfl, hlater⟩)
        · next hne =>
          have hmore := UInt64.lt_of_le_of_ne hticks (Ne.symm hne)
          refine .inr (.inr ⟨⟨hle, fun q hq => ?_⟩, rfl, before_of_last h.increasing hlast ?_⟩)
          · rw [← Option.some.inj hq]
            exact ⟨hmore, hlater⟩
          · exact ⟨hmore, UInt64.lt_of_le_of_lt hbefore (hlater host hhost)⟩

theorem add_window (h : Window s) (deviceTicks startNs endNs : UInt64) :
    Window (s.add deviceTicks startNs endNs).2 := by
  rcases add_cases h deviceTicks startNs endNs with ⟨-, heq | heq⟩ | ⟨-, host, heq, hlater⟩ | ⟨-, heq, hall⟩
  · rwa [heq]
  · rwa [heq]
  · rw [heq]
    refine ⟨h.length_le, h.increasing, fun p hp => ?_⟩
    obtain ⟨last, hlast, hle⟩ := h.last p hp
    exact ⟨host, rfl, UInt64.le_trans hle (UInt64.le_of_lt (hlater last hlast))⟩
  · rw [heq]
    exact retain_window h hall

/-- When a point is retained. -/
theorem add_points (h : Window s) (deviceTicks startNs endNs : UInt64) :
    (Forward s deviceTicks startNs endNs → (s.add deviceTicks startNs endNs).2.points =
      s.moved ⟨deviceTicks, midpointNs startNs endNs, (endNs - startNs) / 2⟩) ∧
    (¬Forward s deviceTicks startNs endNs → (s.add deviceTicks startNs endNs).2.points = s.points) := by
  rcases add_cases h deviceTicks startNs endNs with ⟨hnot, heq | heq⟩ | ⟨hnot, host, heq, -⟩ | ⟨hforward, heq, -⟩
  · exact ⟨fun hforward => absurd hforward hnot, fun _ => by rw [heq]⟩
  · exact ⟨fun hforward => absurd hforward hnot, fun _ => by rw [heq]⟩
  · exact ⟨fun hforward => absurd hforward hnot, fun _ => by rw [heq]⟩
  · refine ⟨fun _ => ?_, fun hnot => absurd hforward hnot⟩
    rw [heq]
    rfl

theorem run_window (calls : List (UInt64 × UInt64 × UInt64)) : Window (run calls) := by
  have hfold : ∀ s, Window s → Window (calls.foldl (fun s c => (s.add c.1 c.2.1 c.2.2).2) s) := by
    induction calls with
    | nil => exact fun _ h => h
    | cons c calls ih => exact fun s h => ih _ (add_window h c.1 c.2.1 c.2.2)
  exact hfold _ window_default

theorem add_early (h : Window s) (hearly : ∀ p ∈ s.points, Early p) (deviceTicks startNs : UInt64)
    {endNs : UInt64} (hend : endNs.toNat < hostLimit) : ∀ p ∈ (s.add deviceTicks startNs endNs).2.points, Early p := by
  obtain ⟨hmoved, hsame⟩ := add_points h deviceTicks startNs endNs
  by_cases hforward : Forward s deviceTicks startNs endNs
  · rw [hmoved hforward]
    intro p hp
    rcases mem_concat.1 hp with hp | rfl
    · refine hearly p ?_
      split at hp
      · exact List.mem_of_mem_tail hp
      · exact hp
    · exact early_midpoint hforward.1 hend
  · rwa [hsame hforward]

theorem run_early {calls : List (UInt64 × UInt64 × UInt64)} (hcalls : ∀ c ∈ calls, c.2.2.toNat < hostLimit) :
    ∀ p ∈ (run calls).points, Early p := by
  have hfold : ∀ s, Window s → (∀ p ∈ s.points, Early p) →
      ∀ p ∈ (calls.foldl (fun s c => (s.add c.1 c.2.1 c.2.2).2) s).points, Early p := by
    induction calls with
    | nil => exact fun _ _ h => h
    | cons c calls ih =>
      obtain ⟨hc, hrest⟩ := List.forall_mem_cons.1 hcalls
      exact fun s h hearly => ih hrest _ (add_window h c.1 c.2.1 c.2.2) (add_early h hearly c.1 c.2.1 hc)
  exact hfold _ window_default nofun

/-- An estimate with a residual bounds the distance of each retained point from the line. -/
theorem add_residual (h : Window s) {deviceTicks startNs endNs : UInt64}
    (hearly : ∀ p ∈ (s.add deviceTicks startNs endNs).2.points, Early p) {e : SyncEstimate} {residual : ℕ}
    (he : (s.add deviceTicks startNs endNs).1 = .ok e) (hr : e.residualNs = some residual) :
    ∀ p ∈ (s.add deviceTicks startNs endNs).2.points, |host p - (offset (s.add deviceTicks startNs endNs).2.points +
        scale (s.add deviceTicks startNs endNs).2.points * ticks p)| ≤ residual := by
  rcases add_cases h deviceTicks startNs endNs with ⟨-, heq | heq⟩ | ⟨-, host, heq, -⟩ | ⟨-, heq, hall⟩
  · rw [heq] at he
    cases he
  · rw [heq] at he
    cases he
  · rw [heq] at he
    obtain rfl := Except.ok.inj he
    cases hr
  · have hwindow := retain_window h hall
    rw [heq] at he hearly ⊢
    intro p hp
    refine (le_fitResidual hp).trans ?_
    have he : estimate (s.retain _).2.points = .ok e := he
    rw [estimate_eq hwindow.increasing] at he
    split at he
    · obtain rfl := Except.ok.inj he
      cases hr
    · next hlen =>
      obtain rfl := Except.ok.inj he
      cases hr
      rw [residual_fits hwindow.increasing (by unfold minimumPoints at hlen; omega) hwindow.length_le hearly]
      push_cast
      exact (Nat.le_ceil _).trans (le_add_of_nonneg_right (Nat.cast_nonneg _))

/-- After any calls the window is bounded and increases on both clocks; three points or more give a
positive denominator, a positive slope and an estimate. The next call retains its point exactly when it
moves both clocks forward; an error is one of the two about the evidence and changes nothing; and while
the host clock is early a residual bounds every retained point. -/
theorem imu_clock_fit (calls : List (UInt64 × UInt64 × UInt64)) :
    let s := run calls
    s.points.length ≤ windowPoints ∧
    (s.points.Pairwise fun p q => p.deviceTicks < q.deviceTicks ∧ p.hostNs < q.hostNs) ∧
    (minimumPoints ≤ s.points.length → 0 < denominator s.points ∧ 0 < scale s.points ∧
      ∃ offsetNs residual quality, estimate s.points = .ok ⟨some offsetNs, some residual, quality⟩) ∧
    ∀ deviceTicks startNs endNs,
      (Forward s deviceTicks startNs endNs → (s.add deviceTicks startNs endNs).2.points =
        s.moved ⟨deviceTicks, midpointNs startNs endNs, (endNs - startNs) / 2⟩) ∧
      (¬Forward s deviceTicks startNs endNs → (s.add deviceTicks startNs endNs).2.points = s.points) ∧
      (∀ e, (s.add deviceTicks startNs endNs).1 = .error e →
        (e = invalidTimeEvidence ∨ e = nonMonotonicTime) ∧ (s.add deviceTicks startNs endNs).2 = s) ∧
      ((∀ c ∈ calls ++ [(deviceTicks, startNs, endNs)], c.2.2.toNat < hostLimit) →
        ∀ e residual, (s.add deviceTicks startNs endNs).1 = .ok e → e.residualNs = some residual →
          ∀ p ∈ (s.add deviceTicks startNs endNs).2.points,
            |host p - (offset (s.add deviceTicks startNs endNs).2.points +
              scale (s.add deviceTicks startNs endNs).2.points * ticks p)| ≤ residual) := by
  intro s
  have h : Window s := run_window calls
  refine ⟨h.length_le, h.increasing, fun hlen => ?_, fun deviceTicks startNs endNs => ⟨(add_points h _ _ _).1,
    (add_points h _ _ _).2, fun e he => ?_, fun hcalls e residual he hr => ?_⟩⟩
  · have hlen2 : 2 ≤ s.points.length := by
      unfold minimumPoints at hlen
      omega
    refine ⟨denominator_pos h.increasing hlen2, scale_pos h.increasing hlen2, ?_⟩
    rw [estimate_eq h.increasing, if_neg (by omega)]
    exact ⟨_, _, _, rfl⟩
  · rcases add_cases h deviceTicks startNs endNs with ⟨-, heq | heq⟩ | ⟨-, host, heq, -⟩ | ⟨-, heq, hall⟩
    · rw [heq] at he ⊢
      exact ⟨.inl (Except.error.inj he).symm, rfl⟩
    · rw [heq] at he ⊢
      exact ⟨.inr (Except.error.inj he).symm, rfl⟩
    · rw [heq] at he
      cases he
    · rw [heq] at he
      have he : estimate (s.retain _).2.points = .error e := he
      rw [estimate_eq (retain_window h hall).increasing] at he
      split at he <;> cases he
  · obtain ⟨hbefore, hlast⟩ := List.forall_mem_append.1 hcalls
    have hend : endNs.toNat < hostLimit := hlast _ (List.mem_singleton_self _)
    exact add_residual h (add_early h (run_early hbefore) deviceTicks startNs hend) he hr

/-- A repeated tick and a regression between three points of one rate. -/
def sampleCalls : List (UInt64 × UInt64 × UInt64) :=
  [(0, 1000, 1010), (10, 2000, 2010), (10, 2500, 2510), (5, 2600, 2610)]

theorem imu_clock_fit_sample :
    (run sampleCalls).points = [⟨0, 1005, 5⟩, ⟨10, 2005, 5⟩] ∧
      ((run sampleCalls).add 20 3030 3050).1 = .ok ⟨some 999, some 22, .good⟩ ∧
      ∀ p ∈ ((run sampleCalls).add 20 3030 3050).2.points,
        |host p - (offset ((run sampleCalls).add 20 3030 3050).2.points +
          scale ((run sampleCalls).add 20 3030 3050).2.points * ticks p)| ≤ 22 := by
  have hestimate : ((run sampleCalls).add 20 3030 3050).1 = .ok ⟨some 999, some 22, .good⟩ := by decide +kernel
  obtain ⟨-, -, -, hadd⟩ := imu_clock_fit sampleCalls
  have hearly : ∀ c ∈ sampleCalls ++ [(20, 3030, 3050)], c.2.2.toNat < hostLimit := by simp [sampleCalls, hostLimit]
  have hbound := (hadd 20 3030 3050).2.2.2 hearly _ 22 hestimate rfl
  exact ⟨by decide +kernel, hestimate, by exact_mod_cast hbound⟩

end TimeSynchronizer

end Conductor.Imu
