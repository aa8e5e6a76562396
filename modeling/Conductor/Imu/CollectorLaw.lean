import Conductor.Imu.Collector
import Conductor.Imu.ClockFitLaw
import Conductor.Lib.Runs

/-! The two collectors side by side. They decode, unwrap and keep their windows alike; they part where the native one
casts the time without wraps, the offset or the residual to 64 bits, and where it rounds half of a nanosecond away
from zero. -/

namespace Conductor.Imu

open LeastSquares Runs

/-! ### Rounding -/

/-- Half away from zero and half to even give the same number of 64 bits. -/
def Alike (x : ℚ) : Prop :=
  x = -2 ^ 63 - 1 / 2 ∨
    (-2 ^ 63 - 1 / 2 < x ∧ x < 2 ^ 63 - 1 / 2 ∧ ∀ n : ℤ, x = n + 1 / 2 → (n % 2 = 0 ↔ n < 0))

theorem roundAway_half (n : ℤ) : roundAway (n + 1 / 2) = if n < 0 then n else n + 1 := by
  unfold roundAway
  by_cases hn : n < 0
  · have hn' : (n : ℚ) ≤ -1 := by exact_mod_cast Int.le_sub_one_of_lt hn
    rw [if_pos hn, if_pos (by linarith)]
    have : (-(n + 1 / 2 : ℚ) + 1 / 2) = ((-n : ℤ) : ℚ) := by push_cast; ring
    rw [this, Int.floor_intCast, neg_neg]
  · have hn' : (0 : ℚ) ≤ n := by exact_mod_cast not_lt.1 hn
    rw [if_neg hn, if_neg (by linarith)]
    have : ((n : ℚ) + 1 / 2 + 1 / 2) = ((n + 1 : ℤ) : ℚ) := by push_cast; ring
    rw [this, Int.floor_intCast]

theorem roundHalfEven_half (n : ℤ) : roundHalfEven (n + 1 / 2) = if n % 2 = 0 then n else n + 1 := by
  have hfloor : ⌊(n + 1 / 2 : ℚ)⌋ = n := Int.floor_eq_iff.2 ⟨by linarith, by linarith⟩
  simp only [roundHalfEven, hfloor]
  rw [if_neg (by linarith), if_neg (by linarith)]

theorem roundHalfEven_near {x : ℚ} (h : ∀ n : ℤ, x ≠ n + 1 / 2) :
    (roundHalfEven x : ℚ) - 1 / 2 < x ∧ x < roundHalfEven x + 1 / 2 := by
  have hlow := Int.floor_le x
  have hhigh := Int.lt_floor_add_one x
  have hne := h ⌊x⌋
  simp only [roundHalfEven]
  rcases lt_or_gt_of_ne hne with hlt | hgt
  · rw [if_pos (show x - ⌊x⌋ < 1 / 2 by linarith)]
    constructor <;> linarith
  · rw [if_neg (show ¬ x - ⌊x⌋ < 1 / 2 by linarith), if_pos (show 1 / 2 < x - ⌊x⌋ by linarith)]
    push_cast
    constructor <;> linarith

/-- Away from the halves both are the nearest integer. -/
theorem roundAway_eq {x : ℚ} (h : ∀ n : ℤ, x ≠ n + 1 / 2) : roundAway x = roundHalfEven x := by
  have hlow := Int.floor_le x
  have hhigh := Int.lt_floor_add_one x
  have hne := h ⌊x⌋
  simp only [roundAway, roundHalfEven]
  rcases lt_or_gt_of_ne hne with hlt | hgt
  · rw [if_pos (show x - ⌊x⌋ < 1 / 2 by linarith)]
    split
    · have : ⌊-x + 1 / 2⌋ = -⌊x⌋ := Int.floor_eq_iff.2 ⟨by push_cast; linarith, by push_cast; linarith⟩
      rw [this, neg_neg]
    · exact Int.floor_eq_iff.2 ⟨by linarith, by linarith⟩
  · rw [if_neg (show ¬ x - ⌊x⌋ < 1 / 2 by linarith), if_pos (show 1 / 2 < x - ⌊x⌋ by linarith)]
    split
    · have : ⌊-x + 1 / 2⌋ = -(⌊x⌋ + 1) := Int.floor_eq_iff.2 ⟨by push_cast; linarith, by push_cast; linarith⟩
      rw [this, neg_neg]
    · exact Int.floor_eq_iff.2 ⟨by push_cast; linarith, by push_cast; linarith⟩

theorem asI64_roundAway (x : ℚ) : asI64 (roundAway x) = roundHalfEven x ↔ Alike x := by
  by_cases hhalf : ∃ n : ℤ, x = n + 1 / 2
  · obtain ⟨n, rfl⟩ := hhalf
    have hinj : ∀ m : ℤ, (n : ℚ) + 1 / 2 = m + 1 / 2 ↔ n = m := fun m => by simp
    have hmin : (n : ℚ) + 1 / 2 = -2 ^ 63 - 1 / 2 ↔ n = -2 ^ 63 - 1 := by
      rw [← hinj]; push_cast; constructor <;> intro h <;> linarith
    have hlow : (-2 ^ 63 - 1 / 2 : ℚ) < n + 1 / 2 ↔ -2 ^ 63 - 1 < n := by
      rw [← Int.cast_lt (R := ℚ)]; push_cast; constructor <;> intro h <;> linarith
    have hhigh : (n + 1 / 2 : ℚ) < 2 ^ 63 - 1 / 2 ↔ n < 2 ^ 63 - 1 := by
      rw [← Int.cast_lt (R := ℚ)]; push_cast; constructor <;> intro h <;> linarith
    simp only [Alike, roundAway_half, roundHalfEven_half, hmin, hlow, hhigh, hinj, asI64, forall_eq']
    split_ifs <;> omega
  · have hne : ∀ n : ℤ, x ≠ n + 1 / 2 := fun n hn => hhalf ⟨n, hn⟩
    rw [roundAway_eq hne]
    obtain ⟨hbelow, habove⟩ := roundHalfEven_near hne
    have hmin : x ≠ -2 ^ 63 - 1 / 2 := by
      have := hne (-2 ^ 63 - 1)
      push_cast at this
      intro hx
      exact this (by linarith)
    have hlow : (-2 ^ 63 - 1 / 2 : ℚ) < x ↔ -2 ^ 63 ≤ roundHalfEven x := by
      constructor
      · intro h
        have : (-2 ^ 63 - 1 : ℚ) < roundHalfEven x := by linarith
        have : -2 ^ 63 - 1 < roundHalfEven x := by exact_mod_cast this
        omega
      · intro h
        have : (-2 ^ 63 : ℚ) ≤ roundHalfEven x := by exact_mod_cast h
        linarith
    have hhigh : x < (2 ^ 63 - 1 / 2 : ℚ) ↔ roundHalfEven x ≤ 2 ^ 63 - 1 := by
      constructor
      · intro h
        have : (roundHalfEven x : ℚ) < 2 ^ 63 := by linarith
        have : roundHalfEven x < 2 ^ 63 := by exact_mod_cast this
        omega
      · intro h
        have : (roundHalfEven x : ℚ) ≤ 2 ^ 63 - 1 := by exact_mod_cast h
        linarith
    have hfree : ∀ n : ℤ, x = n + 1 / 2 → (n % 2 = 0 ↔ n < 0) := fun n hn => absurd hn (hne n)
    simp only [Alike, hmin, hlow, hhigh, false_or, asI64, and_iff_left hfree]
    omega

/-! ### The payload -/

theorem toNat_append_bytes (high low : UInt8) :
    (high.toBitVec ++ low.toBitVec).toNat = high.toNat * 256 + low.toNat := by
  have hlow : low.toBitVec.toNat < 2 ^ 8 := low.toBitVec.isLt
  rw [BitVec.toNat_append, ← Nat.shiftLeft_add_eq_or_of_lt hlow, Nat.shiftLeft_eq]
  rfl

theorem short_eq (high low : UInt8) : Python.short high low = (Native.fromBeBytes high low).toInt := by
  have hhigh := high.toNat_lt
  have hlow := low.toNat_lt
  rw [Native.fromBeBytes, Int16.toInt_ofBitVec, BitVec.toInt_eq_toNat_cond, toNat_append_bytes]
  have hpow : 2 ^ (8 + 8) = 65536 := by norm_num
  rw [hpow]
  unfold Python.short
  generalize high.toNat = a at *
  generalize low.toNat = b at *
  by_cases hsmall : a * 256 + b < 32768
  · rw [if_pos (by omega), if_pos (by omega)]
    push_cast
    rfl
  · rw [if_neg (by omega), if_neg (by omega)]
    push_cast
    rfl

theorem getD_unpack (bytes : List UInt8) (i : ℕ) (h : 2 * i + 1 < bytes.length) :
    (Python.unpack bytes).getD i 0 = Python.short (bytes.getD (2 * i) 0) (bytes.getD (2 * i + 1) 0) := by
  induction bytes using Python.unpack.induct generalizing i with
  | case1 high low rest ih =>
    cases i with
    | zero =>
      rw [Python.unpack, List.getD_cons_zero]
      rfl
    | succ i =>
      rw [List.length_cons, List.length_cons] at h
      rw [Python.unpack, List.getD_cons_succ, ih i (by omega)]
      rfl
  | case2 bytes hshort =>
    rcases bytes with _ | ⟨a, _ | ⟨b, rest⟩⟩
    · exact absurd h (by simp)
    · exact absurd h (by simp)
    · exact absurd rfl (hshort a b rest)

theorem deviceTimestamp_bytes (a b c : UInt8) (rest : List UInt8) :
    (Native.deviceTimestamp (a :: b :: c :: rest)).toNat = (a.toNat * 256 + b.toNat) * 256 + c.toNat := by
  have ha := a.toNat_lt
  have hb := b.toNat_lt
  have hc := c.toNat_lt
  have hshifts : (Native.deviceTimestamp (a :: b :: c :: rest)).toNat =
      (a.toNat <<< 16 % 2 ^ 32 ||| b.toNat <<< 8 % 2 ^ 32) ||| c.toNat := rfl
  have hjoin : a.toNat <<< 16 ||| b.toNat <<< 8 = (a.toNat <<< 8 + b.toNat) <<< 8 := by
    rw [Nat.shiftLeft_add_eq_or_of_lt hb, Nat.shiftLeft_or_distrib, ← Nat.shiftLeft_add]
  have ha' : a.toNat <<< 16 < 2 ^ 32 := by
    rw [Nat.shiftLeft_eq]
    omega
  have hb' : b.toNat <<< 8 < 2 ^ 32 := by
    rw [Nat.shiftLeft_eq]
    omega
  rw [hshifts, Nat.mod_eq_of_lt ha', Nat.mod_eq_of_lt hb', hjoin, ← Nat.shiftLeft_add_eq_or_of_lt hc, Nat.shiftLeft_eq,
    Nat.shiftLeft_eq]

variable {payload : List UInt8} {u : Native.TimestampUnwrapper}

theorem deviceTimestamp_eq (h : 3 ≤ payload.length) :
    Python.fromBytes (payload.take 3) = (Native.deviceTimestamp payload).toNat := by
  rcases payload with _ | ⟨a, _ | ⟨b, _ | ⟨c, rest⟩⟩⟩
  · simp at h
  · simp at h
  · simp at h
  · rw [deviceTimestamp_bytes]
    simp [Python.fromBytes]

theorem deviceTimestamp_lt (h : 3 ≤ payload.length) : (Native.deviceTimestamp payload).toNat < modulus := by
  rcases payload with _ | ⟨a, _ | ⟨b, _ | ⟨c, rest⟩⟩⟩
  · simp at h
  · simp at h
  · simp at h
  · have ha := a.toNat_lt
    have hb := b.toNat_lt
    have hc := c.toNat_lt
    rw [deviceTimestamp_bytes, modulus]
    omega

theorem axis_eq (h : payload.length = 27) {i : ℕ} (hi : i < 12) :
    (Python.unpack (payload.drop 3)).getD i 0 = (Native.axis payload i).toInt := by
  rw [getD_unpack _ _ (by rw [List.length_drop]; omega), short_eq, Native.axis, byte, byte]
  simp only [List.getD_eq_getElem?_getD, List.getElem?_drop]
  rw [Nat.add_assoc]

theorem decodePacket_eq (h : payload.length = 27) : Python.decodePacket payload =
      .ok ⟨(Native.decodePacket payload).deviceTimestampRaw.toNat, (Native.decodePacket payload).samples⟩ := by
  have haxis : ∀ start i, i < 3 → start + i < 12 →
      (((Python.unpack (payload.drop 3)).drop start).take 3).getD i 0 = (Native.axis payload (start + i)).toInt := by
    intro start i hi hlt
    rw [← axis_eq h hlt]
    simp only [List.getD_eq_getElem?_getD, List.getElem?_take, if_pos hi, List.getElem?_drop]
  have hvector : ∀ start, start + 2 < 12 → Python.rawVector3 (((Python.unpack (payload.drop 3)).drop start).take 3) =
      ⟨(Native.axis payload start).toInt, (Native.axis payload (start + 1)).toInt,
        (Native.axis payload (start + 2)).toInt⟩ := by
    intro start hstart
    rw [Python.rawVector3, haxis start 0 (by omega) (by omega), haxis start 1 (by omega) (by omega),
      haxis start 2 (by omega) hstart]
    rfl
  rw [Python.decodePacket, if_neg (not_not.2 h)]
  simp only [deviceTimestamp_eq (show 3 ≤ payload.length by omega), hvector (0 * 6) (by omega),
    hvector (0 * 6 + 3) (by omega), hvector (1 * 6) (by omega), hvector (1 * 6 + 3) (by omega)]
  rfl

/-! ### The device time -/

/-- The raw time that was read last and the time without wraps, when there is one. -/
def Unwrapped (u : Native.TimestampUnwrapper) (v : Python.TimestampUnwrapper) : Prop :=
  match u.raw with
  | none => v.raw = none
  | some r => r.toNat < modulus ∧ v.raw = some r.toNat ∧ ∃ t, u.unwrapped = some t ∧ t.toNat = v.unwrapped

/-- The time without wraps of the next raw time. -/
def nextTicks (v : Python.TimestampUnwrapper) (raw : ℕ) : ℕ :=
  match v.raw with
  | none => raw
  | some previousRaw => v.unwrapped + (((raw : ℤ) - previousRaw) % modulus).toNat

theorem toNat_saturatingAdd (a b : UInt64) :
    (Native.saturatingAdd a b).toNat = min (a.toNat + b.toNat) (2 ^ 64 - 1) := by
  unfold Native.saturatingAdd
  split
  · rw [UInt64.toNat_add]
    omega
  · have htop : (UInt64.ofNat (2 ^ 64 - 1)).toNat = 2 ^ 64 - 1 := rfl
    rw [htop]
    omega

theorem toNat_delta {raw previous : UInt64} (hraw : raw.toNat < modulus) (hprevious : previous.toNat < modulus) :
    ((raw + .ofNat modulus - previous) % .ofNat modulus).toNat =
      (((raw.toNat : ℤ) - previous.toNat) % modulus).toNat := by
  have hmodulus : (UInt64.ofNat modulus).toNat = modulus := rfl
  have hsum : (raw + .ofNat modulus).toNat = raw.toNat + modulus := by
    rw [UInt64.toNat_add, hmodulus]
    unfold modulus at *
    omega
  rw [UInt64.toNat_mod, UInt64.toNat_sub_of_le _ _ (UInt64.le_iff_toNat_le.2 (by omega)), hsum, hmodulus]
  unfold modulus at *
  omega

theorem update_related {v : Python.TimestampUnwrapper} (h : Unwrapped u v)
    {raw : UInt64} (hraw : raw.toNat < modulus) :
    (u.update raw = .error Native.timestampRegression ∧ v.update raw.toNat true = .error Python.timestampRegression) ∨
    ∃ t u' v', u.update raw = .ok (t, u') ∧ v.update raw.toNat true = .ok (nextTicks v raw.toNat, v') ∧
      t.toNat = min (nextTicks v raw.toNat) (2 ^ 64 - 1) ∧ (nextTicks v raw.toNat < 2 ^ 64 → Unwrapped u' v') := by
  have hlt := raw.toNat_lt
  unfold Native.TimestampUnwrapper.update Python.TimestampUnwrapper.update nextTicks
  rw [if_neg (not_le.2 hraw), if_neg (not_le.2 hraw)]
  cases hu : u.raw with
  | none =>
    simp only [Unwrapped, hu] at h
    simp only [h]
    exact .inr ⟨_, _, _, rfl, rfl, by omega, fun _ => ⟨hraw, rfl, _, rfl, rfl⟩⟩
  | some previous =>
    simp only [Unwrapped, hu] at h
    obtain ⟨hprevious, hv, t, ht, hvalue⟩ := h
    have hdelta := toNat_delta hraw hprevious
    simp only [hv, ht, Option.getD_some, ← hdelta]
    generalize (raw + .ofNat modulus - previous) % .ofNat modulus = delta at *
    have hzero : delta = 0 ↔ delta.toNat = 0 := UInt64.toNat_inj.symm
    have hhalf : .ofNat (modulus / 2) < delta ↔ modulus / 2 < delta.toNat := UInt64.lt_iff_toNat_lt
    simp only [hzero, hhalf]
    have htlt := t.toNat_lt
    by_cases hstalled : delta.toNat = 0
    · rw [if_pos hstalled, if_pos hstalled]
      refine .inr ⟨_, _, _, rfl, by rw [hstalled]; rfl, by omega, fun _ => ?_⟩
      simp only [Unwrapped, hu]
      exact ⟨hprevious, hv, t, ht, hvalue⟩
    · rw [if_neg hstalled, if_neg hstalled]
      by_cases hback : modulus / 2 < delta.toNat
      · rw [if_pos hback, if_pos hback]
        exact .inl ⟨rfl, rfl⟩
      · rw [if_neg hback, if_neg hback]
        have hsum := toNat_saturatingAdd t delta
        refine .inr ⟨_, _, _, rfl, rfl, by omega, fun hfits => ⟨hraw, rfl, _, rfl, ?_⟩⟩
        show _ = v.unwrapped + delta.toNat
        omega

/-! ### The fit -/

def value (p : SyncPoint) : Python.Point := ⟨p.deviceTicks.toNat, p.hostNs.toNat, p.uncertaintyNs.toNat⟩

/-- A point of the fit. -/
def pair (p : Python.Point) : ℚ × ℚ := (p.deviceTicks, p.hostNs)

theorem meanX_value (points : List SyncPoint) : meanX points = Python.meanX (points.map value) := by
  rw [meanX, Moments.mean, Python.meanX, List.map_map, List.length_map, List.length_map]
  rfl

theorem meanY_value (points : List SyncPoint) : meanY points = Python.meanY (points.map value) := by
  rw [meanY, Moments.mean, Python.meanY, List.map_map, List.length_map, List.length_map]
  rfl

theorem denominator_value (points : List SyncPoint) : denominator points = Python.denominator (points.map value) := by
  rw [denominator, Python.denominator, List.map_map, meanX_value]
  simp only [pow_two]
  rfl

theorem scale_value (points : List SyncPoint) : scale points = Python.scale (points.map value) := by
  rw [scale, Python.scale, List.map_map, denominator_value, meanX_value, meanY_value]
  rfl

theorem offset_value (points : List SyncPoint) : offset points = Python.offset (points.map value) := by
  rw [offset, Python.offset, scale_value, meanX_value, meanY_value]

theorem fitResidual_value (points : List SyncPoint) : fitResidual points = Python.fitResidual (points.map value) := by
  rw [fitResidual, Python.fitResidual, List.map_map, offset_value, scale_value]
  rfl

theorem uncertainty_value (points : List SyncPoint) : uncertainty points = Python.uncertainty (points.map value) := by
  rw [uncertainty, Python.uncertainty, List.map_map]
  rfl

section Line

variable (points : List Python.Point)

theorem mean_ticks : Moments.mean ((points.map pair).map Prod.fst) = Python.meanX points := by
  rw [Moments.mean, Python.meanX, List.map_map, List.length_map]
  rfl

theorem mean_hosts : Moments.mean ((points.map pair).map Prod.snd) = Python.meanY points := by
  rw [Moments.mean, Python.meanY, List.map_map, List.length_map]
  rfl

theorem denominator_eq_product :
    Python.denominator points = product (Python.meanX points) (diagonal (points.map pair)) := by
  have hfst : (diagonal (points.map pair)).map Prod.fst = (points.map pair).map Prod.fst := by
    rw [diagonal, List.map_map]
    rfl
  rw [product, hfst, mean_ticks, Python.denominator, diagonal, List.map_map, List.map_map]
  simp only [pow_two]
  rfl

theorem scale_eq_slope : Python.scale points = LeastSquares.slope (points.map pair) := by
  have hproduct : product (Python.meanY points) (points.map pair) =
      (points.map fun p => (p.deviceTicks - Python.meanX points) * (p.hostNs - Python.meanY points)).sum := by
    rw [product, mean_ticks, List.map_map]
    rfl
  rw [LeastSquares.slope, mean_ticks, mean_hosts, ← denominator_eq_product, hproduct, Python.scale]

theorem offset_eq_intercept : Python.offset points = intercept (points.map pair) := by
  rw [intercept, mean_ticks, mean_hosts, ← scale_eq_slope, Python.offset]

theorem fitResidual_eq_distance : Python.fitResidual points = distance (points.map pair) := by
  rw [distance, List.map_map, ← offset_eq_intercept, ← scale_eq_slope, Python.fitResidual]
  rfl

end Line

theorem fitResidual_nonneg (points : List Python.Point) : 0 ≤ Python.fitResidual points := (le_foldl_max _ 0).1

/-- Both times increase. -/
def Rising (points : List Python.Point) : Prop :=
  points.Pairwise fun p q => p.deviceTicks < q.deviceTicks ∧ p.hostNs < q.hostNs

theorem rising_value {points : List SyncPoint} (h : points.Pairwise Before) : Rising (points.map value) :=
  List.pairwise_map.2 (h.imp fun hpq => ⟨UInt64.lt_iff_toNat_lt.1 hpq.1, UInt64.lt_iff_toNat_lt.1 hpq.2⟩)

/-- What both give of points that increase, in exact numbers. -/
theorem estimate_exact {points : List Python.Point} (h : Rising points) :
    Python.estimate points = if points.length < 3 then .ok insufficient
    else
      let residual := ⌈distance (points.map pair)⌉₊ + Python.uncertainty points
      .ok ⟨some (roundHalfEven (intercept (points.map pair))), some residual,
        if 1000000 < residual then .degraded else .good⟩ := by
  unfold Python.estimate
  by_cases hlen : points.length < 3
  · rw [if_pos hlen, if_pos hlen]
  · have hpairs : Increasing (points.map pair) :=
      List.pairwise_map.2 (h.imp fun hpq => ⟨Nat.cast_lt.2 hpq.1, Nat.cast_lt.2 hpq.2⟩)
    have htwo : 2 ≤ (points.map pair).length := by
      rw [List.length_map]
      omega
    have hdenominator : Python.denominator points ≠ 0 := by
      rw [denominator_eq_product]
      exact (product_pos hpairs.diagonal (by simpa [diagonal] using htwo) _).ne'
    have hscale : ¬ Python.scale points ≤ 0 := by
      rw [scale_eq_slope]
      exact not_le.2 (slope_pos hpairs htwo)
    rw [if_neg hlen, if_neg hlen, if_neg hdenominator, if_neg hscale,
      Nat.ceil_add_natCast (fitResidual_nonneg points), fitResidual_eq_distance, offset_eq_intercept]

/-- Where the casts and the sum of the native fit do not matter. -/
def Fits (points : List Python.Point) : Prop :=
  3 ≤ points.length →
    Alike (intercept (points.map pair)) ∧ ⌈distance (points.map pair)⌉₊ + Python.uncertainty points < 2 ^ 64

theorem estimate_agree {points : List SyncPoint} (h : points.Pairwise Before) :
    ∃ e e', Imu.estimate points = .ok e ∧ Python.estimate (points.map value) = .ok e' ∧
      (e = e' ↔ Fits (points.map value)) := by
  rw [estimate_exact (rising_value h), List.length_map]
  unfold Imu.estimate minimumPoints Fits
  rw [List.length_map]
  by_cases hlen : points.length < 3
  · rw [if_pos hlen, if_pos hlen]
    exact ⟨_, _, rfl, rfl, fun _ hge => absurd hlen (not_lt.2 hge), fun _ => rfl⟩
  · have htwo : 2 ≤ points.length := by omega
    rw [if_neg hlen, if_neg hlen, if_neg (denominator_pos h htwo).ne', if_neg (not_le.2 (scale_pos h htwo)),
      offset_value, fitResidual_value, uncertainty_value, offset_eq_intercept, fitResidual_eq_distance]
    generalize intercept ((points.map value).map pair) = x
    generalize ⌈distance ((points.map value).map pair)⌉₊ = d
    generalize Python.uncertainty (points.map value) = u
    refine ⟨_, _, rfl, rfl, ?_⟩
    have hresidual : (min d (2 ^ 64 - 1) + u) % 2 ^ 64 = d + u ↔ d + u < 2 ^ 64 := by omega
    rw [← asI64_roundAway, ← hresidual]
    constructor
    · intro heq _
      simp only [SyncEstimate.mk.injEq, Option.some.injEq] at heq
      exact ⟨heq.1, heq.2.1⟩
    · intro hall
      obtain ⟨hoffset, hres⟩ := hall (by omega)
      rw [hoffset, hres]
      rfl

/-! ### The synchronizer -/

theorem toNat_midpointNs {a b : UInt64} (h : a ≤ b) : (midpointNs a b).toNat = (a.toNat + b.toNat) / 2 := by
  have hle := UInt64.le_iff_toNat_le.1 h
  have hhalf : ((b - a) / 2).toNat = (b.toNat - a.toNat) / 2 := by
    rw [UInt64.toNat_div, UInt64.toNat_sub_of_le _ _ h]
    rfl
  have hlt := b.toNat_lt
  rw [midpointNs, UInt64.toNat_add, hhalf]
  omega

theorem toNat_uncertainty {a b : UInt64} (h : a ≤ b) : ((b - a) / 2).toNat = (b.toNat - a.toNat) / 2 := by
  rw [UInt64.toNat_div, UInt64.toNat_sub_of_le _ _ h]
  rfl

/-- Both have the same points and the same last host time. -/
structure Synchronized (s : TimeSynchronizer) (p : Python.TimeSynchronizer) : Prop where
  window : s.Window
  points : p.points = s.points.map value
  last : p.lastHostNs = s.lastHostNs.map (·.toNat)

/-- The evidence does not move forward. -/
def Stale (p : Python.TimeSynchronizer) (deviceTicks hostNs : ℕ) : Prop :=
  ∃ previous ∈ p.points.getLast?, deviceTicks < previous.deviceTicks ∨ ∃ l ∈ p.lastHostNs, hostNs ≤ l

/-- The device time is that of the last anchor. -/
def Repeated (p : Python.TimeSynchronizer) (deviceTicks : ℕ) : Prop :=
  ∃ previous ∈ p.points.getLast?, deviceTicks = previous.deviceTicks

/-- The window with a new anchor. -/
def anchored (p : Python.TimeSynchronizer) (deviceTicks startNs endNs : ℕ) : List Python.Point :=
  Python.append p.points ⟨deviceTicks, (startNs + endNs) / 2, (endNs - startNs) / 2⟩

section Add

variable {s : TimeSynchronizer} {p : Python.TimeSynchronizer} (h : Synchronized s p) {t a b : UInt64} {ticks : ℕ}
  (hle : a ≤ b)

include h

theorem last_value : p.points.getLast? = s.points.getLast?.map value := by
  rw [h.points, List.getLast?_map]

theorem stale_value (ht : t.toNat = min ticks (2 ^ 64 - 1)) (hostNs : UInt64) :
    Stale p ticks hostNs.toNat ↔
      ∃ previous ∈ s.points.getLast?, t < previous.deviceTicks ∨ ∃ l ∈ s.lastHostNs, hostNs ≤ l := by
  have hticks : ∀ previous : SyncPoint, ticks < previous.deviceTicks.toNat ↔ t < previous.deviceTicks := by
    intro previous
    have := previous.deviceTicks.toNat_lt
    rw [UInt64.lt_iff_toNat_lt, ht]
    omega
  have hhost : (∃ l ∈ p.lastHostNs, hostNs.toNat ≤ l) ↔ ∃ l ∈ s.lastHostNs, hostNs ≤ l := by
    rw [h.last]
    simp [UInt64.le_iff_toNat_le]
  unfold Stale
  rw [last_value h, hhost]
  simp [value, hticks]

theorem repeated_value (ht : t.toNat = min ticks (2 ^ 64 - 1)) (hfits : ticks < 2 ^ 64) :
    Repeated p ticks ↔ ∃ previous ∈ s.points.getLast?, t = previous.deviceTicks := by
  have hticks : ∀ previous : SyncPoint, ticks = previous.deviceTicks.toNat ↔ t = previous.deviceTicks := by
    intro previous
    rw [← UInt64.toNat_inj, ht]
    omega
  unfold Repeated
  rw [last_value h]
  simp [value, hticks]

end Add

open TimeSynchronizer in
/-- `add`, with what it does with a new anchor. -/
theorem Native.add_eq (s : TimeSynchronizer) {t a b : UInt64} (hle : a ≤ b) :
    Native.add s t a b =
      if ∃ previous ∈ s.points.getLast?, t < previous.deviceTicks ∨ ∃ l ∈ s.lastHostNs, midpointNs a b ≤ l then
        .error nonMonotonicTime
      else if ∃ previous ∈ s.points.getLast?, t = previous.deviceTicks then
        .ok (insufficient, { s with lastHostNs := some (midpointNs a b) })
      else (Imu.estimate (s.retain ⟨t, midpointNs a b, (b - a) / 2⟩).2.points).map
        (·, (s.retain ⟨t, midpointNs a b, (b - a) / 2⟩).2) := by
  unfold Native.add
  rw [if_neg (UInt64.not_lt.2 hle)]
  cases hlast : s.points.getLast? with
  | none =>
    simp only [Option.mem_def, reduceCtorEq, false_and, exists_false, if_false]
    rfl
  | some previous =>
    simp only [Option.mem_def, Option.some.injEq, exists_eq_left']
    rfl

/-- A new anchor is later than all in the window. -/
theorem rising_anchored {p : Python.TimeSynchronizer} (hp : Rising p.points)
    (hlast : ∀ q ∈ p.points.getLast?, ∃ l, p.lastHostNs = some l ∧ q.hostNs ≤ l) {ticks startNs endNs : ℕ}
    (hstale : ¬ Stale p ticks ((startNs + endNs) / 2)) (hrepeated : ¬ Repeated p ticks) :
    Rising (anchored p ticks startNs endNs) := by
  unfold anchored Python.append
  refine List.Pairwise.sublist (List.drop_sublist _ _) (List.pairwise_append.2 ⟨hp, List.pairwise_singleton _ _, ?_⟩)
  intro q hq r hr
  rw [List.mem_singleton.1 hr]
  obtain ⟨last, hl⟩ : ∃ last, p.points.getLast? = some last :=
    Option.ne_none_iff_exists'.1 fun hnone => by simp [List.getLast?_eq_none_iff.1 hnone] at hq
  obtain ⟨l, hhost, hqle⟩ := hlast last hl
  simp only [Stale, hl, hhost, Option.mem_def, Option.some.injEq, exists_eq_left', not_or, not_lt, not_le] at hstale
  simp only [Repeated, hl, Option.mem_def, Option.some.injEq, exists_eq_left'] at hrepeated
  have hlater : q.deviceTicks ≤ last.deviceTicks ∧ q.hostNs ≤ last.hostNs := by
    obtain ⟨before, hsplit⟩ := List.getLast?_eq_some_iff.1 hl
    rw [hsplit] at hq hp
    rcases mem_concat.1 hq with hq | rfl
    · have := (List.pairwise_append.1 hp).2.2 q hq last (List.mem_singleton_self last)
      omega
    · omega
  show q.deviceTicks < ticks ∧ q.hostNs < (startNs + endNs) / 2
  omega

theorem anchored_value {s : TimeSynchronizer} {p : Python.TimeSynchronizer} (h : Synchronized s p) {t a b : UInt64}
    (hle : a ≤ b) :
    anchored p t.toNat a.toNat b.toNat = (s.retain ⟨t, midpointNs a b, (b - a) / 2⟩).2.points.map value := by
  have hpoint : value ⟨t, midpointNs a b, (b - a) / 2⟩ =
      ⟨t.toNat, (a.toNat + b.toNat) / 2, (b.toNat - a.toNat) / 2⟩ := by
    rw [value, toNat_midpointNs hle, toNat_uncertainty hle]
  have hwindow := h.window.length_le
  unfold windowPoints at hwindow
  unfold anchored Python.append TimeSynchronizer.retain windowPoints
  rw [h.points, ← hpoint, List.length_map]
  show _ = ((if s.points.length = 64 then s.points.tail else s.points) ++ [_]).map value
  rw [List.map_append, List.map_singleton]
  by_cases hfull : s.points.length = 64
  · rw [if_pos hfull, hfull, List.map_tail, ← List.drop_one]
    exact List.drop_append_of_le_length (by rw [List.length_map, hfull]; decide)
  · rw [if_neg hfull, show s.points.length + 1 - 64 = 0 by omega, List.drop_zero]

theorem estimate_ok {points : List Python.Point} (h : Rising points) : ∃ e, Python.estimate points = .ok e := by
  rw [estimate_exact h]
  split
  · exact ⟨_, rfl⟩
  · exact ⟨_, rfl⟩

theorem Synchronized.rising {s : TimeSynchronizer} {p : Python.TimeSynchronizer} (h : Synchronized s p) :
    Rising p.points := by
  rw [h.points]
  exact rising_value h.window.increasing

theorem Synchronized.last_host {s : TimeSynchronizer} {p : Python.TimeSynchronizer} (h : Synchronized s p) :
    ∀ q ∈ p.points.getLast?, ∃ l, p.lastHostNs = some l ∧ q.hostNs ≤ l := by
  intro q hq
  rw [last_value h] at hq
  obtain ⟨previous, hprevious, rfl⟩ := Option.map_eq_some_iff.1 hq
  obtain ⟨host, hhost, hle⟩ := h.window.last previous hprevious
  exact ⟨host.toNat, by rw [h.last, hhost]; rfl, UInt64.le_iff_toNat_le.1 hle⟩

section Python

variable {p : Python.TimeSynchronizer} {ticks startNs endNs : ℕ} (hle : startNs ≤ endNs)

include hle

theorem Python.add_stale (hstale : Stale p ticks ((startNs + endNs) / 2)) :
    p.add ticks startNs endNs = .error Python.nonMonotonicTime := by
  unfold Python.TimeSynchronizer.add
  rw [if_neg (not_lt.2 hle)]
  exact if_pos hstale

theorem Python.add_repeated (hstale : ¬ Stale p ticks ((startNs + endNs) / 2)) (hrepeated : Repeated p ticks) :
    p.add ticks startNs endNs = .ok (insufficient, { p with lastHostNs := some ((startNs + endNs) / 2) }) := by
  unfold Python.TimeSynchronizer.add
  rw [if_neg (not_lt.2 hle)]
  exact (if_neg hstale).trans (if_pos hrepeated)

theorem Python.add_anchored (hstale : ¬ Stale p ticks ((startNs + endNs) / 2)) (hrepeated : ¬ Repeated p ticks) :
    p.add ticks startNs endNs = (Python.estimate (anchored p ticks startNs endNs)).map
      (·, ⟨anchored p ticks startNs endNs, some ((startNs + endNs) / 2)⟩) := by
  unfold Python.TimeSynchronizer.add
  rw [if_neg (not_lt.2 hle)]
  exact (if_neg hstale).trans (if_neg hrepeated)

end Python

theorem anchored_ne_nil (p : Python.TimeSynchronizer) (ticks startNs endNs : ℕ) :
    anchored p ticks startNs endNs ≠ [] := by
  unfold anchored Python.append
  rw [← List.length_pos_iff, List.length_drop, List.length_append, List.length_singleton]
  omega

/-- The retained point of an evidence that moves forward. -/
theorem retained {s : TimeSynchronizer} (h : s.Window) {t a b : UInt64}
    (hstale : ¬ ∃ previous ∈ s.points.getLast?, t < previous.deviceTicks ∨ ∃ l ∈ s.lastHostNs, midpointNs a b ≤ l)
    (hrepeated : ¬ ∃ previous ∈ s.points.getLast?, t = previous.deviceTicks) :
    (s.retain ⟨t, midpointNs a b, (b - a) / 2⟩).2.Window := by
  refine TimeSynchronizer.retain_window h ?_
  cases hlast : s.points.getLast? with
  | none => simp [List.getLast?_eq_none_iff.1 hlast]
  | some previous =>
    obtain ⟨host, hhost, hle⟩ := h.last previous hlast
    simp only [hlast, hhost, Option.mem_def, Option.some.injEq, exists_eq_left', not_or, UInt64.not_lt,
      UInt64.not_le] at hstale hrepeated
    exact TimeSynchronizer.before_of_last h.increasing hlast
      ⟨UInt64.lt_of_le_of_ne hstale.1 (Ne.symm hrepeated), UInt64.lt_of_le_of_lt hle hstale.2⟩

theorem Synchronized.moved {s : TimeSynchronizer} {p : Python.TimeSynchronizer} (h : Synchronized s p) {t : UInt64}
    {ticks : ℕ} (ht : t.toNat = min ticks (2 ^ 64 - 1)) {hostNs : UInt64} (hstale : ¬ Stale p ticks hostNs.toNat) :
    Synchronized { s with lastHostNs := some hostNs } { p with lastHostNs := some hostNs.toNat } where
  window := by
    refine ⟨h.window.length_le, h.window.increasing, fun q hq => ⟨hostNs, rfl, ?_⟩⟩
    obtain ⟨host, hhost, hle⟩ := h.window.last q hq
    rw [stale_value h ht] at hstale
    simp only [Option.mem_def.1 hq, hhost, Option.mem_def, Option.some.injEq, exists_eq_left', not_or,
      UInt64.not_le] at hstale
    exact UInt64.le_trans hle (UInt64.le_of_lt hstale.2)
  points := h.points
  last := rfl

/-- Both refuse the evidence, or both take it. While the device time fits, they stay synchronized, and their estimates
are the same when the new window, if there is one, fits. -/
theorem add_related {s : TimeSynchronizer} {p : Python.TimeSynchronizer} (h : Synchronized s p) {t a b : UInt64}
    {ticks : ℕ} (ht : t.toNat = min ticks (2 ^ 64 - 1)) (hle : a ≤ b) :
    (Native.add s t a b = .error nonMonotonicTime ∧ p.add ticks a.toNat b.toNat = .error Python.nonMonotonicTime) ∨
    (¬ Stale p ticks ((a.toNat + b.toNat) / 2) ∧ ∃ e s' e' p', Native.add s t a b = .ok (e, s') ∧
      p.add ticks a.toNat b.toNat = .ok (e', p') ∧ p'.points ≠ [] ∧ p'.lastHostNs = some ((a.toNat + b.toNat) / 2) ∧
      (ticks < 2 ^ 64 → Synchronized s' p' ∧
        (e = e' ↔ (¬ Repeated p ticks → Fits (anchored p ticks a.toNat b.toNat))))) := by
  have hmid := toNat_midpointNs hle
  have hlenat := UInt64.le_iff_toNat_le.1 hle
  have hsame := stale_value h ht (midpointNs a b)
  rw [hmid] at hsame
  rw [Native.add_eq s hle]
  by_cases hstale : Stale p ticks ((a.toNat + b.toNat) / 2)
  · rw [if_pos (hsame.1 hstale), Python.add_stale hlenat hstale]
    exact .inl ⟨rfl, rfl⟩
  have hnative := fun hn => hstale (hsame.2 hn)
  rw [if_neg hnative]
  refine .inr ⟨hstale, ?_⟩
  by_cases hrepeated : Repeated p ticks
  · have hfits : ticks < 2 ^ 64 := by
      obtain ⟨q, hq, rfl⟩ := hrepeated
      rw [last_value h] at hq
      obtain ⟨previous, -, rfl⟩ := Option.map_eq_some_iff.1 hq
      exact previous.deviceTicks.toNat_lt
    rw [if_pos ((repeated_value h ht hfits).1 hrepeated), Python.add_repeated hlenat hstale hrepeated]
    refine ⟨_, _, _, _, rfl, rfl, ?_, rfl, fun _ => ⟨?_, fun _ hnot => absurd hrepeated hnot, fun _ => rfl⟩⟩
    · rintro hnil
      obtain ⟨q, hq, -⟩ := hrepeated
      simp only at hnil
      simp [hnil] at hq
    · rw [← hmid] at hstale ⊢
      exact h.moved ht hstale
  · rw [Python.add_anchored hlenat hstale hrepeated]
    have hrising := rising_anchored h.rising h.last_host hstale hrepeated
    obtain ⟨e', he'⟩ := estimate_ok hrising
    by_cases hsamer : ∃ previous ∈ s.points.getLast?, t = previous.deviceTicks
    · rw [if_pos hsamer, he']
      refine ⟨_, _, _, _, rfl, rfl, anchored_ne_nil _ _ _ _, rfl, fun hfits => ?_⟩
      exact absurd ((repeated_value h ht hfits).2 hsamer) hrepeated
    · rw [if_neg hsamer]
      have hwindow := retained h.window hnative hsamer
      obtain ⟨e, e'', he, he'', hagree⟩ := estimate_agree hwindow.increasing
      rw [he, he']
      refine ⟨_, _, _, _, rfl, rfl, anchored_ne_nil _ _ _ _, rfl, fun hfits => ?_⟩
      obtain rfl : ticks = t.toNat := by omega
      have hvalue := @anchored_value s p h t a b hle
      rw [hvalue] at he' ⊢
      obtain rfl : e' = e'' := Except.ok.inj (he'.symm.trans he'')
      refine ⟨⟨hwindow, rfl, ?_⟩, hagree.trans ⟨fun hf _ => hf, fun hf => hf hrepeated⟩⟩
      show some _ = (some (midpointNs a b)).map _
      rw [Option.map_some, hmid]

/-! ### The collectors -/

/-- Every packet took a nanosecond at least, so the counters of the native collector do not wrap. -/
structure Matched (s : Native.State) (c : Python.ImuCollector) : Prop where
  unwrapper : Unwrapped s.unwrapper c.unwrapper
  synchronizer : Synchronized s.synchronizer c.synchronizer
  packets : s.packetSequence.toNat = c.packetSequence
  samples : c.sampleSequence = 2 * c.packetSequence
  wrapped : s.sampleSequence.toNat = 2 * c.packetSequence % 2 ^ 64
  fresh : c.synchronizer.points = [] → c.packetSequence = 0
  counted : ∀ l ∈ c.synchronizer.lastHostNs, c.packetSequence ≤ l + 1

theorem matched_new : Matched .open .new where
  unwrapper := rfl
  synchronizer := ⟨TimeSynchronizer.window_default, rfl, rfl⟩
  packets := rfl
  samples := rfl
  wrapped := rfl
  fresh _ := rfl
  counted := nofun

/-- The device time of the next read fits, and so does the window when the read is an anchor. -/
def Clear (c : Python.ImuCollector) (read : PacketRead) : Prop :=
  let ticks := nextTicks c.unwrapper (Native.deviceTimestamp read.payload).toNat
  ticks < 2 ^ 64 ∧ (¬ Repeated c.synchronizer ticks →
    Fits (anchored c.synchronizer ticks read.hostReadStartNs.toNat read.hostReadEndNs.toNat))

def observed (samples : List Native.DecodedRawSample) (sequence : ℕ → ℕ)
    (packetSequence raw ticks startNs endNs hostNs : ℕ) (e : SyncEstimate) : ImuObservation :=
  ⟨samples.map fun sample => ⟨sequence sample.sampleIndex, packetSequence, sample.sampleIndex, raw, ticks, startNs,
    endNs, hostNs, sample.accelerometer, sample.gyroscope, e.offsetNs, e.residualNs, e.quality⟩, 0⟩

variable {read : PacketRead} {e : SyncEstimate}

theorem observePacket_eq {s : Native.State} {t : UInt64} {sync : TimeSynchronizer}
    (hu : s.unwrapper.update (Native.deviceTimestamp read.payload).toUInt64 = .ok (t, u))
    (he : Native.add s.synchronizer t read.hostReadStartNs read.hostReadEndNs = .ok (e, sync)) :
    s.observePacket read = .ok (observed (Native.decodePacket read.payload).samples
      (fun i => (s.sampleSequence + .ofNat i).toNat) s.packetSequence.toNat (Native.deviceTimestamp read.payload).toNat
      t.toNat read.hostReadStartNs.toNat read.hostReadEndNs.toNat
      (midpointNs read.hostReadStartNs read.hostReadEndNs).toNat e,
      ⟨u, sync, s.packetSequence + 1, s.sampleSequence + 2⟩) := by
  have hraw : (Native.decodePacket read.payload).deviceTimestampRaw = Native.deviceTimestamp read.payload := rfl
  unfold Native.State.observePacket
  simp only [hraw, hu, he, bind, Except.bind, pure, Except.pure]
  rfl

variable {c : Python.ImuCollector}

theorem read_eq {t : ℕ} {u : Python.TimestampUnwrapper} {sync : Python.TimeSynchronizer}
    (hu : c.unwrapper.update (Native.deviceTimestamp read.payload).toNat true = .ok (t, u))
    (he : c.synchronizer.add t read.hostReadStartNs.toNat read.hostReadEndNs.toNat = .ok (e, sync)) :
    c.read read = .ok (observed (Native.decodePacket read.payload).samples (c.sampleSequence + ·) c.packetSequence
      (Native.deviceTimestamp read.payload).toNat t read.hostReadStartNs.toNat read.hostReadEndNs.toNat
      ((read.hostReadStartNs.toNat + read.hostReadEndNs.toNat) / 2) e,
      ⟨u, sync, c.packetSequence + 1, c.sampleSequence + 2⟩) := by
  have hraw : (Native.decodePacket read.payload).deviceTimestampRaw = Native.deviceTimestamp read.payload := rfl
  unfold Python.ImuCollector.read
  simp only [decodePacket_eq read.length_payload, hraw, hu, he, bind, Except.bind, pure, Except.pure]
  rfl

theorem observed_eq_iff {f g : ℕ → ℕ} (hfg : ∀ i < 2, f i = g i)
    {packetSequence raw t ticks startNs endNs hostNs : ℕ} {e' : SyncEstimate} :
    observed (Native.decodePacket payload).samples f packetSequence raw t startNs endNs hostNs e =
      observed (Native.decodePacket payload).samples g packetSequence raw ticks startNs endNs hostNs e' ↔
      t = ticks ∧ e = e' := by
  constructor
  · intro h
    obtain ⟨offset, residual, quality⟩ := e
    obtain ⟨offset', residual', quality'⟩ := e'
    simp only [observed, Native.decodePacket, List.map_cons, ImuObservation.mk.injEq, List.cons.injEq,
      ImuSample.mk.injEq] at h
    simp only [SyncEstimate.mk.injEq]
    tauto
  · rintro ⟨rfl, rfl⟩
    simp only [observed, Native.decodePacket, List.map_cons, List.map_nil, hfg 0 (by omega), hfg 1 (by omega)]

theorem Matched.packets_le {s : Native.State} (h : Matched s c) {ticks hostNs : ℕ}
    (hstale : ¬ Stale c.synchronizer ticks hostNs) : c.packetSequence ≤ hostNs := by
  cases hlast : c.synchronizer.points.getLast? with
  | none =>
    rw [h.fresh (List.getLast?_eq_none_iff.1 hlast)]
    exact Nat.zero_le _
  | some q =>
    obtain ⟨l, hl, -⟩ := h.synchronizer.last_host q hlast
    have hcounted := h.counted l hl
    simp only [Stale, hlast, hl, Option.mem_def, Option.some.injEq, exists_eq_left', not_or, not_le] at hstale
    omega

/-- Both fail with the same code, or both give an observation; it is the same one when the read is clear, and then they
stay matched. -/
theorem read_related {s : Native.State} (h : Matched s c) (read : PacketRead) :
    (∃ e e', s.observePacket read = .error e ∧ c.read read = .error e' ∧ e.code = e'.code) ∨
    ∃ o s' o' c', s.observePacket read = .ok (o, s') ∧ c.read read = .ok (o', c') ∧ (o = o' ↔ Clear c read) ∧
      (Clear c read → Matched s' c') := by
  have hraw : (Native.decodePacket read.payload).deviceTimestampRaw = Native.deviceTimestamp read.payload := rfl
  have hnat : (Native.deviceTimestamp read.payload).toUInt64.toNat = (Native.deviceTimestamp read.payload).toNat := rfl
  have hlt := deviceTimestamp_lt (show 3 ≤ read.payload.length by rw [read.length_payload]; omega)
  rw [← hnat] at hlt
  rcases update_related h.unwrapper hlt with ⟨hn, hp⟩ | ⟨t, u, v, hn, hp, ht, hunwrapped⟩
  · refine .inl ⟨Native.timestampRegression, Python.timestampRegression, ?_, ?_, rfl⟩
    · simp only [Native.State.observePacket, hraw, hn, bind, Except.bind]
    · rw [hnat] at hp
      simp only [Python.ImuCollector.read, decodePacket_eq read.length_payload, hraw, hp, bind, Except.bind]
  rw [hnat] at hp ht hunwrapped
  rcases add_related h.synchronizer ht read.ordered with
    ⟨hna, hpa⟩ | ⟨hstale, e, sync, e', sync', hna, hpa, hne, hhost, hfits⟩
  · refine .inl ⟨nonMonotonicTime, Python.nonMonotonicTime, ?_, ?_, rfl⟩
    · simp only [Native.State.observePacket, hraw, hn, hna, bind, Except.bind]
    · simp only [Python.ImuCollector.read, decodePacket_eq read.length_payload, hraw, hp, hpa, bind, Except.bind]
  have hpackets := h.packets_le hstale
  have hbound := read.bounded
  have hordered := UInt64.le_iff_toNat_le.1 read.ordered
  have hwrapped := h.wrapped
  have hsequence : ∀ i < 2, (s.sampleSequence + .ofNat i).toNat = c.sampleSequence + i := by
    intro i hi
    have hi' : (UInt64.ofNat i).toNat = i := UInt64.toNat_ofNat_of_lt' (Nat.lt_trans hi (by decide))
    rw [UInt64.toNat_add, hi', h.wrapped, h.samples]
    omega
  refine .inr ⟨_, _, _, _, observePacket_eq hn hna, read_eq hp hpa, ?_, fun hclear => ?_⟩
  · rw [h.packets, toNat_midpointNs read.ordered, observed_eq_iff hsequence, Clear]
    constructor
    · rintro ⟨hticks, he⟩
      have hlt64 : nextTicks c.unwrapper (Native.deviceTimestamp read.payload).toNat < 2 ^ 64 := by omega
      exact ⟨hlt64, (hfits hlt64).2.1 he⟩
    · rintro ⟨hlt64, hwindow⟩
      exact ⟨by omega, (hfits hlt64).2.2 hwindow⟩
  · obtain ⟨hlt64, -⟩ := hclear
    obtain ⟨hsync, -⟩ := hfits hlt64
    refine ⟨hunwrapped hlt64, hsync, ?_, ?_, ?_, fun hnil => absurd hnil hne, fun l hl => ?_⟩
    · have hone : (1 : UInt64).toNat = 1 := rfl
      show (s.packetSequence + 1).toNat = c.packetSequence + 1
      rw [UInt64.toNat_add, hone, h.packets]
      omega
    · show c.sampleSequence + 2 = 2 * (c.packetSequence + 1)
      rw [h.samples]
      omega
    · have htwo : (2 : UInt64).toNat = 2 := rfl
      show (s.sampleSequence + 2).toNat = 2 * (c.packetSequence + 1) % 2 ^ 64
      rw [UInt64.toNat_add, htwo, h.wrapped]
      omega
    · have hl : sync'.lastHostNs = some l := hl
      rw [hhost] at hl
      cases hl
      show c.packetSequence + 1 ≤ _
      omega

/-- The Python collector behind a read that it accepts. -/
def next (c : Python.ImuCollector) (read : PacketRead) : Option Python.ImuCollector := (c.read read).toOption.map (·.2)

theorem collect_related {s : Native.State} (h : Matched s c) (reads : List PacketRead) :
    collect Native.State.observePacket s reads = collect Python.ImuCollector.read c reads ↔
      Along next (fun c read _ => Clear c read) c reads := by
  induction reads generalizing s c with
  | nil => exact iff_of_true rfl trivial
  | cons read reads ih =>
    unfold collect Along
    rcases read_related h read with ⟨e, e', hn, hp, hcode⟩ | ⟨o, s', o', c', hn, hp, hsame, hmatched⟩
    · rw [hn, hp]
      simp only [hcode, true_iff]
      intro t ht
      rw [next, hp] at ht
      cases ht
    · have hnext : next c read = some c' := by rw [next, hp]; rfl
      rw [hn, hp]
      simp only [hnext, Option.some.injEq, forall_eq', Prod.mk.injEq, List.cons.injEq, hsame]
      constructor
      · rintro ⟨⟨hclear, hlist⟩, hend⟩
        exact ⟨hclear, (ih (hmatched hclear)).1 (Prod.ext hlist hend)⟩
      · rintro ⟨hclear, hrest⟩
        have heq := (ih (hmatched hclear)).2 hrest
        exact ⟨⟨hclear, congrArg Prod.fst heq⟩, congrArg Prod.snd heq⟩

/-- The collectors agree exactly when every read that the Python collector accepts is clear. -/
theorem collectors_agree_iff (reads : List PacketRead) :
    collect Native.State.observePacket .open reads = collect Python.ImuCollector.read .new reads ↔
      Along next (fun c read _ => Clear c read) .new reads :=
  collect_related matched_new reads

/-- Three reads, one nanosecond and two ticks apart: the line meets tick 0 at half a nanosecond. -/
def halves : List PacketRead :=
  [⟨0 :: 0 :: 1 :: .replicate 24 0, 1, 1, rfl, by decide, by decide⟩,
    ⟨0 :: 0 :: 3 :: .replicate 24 0, 2, 2, rfl, by decide, by decide⟩,
    ⟨0 :: 0 :: 5 :: .replicate 24 0, 3, 3, rfl, by decide, by decide⟩]

theorem halves_disagree :
    collect Native.State.observePacket .open halves ≠ collect Python.ImuCollector.read .new halves := by
  decide +kernel

end Conductor.Imu
