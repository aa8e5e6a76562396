import Conductor.Lib.Concat
import Conductor.Audio.Report
import Conductor.Audio.ClockLaw

/-! The timeline of an accepted report increases exactly when its two recorded ends lie outside the
anchors between them. -/

namespace Conductor.Audio.Report

open Checked
open Journal (Items get)

/-! ### A list between two ends -/

section Ends

variable {α : Type} {R : α → α → Prop} {a b : α} {l : List α}

/-- Between two ends, only the ends are left to compare. -/
theorem pairwise_ends (htrans : ∀ x y z, R x y → R y z → R x z) (hl : l.Pairwise R) :
    (a :: l ++ [b]).Pairwise R ↔ R a (l.headD b) ∧ R (l.getLastD a) b := by
  have : IsTrans α R := ⟨htrans⟩
  rw [← List.isChain_iff_pairwise, List.isChain_append, List.isChain_cons]
  have hchain : l.IsChain R := hl.isChain
  cases l with
  | nil => simp
  | cons x l =>
    simp only [List.headD_cons, List.head?_cons, Option.mem_def, Option.some.injEq, forall_eq', hchain,
      and_true, List.IsChain.singleton, true_and, List.getLast?_cons_cons]
    rw [List.getLastD_cons, List.getLast?_cons]
    simp

end Ends

/-- The seconds of an end of `sync`. -/
def syncSeconds (audio : Items) (name : String) : ℚ :=
  match (get audio "sync").item name with
  | .ok (.int n) => n
  | .ok (.float (.finite q)) => q
  | _ => 0

/-- What an exporter takes from a timeline. -/
structure Invertible (audio : Items) (timeline : List (ℤ × ℚ)) : Prop where
  first : timeline.head?.map (·.1) = some 0
  last : timeline.getLast?.map (·.1) = some (field audio "sample_count")
  increasing : timeline.Pairwise fun p q => p.1 < q.1 ∧ p.2 < q.2
  start : ∀ p ∈ timeline.head?, |p.2 - syncSeconds audio "start_time_seconds"| ≤ 2 / 10 ^ 9
  stop : ∀ p ∈ timeline.getLast?, |p.2 - syncSeconds audio "end_time_seconds"| ≤ 2 / 10 ^ 9

/-- What it has without the increase in time. -/
structure Anchored (audio : Items) (timeline : List (ℤ × ℚ)) : Prop where
  first : timeline.head?.map (·.1) = some 0
  last : timeline.getLast?.map (·.1) = some (field audio "sample_count")
  indices : timeline.Pairwise fun p q => p.1 < q.1
  start : ∀ p ∈ timeline.head?, |p.2 - syncSeconds audio "start_time_seconds"| ≤ 2 / 10 ^ 9
  stop : ∀ p ∈ timeline.getLast?, |p.2 - syncSeconds audio "end_time_seconds"| ≤ 2 / 10 ^ 9

/-- The host times of the anchors before the last sample. -/
def interiorTimes (clock : Items) (count : ℤ) : List ℤ :=
  (((anchorRows clock).filterMap fun row => (mapRow row).toOption).filter
    fun point => 0 < point.1 ∧ point.1 < count).map (·.2)

/-- The recorded ends lie outside the anchors between them. -/
def EndsApart (clock : Items) (count : ℤ) : Prop :=
  field clock "sample_start_monotonic_ns" <
      (interiorTimes clock count).headD (field clock "sample_end_monotonic_ns") ∧
    (interiorTimes clock count).getLastD (field clock "sample_start_monotonic_ns") <
      field clock "sample_end_monotonic_ns"

/-! ### What an accepted report has checked -/

section Accepted

variable {audio clock : Items} {duration : PyValue} {report : AudioClockReport} {value : PyValue} {rate count : ℤ}

theorem integer_eq {message : String} {n : ℤ} (h : integer value message = .ok n) : value.asInt = some n := by
  unfold integer at h
  split at h
  · next hn => rw [hn, Except.ok.inj h]
  · cases h

theorem item_eq {items : Items} {name : String} (h : item items name = .ok value) : get items name = value := by
  unfold item at h
  split at h
  · next hvalue =>
    show (PyValue.lookup items name).getD .none = value
    rw [hvalue, Except.ok.inj h]
    rfl
  · cases h

theorem sampleDomain_eq (h : sampleDomain audio = .ok (rate, count)) :
    0 < count ∧ field audio "sample_count" = count := by
  obtain ⟨_, hrate, h⟩ := bind_eq_ok.1 h
  obtain ⟨value, hvalue, h⟩ := bind_eq_ok.1 h
  obtain ⟨_, _, h⟩ := bind_eq_ok.1 h
  obtain ⟨_, _, h⟩ := bind_eq_ok.1 h
  obtain ⟨n, hn, h⟩ := bind_eq_ok.1 h
  obtain ⟨_, hpos, h⟩ := bind_eq_ok.1 h
  obtain ⟨-, rfl⟩ := Prod.mk.inj (pure_eq_ok.1 h)
  refine ⟨not_le.1 ((decides_reject _ _).ok_iff.1 hpos).1, ?_⟩
  rw [field, item_eq hvalue, integer_eq hn]
  rfl

theorem syncSeconds_eq {sync : PyValue} {name message : String} {q : ℚ} (hsync : get audio "sync" = sync)
    (hkey : key sync name = .ok value) (hfinite : finite value message = .ok q) :
    syncSeconds audio name = q := by
  have hitem : sync.item name = .ok value := by
    unfold key at hkey
    split at hkey
    · next h => rw [h, Except.ok.inj hkey]
    · cases hkey
  rw [syncSeconds, hsync, hitem]
  unfold finite at hfinite
  split at hfinite
  · split at hfinite
    · exact Except.ok.inj hfinite
    · cases hfinite
  · exact Except.ok.inj hfinite
  · cases hfinite

variable {span : Span}

theorem checkSync_eq (h : checkSync audio duration = .ok span) :
    syncSeconds audio "start_time_seconds" = span.start ∧ syncSeconds audio "end_time_seconds" = span.stop := by
  obtain ⟨sync, hsync, h⟩ := bind_eq_ok.1 h
  obtain ⟨start, hstart, h⟩ := bind_eq_ok.1 h
  obtain ⟨stop, hstop, h⟩ := bind_eq_ok.1 h
  obtain ⟨first, hfirst, h⟩ := bind_eq_ok.1 h
  obtain ⟨last, hlast, h⟩ := bind_eq_ok.1 h
  obtain ⟨_, _, h⟩ := bind_eq_ok.1 h
  obtain ⟨_, _, h⟩ := bind_eq_ok.1 h
  rw [pure_eq_ok.1 h]
  exact ⟨syncSeconds_eq (item_eq hsync) hstart hfirst, syncSeconds_eq (item_eq hsync) hstop hlast⟩

/-- The ends of `sync` agree with the recorded ends. -/
theorem checkClock_near {points : List (ℤ × ℤ)} {first last : ℤ × ℤ}
    {p : Prediction} (h : checkClock clock span rate count points first last p = .ok ()) :
    |span.start * 10 ^ 9 - (field clock "sample_start_monotonic_ns" -
        field clock "session_start_monotonic_ns" : ℤ)| ≤ 2 ∧
      |span.stop * 10 ^ 9 - (field clock "sample_end_monotonic_ns" -
        field clock "session_start_monotonic_ns" : ℤ)| ≤ 2 := by
  obtain ⟨_, _, h⟩ := bind_eq_ok.1 h
  obtain ⟨_, hnear, -⟩ := bind_eq_ok.1 h
  have hnear := ((decides_reject _ _).ok_iff.1 hnear).1
  simp only [not_or, not_lt] at hnear
  exact hnear.2.2.2.2

theorem rawModel_eq {model : RawModel} (h : rawModel clock rate count = .ok model) :
    rawAudioClockModel (anchorRows clock) rate count (field clock "period_frames")
      (field clock "buffer_frames") = .ok model := by
  unfold rawModel at h
  split at h
  · next hmodel => rw [hmodel, Except.ok.inj h]
  · cases h
  · cases h

/-- A verified clock of the second schema. -/
theorem verifyClock_eq {verified : ClockReport}
    {timeline : Option (List (ℤ × ℚ))} (hschema : (get clock "schema").eqStr (.text schemaV2) = true)
    (h : verifyClock clock span rate count = .ok (verified, timeline)) :
    ∃ model, rawModel clock rate count = .ok model ∧ timeline = some (sampleTimeline clock model.points count) ∧
      ∃ points first last p, checkClock clock span rate count points first last p = .ok () := by
  obtain ⟨raw, hraw, h⟩ := bind_eq_ok.1 h
  obtain ⟨found, hmodel, h⟩ := bind_eq_ok.1 h
  obtain ⟨points, _, h⟩ := bind_eq_ok.1 h
  obtain ⟨first, _, h⟩ := bind_eq_ok.1 h
  obtain ⟨last, _, h⟩ := bind_eq_ok.1 h
  obtain ⟨fitted, _, h⟩ := bind_eq_ok.1 h
  obtain ⟨_, hcheck, h⟩ := bind_eq_ok.1 h
  obtain ⟨-, rfl⟩ := Prod.mk.inj (pure_eq_ok.1 h)
  have hraw : raw = true := by
    iterate 5 obtain ⟨_, _, hraw⟩ := bind_eq_ok.1 hraw
    rw [pure_eq_ok.1 hraw, hschema]
  rw [clockModel, if_pos hraw] at hmodel
  obtain ⟨model, hmodel, hfound⟩ := bind_eq_ok.1 hmodel
  rw [pure_eq_ok.1 hfound]
  exact ⟨model, hmodel, rfl, _, _, _, _, hcheck⟩

end Accepted

/-! ### The timeline -/

section Timeline

variable {clock : Items} {rate count : ℤ} {model : RawModel}

/-- The points of an accepted model are read off its rows and increase. -/
theorem points_eq (h : rawModel clock rate count = .ok model) :
    model.points = (anchorRows clock).filterMap (fun row => (mapRow row).toOption) ∧
      model.points.Pairwise fun p q => p.1 < q.1 ∧ p.2 < q.2 := by
  obtain ⟨anchors, hrows, ⟨m⟩⟩ := modelled (rawModel_eq h)
  obtain ⟨-, hbridged, hsuccessive, -⟩ := m.accepts
  rw [m.model, hrows]
  constructor
  · rw [List.filterMap_map]
    show anchors.map Anchor.pointInt = _
    rw [← List.filterMap_eq_map]
    refine List.filterMap_congr fun a ha => ?_
    show _ = (mapRow a.row).toOption
    rw [(mapRow_decides a).ok_iff.2 ⟨hbridged a ha, rfl⟩]
    rfl
  · refine List.pairwise_map.2 ((pairwise_below hsuccessive).imp fun hbelow => ?_)
    exact ⟨Nat.cast_lt.2 hbelow.position, Nat.cast_lt.2 hbelow.mapped⟩

/-- The recorded points of a timeline, before the origin is subtracted. -/
def recorded (clock : Items) (points : List (ℤ × ℤ)) (count : ℤ) : List (ℤ × ℤ) :=
  (0, field clock "sample_start_monotonic_ns") ::
    points.filter (fun point => 0 < point.1 ∧ point.1 < count) ++
    [(count, field clock "sample_end_monotonic_ns")]

/-- The seconds of a point. -/
def sessionPoint (clock : Items) (point : ℤ × ℤ) : ℤ × ℚ :=
  (point.1, ((point.2 - field clock "session_start_monotonic_ns" : ℤ) : ℚ) / 10 ^ 9)

theorem sampleTimeline_eq (clock : Items) (points : List (ℤ × ℤ)) (count : ℤ) :
    sampleTimeline clock points count = (recorded clock points count).map (sessionPoint clock) := rfl

theorem sessionPoint_lt {p q : ℤ × ℤ} :
    (sessionPoint clock p).1 < (sessionPoint clock q).1 ∧ (sessionPoint clock p).2 < (sessionPoint clock q).2 ↔
      p.1 < q.1 ∧ p.2 < q.2 := by
  unfold sessionPoint
  rw [div_lt_div_iff_of_pos_right (by norm_num), Int.cast_lt]
  constructor <;> (rintro ⟨h, h'⟩; exact ⟨h, by omega⟩)

theorem increasing_iff (h : rawModel clock rate count = .ok model) (hcount : 0 < count) :
    (sampleTimeline clock model.points count).Pairwise (fun p q => p.1 < q.1 ∧ p.2 < q.2) ↔
      EndsApart clock count := by
  obtain ⟨hpoints, hincreasing⟩ := points_eq h
  rw [sampleTimeline_eq, List.pairwise_map]
  simp only [sessionPoint_lt]
  rw [recorded, pairwise_ends (fun _ _ _ h h' => ⟨h.1.trans h'.1, h.2.trans h'.2⟩) (hincreasing.filter _)]
  unfold EndsApart interiorTimes
  rw [← hpoints]
  have hinside : ∀ p ∈ model.points.filter (fun point => 0 < point.1 ∧ point.1 < count),
      0 < p.1 ∧ p.1 < count := fun p hp => by simpa using (List.mem_filter.1 hp).2
  generalize model.points.filter (fun point => 0 < point.1 ∧ point.1 < count) = interior at hinside
  cases interior with
  | nil => simp [hcount]
  | cons first rest =>
    obtain ⟨last, hlast⟩ := Option.isSome_iff_exists.1 (List.getLast?_isSome.2 (List.cons_ne_nil first rest))
    have hfirst := (hinside first List.mem_cons_self).1
    have hstop := (hinside last (List.mem_of_getLast? hlast)).2
    simp only [List.getLastD_eq_getLast?, hlast, List.headD_cons, List.map_cons, Option.getD_some, hfirst, hstop, true_and]
    rw [← List.map_cons (f := fun point : ℤ × ℤ => point.2), List.getLast?_map, hlast]
    rfl

theorem indices_increase (h : rawModel clock rate count = .ok model) (hcount : 0 < count) :
    (sampleTimeline clock model.points count).Pairwise fun p q => p.1 < q.1 := by
  rw [sampleTimeline_eq, List.pairwise_map]
  have hinside : ∀ p ∈ model.points.filter (fun point => 0 < point.1 ∧ point.1 < count),
      0 < p.1 ∧ p.1 < count := fun p hp => by simpa using (List.mem_filter.1 hp).2
  refine pairwise_concat (List.pairwise_cons.2 ⟨fun p hp => (hinside p hp).1, ?_⟩) fun p hp => ?_
  · exact ((points_eq h).2.filter _).imp And.left
  · rcases List.mem_cons.1 hp with rfl | hp
    · exact hcount
    · exact (hinside p hp).2

theorem near_seconds {seconds : ℚ} {recorded : ℤ} (h : |seconds * 10 ^ 9 - recorded| ≤ 2) :
    |(recorded : ℚ) / 10 ^ 9 - seconds| ≤ 2 / 10 ^ 9 := by
  have hscale : (recorded : ℚ) / 10 ^ 9 - seconds = -((seconds * 10 ^ 9 - recorded) / 10 ^ 9) := by ring
  rw [hscale, abs_neg, abs_div, abs_of_pos (by norm_num : (0 : ℚ) < 10 ^ 9)]
  exact div_le_div_of_nonneg_right h (by norm_num)

end Timeline

/-- An accepted report of the second schema has a timeline from sample zero to the last one, in the order of the samples,
whose ends are within two nanoseconds of those of `sync`. It increases in time exactly when the recorded ends lie outside
the anchors between them. -/
theorem timeline_invertible_iff {audio clock : Items} {duration : PyValue} {report : AudioClockReport}
    (haccepts : audioClockReport audio duration = .ok report)
    (hstate : (get audio "state").eqStr (.text "not_recorded") = false)
    (hclock : get audio "capture_clock" = .dict clock)
    (hschema : (get clock "schema").eqStr (.text schemaV2) = true) :
    ∃ timeline, report.sampleTimeline = some timeline ∧ Anchored audio timeline ∧
      (Invertible audio timeline ↔ EndsApart clock (field audio "sample_count")) := by
  unfold audioClockReport at haccepts
  rw [if_neg (by simp [hstate])] at haccepts
  obtain ⟨⟨rate, count⟩, hdomain, haccepts⟩ := bind_eq_ok.1 haccepts
  obtain ⟨_, _, haccepts⟩ := bind_eq_ok.1 haccepts
  obtain ⟨span, hspan, haccepts⟩ := bind_eq_ok.1 haccepts
  rw [hclock] at haccepts
  obtain ⟨⟨verified, timeline⟩, hverify, haccepts⟩ := bind_eq_ok.1 haccepts
  obtain ⟨hpos, hcount⟩ := sampleDomain_eq hdomain
  obtain ⟨hstart, hstop⟩ := checkSync_eq hspan
  obtain ⟨model, hmodel, rfl, points, first, last, p, hcheck⟩ := verifyClock_eq hschema hverify
  obtain ⟨hnearStart, hnearStop⟩ := checkClock_near hcheck
  have hanchored : Anchored audio (sampleTimeline clock model.points count) := by
    refine ⟨rfl, ?_, indices_increase hmodel hpos, ?_, ?_⟩
    · rw [sampleTimeline_eq, recorded, List.map_append, List.map_singleton, List.getLast?_concat, hcount]
      rfl
    · intro q hq
      cases hq
      rw [hstart]
      exact near_seconds hnearStart
    · intro q hq
      rw [sampleTimeline_eq, recorded, List.map_append, List.map_singleton, List.getLast?_concat] at hq
      cases hq
      rw [hstop]
      exact near_seconds hnearStop
  refine ⟨_, by rw [pure_eq_ok.1 haccepts], hanchored, ?_⟩
  rw [hcount, ← increasing_iff hmodel hpos]
  exact ⟨fun h => h.increasing, fun h => ⟨hanchored.first, hanchored.last, h, hanchored.start, hanchored.stop⟩⟩

/-! ### Two anchors that lie close together -/

/-- Forty-nine samples at 48 kHz; the first two anchors are one sample and one nanosecond apart. -/
def sampleClock (sampleStart : ℤ) : Items :=
  [(.text "schema", .str (.text schemaV2)), (.text "clock", .str (.text "host_monotonic")),
    (.text "timestamp_source", .str (.text "alsa_htimestamp_dma_raw")),
    (.text "continuity", .str (.text "verified")), (.text "device", .str (.text "hw:0,0")),
    (.text "period_frames", .int 1024), (.text "buffer_frames", .int 4096),
    (.text "thread_started_monotonic_ns", .int 1000000000),
    (.text "thread_stopped_monotonic_ns", .int 1200000000),
    (.text "sample_start_monotonic_ns", .int sampleStart),
    (.text "sample_end_monotonic_ns", .int 1101000000), (.text "max_residual_ns", .int 20832),
    (.text "queue_capacity_frames", .int 786432), (.text "queue_peak_frames", .int 1024),
    (.text "max_write_ns", .int 0), (.text "xrun_count", .int 0), (.text "suspend_count", .int 0),
    (.text "session_start_monotonic_ns", .int 975000001),
    (.text "anchors", .list
      [.list [.int 1, .int 1000000000, .int 1100000000, .int 1000000000, .int 1000000000],
        .list [.int 2, .int 1000000001, .int 1100000001, .int 1000000001, .int 1000000001],
        .list [.int 49, .int 1001000000, .int 1101000000, .int 1001000000, .int 1001000000]])]

def sampleAudio (sampleStart : ℤ) : Items :=
  [(.text "state", .str (.text "recorded")), (.text "sample_rate", .int 48000),
    (.text "sample_count", .int 49), (.text "channels", .int 2),
    (.text "segments", .list [.dict
      [(.text "index", .int 0), (.text "start_sample", .int 0), (.text "end_sample", .int 49),
        (.text "start_time_seconds", .int 0),
        (.text "end_time_seconds", .float (.finite (2192223 / 2 ^ 31))),
        (.text "pcm_payload_bytes", .int 196), (.text "wav_header_bytes", .int 44),
        (.text "artifact", .dict [(.text "bytes", .int 240)])]]),
    (.text "sync", .dict
      [(.text "start_time_seconds", .float (.finite (1 / 8))),
        (.text "end_time_seconds", .float (.finite (135291469 / 2 ^ 30)))]),
    (.text "capture_clock", .dict (sampleClock sampleStart))]

/-- The two anchors inside a recording from one nanosecond before the first. -/
theorem timeline_invertible_iff_sample : ∃ report timeline,
    audioClockReport (sampleAudio 1099999999) (.int 1) = .ok report ∧ report.sampleTimeline = some timeline ∧
      timeline = [(0, 124999998 / 10 ^ 9), (1, 124999999 / 10 ^ 9), (2, 1 / 8), (49, 125999999 / 10 ^ 9)] ∧
      Invertible (sampleAudio 1099999999) timeline := by
  have hreport : ((audioClockReport (sampleAudio 1099999999) (.int 1)).toOption.bind (·.sampleTimeline)) =
      some [(0, 124999998 / 10 ^ 9), (1, 124999999 / 10 ^ 9), (2, 1 / 8), (49, 125999999 / 10 ^ 9)] := by
    decide +kernel
  cases haccepts : audioClockReport (sampleAudio 1099999999) (.int 1) with
  | error e => simp [haccepts, Except.toOption] at hreport
  | ok report =>
    rw [haccepts] at hreport
    obtain ⟨timeline, htimeline, -, hiff⟩ := timeline_invertible_iff haccepts (by decide +kernel)
      (show get (sampleAudio 1099999999) "capture_clock" = .dict (sampleClock 1099999999) from rfl)
      (by decide +kernel)
    cases htimeline.symm.trans hreport
    exact ⟨report, _, rfl, htimeline, rfl, hiff.2 ⟨by decide +kernel, by decide +kernel⟩⟩

/-- Two nanoseconds later the recording is accepted all the same, and its timeline goes back at the
first anchor. -/
theorem timeline_goes_back : ∃ report timeline,
    audioClockReport (sampleAudio 1100000001) (.int 1) = .ok report ∧ report.sampleTimeline = some timeline ∧
      timeline = [(0, 1 / 8), (1, 124999999 / 10 ^ 9), (2, 1 / 8), (49, 125999999 / 10 ^ 9)] ∧
      ¬ Invertible (sampleAudio 1100000001) timeline := by
  have hreport : ((audioClockReport (sampleAudio 1100000001) (.int 1)).toOption.bind (·.sampleTimeline)) =
      some [(0, 1 / 8), (1, 124999999 / 10 ^ 9), (2, 1 / 8), (49, 125999999 / 10 ^ 9)] := by
    decide +kernel
  cases haccepts : audioClockReport (sampleAudio 1100000001) (.int 1) with
  | error e => simp [haccepts, Except.toOption] at hreport
  | ok report =>
    rw [haccepts] at hreport
    refine ⟨report, _, rfl, hreport, rfl, fun h => ?_⟩
    exact absurd h.increasing (by decide +kernel)

end Conductor.Audio.Report
