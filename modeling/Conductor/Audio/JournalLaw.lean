import Conductor.Lib.Concat
import Conductor.Audio.Journal
import Conductor.Lib.Checked

/-! What an accepted prefix of the journal is, and that a reader which follows the headers
one after another ends where a fresh reader of the last accepted header does. -/

namespace Conductor.Audio.Journal

open ByteLines Checked

variable {loads : List UInt8 → Option PyValue} {c c' : Counters} {raw window window' content : List UInt8}
  {values : List PyValue} {points : List Point} {segments : List AudioSegment} {out : Scan}

/-! ### Points -/

/-- The order of the points: both the position and the raw timestamp grow. -/
def Point.Before (p q : Point) : Prop := p.position < q.position ∧ p.raw < q.raw

instance (p q : Point) : Decidable (p.Before q) := inferInstanceAs (Decidable (_ ∧ _))

variable {p : Point} {t : List AudioSegment} {fuel : ℕ} {expected : String} {events : List Event}

theorem Point.Before.trans {q r : Point} (h : p.Before q) (h' : q.Before r) : p.Before r :=
  ⟨h.1.trans h'.1, h.2.trans h'.2⟩

variable {previous : Option Point} {value : PyValue} {s : List AudioSegment} {out' : Scan}

theorem regresses_eq_false : regresses previous p = false ↔ ∀ q ∈ previous, q.Before p := by
  cases previous with
  | none => simp [regresses]
  | some q => simp [regresses, Point.Before]

theorem pairwise_before_cons {rest : List Point} : (previous.toList ++ p :: rest).Pairwise Point.Before ↔
      regresses previous p = false ∧ (p :: rest).Pairwise Point.Before := by
  rw [regresses_eq_false]
  cases previous with
  | none => simp
  | some q =>
    simp only [Option.toList_some, List.singleton_append, List.pairwise_cons, List.mem_cons, Option.mem_some_iff,
      forall_eq']
    constructor
    · rintro ⟨hq, hp, hrest⟩
      exact ⟨hq p (.inl rfl), hp, hrest⟩
    · rintro ⟨hq, hp, hrest⟩
      refine ⟨?_, hp, hrest⟩
      rintro r (rfl | hr)
      · exact hq
      · exact hq.trans (hp r hr)

def Counters.withPoints (c : Counters) (points : List Point) : Counters :=
  { c with previous := points.getLast?.or c.previous, anchorCount := c.anchorCount + points.length }

theorem Counters.withPoints_cons (c : Counters) (p : Point) (rest : List Point) :
    c.withPoints (p :: rest) =
      { c with previous := some p, anchorCount := c.anchorCount + 1 : Counters }.withPoints rest := by
  have hlast : (p :: rest).getLast?.or c.previous = rest.getLast?.or (some p) := by
    rw [List.getLast?_cons]
    cases rest.getLast? <;> rfl
  simp only [withPoints, hlast, List.length_cons, mk.injEq, and_true, true_and]
  omega

theorem scanAnchors_cons_eq_ok : scanAnchors c (value :: values) = .ok (c', points) ↔
      ∃ p rest, anchor value = .ok p ∧ regresses c.previous p = false ∧ points = p :: rest ∧
        scanAnchors { c with previous := some p, anchorCount := c.anchorCount + 1 } values = .ok (c', rest) := by
  simp only [scanAnchors, invalid, bind_eq_ok, unless_eq_ok, pure_eq_ok, Prod.exists, Prod.mk.injEq, Bool.not_eq_true]
  constructor
  · rintro ⟨p, hp, hr, d, rest, hrest, rfl, rfl⟩
    exact ⟨p, rest, hp, hr, rfl, hrest⟩
  · rintro ⟨p, rest, hp, hr, rfl, hrest⟩
    exact ⟨p, hp, hr, c', rest, hrest, rfl, rfl⟩

theorem scanAnchors_eq_ok :
    scanAnchors c values = .ok (c', points) ↔
      values.map anchor = points.map .ok ∧ (c.previous.toList ++ points).Pairwise Point.Before ∧
        c' = c.withPoints points := by
  induction values generalizing c points with
  | nil =>
    have hone : (c.previous.toList ++ []).Pairwise Point.Before := by cases c.previous <;> simp
    constructor
    · intro h
      cases h
      exact ⟨rfl, hone, by simp [Counters.withPoints]⟩
    · rintro ⟨hmap, -, rfl⟩
      obtain rfl : points = [] := by simpa using hmap.symm
      simp [scanAnchors, Counters.withPoints]
  | cons value values ih =>
    rw [scanAnchors_cons_eq_ok]
    constructor
    · rintro ⟨p, rest, hp, hr, rfl, hrest⟩
      obtain ⟨hmap, hpairs, rfl⟩ := ih.1 hrest
      exact ⟨by simp [hp, hmap], pairwise_before_cons.2 ⟨hr, hpairs⟩, (c.withPoints_cons p rest).symm⟩
    · rintro ⟨hmap, hpairs, rfl⟩
      cases points with
      | nil => cases hmap
      | cons p rest =>
        obtain ⟨hp, hmap⟩ : anchor value = .ok p ∧ values.map anchor = rest.map .ok := by simpa using hmap
        obtain ⟨hr, hpairs⟩ := pairwise_before_cons.1 hpairs
        exact ⟨p, rest, hp, hr, rfl, ih.2 ⟨hmap, hpairs, c.withPoints_cons p rest⟩⟩

/-! ### Segments -/

/-- Segments with consecutive indices from `index` that fill the samples from `start` to `stop`. -/
def Tiles : ℕ → ℕ → List AudioSegment → ℕ → ℕ → Prop
  | index, start, [], last, stop => index = last ∧ start = stop
  | index, start, s :: rest, last, stop =>
    s = ⟨index, segmentPath index, start, s.endSample⟩ ∧ start < s.endSample ∧
      Tiles (index + 1) s.endSample rest last stop

variable {i j a b stop : ℕ}

theorem Tiles.append {k d : ℕ} (h : Tiles i a s j b) (h' : Tiles j b t k d) : Tiles i a (s ++ t) k d := by
  induction s generalizing i a with
  | nil =>
    obtain ⟨rfl, rfl⟩ := h
    exact h'
  | cons x s ih => exact ⟨h.1, h.2.1, ih h.2.2⟩

theorem Tiles.split {k d : ℕ} (h : Tiles i a (s ++ t) k d) : ∃ j b, Tiles i a s j b ∧ Tiles j b t k d := by
  induction s generalizing i a with
  | nil => exact ⟨i, a, ⟨rfl, rfl⟩, h⟩
  | cons x s ih =>
    obtain ⟨hx, hlt, hrest⟩ := h
    obtain ⟨j, b, hs, ht⟩ := ih hrest
    exact ⟨j, b, ⟨hx, hlt, hs⟩, ht⟩

theorem Tiles.unique {j' b' : ℕ} (h : Tiles i a s j b) (h' : Tiles i a s j' b') : j = j' ∧ b = b' := by
  induction s generalizing i a with
  | nil => exact ⟨h.1.symm.trans h'.1, h.2.symm.trans h'.2⟩
  | cons x s ih => exact ih h.2.2 h'.2.2

theorem Tiles.count (h : Tiles i a s j b) : j = i + s.length ∧ a + s.length ≤ b := by
  induction s generalizing i a with
  | nil =>
    obtain ⟨rfl, rfl⟩ := h
    simp
  | cons x s ih =>
    obtain ⟨-, hlt, hrest⟩ := h
    obtain ⟨hindex, hstop⟩ := ih hrest
    rw [List.length_cons]
    omega

theorem Tiles.last (h : Tiles i a s j b) : (s.getLast?.map (·.endSample)).getD a = b := by
  induction s generalizing i a with
  | nil => exact h.2
  | cons x s ih =>
    rw [List.getLast?_cons, ← ih h.2.2]
    cases s.getLast? <;> rfl

theorem Tiles.bound (h : Tiles i a s j b) : ∀ x ∈ s, x.index < j ∧ x.startSample < x.endSample ∧ x.endSample ≤ b := by
  induction s generalizing i a with
  | nil => simp
  | cons y s ih =>
    obtain ⟨hy, hlt, hrest⟩ := h
    obtain ⟨hindex, hstop⟩ := hrest.count
    intro x hx
    rcases List.mem_cons.1 hx with rfl | hx
    · rw [hy]
      exact ⟨by simp only; omega, hlt, by simp only; omega⟩
    · exact ih hrest x hx

/-- The value is a dictionary with the fields of the segment. -/
def IsSegment (value : PyValue) (s : AudioSegment) : Prop :=
  ∃ items, value = .dict items ∧ hasKeys items ["index", "path", "start_sample", "end_sample"] = true ∧
    integer (get items "index") "segment index" = .ok s.index ∧
    integer (get items "start_sample") "segment start" = .ok s.startSample ∧
    integer (get items "end_sample") "segment end" = .ok s.endSample ∧
    (get items "path").eqStr (.text s.path) = true

theorem scanSegment_eq_ok {s : AudioSegment} : scanSegment c value = .ok s ↔
      IsSegment value s ∧ s = ⟨c.segmentCount, segmentPath c.segmentCount, c.sampleCount, s.endSample⟩ ∧
        c.sampleCount < s.endSample := by
  constructor
  · intro h
    unfold scanSegment at h
    split at h
    · next items =>
      simp only [invalid, bind_eq_ok, unless_eq_ok, pure_eq_ok, Bool.not_eq_true', Bool.not_eq_false, not_or, not_not,
        not_le] at h
      obtain ⟨hkeys, index, hindex, start, hstart, stop, hstop, ⟨rfl, rfl, hlt, hpath⟩, rfl⟩ := h
      exact ⟨⟨items, rfl, hkeys, hindex, hstart, hstop, hpath⟩, rfl, hlt⟩
    · cases h
  · rintro ⟨⟨items, rfl, hkeys, hindex, hstart, hstop, hpath⟩, hs, hlt⟩
    obtain ⟨index, path, start, stop⟩ := s
    simp only [AudioSegment.mk.injEq, and_true] at hs
    obtain ⟨rfl, rfl, rfl⟩ := hs
    simp only at hindex hstart hstop hpath hlt
    simp only [scanSegment, invalid, bind_eq_ok, unless_eq_ok, pure_eq_ok]
    exact ⟨by simp [hkeys], _, hindex, _, hstart, _, hstop, by simp [hpath, hlt], rfl⟩

theorem scanSegments_cons_eq_ok : scanSegments c (value :: values) = .ok (c', segments) ↔
      ∃ s rest, scanSegment c value = .ok s ∧ segments = s :: rest ∧
        scanSegments { c with segmentCount := c.segmentCount + 1, sampleCount := s.endSample } values =
          .ok (c', rest) := by
  simp only [scanSegments, bind_eq_ok, pure_eq_ok, Prod.exists, Prod.mk.injEq]
  constructor
  · rintro ⟨s, hs, d, rest, hrest, rfl, rfl⟩
    exact ⟨s, rest, hs, rfl, hrest⟩
  · rintro ⟨s, rest, hs, rfl, hrest⟩
    exact ⟨s, hs, c', rest, hrest, rfl, rfl⟩

theorem scanSegments_eq_ok :
    scanSegments c values = .ok (c', segments) ↔
      List.Forall₂ IsSegment values segments ∧
        Tiles c.segmentCount c.sampleCount segments c'.segmentCount c'.sampleCount ∧
        c' = { c with segmentCount := c'.segmentCount, sampleCount := c'.sampleCount } := by
  induction values generalizing c segments with
  | nil =>
    constructor
    · intro h
      cases h
      exact ⟨.nil, ⟨rfl, rfl⟩, rfl⟩
    · rintro ⟨hsegments, htiles, heq⟩
      cases hsegments
      obtain ⟨hindex, hstart⟩ := htiles
      rw [heq, scanSegments, ← hindex, ← hstart]
  | cons value values ih =>
    rw [scanSegments_cons_eq_ok]
    constructor
    · rintro ⟨s, rest, hs, rfl, hrest⟩
      obtain ⟨hsegment, htile, hlt⟩ := scanSegment_eq_ok.1 hs
      obtain ⟨hsegments, htiles, heq⟩ := ih.1 hrest
      exact ⟨.cons hsegment hsegments, ⟨htile, hlt, htiles⟩, heq⟩
    · rintro ⟨hsegments, htiles, heq⟩
      cases hsegments with
      | cons hsegment hrest =>
        obtain ⟨htile, hlt, htiles⟩ := htiles
        exact ⟨_, _, scanSegment_eq_ok.2 ⟨hsegment, by rw [htile], hlt⟩, rfl, ih.2 ⟨hrest, htiles, heq⟩⟩

/-! ### Rows -/

/-- The value is a row with these points and segments. -/
def IsRow (value : PyValue) (sequence : ℕ) (points : List Point) (segments : List AudioSegment) : Prop :=
  ∃ items anchors entries, value = .dict items ∧ hasKeys items ["sequence", "anchors", "segments"] = true ∧
    integer (get items "sequence") "sequence" = .ok sequence ∧ get items "anchors" = .list anchors ∧
    get items "segments" = .list entries ∧ anchors.map anchor = points.map .ok ∧ List.Forall₂ IsSegment entries segments

/-- The points and the segments of a row continue what was counted. -/
structure Continues (c : Counters) (raw : List UInt8) (rows : ℕ) (out : Scan) : Prop where
  points : (c.previous.toList ++ out.2.1).Pairwise Point.Before
  segments : Tiles c.segmentCount c.sampleCount out.2.2 out.1.segmentCount out.1.sampleCount
  digest : out.1.digest = c.digest ++ raw
  sequence : out.1.sequence = c.sequence + rows
  anchorCount : out.1.anchorCount = c.anchorCount + out.2.1.length
  previous : out.1.previous = out.2.1.getLast?.or c.previous

theorem scanRow_eq_ok :
    scanRow loads c raw = .ok out ↔
      (∃ value, loads raw = some value ∧ IsRow value c.sequence out.2.1 out.2.2) ∧ Continues c raw 1 out := by
  obtain ⟨c', points, segments⟩ := out
  constructor
  · intro h
    unfold scanRow at h
    split at h
    · cases h
    · next items hloads =>
      simp only [invalid, bind_eq_ok, unless_eq_ok, Bool.not_eq_true', Bool.not_eq_false, not_not] at h
      obtain ⟨hkeys, sequence, hsequence, rfl, h⟩ := h
      split at h
      · next anchors entries hanchors hentries =>
        simp only [bind_eq_ok, pure_eq_ok, Prod.exists, Prod.mk.injEq] at h
        obtain ⟨d, points, hpoints, d', segments, hsegments, rfl, rfl, rfl⟩ := h
        obtain ⟨hmap, hpairs, rfl⟩ := scanAnchors_eq_ok.1 hpoints
        obtain ⟨hall, htiles, heq⟩ := scanSegments_eq_ok.1 hsegments
        refine ⟨⟨_, hloads, items, anchors, entries, rfl, hkeys, hsequence, hanchors, hentries, hmap, hall⟩, hpairs,
          htiles, ?_, ?_, ?_, ?_⟩ <;> rw [heq] <;> rfl
      · cases h
    · cases h
  · rintro ⟨⟨value, hloads, items, anchors, entries, rfl, hkeys, hsequence, hanchors, hentries, hmap, hall⟩, h⟩
    obtain ⟨hpairs, htiles, hdigest, hcount, hpoints, hprevious⟩ := h
    simp only [scanRow, hloads, hanchors, hentries, invalid, bind_eq_ok, unless_eq_ok, pure_eq_ok, Prod.exists,
      Prod.mk.injEq]
    refine ⟨by simp [hkeys], _, hsequence, by simp, _, _, scanAnchors_eq_ok.2 ⟨hmap, hpairs, rfl⟩, c', segments,
      scanSegments_eq_ok.2 ⟨hall, htiles, ?_⟩, rfl, rfl, rfl⟩
    obtain ⟨digest, sequence, anchorCount, segmentCount, sampleCount, previous⟩ := c'
    simp_all [Counters.withPoints]

theorem pairwise_append_of_last {l m : List Point} (h : l.Pairwise Point.Before)
    (h' : (l.getLast?.toList ++ m).Pairwise Point.Before) : (l ++ m).Pairwise Point.Before := by
  rcases List.eq_nil_or_concat' l with rfl | ⟨k, x, rfl⟩
  · simpa using h'
  · simp only [List.getLast?_append, List.getLast?_singleton, Option.some_or, Option.toList_some,
      List.singleton_append] at h'
    obtain ⟨hk, -, hkx⟩ := List.pairwise_append.1 h
    rw [List.append_assoc, List.singleton_append, List.pairwise_append]
    refine ⟨hk, h', fun a ha b hb => ?_⟩
    have hax : a.Before x := hkx a ha x (List.mem_singleton_self x)
    rcases List.mem_cons.1 hb with rfl | hb
    · exact hax
    · exact hax.trans ((List.pairwise_cons.1 h').1 b hb)

theorem getLast?_toList_append (previous : Option Point) (points : List Point) :
    (previous.toList ++ points).getLast? = points.getLast?.or previous := by
  cases previous with
  | none => simp
  | some q =>
    rw [Option.toList_some, List.singleton_append, List.getLast?_cons]
    cases points.getLast? <;> rfl

theorem Continues.trans {rows rows' : ℕ} (h : Continues c raw rows out) (h' : Continues out.1 window rows' out') :
    Continues c (raw ++ window) (rows + rows') (out'.1, out.2.1 ++ out'.2.1, out.2.2 ++ out'.2.2) where
  points := by
    rw [← List.append_assoc]
    apply pairwise_append_of_last h.points
    rw [getLast?_toList_append, ← h.previous]
    exact h'.points
  segments := h.segments.append h'.segments
  digest := by rw [h'.digest, h.digest, List.append_assoc]
  sequence := by rw [h'.sequence, h.sequence, Nat.add_assoc]
  anchorCount := by rw [h'.anchorCount, h.anchorCount, List.length_append, Nat.add_assoc]
  previous := by
    rw [h'.previous, h.previous, List.getLast?_append]
    cases out'.2.1.getLast? <;> simp

theorem continues_nil (c : Counters) : Continues c [] 0 (c, [], []) where
  points := by cases c.previous <;> simp
  segments := ⟨rfl, rfl⟩
  digest := by simp
  sequence := rfl
  anchorCount := rfl
  previous := by simp

/-! ### The committed prefix -/

/-- Whole rows that are scanned one after another. -/
inductive Committed (loads : List UInt8 → Option PyValue) : Counters → List UInt8 → Scan → Prop where
  | nil (c : Counters) : Committed loads c [] (c, [], [])
  | row {c : Counters} {raw window : List UInt8} {first rest : Scan} (line : IsLine raw)
      (size : raw.length ≤ maxRowBytes) (scanned : scanRow loads c raw = .ok first)
      (others : Committed loads first.1 window rest) :
      Committed loads c (raw ++ window) (rest.1, first.2.1 ++ rest.2.1, first.2.2 ++ rest.2.2)

theorem Committed.continues (h : Committed loads c window out) : ∃ rows, Continues c window rows out := by
  induction h with
  | nil c => exact ⟨0, continues_nil c⟩
  | row line size scanned others ih =>
    obtain ⟨rows, hrest⟩ := ih
    exact ⟨1 + rows, (scanRow_eq_ok.1 scanned).2.trans hrest⟩

theorem Committed.append (h : Committed loads c window out) (h' : Committed loads out.1 window' out') :
    Committed loads c (window ++ window') (out'.1, out.2.1 ++ out'.2.1, out.2.2 ++ out'.2.2) := by
  induction h with
  | nil c => exact h'
  | row line size scanned others ih => simpa only [List.append_assoc] using Committed.row line size scanned (ih h')

/-- The rows of a longer prefix begin with those of a shorter one. -/
theorem Committed.of_append (h : Committed loads c window out) (h' : Committed loads c (window ++ window') out') :
    ∃ rest, Committed loads out.1 window' rest ∧ out' = (rest.1, out.2.1 ++ rest.2.1, out.2.2 ++ rest.2.2) := by
  induction h generalizing out' with
  | nil c => exact ⟨out', h', rfl⟩
  | @row c raw window first rest line size scanned others ih =>
    generalize hwhole : raw ++ window ++ window' = whole at h'
    cases h' with
    | nil => simp [line.ne_nil] at hwhole
    | row line' size' scanned' others' =>
      rw [List.append_assoc] at hwhole
      obtain ⟨rfl, rfl⟩ := line.append_inj line' hwhole
      obtain rfl := Except.ok.inj (scanned.symm.trans scanned')
      obtain ⟨last, hlast, rfl⟩ := ih others'
      exact ⟨last, hlast, by simp⟩

theorem scanRows_zero (c : Counters) (unread : List UInt8) : scanRows loads fuel c 0 unread = .ok (c, [], []) := by
  cases fuel <;> simp [scanRows]

theorem scanRows_succ_eq_ok {remaining : ℕ} (hpos : remaining ≠ 0) :
    scanRows loads (fuel + 1) c remaining content = .ok out ↔
      ∃ raw first rest, raw = readline (min remaining maxRowBytes + 1) content ∧ IsLine raw ∧
        raw.length ≤ min remaining maxRowBytes ∧ scanRow loads c raw = .ok first ∧
        scanRows loads fuel first.1 (remaining - raw.length) (content.drop raw.length) = .ok rest ∧
        out = (rest.1, first.2.1 ++ rest.2.1, first.2.2 ++ rest.2.2) := by
  simp only [scanRows, if_neg hpos, invalid, bind_eq_ok, unless_eq_ok, pure_eq_ok, not_or, Bool.not_eq_false, not_lt]
  constructor
  · rintro ⟨⟨hend, hlen⟩, first, hfirst, rest, hrest, rfl⟩
    exact ⟨_, first, rest, rfl, isLine_readline hend, hlen, hfirst, hrest, rfl⟩
  · rintro ⟨_, first, rest, rfl, hline, hlen, hfirst, hrest, rfl⟩
    exact ⟨⟨hline.endsWithNewline, hlen⟩, first, hfirst, rest, hrest, rfl⟩

/-- The loop accepts the next bytes when they are all there and committed rows. -/
theorem scanRows_eq_ok {remaining : ℕ} (hfuel : remaining ≤ fuel) : scanRows loads fuel c remaining content = .ok out ↔
      remaining ≤ content.length ∧ Committed loads c (content.take remaining) out := by
  constructor
  · intro h
    induction fuel generalizing c remaining content out with
    | zero =>
      obtain rfl : remaining = 0 := by omega
      cases h
      exact ⟨Nat.zero_le _, .nil c⟩
    | succ fuel ih =>
      rcases eq_or_ne remaining 0 with rfl | hpos
      · rw [scanRows_zero] at h
        cases h
        exact ⟨Nat.zero_le _, .nil c⟩
      · obtain ⟨raw, first, rest, hraw, hline, hlen, hfirst, hrest, rfl⟩ := (scanRows_succ_eq_ok hpos).1 h
        have hne : 0 < raw.length := List.length_pos_of_ne_nil hline.ne_nil
        obtain ⟨hleft, hothers⟩ := ih (by omega) hrest
        have hsplit : raw ++ content.drop raw.length = content := by
          rw [hraw]
          exact readline_append_drop _ content
        have hfits : raw.length ≤ content.length := by
          rw [← hsplit, List.length_append]
          omega
        rw [List.length_drop] at hleft
        refine ⟨by omega, ?_⟩
        have htake : content.take remaining = raw ++ (content.drop raw.length).take (remaining - raw.length) := by
          conv_lhs => rw [← hsplit]
          rw [List.take_append, List.take_of_length_le (by omega)]
        rw [htake]
        exact .row hline (by omega) hfirst hothers
  · rintro ⟨hlen, h⟩
    generalize hwindow : content.take remaining = window at h
    induction h generalizing fuel remaining content with
    | nil c =>
      obtain rfl : remaining = 0 := by rw [← List.length_take_of_le hlen, hwindow, List.length_nil]
      exact scanRows_zero c content
    | @row c raw window first rest line size scanned others ih =>
      have hcontent : content = raw ++ (window ++ content.drop remaining) := by
        rw [← List.append_assoc, ← hwindow, List.take_append_drop]
      have hremaining : remaining = raw.length + window.length := by
        rw [← List.length_append, ← hwindow, List.length_take_of_le hlen]
      have hne : 0 < raw.length := List.length_pos_of_ne_nil line.ne_nil
      obtain ⟨fuel, rfl⟩ := Nat.exists_eq_succ_of_ne_zero (by omega : fuel ≠ 0)
      have hline : raw = readline (min remaining maxRowBytes + 1) content := by
        rw [hcontent, readline_isLine line (by omega)]
      refine (scanRows_succ_eq_ok (by omega)).2
        ⟨raw, first, rest, hline, line, by omega, scanned, ih (by omega) ?_ ?_, rfl⟩
      · rw [List.length_drop]
        omega
      · rw [hcontent, List.drop_left, hremaining, Nat.add_sub_cancel_left, List.take_left]

/-! ### One read -/

variable {hexdigest : List UInt8 → String} {r next : Reader} {head : Items} {o : Observation} {reading : Reading}
  {file : ℕ × ℕ}

/-- Nothing was linked or replaced while the first `stop` bytes of the file were read. -/
structure Observation.Steady (o : Observation) (file : ℕ × ℕ) (stop : ℕ) : Prop where
  links : o.rootSymlink = false ∧ o.audioSymlink = false
  opened : ∃ i, o.opened = some i ∧ i.file = file ∧ stop ≤ i.size
  closed : ∃ i, o.closed = some i ∧ i.file = file ∧ stop ≤ i.size
  named : ∃ i, o.named = some i ∧ i.file = file ∧ stop ≤ i.size

theorem checkHead_eq_ok {offset : ℕ} : checkHead offset head = .ok (stop, expected) ↔
      (get head "schema").eqStr schema = true ∧ integer (get head "journal_bytes") "length" true = .ok stop ∧
        (offset ≤ stop ∧ stop ≤ maxJournalBytes) ∧ get head "journal_sha256" = .str (.text expected) ∧
        isDigest expected = true ∧ headKeys.forM (fun key => discard (integer (get head key) key)) = .ok () := by
  simp only [checkHead, invalid, bind_eq_ok, unless_eq_ok, not_not, Bool.not_eq_true', Bool.not_eq_false]
  constructor
  · rintro ⟨hschema, stop', hstop, hbounds, h⟩
    split at h
    · next expected' hdigest =>
      simp only [bind_eq_ok, unless_eq_ok, pure_eq_ok, Prod.mk.injEq] at h
      obtain ⟨his, ⟨⟩, hkeys, rfl, rfl⟩ := h
      exact ⟨hschema, hstop, hbounds, hdigest, by simpa using his, hkeys⟩
    · cases h
  · rintro ⟨hschema, hstop, hbounds, hdigest, his, hkeys⟩
    refine ⟨hschema, stop, hstop, hbounds, ?_⟩
    simp only [hdigest, bind_eq_ok, unless_eq_ok, pure_eq_ok]
    exact ⟨by simp [his], (), hkeys, trivial⟩

/-- The offset of the reader only bounds the end of the prefix. -/
theorem checkHead_fresh {offset : ℕ} :
    checkHead offset head = .ok (stop, expected) ↔ offset ≤ stop ∧ checkHead 0 head = .ok (stop, expected) := by
  rw [checkHead_eq_ok, checkHead_eq_ok]
  constructor
  · rintro ⟨hschema, hstop, ⟨hlow, hhigh⟩, hrest⟩
    exact ⟨hlow, hschema, hstop, ⟨Nat.zero_le _, hhigh⟩, hrest⟩
  · rintro ⟨hlow, hschema, hstop, ⟨-, hhigh⟩, hrest⟩
    exact ⟨hschema, hstop, ⟨hlow, hhigh⟩, hrest⟩

theorem lastAnchor_pairwise {final : List Point} (h : lastAnchor head previous = .ok final) :
    (previous.toList ++ final).Pairwise Point.Before := by
  have hnil : (previous.toList ++ []).Pairwise Point.Before := by cases previous <;> simp
  unfold lastAnchor at h
  split at h
  · cases h
    exact hnil
  · obtain ⟨last, -, h⟩ := bind_eq_ok.1 h
    cases previous with
    | none =>
      cases h
      simp
    | some q =>
      simp only at h
      split at h
      · cases h
        exact hnil
      · split at h
        · obtain ⟨-, -, h⟩ := bind_eq_ok.1 h
          cases h
          exact hnil
        · split at h
          · cases h
          · next hregress =>
            cases h
            exact pairwise_before_cons.2 ⟨Bool.eq_false_iff.2 hregress, by simp⟩

theorem tryRead_eq_ok :
    r.tryRead loads hexdigest head o = .ok (reading, next) ↔
      ∃ expected file points final, checkHead r.offset head = .ok (next.offset, expected) ∧
        (∀ i ∈ r.fileId, i = file) ∧ o.Steady file next.offset ∧
        scanRows loads (next.offset - r.offset) r.counters (next.offset - r.offset) (o.content.drop r.offset) =
          .ok (next.counters, points, reading.segments) ∧
        countsAgree hexdigest head expected next.counters = true ∧
        lastAnchor head next.counters.previous = .ok final ∧ reading.anchors = points ++ final ∧
        next.fileId = some file := by
  constructor
  · intro h
    simp only [Reader.tryRead, invalid, bind_eq_ok, Prod.exists, unless_eq_ok] at h
    obtain ⟨stop, expected, hcheck, hlinks, h⟩ := h
    split at h
    · next before after named hopened hclosed hnamed =>
      simp only [bind_eq_ok, Prod.exists, unless_eq_ok, pure_eq_ok, Prod.mk.injEq, not_or, not_lt, ne_eq, not_not,
        Bool.not_eq_true', Bool.not_eq_false] at h
      obtain ⟨⟨hsize, hfile⟩, c, points, segments, hscan, ⟨hafter, hname, hsizes⟩, hcounts, final, hfinal, rfl, rfl⟩ := h
      have hlast : stop ≤ after.size ∧ stop ≤ named.size := by omega
      refine ⟨expected, before.file, points, final, hcheck, ?_, ⟨by simpa using hlinks, ⟨before, hopened, rfl, hsize⟩,
        ⟨after, hclosed, hafter.symm, hlast.1⟩, ⟨named, hnamed, (hafter.trans hname).symm, hlast.2⟩⟩, hscan, hcounts,
        hfinal, rfl, rfl⟩
      intro i hi
      rw [Option.mem_def.1 hi, Option.any_some, decide_eq_true_eq, not_not] at hfile
      exact hfile.symm
    · cases h
  · rintro ⟨expected, file, points, final, hcheck, hfile, ⟨hlinks, ⟨before, hopened, rfl, hsize⟩,
      ⟨after, hclosed, hafter, hasize⟩, named, hnamed, hname, hnsize⟩, hscan, hcounts, hfinal, hanchors, hid⟩
    have hsame : ¬ (r.fileId.any (before.file ≠ ·) = true) := by
      cases hr : r.fileId with
      | none => simp
      | some i => simp [hfile i hr]
    obtain ⟨anchors, segments⟩ := reading
    obtain ⟨stop, counters, id⟩ := next
    simp only at hcheck hsize hasize hnsize hscan hcounts hfinal hanchors hid
    subst hanchors hid
    simp only [Reader.tryRead, invalid, bind_eq_ok, Prod.exists, unless_eq_ok, hopened, hclosed, hnamed, pure_eq_ok]
    refine ⟨stop, expected, hcheck, by simp [hlinks], by simp only [not_or, not_lt]; exact ⟨hsize, hsame⟩, counters,
      points, segments, hscan, ?_, by simp [hcounts], final, hfinal, rfl⟩
    simp only [hafter, hname, ne_eq, not_true_eq_false, false_or, not_lt]
    omega

theorem read_eq_ok : r.read loads hexdigest head o = (.ok reading, next) ↔
    r.tryRead loads hexdigest head o = .ok (reading, next) := by
  unfold Reader.read
  cases r.tryRead loads hexdigest head o with
  | error e => simp
  | ok out => simp [Prod.ext_iff]

theorem read_error {e : JournalError} (h : r.read loads hexdigest head o = (.error e, next)) : next = r := by
  unfold Reader.read at h
  cases hread : r.tryRead loads hexdigest head o with
  | error e' =>
    rw [hread] at h
    exact (congrArg Prod.snd h).symm
  | ok out =>
    rw [hread] at h
    cases congrArg Prod.fst h

/-- The points of an accepted read are in order, the last anchor of the header with them. -/
theorem tryRead_anchors (h : r.tryRead loads hexdigest head o = .ok (reading, next)) :
    reading.anchors.Pairwise Point.Before := by
  obtain ⟨-, -, points, final, -, -, -, hscan, -, hfinal, hanchors, -⟩ := tryRead_eq_ok.1 h
  obtain ⟨rows, hrows⟩ := ((scanRows_eq_ok le_rfl).1 hscan).2.continues
  have hall : (r.counters.previous.toList ++ points ++ final).Pairwise Point.Before := by
    apply pairwise_append_of_last hrows.points
    rw [getLast?_toList_append, ← hrows.previous]
    exact lastAnchor_pairwise hfinal
  rw [hanchors]
  rw [List.append_assoc] at hall
  exact (List.pairwise_append.1 hall).2.1

/-! ### A reader that follows the headers -/

/-- The segments of all the readings. -/
def segmentsOf (readings : List (Items × Reading)) : List AudioSegment := readings.flatMap fun p => p.2.segments

/-- The polls saw one file that only grows. -/
structure AppendOnly (file : ℕ × ℕ) (events : List Event) : Prop where
  sameFile : ∀ e ∈ events, ∀ i, e.2.opened = some i → i.file = file
  grows : events.Pairwise fun e e' => e.2.content <+: e'.2.content

/-- The reader stands at the end of `window`, and its rows gave `segments`. -/
structure StandsAt (loads : List UInt8 → Option PyValue) (file : ℕ × ℕ) (r : Reader) (window : List UInt8)
    (segments : List AudioSegment) : Prop where
  committed : ∃ points, Committed loads {} window (r.counters, points, segments)
  offset : window.length = r.offset
  sameFile : ∀ i ∈ r.fileId, i = file

theorem standsAt_fresh (file : ℕ × ℕ) : StandsAt loads file {} [] [] where
  committed := ⟨[], .nil {}⟩
  offset := rfl
  sameFile := by simp

theorem StandsAt.tiles (h : StandsAt loads file r window segments) :
    Tiles 0 0 segments r.counters.segmentCount r.counters.sampleCount := by
  obtain ⟨points, hcommitted⟩ := h.committed
  obtain ⟨rows, hrows⟩ := hcommitted.continues
  exact hrows.segments

theorem take_window (hwindow : window <+: content) (hstop : window.length ≤ stop) :
    content.take stop = window ++ (content.drop window.length).take (stop - window.length) := by
  obtain ⟨rest, rfl⟩ := hwindow
  rw [List.take_append, List.take_of_length_le hstop, List.drop_left]

variable {whole : Reading}

theorem fresh_tryRead_eq_ok : ({} : Reader).tryRead loads hexdigest head o = .ok (whole, next) ↔
      ∃ expected file points final, checkHead 0 head = .ok (next.offset, expected) ∧ o.Steady file next.offset ∧
        next.offset ≤ o.content.length ∧
        Committed loads {} (o.content.take next.offset) (next.counters, points, whole.segments) ∧
        countsAgree hexdigest head expected next.counters = true ∧
        lastAnchor head next.counters.previous = .ok final ∧ whole.anchors = points ++ final ∧
        next.fileId = some file := by
  rw [tryRead_eq_ok]
  simp only [Nat.sub_zero, List.drop_zero, scanRows_eq_ok le_rfl, and_assoc]
  simp

/-- What the reader accepts at its window, a fresh reader accepts from the start. -/
theorem StandsAt.fresh (h : StandsAt loads file r window segments) (hwindow : window <+: o.content)
    (hread : r.tryRead loads hexdigest head o = .ok (reading, next)) :
    ∃ whole, ({} : Reader).tryRead loads hexdigest head o = .ok (whole, next) ∧
      whole.segments = segments ++ reading.segments := by
  obtain ⟨expected, file, points, final, hcheck, -, hsteady, hscan, hcounts, hfinal, hanchors, hid⟩ :=
    tryRead_eq_ok.1 hread
  obtain ⟨before, hcommitted⟩ := h.committed
  obtain ⟨hlow, hcheck⟩ := checkHead_fresh.1 hcheck
  obtain ⟨hlen, hrest⟩ := (scanRows_eq_ok le_rfl).1 hscan
  rw [List.length_drop, ← h.offset] at hlen
  rw [← h.offset] at hlow hrest
  have hfits : window.length ≤ o.content.length := hwindow.length_le
  refine ⟨⟨before ++ points ++ final, segments ++ reading.segments⟩, fresh_tryRead_eq_ok.2
    ⟨expected, file, before ++ points, final, hcheck, hsteady, by omega, ?_, hcounts, hfinal, rfl, hid⟩, rfl⟩
  rw [take_window hwindow hlow]
  exact hcommitted.append hrest

/-- What a fresh reader accepts, the reader accepts at its window. -/
theorem StandsAt.incremental (h : StandsAt loads file r window segments)
    (hwindow : window <+: o.content) (hfile : ∀ i, o.opened = some i → i.file = file) (hlow : r.offset ≤ next.offset)
    (hread : ({} : Reader).tryRead loads hexdigest head o = .ok (whole, next)) :
    ∃ reading, r.tryRead loads hexdigest head o = .ok (reading, next) := by
  obtain ⟨expected, file', points, final, hcheck, hsteady, hlen, hwhole, hcounts, hfinal, -, hid⟩ :=
    fresh_tryRead_eq_ok.1 hread
  obtain ⟨before, hcommitted⟩ := h.committed
  rw [take_window hwindow (h.offset.trans_le hlow)] at hwhole
  obtain ⟨⟨c, points', segments'⟩, hrest, heq⟩ := hcommitted.of_append hwhole
  obtain ⟨rfl, -, -⟩ : next.counters = c ∧ _ ∧ _ := by simpa [Prod.ext_iff] using heq
  obtain ⟨i, hopened, hi, -⟩ := hsteady.opened
  have hsame : ∀ j ∈ r.fileId, j = file' := fun j hj => by rw [h.sameFile j hj, ← hfile i hopened, hi]
  refine ⟨⟨points' ++ final, segments'⟩, tryRead_eq_ok.2 ⟨expected, file', points', final,
    checkHead_fresh.2 ⟨hlow, hcheck⟩, hsame, hsteady, (scanRows_eq_ok le_rfl).2 ⟨?_, ?_⟩, hcounts, hfinal, rfl, hid⟩⟩
  · rw [List.length_drop]
    omega
  · rw [← h.offset]
    exact hrest

/-- An accepted header is accepted again as long as its prefix stays. -/
theorem fresh_tryRead_later {o' : Observation}
    (hread : ({} : Reader).tryRead loads hexdigest head o = .ok (whole, next)) (hid : next.fileId = some file)
    (hcontent : o.content.take next.offset <+: o'.content) (hsteady : o'.Steady file next.offset) :
    ({} : Reader).tryRead loads hexdigest head o' = .ok (whole, next) := by
  obtain ⟨expected, file', points, final, hcheck, -, hlen, hwhole, hcounts, hfinal, hanchors, hid'⟩ :=
    fresh_tryRead_eq_ok.1 hread
  have hlength : (o.content.take next.offset).length = next.offset := List.length_take_of_le hlen
  have htake : o'.content.take next.offset = o.content.take next.offset := by
    conv_lhs => rw [← hlength]
    exact (List.prefix_iff_eq_take.1 hcontent).symm
  refine fresh_tryRead_eq_ok.2 ⟨expected, file, points, final, hcheck, hsteady, ?_, ?_, hcounts, hfinal, hanchors, hid⟩
  · rw [← hlength]
    exact hcontent.length_le
  · rwa [htake]

/-- After the polls the reader stands where a fresh reader of the last accepted header does. -/
structure Followed (loads : List UInt8 → Option PyValue) (hexdigest : List UInt8 → String) (file : ℕ × ℕ)
    (events : List Event) (window : List UInt8) (s : Reader × List (Items × Reading)) : Prop where
  stands : StandsAt loads file s.1 window (segmentsOf s.2)
  stays : ∀ content, (∀ e ∈ events, e.2.content <+: content) → window <+: content
  anchors : ∀ p ∈ s.2, p.2.anchors.Pairwise Point.Before
  last : ∀ p, s.2.getLast? = some p → ∃ o whole, ({} : Reader).tryRead loads hexdigest p.1 o = .ok (whole, s.1) ∧
    whole.segments = segmentsOf s.2 ∧ s.1.fileId = some file ∧ o.content.take s.1.offset = window

theorem AppendOnly.init {e : Event} (h : AppendOnly file (events ++ [e])) :
    AppendOnly file events ∧ (∀ e' ∈ events, e'.2.content <+: e.2.content) ∧
      ∀ i, e.2.opened = some i → i.file = file := by
  obtain ⟨hevents, -, hlast⟩ := List.pairwise_append.1 h.grows
  exact ⟨⟨fun e' he' => h.sameFile e' (List.mem_append_left _ he'), hevents⟩,
    fun e' he' => hlast e' he' e (List.mem_singleton_self e), h.sameFile e (by simp)⟩

/-- A read that is accepted moves the reader and its window to the end of the prefix. -/
theorem standsAt_next (hfresh : ({} : Reader).tryRead loads hexdigest head o = .ok (whole, next))
    (hfile : ∀ i, o.opened = some i → i.file = file) :
    StandsAt loads file next (o.content.take next.offset) whole.segments ∧ next.fileId = some file := by
  obtain ⟨-, file', points, -, -, hsteady, hlen, hcommitted, -, -, -, hid⟩ := fresh_tryRead_eq_ok.1 hfresh
  obtain ⟨i, hopened, hi, -⟩ := hsteady.opened
  have hsame : file' = file := by rw [← hi, hfile i hopened]
  refine ⟨⟨⟨points, hcommitted⟩, List.length_take_of_le hlen, ?_⟩, by rw [hid, hsame]⟩
  intro j hj
  rw [hid, Option.mem_some_iff] at hj
  rw [← hj, hsame]

theorem Followed.step {e : Event} {s : Reader × List (Items × Reading)}
    (h : Followed loads hexdigest file events window s) (hjournal : AppendOnly file (events ++ [e])) :
    ∃ window', Followed loads hexdigest file (events ++ [e]) window' (followStep loads hexdigest s e) := by
  obtain ⟨-, hgrows, hfile⟩ := hjournal.init
  obtain ⟨r, readings⟩ := s
  obtain ⟨head, o⟩ := e
  have hevents : ∀ content, (∀ e' ∈ events ++ [(head, o)], e'.2.content <+: content) →
      (∀ e' ∈ events, e'.2.content <+: content) ∧ o.content <+: content := fun content hall =>
    ⟨fun e' he' => hall e' (List.mem_append_left _ he'), hall (head, o) (by simp)⟩
  cases hread : r.read loads hexdigest head o with
  | mk result next =>
    cases result with
    | error error =>
      have hstep : followStep loads hexdigest (r, readings) (head, o) = (r, readings) := by
        obtain rfl := read_error hread
        simp [followStep, hread]
      rw [hstep]
      exact ⟨window, h.stands, fun content hall => h.stays content (hevents content hall).1, h.anchors, h.last⟩
    | ok reading =>
      have hstep : followStep loads hexdigest (r, readings) (head, o) = (next, readings ++ [(head, reading)]) := by
        simp [followStep, hread]
      have htry := read_eq_ok.1 hread
      obtain ⟨whole, hfresh, hsegments⟩ := h.stands.fresh (h.stays o.content hgrows) htry
      obtain ⟨hstands, hid⟩ := standsAt_next hfresh hfile
      have hall : segmentsOf (readings ++ [(head, reading)]) = whole.segments := by
        rw [hsegments, segmentsOf, List.flatMap_append, List.flatMap_singleton, segmentsOf]
      rw [hstep]
      refine ⟨o.content.take next.offset, ?_, ?_, ?_, ?_⟩
      · rw [hall]
        exact hstands
      · exact fun content hcontent => (List.take_prefix _ _).trans (hevents content hcontent).2
      · exact forall_mem_concat h.anchors (tryRead_anchors htry)
      · intro p hp
        obtain rfl : (head, reading) = p := by simpa using hp
        exact ⟨o, whole, hfresh, hall.symm, hid, rfl⟩

theorem followed (events : List Event) (hjournal : AppendOnly file events) :
    ∃ window, Followed loads hexdigest file events window (follow loads hexdigest events) := by
  induction events using List.reverseRecOn with
  | nil => exact ⟨[], standsAt_fresh file, by simp, by simp [follow], by simp [follow]⟩
  | append_singleton events e ih =>
    obtain ⟨window, h⟩ := ih hjournal.init.1
    rw [follow, List.foldl_append]
    exact h.step hjournal

/-- Reading the headers of a growing journal one after another is reading the last accepted one afresh: the next
header is accepted by both readers or by neither, and a rejected one changes nothing. -/
theorem follow_refines_fresh (loads : List UInt8 → Option PyValue) (hexdigest : List UInt8 → String) (file : ℕ × ℕ)
    (events : List Event) (hjournal : AppendOnly file events) :
    let r := (follow loads hexdigest events).1
    let readings := (follow loads hexdigest events).2
    Tiles 0 0 (segmentsOf readings) r.counters.segmentCount r.counters.sampleCount ∧
      (∀ p ∈ readings, p.2.anchors.Pairwise Point.Before) ∧
      (∀ p, readings.getLast? = some p → ∀ o : Observation, (∀ e ∈ events, e.2.content <+: o.content) →
        o.Steady file r.offset → ∃ whole, ({} : Reader).read loads hexdigest p.1 o = (.ok whole, r) ∧
          whole.segments = segmentsOf readings ∧ whole.anchors.Pairwise Point.Before) ∧
      ∀ head o, AppendOnly file (events ++ [(head, o)]) →
        (∀ reading next, r.read loads hexdigest head o = (.ok reading, next) →
          ∃ whole, ({} : Reader).read loads hexdigest head o = (.ok whole, next) ∧
            whole.segments = segmentsOf readings ++ reading.segments) ∧
        (∀ whole next, ({} : Reader).read loads hexdigest head o = (.ok whole, next) → r.offset ≤ next.offset →
          ∃ reading, r.read loads hexdigest head o = (.ok reading, next)) ∧
        ∀ error next, r.read loads hexdigest head o = (.error error, next) → next = r := by
  obtain ⟨window, h⟩ : ∃ window, Followed loads hexdigest file _ window _ := followed events hjournal
  refine ⟨h.stands.tiles, h.anchors, ?_, ?_⟩
  · intro p hp o hcontent hsteady
    obtain ⟨o', whole, hfresh, hsegments, hid, hwindow⟩ := h.last p hp
    have hlater := fresh_tryRead_later hfresh hid (by rw [hwindow]; exact h.stays o.content hcontent) hsteady
    exact ⟨whole, read_eq_ok.2 hlater, hsegments, tryRead_anchors hlater⟩
  · intro head o hnext
    obtain ⟨-, hgrows, hfile⟩ := hnext.init
    refine ⟨?_, ?_, fun _ _ => read_error⟩
    · intro reading next hread
      obtain ⟨whole, hfresh, hsegments⟩ := h.stands.fresh (h.stays o.content hgrows) (read_eq_ok.1 hread)
      exact ⟨whole, read_eq_ok.2 hfresh, hsegments⟩
    · intro whole next hread hlow
      obtain ⟨reading, hreading⟩ := h.stands.incremental (h.stays o.content hgrows) hfile hlow (read_eq_ok.1 hread)
      exact ⟨reading, read_eq_ok.2 hreading⟩

/-! Two committed rows, and a header between them whose counts are wrong. -/

def sampleRow (index start stop : ℤ) (path : String) (anchors : List PyValue) : PyValue :=
  .dict [(.text "sequence", .int index), (.text "anchors", .list anchors),
    (.text "segments", .list [.dict [(.text "index", .int index), (.text "path", .str (.text path)),
      (.text "start_sample", .int start), (.text "end_sample", .int stop)]])]

def sampleRow0 : List UInt8 :=
  "\x7b\"sequence\":0,\"anchors\":[[480,1000,5,1010,1020]],\"segments\":[\x7b\"index\":0,\"path\":\"audio/audio_00000.wav\",\"start_sample\":0,\"end_sample\":480\x7d]\x7d\n".toUTF8.data.toList

def sampleRow1 : List UInt8 :=
  "\x7b\"sequence\":1,\"anchors\":[],\"segments\":[\x7b\"index\":1,\"path\":\"audio/audio_00001.wav\",\"start_sample\":480,\"end_sample\":960\x7d]\x7d\n".toUTF8.data.toList

def samplePoint (point : List ℤ) : PyValue := .list (point.map .int)

def sampleLoads (raw : List UInt8) : Option PyValue :=
  if raw = sampleRow0 then some (sampleRow 0 0 480 "audio/audio_00000.wav" [samplePoint [480, 1000, 5, 1010, 1020]])
  else if raw = sampleRow1 then some (sampleRow 1 480 960 "audio/audio_00001.wav" [])
  else none

def sampleDigest0 : String := "ee2c1f32648a4dec9a92b45e7edd0344ef26076e0898ee3d3842c57b2969dd6d"

def sampleDigest1 : String := "022cce5c9fc8a245d1acc5bc6e94e562b92d05c6fd3f25b31534a47a8ebfa44d"

def sampleHexdigest (bytes : List UInt8) : String := if bytes = sampleRow0 then sampleDigest0 else sampleDigest1

def sampleHead (journalBytes records anchors samples : ℤ) (digest : String) (last : PyValue) : Items :=
  [(.text "schema", .str schema), (.text "journal_bytes", .int journalBytes),
    (.text "journal_sha256", .str (.text digest)), (.text "journal_records", .int records),
    (.text "anchor_count", .int anchors), (.text "segment_count", .int records), (.text "sample_count", .int samples),
    (.text "thread_started_monotonic_ns", .int 1), (.text "period_frames", .int 480),
    (.text "buffer_frames", .int 960), (.text "queue_capacity_frames", .int 960), (.text "queue_peak_frames", .int 0),
    (.text "max_write_ns", .int 0), (.text "last_anchor", last)]

def sampleObservation (content : List UInt8) : Observation :=
  let i : Identity := ⟨1, 7, content.length⟩
  ⟨false, false, some i, content, some i, some i⟩

theorem sampleObservation_steady (h : stop ≤ content.length) : (sampleObservation content).Steady (1, 7) stop :=
  ⟨⟨rfl, rfl⟩, ⟨_, rfl, rfl, h⟩, ⟨_, rfl, rfl, h⟩, _, rfl, rfl, h⟩

def sampleEvents : List Event :=
  [(sampleHead 140 1 1 480 sampleDigest0 (samplePoint [480, 1000, 5, 1010, 1020]), sampleObservation sampleRow0),
    (sampleHead 140 2 1 480 sampleDigest0 .none, sampleObservation (sampleRow0 ++ sampleRow1)),
    (sampleHead 260 2 1 960 sampleDigest1 (samplePoint [960, 2000, 5, 2010, 2020]),
      sampleObservation (sampleRow0 ++ sampleRow1))]

theorem sampleEvents_appendOnly : AppendOnly (1, 7) sampleEvents where
  sameFile := by simp [sampleEvents, sampleObservation, Identity.file]
  grows := by simp [sampleEvents, sampleObservation]

theorem follow_refines_fresh_sample :
    AppendOnly (1, 7) sampleEvents ∧
      ∃ p whole, (follow sampleLoads sampleHexdigest sampleEvents).2.getLast? = some p ∧
        ({} : Reader).read sampleLoads sampleHexdigest p.1 (sampleObservation (sampleRow0 ++ sampleRow1)) =
          (.ok whole, (follow sampleLoads sampleHexdigest sampleEvents).1) ∧
        whole.segments = [⟨0, "audio/audio_00000.wav", 0, 480⟩, ⟨1, "audio/audio_00001.wav", 480, 960⟩] := by
  have hrun : (follow sampleLoads sampleHexdigest sampleEvents).1.offset = 260 ∧
      (follow sampleLoads sampleHexdigest sampleEvents).2.map (fun p => p.2) =
        [⟨[⟨480, 1000, 5, 1010, 1020⟩], [⟨0, "audio/audio_00000.wav", 0, 480⟩]⟩,
          ⟨[⟨960, 2000, 5, 2010, 2020⟩], [⟨1, "audio/audio_00001.wav", 480, 960⟩]⟩] := by
    decide +kernel
  obtain ⟨hoffset, hreadings⟩ := hrun
  have hsegments : segmentsOf (follow sampleLoads sampleHexdigest sampleEvents).2 =
      [⟨0, "audio/audio_00000.wav", 0, 480⟩, ⟨1, "audio/audio_00001.wav", 480, 960⟩] := by
    rw [segmentsOf, ← List.flatMap_map (fun p : Items × Reading => p.2), hreadings]
    rfl
  obtain ⟨-, -, hlast, -⟩ := follow_refines_fresh sampleLoads sampleHexdigest (1, 7) sampleEvents sampleEvents_appendOnly
  cases hp : (follow sampleLoads sampleHexdigest sampleEvents).2.getLast? with
  | none => simp [List.getLast?_eq_none_iff.1 hp] at hreadings
  | some p =>
    have hsize : (sampleRow0 ++ sampleRow1).length = 260 := by decide +kernel
    have hsteady : (sampleObservation (sampleRow0 ++ sampleRow1)).Steady (1, 7)
        (follow sampleLoads sampleHexdigest sampleEvents).1.offset := by
      rw [hoffset]
      exact sampleObservation_steady hsize.ge
    obtain ⟨whole, hread, hwhole, -⟩ := hlast p hp (sampleObservation (sampleRow0 ++ sampleRow1))
      (by simp [sampleEvents, sampleObservation]) hsteady
    exact ⟨sampleEvents_appendOnly, p, whole, rfl, hread, hwhole.trans hsegments⟩

end Conductor.Audio.Journal
