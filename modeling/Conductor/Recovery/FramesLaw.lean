import Conductor.Recovery.Frames
import Conductor.Recovery.IndexLaw

/-! `_frames` keeps the longest prefix of whole segments whose rows are all valid. The
state of the loop is described by the number of rows behind it; the index that it writes
is only known through the laws of `RecoveryIndex`. -/

namespace Conductor.Recovery

open ByteLines

/-! ### Segments -/

/-- The end ordinal of the first `k` segments. -/
def endOf (segments : List Segment) : ℕ → ℕ
  | 0 => 0
  | k + 1 => (segments[k]?.map (·.endOrdinal)).getD (endOf segments k)

/-- The ordinals of the segments follow each other from 0. -/
def Consecutive (segments : List Segment) : Prop :=
  ∀ k segment, segments[k]? = some segment →
    segment.startOrdinal = endOf segments k ∧ segment.startOrdinal < segment.endOrdinal

/-- The number of segments that end before row `i`, or with it. -/
def doneAt (segments : List Segment) (i : ℕ) : ℕ := segments.findIdx fun s => i < s.endOrdinal

section Segments

variable {segments : List Segment} {segment : Segment} {i k : ℕ}

theorem endOf_succ (h : segments[k]? = some segment) : endOf segments (k + 1) = segment.endOrdinal := by
  simp [endOf, h]

theorem Consecutive.step (hc : Consecutive segments) (h : k < segments.length) :
    endOf segments k < endOf segments (k + 1) := by
  obtain ⟨hstart, hlt⟩ := hc k segments[k] (List.getElem?_eq_getElem h)
  rw [endOf_succ (List.getElem?_eq_getElem h), ← hstart]
  exact hlt

theorem Consecutive.mono (hc : Consecutive segments) {m : ℕ} (hkm : k ≤ m) (h : m ≤ segments.length) :
    endOf segments k ≤ endOf segments m := by
  induction m, hkm using Nat.le_induction with
  | base => exact le_rfl
  | succ m _ ih => exact (ih (by omega)).trans (hc.step h).le

theorem doneAt_le (segments : List Segment) (i : ℕ) : doneAt segments i ≤ segments.length :=
  List.findIdx_le_length

theorem lt_end_of_doneAt (h : segments[doneAt segments i]? = some segment) : i < segment.endOrdinal := by
  simpa using List.findIdx_of_getElem?_eq_some h

theorem end_le_of_lt_doneAt (h : segments[k]? = some segment) (hk : k < doneAt segments i) :
    segment.endOrdinal ≤ i := by
  obtain ⟨hlt, rfl⟩ := List.getElem?_eq_some_iff.1 h
  simpa using List.not_of_lt_findIdx hk

theorem endOf_doneAt_le (segments : List Segment) (i : ℕ) : endOf segments (doneAt segments i) ≤ i := by
  cases hk : doneAt segments i with
  | zero => exact Nat.zero_le i
  | succ k =>
    have hlt : k < segments.length := by
      have := doneAt_le segments i
      omega
    rw [endOf_succ (List.getElem?_eq_getElem hlt)]
    exact end_le_of_lt_doneAt (List.getElem?_eq_getElem hlt) (by omega)

/-- A later boundary lies behind row `i`. -/
theorem Consecutive.lt_endOf (hc : Consecutive segments) (hk : doneAt segments i < k)
    (h : k ≤ segments.length) : i < endOf segments k := by
  have hlt : doneAt segments i < segments.length := by omega
  have hsome := List.getElem?_eq_getElem hlt
  have := hc.mono (Nat.succ_le_of_lt hk) h
  rw [endOf_succ hsome] at this
  have := lt_end_of_doneAt hsome
  omega

theorem Consecutive.doneAt_eq (hc : Consecutive segments) (hk : k ≤ segments.length)
    (hle : endOf segments k ≤ i) (hlt : k < segments.length → i < endOf segments (k + 1)) :
    doneAt segments i = k := by
  rcases lt_trichotomy (doneAt segments i) k with h | h | h
  · have := hc.lt_endOf h hk
    omega
  · exact h
  · have hshort : k < segments.length := by
      have := doneAt_le segments i
      omega
    have hsome := List.getElem?_eq_getElem hshort
    have := end_le_of_lt_doneAt hsome h
    have := hlt hshort
    rw [endOf_succ hsome] at this
    omega

/-- Row `i` of the open segment, which it closes or not. -/
theorem Consecutive.doneAt_succ (hc : Consecutive segments) (h : segments[doneAt segments i]? = some segment) :
    doneAt segments (i + 1) =
      if i + 1 = segment.endOrdinal then doneAt segments i + 1 else doneAt segments i := by
  obtain ⟨hshort, -⟩ := List.getElem?_eq_some_iff.1 h
  have hend := endOf_succ h
  have hlt := lt_end_of_doneAt h
  have hle := endOf_doneAt_le segments i
  split
  · next hclose =>
    apply hc.doneAt_eq (Nat.succ_le_of_lt hshort) (hend.trans hclose.symm).le
    intro hnext
    have hstep := hc.step hnext
    rw [hend] at hstep
    omega
  · apply hc.doneAt_eq hshort.le (by omega)
    intro _
    rw [hend]
    omega

theorem Consecutive.endOf_pos (hc : Consecutive segments) (hk : 0 < k) (h : k ≤ segments.length) :
    0 < endOf segments k := by
  have hfirst := hc.step (hk.trans_le h)
  exact (Nat.zero_le _).trans_lt (hfirst.trans_le (hc.mono (Nat.succ_le_of_lt hk) h))

end Segments

/-! ### Errors -/

variable {e : PyError}

theorem anyOf_error {conditions : List (Except PyError Bool)} (h : anyOf conditions = .error e) :
    .error e ∈ conditions := by
  induction conditions with
  | nil => cases h
  | cons condition rest ih =>
    cases hcondition : condition with
    | error e' =>
      simp only [anyOf, hcondition, bind, Except.bind] at h
      cases h
      exact List.mem_cons_self
    | ok b =>
      simp only [anyOf, hcondition, bind, Except.bind] at h
      cases b with
      | true => cases h
      | false => exact List.mem_cons_of_mem _ (ih h)

theorem item_error {value : PyValue} {key : String} (h : value.item key = .error e) : PyError.caught e = true := by
  unfold PyValue.item at h
  split at h
  · split at h <;> cases h
    rfl
  · cases h
    rfl

theorem bind_error {α β : Type} {x : Except PyError α} {f : α → Except PyError β}
    (h : (x >>= f) = .error e) : x = .error e ∨ ∃ a, x = .ok a ∧ f a = .error e := by
  cases x with
  | error e' =>
    cases h
    exact .inl rfl
  | ok a => exact .inr ⟨a, rfl, h⟩

theorem le_error {a b : PyValue} (h : a.le b = .error e) : PyError.caught e = true := by
  unfold PyValue.le at h
  split at h <;> cases h
  rfl

theorem stepInvalid_uncaught {take : Take} {previous row : PyValue}
    (h : stepInvalid take previous row = .error e) (he : PyError.caught e = false) :
    ∃ a b, row.item "source_sequence" = .ok a ∧ previous.item "source_sequence" = .ok b ∧ a.sub b = .error e := by
  have hlookup : ∀ {v : PyValue} {key : String}, v.item key ≠ .error e := by
    intro v key h
    rw [item_error h] at he
    cases he
  have hmem := anyOf_error h
  simp only [List.mem_cons, List.not_mem_nil, or_false] at hmem
  rcases hmem with h | h
  · rcases bind_error h.symm with h | ⟨a, ha, h⟩
    · exact absurd h hlookup
    rcases bind_error h with h | ⟨b, hb, h⟩
    · exact absurd h hlookup
    rcases bind_error h with h | ⟨c, -, h⟩
    · exact ⟨a, b, ha, hb, h⟩
    · cases h
  · rcases bind_error h.symm with h | ⟨a, ha, h⟩
    · exact absurd h hlookup
    rcases bind_error h with h | ⟨b, hb, h⟩
    · exact absurd h hlookup
    · rw [le_error h] at he
      cases he

theorem rowInvalid_uncaught {take : Take} {segmentIndex count : ℕ} {segment : Segment} {previous : Option PyValue}
    {line : List UInt8} {row : PyValue}
    (h : rowInvalid take segmentIndex segment count previous line row = .error e) (he : PyError.caught e = false) :
    ∃ p ∈ previous, stepInvalid take p row = .error e := by
  have hlookup : ∀ {v : PyValue} {key : String}, v.item key ≠ .error e := by
    intro v key h
    rw [item_error h] at he
    cases he
  have hlast : ∀ {v : PyValue} {key : String} {f : PyValue → Bool},
      .error e ≠ (do return f (← v.item key) : Except PyError Bool) := by
    intro v key f h
    rcases bind_error h.symm with h | ⟨a, -, h⟩
    · exact hlookup h
    · cases h
  have hmem := anyOf_error h
  simp only [List.mem_cons, List.not_mem_nil, or_false] at hmem
  rcases hmem with h | h | h | h | h | h | h | h | h
  · cases h
  · exact absurd h hlast
  · rcases bind_error h.symm with h | ⟨a, -, h⟩
    · exact absurd h hlookup
    rcases bind_error h with h | ⟨b, -, h⟩
    · unfold PyValue.inStrings at h
      split at h <;> cases h <;> cases he
    · cases h
  · exact absurd h hlast
  · exact absurd h hlast
  · exact absurd h hlast
  · exact absurd h hlast
  · rcases bind_error h.symm with h | ⟨a, -, h⟩
    · exact absurd h hlookup
    · rw [le_error h] at he
      cases he
  · cases previous with
    | none => cases h
    | some p => exact ⟨p, rfl, h.symm⟩

/-! ### Rows -/

section Rows

variable (json : Json) (take : Take) (lines : List (List UInt8))

/-- The value of line `i`. -/
def rowAt (i : ℕ) : PyValue := ((lines[i]?).bind json.loads).getD .none

def previousAt : ℕ → Option PyValue
  | 0 => none
  | i + 1 => some (rowAt json lines i)

/-- The checks of line `i`, in the segment that row `i` belongs to. -/
def checkAt (i : ℕ) : Except PyError (Option PyValue) :=
  match lines[i]?, take.segments[doneAt take.segments i]? with
  | some line, some segment =>
    checkRow json take (doneAt take.segments i) segment i (previousAt json lines i) line
  | _, _ => .ok none

/-- Line `i` is a complete one and passes its checks. -/
def Valid (i : ℕ) : Prop := ∃ row, checkAt json take lines i = .ok (some row)

def Encodes (i : ℕ) : Prop := ∃ payload, jsonBytes json (rowAt json lines i) = .ok payload

def payloadAt (i : ℕ) : List UInt8 := (jsonBytes json (rowAt json lines i)).toOption.getD []

/-- The canonical index of the first `n` rows. -/
def canonical (n : ℕ) : List UInt8 := (List.range n).flatMap (payloadAt json lines)

/-- All rows of the first `k` segments are valid, and of no more segments. -/
structure Kept (k : ℕ) : Prop where
  bound : k ≤ take.segments.length
  valid : ∀ i < endOf take.segments k, Valid json take lines i
  maximal : ∀ m ≤ take.segments.length, (∀ i < endOf take.segments m, Valid json take lines i) → m ≤ k

/-- An error gets out at line `i`: in its checks, or when it is serialized. The lines before it
are valid, and those of the segments before it can be encoded. -/
structure Escapes (i : ℕ) : Prop where
  valid : ∀ j < i, Valid json take lines j
  encoded : ∀ j < endOf take.segments (doneAt take.segments i), Encodes json lines j
  raised : (∃ e, checkAt json take lines i = .error e) ∨
    Valid json take lines i ∧ (∀ j < i, Encodes json lines j) ∧
      ∃ e, jsonBytes json (rowAt json lines i) = .error e ∧ e ≠ .unicodeEncodeError

end Rows

/-- The bytes of a derived index hold `content`. -/
def IndexHolds (z : Zstd) (file content : List UInt8) : Bool → Prop
  | true => decodedMetadata z ⟨file, []⟩ = .ok content
  | false => file = content

/-- What is recovered when `k` segments are kept. -/
structure Recovers (z : Zstd) (json : Json) (take : Take) (origin : PyValue) (compressed : Bool)
    (lines : List (List UInt8)) (k : ℕ) (r : RecoveredFrames) (file : List UInt8) : Prop where
  origin : originValid origin (hostNs (rowAt json lines 0)) = true
  count : r.count = endOf take.segments k
  first : r.firstMonotonicNs = hostNs (rowAt json lines 0)
  last : r.lastMonotonicNs = hostNs (rowAt json lines (endOf take.segments k - 1))
  boundaries : ∀ segment ∈ take.segments.take k,
    r.boundaryMonotonicNs segment.startOrdinal = some (hostNs (rowAt json lines segment.startOrdinal))
  encoded : ∀ i < endOf take.segments k, Encodes json lines i
  index : IndexHolds z file (canonical json lines (endOf take.segments k)) compressed

/-- The errors that `_frames` may raise when `k` segments are kept: the clock origin is not
valid, or a row that would be kept cannot be encoded. -/
inductive Refuses (json : Json) (take : Take) (origin : PyValue) (lines : List (List UInt8)) (k : ℕ) :
    PyError → Prop where
  | origin : originValid origin (hostNs (rowAt json lines 0)) = false →
    Refuses json take origin lines k .valueError
  | unicode {i : ℕ} : i < endOf take.segments k →
    jsonBytes json (rowAt json lines i) = .error .unicodeEncodeError →
    Refuses json take origin lines k .unicodeEncodeError

/-- What `_frames` promises for the `k` segments that are kept. -/
inductive Outcome (z : Zstd) (json : Json) (take : Take) (origin : PyValue) (compressed : Bool)
    (lines : List (List UInt8)) : ℕ → FramesResult → Prop where
  | nothing : Outcome z json take origin compressed lines 0 ⟨.ok none, [], none⟩
  | recovered {k : ℕ} {r : RecoveredFrames} {file : List UInt8} (hk : 0 < k)
    (h : Recovers z json take origin compressed lines k r file) :
    Outcome z json take origin compressed lines k ⟨.ok (some r), take.segments.take k, some file⟩
  | refused {k : ℕ} {e : PyError} {segments : List Segment} (hk : 0 < k)
    (h : Refuses json take origin lines k e) :
    Outcome z json take origin compressed lines k ⟨.error e, segments, none⟩

/-! ### The loop -/

section Loop

variable {z : Zstd} {json : Json} {take : Take} {lines : List (List UInt8)} {compressed : Bool}

variable {i : ℕ} {segment : Segment}

theorem checkAt_row {row : PyValue} (h : checkAt json take lines i = .ok (some row)) : row = rowAt json lines i := by
  unfold checkAt at h
  split at h
  · next line _ hline _ =>
    rw [rowAt, hline, Option.bind_some]
    unfold checkRow at h
    split at h
    · cases h
    · next row' hload =>
      rw [hload]
      split at h
      · cases h
      · cases h
        rfl
      · split at h <;> cases h
  · cases h

theorem canonical_succ (i : ℕ) : canonical json lines (i + 1) = canonical json lines i ++ payloadAt json lines i := by
  simp [canonical, List.range_succ]

/-- One of the first `i` rows has lone surrogates, and the rows before it can be encoded. -/
def Unencodable (json : Json) (lines : List (List UInt8)) (i : ℕ) : Prop :=
  ∃ j < i, (∀ m < j, Encodes json lines m) ∧ jsonBytes json (rowAt json lines j) = .error .unicodeEncodeError

/-- What the loop has written of the first `i` rows, with its last checkpoint behind row `n`. -/
structure Serialized (z : Zstd) (json : Json) (lines : List (List UInt8)) (compressed : Bool) (n i : ℕ)
    (st : Recovering) : Prop where
  error : (st.serializationError = none ∧ ∀ j < i, Encodes json lines j) ∨
    (st.serializationError = some .unicodeEncodeError ∧ Unencodable json lines i)
  holds : ∃ content, Holds z st.writer st.output content
      (st.checkpoint.map fun c => (c, canonical json lines n)) compressed ∧
    (st.serializationError = none → content = canonical json lines i)

variable {st : Recovering} {e : PyError}

theorem serialize_spec {n : ℕ} (h : Serialized z json lines compressed n i st) :
    (∃ writer output error, st.serialize z json (rowAt json lines i) =
        .ok { st with writer, output, serializationError := error } ∧ Serialized z json lines compressed n (i + 1)
        { st with writer, output, serializationError := error }) ∨
    ∃ e, st.serialize z json (rowAt json lines i) = .error e ∧ e ≠ .unicodeEncodeError ∧
      jsonBytes json (rowAt json lines i) = .error e ∧ ∀ j < i, Encodes json lines j := by
  obtain ⟨content, hholds, hcontent⟩ := h.holds
  unfold Recovering.serialize
  rcases h.error with ⟨hnone, hencodes⟩ | ⟨hsome, j, hj, hbefore, hunicode⟩
  · obtain rfl := hcontent hnone
    simp only [hnone]
    cases hbytes : jsonBytes json (rowAt json lines i) with
    | ok payload =>
      have hpayload : payloadAt json lines i = payload := by simp [payloadAt, hbytes, Except.toOption]
      refine .inl ⟨_, _, none, rfl, .inl ⟨rfl, fun j hj => ?_⟩, _, holds_write hholds payload, fun _ => ?_⟩
      · rcases Nat.lt_succ_iff_lt_or_eq.1 hj with hj | rfl
        · exact hencodes j hj
        · exact ⟨payload, hbytes⟩
      · rw [canonical_succ, hpayload]
    | error e =>
      by_cases he : e = .unicodeEncodeError
      · subst he
        refine .inl ⟨st.writer, st.output, some .unicodeEncodeError, rfl,
          .inr ⟨rfl, i, Nat.lt_succ_self i, hencodes, hbytes⟩, _, hholds, nofun⟩
      · refine .inr ⟨e, ?_, he, rfl, hencodes⟩
        cases e <;> first | rfl | exact absurd rfl he
  · simp only [hsome]
    refine .inl ⟨st.writer, st.output, some .unicodeEncodeError, ?_,
      .inr ⟨rfl, j, Nat.lt_succ_of_lt hj, hbefore, hunicode⟩, content, hholds, nofun⟩
    rw [← hsome]

/-- The state of the loop when the first `i` lines are behind it. -/
structure Inv (z : Zstd) (json : Json) (take : Take) (lines : List (List UInt8)) (compressed : Bool) (i : ℕ)
    (st : Recovering) : Prop where
  valid : ∀ j < i, Valid json take lines j
  encoded : ∀ j < endOf take.segments (doneAt take.segments i), Encodes json lines j
  index : st.segmentIndex = doneAt take.segments i
  count : st.count = i
  committed : st.committedCount = endOf take.segments (doneAt take.segments i)
  first : st.first = if i = 0 then none else some (hostNs (rowAt json lines 0))
  lastCommitted : 0 < doneAt take.segments i → st.lastCommitted =
    some (hostNs (rowAt json lines (endOf take.segments (doneAt take.segments i) - 1)))
  segmentFirst : endOf take.segments (doneAt take.segments i) < i → st.segmentFirst =
    some (hostNs (rowAt json lines (endOf take.segments (doneAt take.segments i))))
  previous : st.previous = previousAt json lines i
  boundaries : ∀ k < doneAt take.segments i, st.boundaries (endOf take.segments k) =
    some (hostNs (rowAt json lines (endOf take.segments k)))
  checkpoint : 0 < doneAt take.segments i → st.checkpoint.isSome
  serialized : Serialized z json lines compressed (endOf take.segments (doneAt take.segments i)) i st

theorem jsonBytes_error {value : PyValue} (h : jsonBytes json value = .error e) :
    e = .recursionError ∨ e = .unicodeEncodeError := by
  unfold jsonBytes at h
  split at h <;> cases h
  · exact .inl rfl
  · exact .inr rfl

/-- A checked row: the loop goes on, or an error gets out, or a segment ends with the error that
was put off. -/
theorem onRow_inv (hc : Consecutive take.segments)
    (h : Inv z json take lines compressed i st) (hsegment : take.segments[doneAt take.segments i]? = some segment)
    (hvalid : Valid json take lines i) : (∃ next, st.onRow z json segment (rowAt json lines i) = .ok next ∧
      Inv z json take lines compressed (i + 1) next) ∨
    (∃ e, st.onRow z json segment (rowAt json lines i) = .error e ∧ e ≠ .valueError ∧
      e ≠ .unicodeEncodeError ∧ Escapes json take lines i) ∨
    (st.onRow z json segment (rowAt json lines i) = .error .unicodeEncodeError ∧
      i + 1 = segment.endOrdinal ∧ Unencodable json lines (i + 1)) := by
  obtain ⟨hstart, -⟩ := hc _ _ hsegment
  have hle := endOf_doneAt_le take.segments i
  have hend := endOf_succ hsegment
  set host := hostNs (rowAt json lines i) with hhost
  set first : Option ℤ := some (hostNs (rowAt json lines 0)) with hfirst
  have hfirst' : st.first.or (some host) = first := by
    rw [h.first]
    split
    · next hzero => rw [hhost, hzero]; rfl
    · rfl
  set opened : Option ℤ := some (hostNs (rowAt json lines segment.startOrdinal)) with hopened
  have hopened' : (if st.count = segment.startOrdinal then some host else st.segmentFirst) = opened := by
    rw [h.count, hopened]
    split
    · next heq => rw [hhost, heq]
    · next hne =>
      rw [hstart] at hne ⊢
      exact h.segmentFirst (by omega)
  have hserialized : Serialized z json lines compressed (endOf take.segments (doneAt take.segments i)) i
      { st with first, segmentFirst := opened } := ⟨h.serialized.error, h.serialized.holds⟩
  unfold Recovering.onRow
  simp only [hfirst', hopened', ← hhost]
  rcases serialize_spec hserialized with ⟨writer, output, error, hok, hnext⟩ | ⟨e, herror, hne, hbytes, hencodes⟩
  · rw [hok]
    simp only [bind, Except.bind, h.count]
    have hvalid' : ∀ j < i + 1, Valid json take lines j := by
      intro j hj
      rcases Nat.lt_succ_iff_lt_or_eq.1 hj with hj | rfl
      · exact h.valid j hj
      · exact hvalid
    have hdone := hc.doneAt_succ hsegment
    by_cases hclose : i + 1 = segment.endOrdinal
    · rw [if_pos hclose]
      rw [if_pos hclose] at hdone
      have hend' : endOf take.segments (doneAt take.segments i + 1) = i + 1 := by rw [hend, hclose]
      rcases hnext.error with ⟨hnone, hencodes⟩ | ⟨hsome, hunencodable⟩
      · obtain rfl : error = none := hnone
        obtain ⟨content, hholds, hcontent⟩ := hnext.holds
        obtain rfl := hcontent rfl
        have hnew : ∀ k < doneAt take.segments i + 1, Function.update st.boundaries segment.startOrdinal opened
            (endOf take.segments k) = some (hostNs (rowAt json lines (endOf take.segments k))) := by
          intro k hk
          by_cases hsame : endOf take.segments k = segment.startOrdinal
          · rw [hsame, Function.update_self]
          · rw [Function.update_of_ne hsame]
            apply h.boundaries
            rcases Nat.lt_succ_iff_lt_or_eq.1 hk with hk | rfl
            · exact hk
            · exact absurd hstart.symm hsame
        refine .inl ⟨_, rfl, ⟨hvalid', ?_, ?_, rfl, ?_, ?_, ?_, ?_, rfl, ?_, fun _ => rfl, ?_⟩⟩
        · rw [hdone, hend']
          exact hencodes
        · rw [hdone, ← h.index]
        · rw [hdone, hend']
        · rfl
        · rw [hdone, hend']
          exact fun _ => rfl
        · rw [hdone, hend']
          exact fun hlt => absurd hlt (lt_irrefl _)
        · rw [hdone]
          exact hnew
        · rw [hdone, hend']
          exact ⟨.inl ⟨rfl, hencodes⟩, _, holds_checkpoint hholds, fun _ => rfl⟩
      · obtain rfl : error = some .unicodeEncodeError := hsome
        exact .inr (.inr ⟨rfl, hclose, hunencodable⟩)
    · rw [if_neg hclose]
      rw [if_neg hclose] at hdone
      refine .inl ⟨_, rfl, ⟨hvalid', ?_, ?_, rfl, ?_, rfl, ?_, ?_, rfl, ?_, ?_, ?_⟩⟩
      · rw [hdone]
        exact h.encoded
      · rw [hdone, ← h.index]
      · rw [hdone, ← h.committed]
      · rw [hdone]
        exact h.lastCommitted
      · rw [hdone, ← hstart]
        exact fun _ => rfl
      · rw [hdone]
        exact h.boundaries
      · rw [hdone]
        exact h.checkpoint
      · rw [hdone]
        exact ⟨hnext.error, hnext.holds⟩
  · refine .inr (.inl ⟨e, by rw [herror]; rfl, ?_, hne, h.valid, h.encoded, .inr ⟨hvalid, hencodes, e, hbytes, hne⟩⟩)
    rcases jsonBytes_error hbytes with rfl | rfl <;> nofun

/-! ### The end of the loop -/

theorem Encodes.not_error (h : Encodes json lines i) : jsonBytes json (rowAt json lines i) ≠ .error e := by
  obtain ⟨payload, hpayload⟩ := h
  rw [hpayload]
  nofun

/-- No error gets out at a row that the loop has left behind. -/
theorem not_escapes_below {j : ℕ} (hvalid : ∀ j < i, Valid json take lines j)
    (hencoded : (∀ j < i, Encodes json lines j) ∨ Unencodable json lines i) (hj : j < i) :
    ¬ Escapes json take lines j := by
  intro h
  rcases h.raised with ⟨e, he⟩ | ⟨-, hbefore, e, he, hne⟩
  · obtain ⟨row, hrow⟩ := hvalid j hj
    rw [hrow] at he
    cases he
  · rcases hencoded with hall | ⟨m, -, hearlier, hunicode⟩
    · exact (hall j hj).not_error he
    · rcases lt_trichotomy j m with hlt | rfl | hlt
      · exact (hearlier j hlt).not_error he
      · rw [hunicode] at he
        cases he
        exact hne rfl
      · exact (hbefore m hlt).not_error hunicode

theorem exists_kept (json : Json) (take : Take) (lines : List (List UInt8)) :
    ∃ k, Kept json take lines k := by
  classical
  set P : ℕ → Prop := fun k => ∀ i < endOf take.segments k, Valid json take lines i with hP
  refine ⟨Nat.findGreatest P take.segments.length, Nat.findGreatest_le _, ?_, ?_⟩
  · have hzero : P 0 := fun i hi => absurd hi (Nat.not_lt_zero i)
    exact Nat.findGreatest_spec (P := P) (Nat.zero_le _) hzero
  · exact fun m hm hvalid => Nat.le_findGreatest hm hvalid

theorem kept_doneAt (hc : Consecutive take.segments) (hvalid : ∀ j < i, Valid json take lines j)
    (hstop : ¬ Valid json take lines i) : Kept json take lines (doneAt take.segments i) := by
  refine ⟨doneAt_le _ _, fun j hj => hvalid j (hj.trans_le (endOf_doneAt_le _ _)), fun m hm hall => ?_⟩
  by_contra hlt
  exact hstop (hall i (hc.lt_endOf (not_le.1 hlt) hm))

theorem checkAt_uncaught (h : checkAt json take lines i = .error e) : PyError.caught e = false ∧
      ∃ p ∈ previousAt json lines i, stepInvalid take p (rowAt json lines i) = .error e := by
  unfold checkAt at h
  split at h
  · next line segment hline _ =>
    unfold checkRow at h
    split at h
    · cases h
    · next row hload =>
      have hrow : rowAt json lines i = row := by simp [rowAt, hline, hload]
      split at h
      · cases h
      · cases h
      · next e' herror =>
        split at h
        · cases h
        · next hcaught =>
          cases h
          rw [Bool.not_eq_true] at hcaught
          rw [hrow]
          exact ⟨hcaught, rowInvalid_uncaught herror hcaught⟩
  · cases h

/-- The one error that gets out of the checks: the difference of two source sequences, one a
float and one an integer beyond the floats. -/
theorem checkAt_overflow (h : checkAt json take lines i = .error e) :
    e = .overflowError ∧ ∃ p ∈ previousAt json lines i, ∃ a b,
      (rowAt json lines i).item "source_sequence" = .ok a ∧ p.item "source_sequence" = .ok b ∧
      ∃ n, (a.toInt = some n ∨ b.toInt = some n) ∧ Double.overflow ≤ |n| := by
  obtain ⟨hcaught, p, hp, hstep⟩ := checkAt_uncaught h
  obtain ⟨a, b, ha, hb, hsub⟩ := stepInvalid_uncaught hstep hcaught
  rcases PyValue.sub_error hsub with rfl | ⟨rfl, hlarge⟩
  · cases hcaught
  · exact ⟨rfl, p, hp, a, b, ha, hb, hlarge⟩

theorem Serialized.encoded {n : ℕ} (h : Serialized z json lines compressed n i st) :
    (∀ j < i, Encodes json lines j) ∨ Unencodable json lines i := h.error.imp And.right And.right

/-- Where the loop stops no error gets out. -/
theorem not_escapes_of_stop (h : Inv z json take lines compressed i st)
    (hstop : checkAt json take lines i = .ok none) : ¬ Valid json take lines i ∧ ∀ j, ¬ Escapes json take lines j := by
  have hinvalid : ¬ Valid json take lines i := by
    rintro ⟨row, hrow⟩
    rw [hstop] at hrow
    cases hrow
  refine ⟨hinvalid, fun j hj => ?_⟩
  rcases lt_trichotomy j i with hlt | rfl | hlt
  · exact not_escapes_below h.valid h.serialized.encoded hlt hj
  · rcases hj.raised with ⟨e, he⟩ | ⟨hvalid, -⟩
    · rw [hstop] at he
      cases he
    · exact hinvalid hvalid
  · exact hinvalid (hj.valid i hlt)

/-- Nor where a whole segment cannot be encoded. -/
theorem not_escapes_of_unencodable (hc : Consecutive take.segments) (hvalid : ∀ j < i + 1, Valid json take lines j)
    (hsegment : take.segments[doneAt take.segments i]? = some segment) (hclose : i + 1 = segment.endOrdinal)
    (h : Unencodable json lines (i + 1)) (j : ℕ) : ¬ Escapes json take lines j := by
  intro hj
  by_cases hlt : j < i + 1
  · exact not_escapes_below hvalid (.inr h) hlt hj
  · obtain ⟨hshort, -⟩ := List.getElem?_eq_some_iff.1 hsegment
    have hend : endOf take.segments (doneAt take.segments i + 1) = i + 1 := by
      rw [endOf_succ hsegment, hclose]
    have hdone : doneAt take.segments i + 1 ≤ doneAt take.segments j := by
      by_contra hdone
      have := hc.lt_endOf (not_le.1 hdone) hshort
      omega
    have hle := hc.mono hdone (doneAt_le _ _)
    obtain ⟨m, hm, -, hunicode⟩ := h
    exact (hj.encoded m (by omega)).not_error hunicode

theorem kept_close (hc : Consecutive take.segments) (hvalid : ∀ j < i + 1, Valid json take lines j)
    (hsegment : take.segments[doneAt take.segments i]? = some segment) (hclose : i + 1 = segment.endOrdinal) :
    ∃ k, 0 < k ∧ Kept json take lines k ∧ i + 1 ≤ endOf take.segments k := by
  obtain ⟨k, hk⟩ := exists_kept json take lines
  obtain ⟨hshort, -⟩ := List.getElem?_eq_some_iff.1 hsegment
  have hend : endOf take.segments (doneAt take.segments i + 1) = i + 1 := by
    rw [endOf_succ hsegment, hclose]
  have hle : doneAt take.segments i + 1 ≤ k := hk.maximal _ hshort (by rw [hend]; exact hvalid)
  have hmono := hc.mono hle hk.bound
  exact ⟨k, by omega, hk, by omega⟩

/-- The loop ends behind the last valid row, or with an error that gets out, or at the end of a
segment that is valid and cannot be encoded. -/
theorem recoverLoop_spec (hc : Consecutive take.segments) : ∀ (rest : List (List UInt8)) {i : ℕ}
    {st : Recovering}, Inv z json take lines compressed i st → lines.drop i = rest →
    (∃ last m, recoverLoop z json take st rest = .ok last ∧ Inv z json take lines compressed m last ∧
      ¬ Valid json take lines m ∧ ∀ j, ¬ Escapes json take lines j) ∨
    (∃ e, recoverLoop z json take st rest = .error e ∧ e ≠ .valueError ∧ e ≠ .unicodeEncodeError ∧
      ∃ j, Escapes json take lines j) ∨
    (recoverLoop z json take st rest = .error .unicodeEncodeError ∧ (∀ j, ¬ Escapes json take lines j) ∧
      ∃ k, 0 < k ∧ Kept json take lines k ∧ Unencodable json lines (endOf take.segments k)) := by
  intro rest
  induction rest with
  | nil =>
    intro i st h hdrop
    have hline : lines[i]? = none := List.getElem?_eq_none (List.drop_eq_nil_iff.1 hdrop)
    have hstop : checkAt json take lines i = .ok none := by simp [checkAt, hline]
    exact .inl ⟨st, i, rfl, h, not_escapes_of_stop h hstop⟩
  | cons line rest ih =>
    intro i st h hdrop
    have hline : lines[i]? = some line := by
      have := congrArg List.head? hdrop
      simpa using this
    have hrest : lines.drop (i + 1) = rest := by
      rw [← List.tail_drop, hdrop, List.tail_cons]
    unfold recoverLoop
    rw [h.index]
    cases hsegment : take.segments[doneAt take.segments i]? with
    | none =>
      have hstop : checkAt json take lines i = .ok none := by simp [checkAt, hline, hsegment]
      exact .inl ⟨st, i, rfl, h, not_escapes_of_stop h hstop⟩
    | some segment =>
      have hcheck : checkRow json take (doneAt take.segments i) segment st.count st.previous line =
          checkAt json take lines i := by simp [checkAt, hline, hsegment, h.count, h.previous]
      simp only [hcheck]
      cases hat : checkAt json take lines i with
      | error e =>
        obtain ⟨rfl, -⟩ := checkAt_overflow hat
        exact .inr (.inl ⟨_, rfl, nofun, nofun, i, h.valid, h.encoded, .inl ⟨_, hat⟩⟩)
      | ok row =>
        cases row with
        | none => exact .inl ⟨st, i, rfl, h, not_escapes_of_stop h hat⟩
        | some row =>
          obtain rfl := checkAt_row hat
          have hvalid : Valid json take lines i := ⟨_, hat⟩
          have hall : ∀ j < i + 1, Valid json take lines j := by
            intro j hj
            rcases Nat.lt_succ_iff_lt_or_eq.1 hj with hj | rfl
            · exact h.valid j hj
            · exact hvalid
          simp only [bind, Except.bind]
          rcases onRow_inv hc h hsegment hvalid with
            ⟨next, hok, hnext⟩ | ⟨e, herror, hvalue, hunicode, hescapes⟩ | ⟨herror, hclose, hunencodable⟩
          · rw [hok]
            exact ih hnext hrest
          · rw [herror]
            exact .inr (.inl ⟨e, rfl, hvalue, hunicode, i, hescapes⟩)
          · rw [herror]
            obtain ⟨k, hk, hkept, hle⟩ := kept_close hc hall hsegment hclose
            obtain ⟨j, hj, hbefore, hbytes⟩ := hunencodable
            exact .inr (.inr ⟨rfl, not_escapes_of_unencodable hc hall hsegment hclose ⟨j, hj, hbefore, hbytes⟩,
              k, hk, hkept, j, hj.trans_le hle, hbefore, hbytes⟩)

/-! ### The publication -/

theorem Published.verified {hexdigest : List UInt8 → String} {w : RecoveryIndex} {o : Output}
    {content : List UInt8} (h : Published z hexdigest w o content compressed) :
    (∃ encoding, w.verify z hexdigest o.content = .ok encoding) ∧ IndexHolds z o.content content compressed := by
  cases compressed with
  | true => exact ⟨⟨_, h.2.2⟩, h.1 []⟩
  | false => exact ⟨⟨_, h.2.2⟩, h.1⟩

theorem publish_outcome (hz : z.Lossless) (hc : Consecutive take.segments) (hexdigest : List UInt8 → String)
    (origin : PyValue) (h : Inv z json take lines compressed i st) :
    Outcome z json take origin compressed lines (doneAt take.segments i)
      (st.publish z hexdigest compressed origin take.segments) := by
  have hle := endOf_doneAt_le take.segments i
  unfold Recovering.publish
  rw [h.index, h.committed]
  by_cases hzero : doneAt take.segments i = 0
  · rw [hzero]
    exact .nothing
  have hk : 0 < doneAt take.segments i := Nat.pos_of_ne_zero hzero
  have hpos := hc.endOf_pos hk (doneAt_le _ _)
  obtain ⟨c, hcheckpoint⟩ := Option.isSome_iff_exists.1 (h.checkpoint hk)
  have hfirst : st.first = some (hostNs (rowAt json lines 0)) := by
    rw [h.first, if_neg (by omega)]
  rw [if_neg hpos.ne', hcheckpoint, hfirst, h.lastCommitted hk]
  simp only
  by_cases horigin : originValid origin (hostNs (rowAt json lines 0)) = false
  · rw [if_pos horigin]
    exact .refused hk (.origin horigin)
  · rw [if_neg horigin]
    obtain ⟨content, hholds, -⟩ := h.serialized.holds
    rw [hcheckpoint] at hholds
    have hpublished := holds_finish hz (holds_rollback hholds) hexdigest
    obtain ⟨⟨encoding, hverify⟩, hindex⟩ := hpublished.verified
    simp only [hverify]
    refine .recovered hk ⟨by simpa using horigin, rfl, rfl, rfl, ?_, h.encoded, hindex⟩
    intro segment hsegment
    obtain ⟨k, hlt, rfl⟩ := List.mem_iff_getElem.1 hsegment
    rw [List.length_take] at hlt
    rw [List.getElem_take]
    obtain ⟨hstart, -⟩ := hc k _ (List.getElem?_eq_getElem (by omega))
    rw [hstart]
    exact h.boundaries k (by omega)

theorem inv_start (z : Zstd) (json : Json) (take : Take) (lines : List (List UInt8)) (compressed : Bool)
    (hc : Consecutive take.segments) : Inv z json take lines compressed 0 { writer := { compressed } } := by
  have hdone : doneAt take.segments 0 = 0 :=
    hc.doneAt_eq (Nat.zero_le _) le_rfl fun hlt => hc.step hlt
  refine ⟨nofun, ?_, hdone.symm, rfl, ?_, rfl, ?_, ?_, rfl, ?_, ?_, ?_⟩ <;> rw [hdone]
  · exact nofun
  · rfl
  · exact fun hlt => absurd hlt (lt_irrefl 0)
  · exact fun hlt => absurd hlt (lt_irrefl 0)
  · exact nofun
  · exact fun hlt => absurd hlt (lt_irrefl 0)
  · exact ⟨.inl ⟨rfl, nofun⟩, [], holds_start z compressed, fun _ => rfl⟩

end Loop

theorem Refuses.error {json : Json} {take : Take} {origin : PyValue} {lines : List (List UInt8)} {k : ℕ}
    (h : Refuses json take origin lines k e) : e = .valueError ∨ e = .unicodeEncodeError := by
  cases h with
  | origin => exact .inl rfl
  | unicode => exact .inr rfl

/-- `_frames` keeps the longest prefix of whole valid segments, and refuses for its two reasons
only, if and only if no error gets out at a row that it reaches. -/
theorem frames_keeps_prefix {z : Zstd} (hz : z.Lossless) (json : Json) (hexdigest : List UInt8 → String)
    {take : Take} (hc : Consecutive take.segments) (origin : PyValue) (compressed : Bool)
    (content : List UInt8) :
    (∃ k, Kept json take (journalLines content) k ∧ Outcome z json take origin compressed (journalLines content) k
      (frames z json hexdigest take origin compressed content)) ↔
    ∀ i, ¬ Escapes json take (journalLines content) i := by
  set lines := journalLines content with hlines
  have hstart := inv_start z json take lines compressed hc
  unfold frames
  rw [← hlines]
  rcases recoverLoop_spec hc lines hstart rfl with
    ⟨last, m, hok, hinv, hinvalid, hescapes⟩ | ⟨e, herror, hvalue, hunicode, i, hescapes⟩ |
    ⟨herror, hescapes, k, hk, hkept, hunencodable⟩
  · rw [hok]
    exact ⟨fun _ => hescapes, fun _ =>
      ⟨_, kept_doneAt hc hinv.valid hinvalid, publish_outcome hz hc hexdigest origin hinv⟩⟩
  · rw [herror]
    refine ⟨?_, fun hnone => absurd hescapes (hnone i)⟩
    rintro ⟨k, -, houtcome⟩
    cases houtcome with
    | refused _ hrefuses =>
      rcases hrefuses.error with rfl | rfl
      · exact absurd rfl hvalue
      · exact absurd rfl hunicode
  · rw [herror]
    obtain ⟨j, hj, -, hbytes⟩ := hunencodable
    exact ⟨fun _ => hescapes, fun _ => ⟨k, hkept, .refused hk (.unicode hj hbytes)⟩⟩

/-! The second row of this journal has an integer of 401 digits for a source sequence, the
first one a float. -/

def ascii (s : String) : List UInt8 := s.toList.map fun c => UInt8.ofNat c.toNat

def sampleText (frame host : String) : List UInt8 :=
  ascii "\x7b\"session_id\":\"s\",\"schema\":\"ylx.frame-index.v2\",\"frame\":" ++ ascii frame ++
    ascii ",\"segment_index\":" ++ ascii frame ++ ascii ",\"segment_frame\":0,\"host_monotonic_ns\":" ++
    ascii host ++ ascii ",\"source_sequence\":1"

def sampleFirst : List UInt8 := sampleText "0" "1" ++ ascii ".0\x7d\n"

def sampleSecond : List UInt8 := sampleText "1" "2" ++ List.replicate 400 48 ++ ascii "\x7d\n"

def sampleRow (frame : ℕ) (host : ℤ) (sequence : PyValue) : PyValue := .dict [
  (.text "session_id", .str (.text "s")), (.text "schema", .str (.text "ylx.frame-index.v2")),
  (.text "frame", .int frame), (.text "segment_index", .int frame), (.text "segment_frame", .int 0),
  (.text "host_monotonic_ns", .int host), (.text "source_sequence", sequence)]

/-- Only the first row is serialized. -/
def sampleRendered : String := "\x7b\"frame\":0,\"host_monotonic_ns\":1,\"schema\":\"ylx.frame-index.v2\"," ++
  "\"segment_frame\":0,\"segment_index\":0,\"session_id\":\"s\",\"source_sequence\":1.0\x7d"

def sampleJson : Json where
  loads line :=
    if line = sampleFirst then some (sampleRow 0 1 (.float (.finite 1)))
    else if line = sampleSecond then some (sampleRow 1 2 (.int (10 ^ 400)))
    else none
  dumps _ := some (.text sampleRendered)

def sampleTake : Take := ⟨.text "s", 1, [⟨0, 1⟩, ⟨1, 2⟩]⟩

theorem sampleTake_consecutive : Consecutive sampleTake.segments := by
  intro k segment h
  match k with
  | 0 => cases h; exact ⟨rfl, Nat.zero_lt_one⟩
  | 1 => cases h; exact ⟨rfl, Nat.lt_succ_self 1⟩
  | k + 2 => cases h

theorem checked {r : Except PyError (Option PyValue)} {b : Bool} (h : r.toOption.map Option.isSome = some b) :
    ∃ value, r = .ok value ∧ value.isSome = b := by
  cases r with
  | error => cases h
  | ok value => exact ⟨value, rfl, Option.some.inj h⟩

def samplePlain : List UInt8 := sampleFirst ++ ascii "x\n"

/-- The second line is no row, so the first segment is what is recovered. -/
theorem frames_keeps_prefix_sample : ∃ r,
    frames sampleZstd sampleJson (fun _ => "") sampleTake (.int 1) false samplePlain =
      ⟨.ok (some r), [⟨0, 1⟩], some (sampleRendered ++ "\n").toUTF8.toList⟩ ∧
    Kept sampleJson sampleTake (journalLines samplePlain) 1 ∧
    r.count = 1 ∧ r.firstMonotonicNs = 1 ∧ r.lastMonotonicNs = 1 ∧ r.boundaryMonotonicNs 0 = some 1 := by
  obtain ⟨row, hrow, hsome⟩ := checked (r := checkAt sampleJson sampleTake (journalLines samplePlain) 0) (b := true)
    (by decide +kernel)
  obtain ⟨row', hbad, hnone⟩ := checked (r := checkAt sampleJson sampleTake (journalLines samplePlain) 1) (b := false)
    (by decide +kernel)
  obtain ⟨first, rfl⟩ := Option.isSome_iff_exists.1 hsome
  have hinvalid : ¬ Valid sampleJson sampleTake (journalLines samplePlain) 1 := by
    rintro ⟨value, hvalue⟩
    cases hbad.symm.trans hvalue
    cases hnone
  have hescapes : ∀ i, ¬ Escapes sampleJson sampleTake (journalLines samplePlain) i := by
    rintro (_ | _ | i) h
    · rcases h.raised with ⟨e, he⟩ | ⟨-, -, e, he, -⟩
      · cases hrow.symm.trans he
      · cases he
    · rcases h.raised with ⟨e, he⟩ | ⟨hvalid, -⟩
      · cases hbad.symm.trans he
      · exact hinvalid hvalid
    · exact hinvalid (h.valid 1 (by omega))
  have hlaw := frames_keeps_prefix sampleZstd_lossless sampleJson (fun _ => "") sampleTake_consecutive (.int 1) false
    samplePlain
  obtain ⟨k, hkept, houtcome⟩ := hlaw.2 hescapes
  obtain rfl : k = 1 := by
    have hlow := hkept.maximal 1 (by decide) fun i hi => by
      obtain rfl : i = 0 := Nat.lt_one_iff.1 hi
      exact ⟨first, hrow⟩
    have hhigh := hkept.bound
    obtain rfl | rfl : k = 1 ∨ k = 2 := by simp only [sampleTake, List.length_cons, List.length_nil] at hhigh; omega
    · rfl
    · exact absurd (hkept.valid 1 (by decide)) hinvalid
  generalize hframes : frames sampleZstd sampleJson (fun _ => "") sampleTake (.int 1) false samplePlain = r at houtcome
  cases houtcome with
  | recovered _ h =>
    obtain rfl := h.index
    have hindex : canonical sampleJson (journalLines samplePlain) (endOf sampleTake.segments 1) =
        (sampleRendered ++ "\n").toUTF8.toList := by
      rw [canonical, show endOf sampleTake.segments 1 = 1 from rfl, List.range_one, List.flatMap_singleton]
      rfl
    rw [hindex]
    have hhost : hostNs (rowAt sampleJson (journalLines samplePlain) 0) = 1 := by decide +kernel
    exact ⟨_, rfl, hkept, h.count, h.first.trans hhost, h.last.trans hhost,
      (h.boundaries ⟨0, 1⟩ (by simp [sampleTake])).trans (congrArg some hhost)⟩
  | refused _ hrefuses =>
    cases hrefuses with
    | origin h => exact absurd h (by decide +kernel)
    | unicode => rename_i h; cases h

def FramesResult.overflows (r : FramesResult) : Bool :=
  match r.result with
  | .error .overflowError => true
  | _ => false

/-- The first segment is whole and valid, and `_frames` raises an error that is none of its
refusals. -/
theorem frames_keeps_prefix_fails :
    (∃ e, (frames sampleZstd sampleJson (fun _ => "") sampleTake (.int 1) false
        (sampleFirst ++ sampleSecond)).result = .error e ∧ e = .overflowError) ∧
    Valid sampleJson sampleTake (journalLines (sampleFirst ++ sampleSecond)) 0 ∧
    ¬ ∃ k, Kept sampleJson sampleTake (journalLines (sampleFirst ++ sampleSecond)) k ∧
      Outcome sampleZstd sampleJson sampleTake (.int 1) false (journalLines (sampleFirst ++ sampleSecond)) k
        (frames sampleZstd sampleJson (fun _ => "") sampleTake (.int 1) false
          (sampleFirst ++ sampleSecond)) := by
  have hraises : ∀ r : FramesResult, r.overflows = true → r.result = .error .overflowError := by
    intro r h
    unfold FramesResult.overflows at h
    split at h
    · assumption
    · cases h
  have hresult := hraises (frames sampleZstd sampleJson (fun _ => "") sampleTake (.int 1) false
    (sampleFirst ++ sampleSecond)) (by decide +kernel)
  obtain ⟨row, hrow, hsome⟩ := checked (r := checkAt sampleJson sampleTake (journalLines (sampleFirst ++ sampleSecond)) 0)
    (b := true) (by decide +kernel)
  obtain ⟨first, rfl⟩ := Option.isSome_iff_exists.1 hsome
  refine ⟨⟨_, hresult, rfl⟩, ⟨first, hrow⟩, ?_⟩
  · rintro ⟨k, -, houtcome⟩
    generalize frames sampleZstd sampleJson (fun _ => "") sampleTake (.int 1) false
      (sampleFirst ++ sampleSecond) = r at hresult houtcome
    cases houtcome with
    | nothing => cases hresult
    | recovered => cases hresult
    | refused _ hrefuses =>
      cases hresult
      rcases hrefuses.error with h | h <;> cases h

end Conductor.Recovery
