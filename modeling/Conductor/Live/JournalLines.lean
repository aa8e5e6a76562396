import Conductor.Lib.ByteLines

/-! `_journal_lines` of the capture audit on a file that no longer grows, and the way
`capture_audit` consumes the rows of two such generators. A generator is the list of
the rows it yields with the error it raises at the end, if any. What the audit computes
from a row is a parameter. -/

namespace Conductor.Live

open ByteLines

inductive AuditError where
  | overlong
  | truncated
  | nonIncreasing
  | row (message : String)
  deriving DecidableEq

def AuditError.message : AuditError → String
  | .overlong => "capture audit record exceeds limit"
  | .truncated => "capture audit found a truncated record"
  | .nonIncreasing => "camera audit found non-increasing timestamps"
  | .row message => message

/-- The greatest length of a record, with its newline. -/
def recordLimit : ℕ := 1048576

abbrev Stream := List (List UInt8) × Option AuditError

/-- What one `readline` call does to the record that is being read. -/
inductive Turn where
  | atEnd
  | overlong
  | record (row : List UInt8)
  | more (pending : List UInt8)

/-- The line that `_journal_lines` reads next from the unread bytes. -/
def nextLine (pending unread : List UInt8) : List UInt8 :=
  readline (recordLimit + 1 - pending.length) unread

def turn (pending unread : List UInt8) : Turn :=
  let line := nextLine pending unread
  if line = [] then .atEnd
  else if recordLimit < (pending ++ line).length then .overlong
  else if endsWithNewline (pending ++ line) then .record (pending ++ line)
  else .more (pending ++ line)

/-- The end of the generator when the file has ended and the producer has finished. -/
def ending (pending : List UInt8) : Option AuditError := if pending = [] then none else some .truncated

variable {pending : List UInt8} {unread line : List UInt8}

theorem nextLine_ne_nil {t : Turn} (h : turn pending unread = t) (ht : t ≠ .atEnd) : nextLine pending unread ≠ [] := by
  rintro hnil
  simp only [turn, hnil, ↓reduceIte] at h
  exact ht h.symm

theorem drop_nextLine_lt (h : nextLine pending unread ≠ []) :
    (unread.drop (nextLine pending unread).length).length < unread.length := by
  have hle : (nextLine pending unread).length ≤ unread.length := (readline_isPrefix _ _).length_le
  have hpos : 0 < (nextLine pending unread).length := List.length_pos_of_ne_nil h
  rw [List.length_drop]
  omega

/-- `_journal_lines(stream, None)` with `pending` read and `unread` still in the file. -/
def journalLines (pending unread : List UInt8) : Stream :=
  match _h : turn pending unread with
  | .atEnd => ([], ending pending)
  | .overlong => ([], some .overlong)
  | .record row =>
    let rest := journalLines [] (unread.drop (nextLine pending unread).length)
    (row :: rest.1, rest.2)
  | .more pending' => journalLines pending' (unread.drop (nextLine pending unread).length)
termination_by unread.length
decreasing_by
  all_goals exact drop_nextLine_lt (nextLine_ne_nil _h nofun)

theorem journalLines_eq (pending unread : List UInt8) :
    journalLines pending unread =
      match turn pending unread with
      | .atEnd => ([], ending pending)
      | .overlong => ([], some .overlong)
      | .record row =>
        (row :: (journalLines [] (unread.drop (nextLine pending unread).length)).1,
          (journalLines [] (unread.drop (nextLine pending unread).length)).2)
      | .more pending' => journalLines pending' (unread.drop (nextLine pending unread).length) := by
  rw [journalLines]
  split <;> simp_all

/-- Rows that were yielded before the rest of a stream. -/
def prepend (rows : List (List UInt8)) (s : Stream) : Stream := (rows ++ s.1, s.2)

@[simp] theorem prepend_nil (s : Stream) : prepend [] s = s := rfl

@[simp] theorem prepend_prepend (xs ys : List (List UInt8)) (s : Stream) :
    prepend xs (prepend ys s) = prepend (xs ++ ys) s := by
  simp [prepend]

/-! ### Reading in pieces -/

/-- A record within the limit: its newline is its last byte. -/
def IsRecord (row : List UInt8) : Prop :=
  row.length ≤ recordLimit ∧ ∃ body, newline ∉ body ∧ row = body ++ [newline]

/-- A pending record: no newline yet, and within the limit. -/
structure Pending (pending : List UInt8) : Prop where
  newline : newline ∉ pending
  length : pending.length ≤ recordLimit

theorem Pending.nil : Pending [] := ⟨by simp, by simp⟩

/-- The outcomes of a `readline` call. Only the end of the file and a partial record say
anything about the bytes behind the line. -/
inductive TurnSpec (pending unread : List UInt8) : Turn → Prop where
  | atEnd (h : unread = []) : TurnSpec pending unread .atEnd
  | overlong (hlen : (pending ++ nextLine pending unread).length = recordLimit + 1)
      (hstable : ∀ more, nextLine pending (nextLine pending unread ++ more) = nextLine pending unread)
      (hline : newline ∉ (pending ++ nextLine pending unread).take recordLimit) :
      TurnSpec pending unread .overlong
  | record (hrow : IsRecord (pending ++ nextLine pending unread))
      (hstable : ∀ more, nextLine pending (nextLine pending unread ++ more) = nextLine pending unread) :
      TurnSpec pending unread (.record (pending ++ nextLine pending unread))
  | more (hpending : Pending (pending ++ nextLine pending unread)) (hall : nextLine pending unread = unread)
      (hne : unread ≠ []) : TurnSpec pending unread (.more (pending ++ nextLine pending unread))

theorem nextLine_length_le (h : Pending pending) (unread : List UInt8) :
    (pending ++ nextLine pending unread).length ≤ recordLimit + 1 := by
  have hlen := h.length
  have hline := readline_length_le (recordLimit + 1 - pending.length) unread
  rw [List.length_append, nextLine]
  omega

theorem turnSpec (h : Pending pending) (unread : List UInt8) : TurnSpec pending unread (turn pending unread) := by
  have hlen := h.length
  have hmax := nextLine_length_le h unread
  have hpos : 0 < recordLimit + 1 - pending.length := by omega
  unfold turn
  simp only
  split
  · next hnil => exact .atEnd ((readline_eq_nil hpos).1 hnil)
  next hnil =>
  have hne : unread ≠ [] := fun hu => hnil ((readline_eq_nil hpos).2 hu)
  have hstable : (nextLine pending unread).length = recordLimit + 1 - pending.length ∨
      endsWithNewline (nextLine pending unread) = true →
      ∀ more, nextLine pending (nextLine pending unread ++ more) = nextLine pending unread :=
    readline_stable rfl
  rcases readline_cases (recordLimit + 1 - pending.length) unread with
    ⟨body, hbody, hbodyLen, heq⟩ | ⟨hline, hstop⟩
  · -- the line is whole
    change nextLine pending unread = body ++ [newline] at heq
    have hmem : newline ∉ pending ++ body := by
      simp only [List.mem_append, not_or]
      exact ⟨h.newline, hbody⟩
    have hst := hstable (.inr (by rw [heq]; exact endsWithNewline_append_newline body))
    have hsplit : pending ++ nextLine pending unread = (pending ++ body) ++ [newline] := by simp [heq]
    split
    · refine .overlong (by omega) hst fun hin => hmem ?_
      rw [hsplit, List.length_append, List.length_singleton] at hmax
      rw [hsplit] at hin
      rw [List.take_append_of_le_length (by rw [hsplit] at *; simp at *; omega)] at hin
      exact List.mem_of_mem_take hin
    · have hends : endsWithNewline (pending ++ nextLine pending unread) = true := by
        rw [hsplit]
        exact endsWithNewline_append_newline _
      rw [if_pos hends]
      exact .record ⟨by omega, _, hmem, hsplit⟩ hst
  · -- the line stopped at the limit or at the end of the file
    change newline ∉ nextLine pending unread at hline
    have hmem : newline ∉ pending ++ nextLine pending unread := by
      simp only [List.mem_append, not_or]
      exact ⟨h.newline, hline⟩
    split
    · next hover =>
      refine .overlong (by omega) (hstable (.inl ?_)) fun hin => hmem (List.mem_of_mem_take hin)
      rw [List.length_append] at hover hmax
      omega
    · next hover =>
      rw [if_neg (by simp [endsWithNewline_of_notMem hmem])]
      refine .more ⟨hmem, by omega⟩ (hstop.resolve_left fun hfull => ?_) hne
      change (nextLine pending unread).length = _ at hfull
      rw [List.length_append] at hover
      omega

/-- A partial record may be read in two pieces. -/
theorem journalLines_append {body : List UInt8} (h : Pending (pending ++ body))
    (more : List UInt8) : journalLines pending (body ++ more) = journalLines (pending ++ body) more := by
  by_cases hnil : body = []
  · simp [hnil]
  have hlen := h.length
  have hbody : newline ∉ body := fun hb => h.newline (List.mem_append_right _ hb)
  have hnext : nextLine pending (body ++ more) = body ++ nextLine (pending ++ body) more := by
    unfold nextLine
    rw [readline_append hbody (by rw [List.length_append] at hlen; omega), List.length_append,
      Nat.sub_add_eq]
  by_cases hline : nextLine (pending ++ body) more = []
  · obtain rfl : more = [] := (readline_eq_nil (by omega)).1 hline
    simp only [hline, List.append_nil] at hnext ⊢
    have hturn : turn pending body = .more (pending ++ body) := by
      unfold turn
      simp only [hnext, hnil, ↓reduceIte, not_lt.2 hlen, endsWithNewline_of_notMem h.newline,
        Bool.false_eq_true]
    rw [journalLines_eq, hturn]
    simp [hnext]
  · have hturn : turn pending (body ++ more) = turn (pending ++ body) more := by
      unfold turn
      simp only [hnext, hline, List.append_eq_nil_iff, hnil, false_and, ↓reduceIte, List.append_assoc]
    have hdrop : (body ++ more).drop (nextLine pending (body ++ more)).length =
        more.drop (nextLine (pending ++ body) more).length := by
      rw [hnext, List.length_append, ← List.drop_drop, List.drop_left]
    have hend : turn (pending ++ body) more ≠ .atEnd := fun ht => by
      unfold turn at ht
      simp only [hline, ↓reduceIte] at ht
      split at ht
      · cases ht
      · split at ht <;> cases ht
    rw [journalLines_eq, journalLines_eq (pending ++ body), hturn, hdrop]
    split
    · next ht => exact absurd ht hend
    · rfl
    · rfl
    · rfl

/-- A line that did not meet the end of the file decides the next turn, whatever follows it. -/
theorem turn_stable (hline : line ≠ []) (hstable : ∀ more, nextLine pending (line ++ more) = line) (more : List UInt8) :
    turn pending (line ++ more) = if recordLimit < (pending ++ line).length then .overlong
      else if endsWithNewline (pending ++ line) then .record (pending ++ line)
      else .more (pending ++ line) := by
  unfold turn
  simp only [hstable, hline, ↓reduceIte]

theorem journalLines_record (hline : line ≠ [])
    (hrow : IsRecord (pending ++ line)) (hstable : ∀ more, nextLine pending (line ++ more) = line)
    (more : List UInt8) :
    journalLines pending (line ++ more) = prepend [pending ++ line] (journalLines [] more) := by
  obtain ⟨hlen, body, -, hbody⟩ := hrow
  have hends : endsWithNewline (pending ++ line) = true := by
    rw [hbody]
    exact endsWithNewline_append_newline body
  rw [journalLines_eq, turn_stable hline hstable, if_neg (not_lt.2 hlen), if_pos hends]
  simp [hstable, prepend]

theorem journalLines_overlong (hline : line ≠ []) (hlen : recordLimit < (pending ++ line).length)
    (hstable : ∀ more, nextLine pending (line ++ more) = line) (more : List UInt8) :
    journalLines pending (line ++ more) = ([], some .overlong) := by
  rw [journalLines_eq, turn_stable hline hstable, if_pos hlen]

@[simp] theorem journalLines_atEnd (pending : List UInt8) : journalLines pending [] = ([], ending pending) := by
  have hturn : turn pending [] = .atEnd := by
    have hline : nextLine pending [] = [] := List.prefix_nil.1 (readline_isPrefix _ _)
    simp [turn, hline]
  rw [journalLines_eq, hturn]

/-! ### What the generator yields -/

/-- The bytes that are left when the generator ends. -/
def Leaves : Option AuditError → List UInt8 → Prop
  | none, rest => rest = []
  | some .truncated, rest => rest ≠ [] ∧ Pending rest
  | some .overlong, rest => recordLimit < rest.length ∧ newline ∉ rest.take recordLimit
  | some _, _ => False

/-- The rows are the records of the file in order; an error names what follows them. -/
theorem journalLines_sound (h : Pending pending) (unread : List UInt8) :
    (∀ row ∈ (journalLines pending unread).1, IsRecord row) ∧
      ∃ rest, pending ++ unread = (journalLines pending unread).1.flatten ++ rest ∧
        Leaves (journalLines pending unread).2 rest := by
  have hsplit : ∀ p u, nextLine p u ++ u.drop (nextLine p u).length = u := fun _ _ =>
    readline_append_drop _ _
  induction pending, unread using journalLines.induct with
  | case1 pending unread ht =>
    have hspec := turnSpec h unread
    rw [ht] at hspec
    obtain ⟨rfl⟩ := hspec
    rw [journalLines_eq, ht]
    refine ⟨by simp, pending, by simp, ?_⟩
    by_cases hp : pending = []
    · simp [ending, hp, Leaves]
    · simp only [ending, hp, ↓reduceIte]
      exact ⟨hp, h⟩
  | case2 pending unread ht =>
    have hspec := turnSpec h unread
    rw [ht] at hspec
    rw [journalLines_eq, ht]
    cases hspec with
    | overlong hlen _ hline =>
      refine ⟨by simp, pending ++ unread, by simp, ?_, ?_⟩
      · rw [← hsplit pending unread, ← List.append_assoc, List.length_append]
        omega
      · rw [← hsplit pending unread, ← List.append_assoc, List.take_append_of_le_length (by omega)]
        exact hline
  | case3 pending unread row ht ih =>
    have hspec := turnSpec h unread
    rw [ht] at hspec
    rw [journalLines_eq, ht]
    cases hspec with
    | record hrow hstable =>
      obtain ⟨hrows, rest, hrest, hleaves⟩ := ih Pending.nil
      refine ⟨by simpa using ⟨hrow, hrows⟩, rest, ?_, hleaves⟩
      rw [List.nil_append] at hrest
      rw [List.flatten_cons, List.append_assoc, ← hrest, List.append_assoc, hsplit]
  | case4 pending unread pending' ht ih =>
    have hspec := turnSpec h unread
    rw [ht] at hspec
    rw [journalLines_eq, ht]
    cases hspec with
    | more hpending hall hne =>
      obtain ⟨hrows, rest, hrest, hleaves⟩ := ih hpending
      refine ⟨hrows, rest, ?_, hleaves⟩
      rw [← hrest, List.append_assoc, hsplit]

theorem nextLine_of_isRecord {row : List UInt8} (h : IsRecord row) (more : List UInt8) :
    nextLine [] (row ++ more) = row := by
  obtain ⟨hlen, body, hbody, rfl⟩ := h
  rw [List.append_assoc, List.singleton_append]
  refine readline_line hbody ?_
  rw [List.length_append, List.length_singleton] at hlen
  rw [List.length_nil]
  omega

/-- Every record of the file is yielded, once and in order. -/
theorem journalLines_complete {rows : List (List UInt8)} (h : ∀ row ∈ rows, IsRecord row)
    (rest : List UInt8) : journalLines [] (rows.flatten ++ rest) = prepend rows (journalLines [] rest) := by
  induction rows with
  | nil => simp
  | cons row rows ih =>
    obtain ⟨hrow, hrows⟩ := List.forall_mem_cons.1 h
    have hne : row ≠ [] := by
      obtain ⟨-, body, -, rfl⟩ := hrow
      simp
    rw [List.flatten_cons, List.append_assoc,
      journalLines_record hne (by simpa using hrow) (nextLine_of_isRecord hrow), ih hrows]
    simp

/-! ### The consumer -/

/-- What `capture_audit` computes from one row: the host time of the row, and the new totals
after a frame is read, after the samples before it are read, and after a sample is read. -/
structure Observers (A : Type) where
  host : List UInt8 → Except AuditError ℤ
  frame : A → List UInt8 → Except AuditError A
  matched : A → List UInt8 → Except AuditError A
  imu : A → List UInt8 → Except AuditError A

variable {A : Type} (o : Observers A)

/-- Observe the samples up to `bound`. The first row that is later stays at the head: it is
the pending one, which has been pulled but not observed. -/
def drainImu (bound : ℤ) (ending : Option AuditError) :
    A → List (List UInt8) → Except AuditError (A × List (List UInt8))
  | acc, [] =>
    match ending with
    | some e => .error e
    | none => .ok (acc, [])
  | acc, row :: rest => do
    let host ← o.host row
    if bound < host then return (acc, row :: rest)
    let acc ← o.imu acc row
    drainImu bound ending acc rest

/-- The loop over the camera rows and, after it, over the samples that are left. -/
def auditFrames (camera imu : Option AuditError) :
    A → Option ℤ → List (List UInt8) → List (List UInt8) → Except AuditError A
  | acc, _, samples, [] => do
    if let some e := camera then throw e
    let acc ← samples.foldlM o.imu acc
    if let some e := imu then throw e
    return acc
  | acc, previous, samples, line :: lines => do
    let host ← o.host line
    let acc ← o.frame acc line
    if previous.any (host ≤ ·) then throw .nonIncreasing
    let (acc, samples) ← drainImu o (host + 50000000) imu acc samples
    let acc ← o.matched acc line
    auditFrames camera imu acc (some host) samples lines

def captureAudit (start : A) (camera imu : Stream) : Except AuditError A :=
  auditFrames o camera.2 imu.2 start none imu.1 camera.1

end Conductor.Live
