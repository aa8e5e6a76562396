import Conductor.Live.JournalLines
import Conductor.Lib.Runs

/-! `_journal_lines(stream, finished)` on a file that a producer still appends to. A
`readline` call, the check of the flag and the wait are separate steps, and the producer
appends any bytes between two of them until it sets the flag. The invariant says that
whatever the producer still appends, the closed file yields the rows so far and then what
the pending record and the unread bytes yield. -/

namespace Conductor.Live

open ByteLines Runs

inductive Phase where
  | reading
  | checking
  | waiting
  | ended (error : Option AuditError)
  deriving DecidableEq

structure Tail where
  content : List UInt8 := []
  finished : Bool := false
  offset : ℕ := 0
  pending : List UInt8 := []
  rows : List (List UInt8) := []
  phase : Phase := .reading

namespace Tail

inductive Action where
  | append (chunk : List UInt8)
  | finish
  | read
  | check
  | wait
  deriving DecidableEq

def unread (s : Tail) : List UInt8 := s.content.drop s.offset

/-- The stream that the generator has yielded so far. -/
def stream (s : Tail) : Stream :=
  match s.phase with
  | .ended e => (s.rows, e)
  | _ => (s.rows, none)

def advance (s : Tail) : ℕ := s.offset + (nextLine s.pending s.unread).length

def step (s : Tail) : Action → Option Tail
  | .append chunk => if s.finished then none else some { s with content := s.content ++ chunk }
  | .finish => if s.finished then none else some { s with finished := true }
  | .read =>
    if s.phase = .reading then
      match turn s.pending s.unread with
      | .atEnd => some { s with phase := .checking }
      | .overlong => some { s with phase := .ended (some .overlong) }
      | .record row => some { s with offset := s.advance, pending := [], rows := s.rows ++ [row] }
      | .more pending => some { s with offset := s.advance, pending }
    else none
  | .check =>
    if s.phase = .checking then
      some { s with phase := if s.finished then .ended (ending s.pending) else .waiting }
    else none
  | .wait => if s.phase = .waiting then some { s with phase := .reading } else none

/-- The rows so far begin those of the file, and at the end the generator has behaved as it
does on the closed file. -/
structure Faithful (s : Tail) : Prop where
  rows : s.rows <+: (journalLines [] s.content).1
  ended : ∀ e, s.phase = .ended e → journalLines [] s.content = (s.rows, e)

/-- A check that finds the flag set misses nothing: every byte has been read, or a partial
record is pending that the unread bytes neither complete nor take over the limit. -/
def Caught (s : Tail) (a : Action) (_ : Tail) : Prop :=
  a = .check → s.finished = true →
    s.unread = [] ∨ (s.pending ≠ [] ∧ newline ∉ s.unread ∧
      s.pending.length + s.unread.length ≤ recordLimit)

instance (s : Tail) (a : Action) (t : Tail) : Decidable (Caught s a t) :=
  inferInstanceAs (Decidable (_ → _ → _))

/-- The generator always has a step until it has ended, and few of them. -/
structure Ends (s : Tail) : Prop where
  proceeds : (∀ e, s.phase ≠ .ended e) → ∃ a t, step s a = some t
  bounded : ∀ actions t, run step s actions = some t → actions.length ≤ s.unread.length + 3

structure Inv (s : Tail) : Prop where
  pending : Pending s.pending
  offset : s.offset ≤ s.content.length
  running : (∀ e, s.phase ≠ .ended e) → ∀ more,
    journalLines [] (s.content.take s.offset ++ more) = prepend s.rows (journalLines s.pending more)
  ended : ∀ e, s.phase = .ended e →
    (s.finished = true ∧ journalLines [] s.content = (s.rows, e)) ∨
      ∀ more, journalLines [] (s.content ++ more) = (s.rows, e)

theorem init_inv : Inv {} where
  pending := Pending.nil
  offset := le_rfl
  running _ more := by simp
  ended _ h := by cases h

variable {s t : Tail}

theorem faithful_of_inv (h : Inv s) : Faithful s := by
  by_cases hend : ∃ e, s.phase = .ended e
  · obtain ⟨e, he⟩ := hend
    have heq : journalLines [] s.content = (s.rows, e) := by
      rcases h.ended e he with ⟨-, heq⟩ | heq
      · exact heq
      · simpa using heq []
    refine ⟨by rw [heq], fun e' he' => ?_⟩
    cases he.symm.trans he'
    exact heq
  · simp only [not_exists] at hend
    have hrun := h.running hend s.unread
    rw [unread, List.take_append_drop] at hrun
    refine ⟨?_, fun e he => absurd he (hend e)⟩
    rw [hrun]
    exact List.prefix_append _ _

/-! ### The steps -/

theorem take_advance (s : Tail) (h : s.offset ≤ s.content.length) :
    s.content.take s.advance = s.content.take s.offset ++ nextLine s.pending s.unread ∧
      s.advance ≤ s.content.length := by
  have hprefix : nextLine s.pending s.unread <+: s.unread := readline_isPrefix _ _
  have hlen := hprefix.length_le
  rw [unread, List.length_drop] at hlen
  refine ⟨?_, by unfold advance unread at *; omega⟩
  rw [advance, List.take_add, ← unread]
  congr 1
  exact (List.prefix_iff_eq_take.1 hprefix).symm

theorem read_inv (h : Inv s) (ht : step s .read = some t) : Inv t := by
  simp only [step] at ht
  split at ht
  swap
  · cases ht
  next hphase =>
  have hrun := h.running (by simp [hphase])
  obtain ⟨htake, hle⟩ := take_advance s h.offset
  have hspec := turnSpec h.pending s.unread
  split at ht
  · cases ht
    exact ⟨h.pending, h.offset, fun _ => hrun, by simp⟩
  · next hturn => -- overlong
    cases ht
    refine ⟨h.pending, h.offset, fun hne => absurd rfl (hne _), fun e he => .inr fun more => ?_⟩
    cases he
    rw [hturn] at hspec
    cases hspec with
    | overlong hlen hstable _ =>
      have hne : nextLine s.pending s.unread ≠ [] := nextLine_ne_nil hturn (by simp)
      have hsplit : s.content ++ more = s.content.take s.offset ++ (nextLine s.pending s.unread ++
          (s.unread.drop (nextLine s.pending s.unread).length ++ more)) := by
        rw [← List.append_assoc (nextLine _ _), nextLine, readline_append_drop, unread,
          ← List.append_assoc, List.take_append_drop]
      rw [hsplit, hrun, journalLines_overlong hne (by omega) hstable]
      simp [prepend]
  · next row hturn => -- record
    cases ht
    rw [hturn] at hspec
    cases hspec with
    | record hrow hstable =>
      have hne : nextLine s.pending s.unread ≠ [] := nextLine_ne_nil hturn (by simp)
      refine ⟨Pending.nil, hle, fun _ more => ?_, fun e he => ?_⟩
      · show journalLines [] (s.content.take s.advance ++ more) = _
        rw [htake, List.append_assoc, hrun, journalLines_record hne hrow hstable]
        simp
      · cases hphase.symm.trans he
  · next pending hturn => -- more
    cases ht
    rw [hturn] at hspec
    cases hspec with
    | more hpending hall hne =>
      refine ⟨hpending, hle, fun _ more => ?_, fun e he => ?_⟩
      · show journalLines [] (s.content.take s.advance ++ more) = _
        rw [htake, List.append_assoc, hrun, journalLines_append hpending]
      · cases hphase.symm.trans he

/-- The end of the generator, when the flag is set and nothing is missed. -/
theorem journalLines_caught {pending unread : List UInt8} (h : Pending pending)
    (hcaught : unread = [] ∨ (pending ≠ [] ∧ newline ∉ unread ∧
      pending.length + unread.length ≤ recordLimit)) :
    journalLines pending unread = ([], ending pending) := by
  rcases hcaught with rfl | ⟨hne, hline, hlen⟩
  · simp
  · have hp : Pending (pending ++ unread) :=
      ⟨by simp only [List.mem_append, not_or]; exact ⟨h.newline, hline⟩, by simpa using hlen⟩
    have hsplit := journalLines_append hp []
    rw [List.append_nil] at hsplit
    rw [hsplit]
    simp [ending, hne]

theorem caught_of_journalLines {pending unread : List UInt8} (h : Pending pending)
    (heq : journalLines pending unread = ([], ending pending)) :
    unread = [] ∨ (pending ≠ [] ∧ newline ∉ unread ∧ pending.length + unread.length ≤ recordLimit) := by
  obtain ⟨-, rest, hrest, hleaves⟩ := journalLines_sound h unread
  rw [heq] at hrest hleaves
  simp only [List.flatten_nil, List.nil_append] at hrest
  subst hrest
  by_cases hnil : pending = []
  · subst hnil
    simp only [ending, ↓reduceIte, Leaves, List.nil_append] at hleaves
    exact .inl hleaves
  · simp only [ending, hnil, ↓reduceIte, Leaves] at hleaves
    obtain ⟨-, hp⟩ := hleaves
    refine .inr ⟨hnil, fun hin => hp.newline (List.mem_append_right _ hin), ?_⟩
    simpa using hp.length

theorem check_inv (h : Inv s) (ht : step s .check = some t) :
    (Caught s .check t → Inv t) ∧ (Faithful t → Caught s .check t) := by
  simp only [step] at ht
  split at ht
  swap
  · cases ht
  next hphase =>
  cases ht
  have hrun := h.running (by simp [hphase])
  have hcontent : journalLines [] s.content = prepend s.rows (journalLines s.pending s.unread) := by
    have := hrun s.unread
    rwa [unread, List.take_append_drop] at this
  constructor
  · intro hcaught
    by_cases hfin : s.finished = true
    · refine ⟨h.pending, h.offset, fun hne => absurd (by simp [hfin]) (hne (ending s.pending)),
        fun e he => .inl ⟨hfin, ?_⟩⟩
      simp only [hfin, ↓reduceIte, Phase.ended.injEq] at he
      subst he
      rw [hcontent, journalLines_caught h.pending (hcaught rfl hfin)]
      simp [prepend]
    · refine ⟨h.pending, h.offset, fun _ => hrun, fun e he => ?_⟩
      simp [hfin] at he
  · intro hf _ hfin
    have hend := hf.ended (ending s.pending) (by simp [hfin])
    refine caught_of_journalLines h.pending ?_
    simp only [hcontent, prepend, Prod.mk.injEq, List.append_right_eq_self] at hend
    exact Prod.ext hend.1 hend.2

theorem step_inv {a : Action} (h : Inv s) (ht : step s a = some t) :
    (Caught s a t → Inv t) ∧ (Faithful t → Caught s a t) := by
  cases a with
  | append chunk =>
    refine ⟨fun _ => ?_, fun _ => nofun⟩
    simp only [step] at ht
    split at ht
    · cases ht
    next hfin =>
    cases ht
    refine ⟨h.pending, ?_, fun hne more => ?_, fun e he => .inr fun more => ?_⟩
    · simp only [List.length_append]
      exact h.offset.trans (Nat.le_add_right _ _)
    · rw [List.take_append_of_le_length h.offset]
      exact h.running hne more
    · rcases h.ended e he with ⟨hf, -⟩ | heq
      · exact absurd hf hfin
      · rw [List.append_assoc]
        exact heq (chunk ++ more)
  | finish =>
    refine ⟨fun _ => ?_, fun _ => nofun⟩
    simp only [step] at ht
    split at ht
    · cases ht
    cases ht
    refine ⟨h.pending, h.offset, h.running, fun e he => (h.ended e he).imp (fun hf => ⟨rfl, hf.2⟩) id⟩
  | read => exact ⟨fun _ => read_inv h ht, fun _ => nofun⟩
  | check => exact check_inv h ht
  | wait =>
    refine ⟨fun _ => ?_, fun _ => nofun⟩
    simp only [step] at ht
    split at ht
    · next hphase =>
      cases ht
      exact ⟨h.pending, h.offset, fun _ => h.running (by simp [hphase]), by simp⟩
    · cases ht

/-! ### The end -/

def rank : Phase → ℕ
  | .waiting => 3
  | .reading => 2
  | .checking => 1
  | .ended _ => 0

/-- Once the flag is set every step is one of the generator, and it has read a line or is a phase further. -/
theorem step_measure {a : Action} (hfin : s.finished = true) (ht : step s a = some t) :
    t.finished = true ∧ t.unread.length + rank t.phase < s.unread.length + rank s.phase := by
  cases a with
  | append | finish => simp [step, hfin] at ht
  | check | wait =>
    simp only [step, Option.ite_none_right_eq_some, Option.some.injEq] at ht
    obtain ⟨hphase, rfl⟩ := ht
    simp [hphase, hfin, rank, unread]
  | read =>
    simp only [step, Option.ite_none_right_eq_some] at ht
    obtain ⟨hphase, ht⟩ := ht
    have hread : turn s.pending s.unread ≠ .atEnd → (s.content.drop s.advance).length < s.unread.length := by
      intro hturn
      rw [advance, ← List.drop_drop]
      exact drop_nextLine_lt (nextLine_ne_nil rfl hturn)
    split at ht <;> rename_i hturn <;> cases ht <;> simp only [hphase, hfin, rank, unread, true_and]
    · exact Nat.lt_succ_self _
    · exact Nat.lt_add_of_pos_right Nat.two_pos
    · exact Nat.add_lt_add_right (hread (by simp [hturn])) 2
    · exact Nat.add_lt_add_right (hread (by simp [hturn])) 2

theorem ends (hfin : s.finished = true) : Ends s where
  proceeds hphase := by
    cases h : s.phase with
    | reading =>
      cases hturn : turn s.pending s.unread <;> exact ⟨.read, _, by simp only [step, h, hturn, if_true]; rfl⟩
    | checking => exact ⟨.check, _, if_pos h⟩
    | waiting => exact ⟨.wait, _, if_pos h⟩
    | ended e => exact absurd h (hphase e)
  bounded actions t hrun := by
    have hle := run_length_le (fun _ _ _ h ht => step_measure h ht) hfin hrun
    have hrank : rank s.phase ≤ 3 := by cases s.phase <;> simp [rank]
    omega

theorem along_faithful (actions : List Action) :
    Along step Caught {} actions ↔ Along step (fun _ _ t => Faithful t) {} actions := by
  refine along_iff_of_invariant ?_ init_inv
  intro s a t h ht
  obtain ⟨hinv, hback⟩ := step_inv h ht
  exact ⟨fun hc => ⟨hinv hc, faithful_of_inv (hinv hc)⟩, hback⟩

/-- A generator that has ended without missing anything is that of the closed file. -/
theorem stream_of_caught {actions : List Action} {e : Option AuditError}
    (hrun : run step {} actions = some s) (hcaught : Along step Caught {} actions)
    (hend : s.phase = .ended e) : s.stream = journalLines [] s.content := by
  have hinv : Inv s := run_invariant_of_along (fun _ _ _ h ht hc => (step_inv h ht).1 hc)
    init_inv hcaught hrun
  rw [(faithful_of_inv hinv).ended e hend, stream, hend]

end Tail

/-- On a closed file the generator yields the records in order and raises only at a partial or
overlong one. A live generator behaves so in every run whose checks miss nothing, and in no
other, and an audit of two such generators is that of the closed files. Once its producer has
finished, a generator ends. -/
theorem live_audit_lossless (content : List UInt8) (actions : List Tail.Action) {A : Type} (o : Observers A)
    (start : A) :
    (∀ rows rest, (∀ row ∈ rows, IsRecord row) →
      journalLines [] (rows.flatten ++ rest) = prepend rows (journalLines [] rest)) ∧
    ((∀ row ∈ (journalLines [] content).1, IsRecord row) ∧
      ∃ rest, content = (journalLines [] content).1.flatten ++ rest ∧
        Leaves (journalLines [] content).2 rest) ∧
    (Along Tail.step Tail.Caught {} actions ↔ Along Tail.step (fun _ _ t => t.Faithful) {} actions) ∧
    (∀ s : Tail, s.finished = true → s.Ends) ∧
    ∀ (camera imu : Tail) (as bs : List Tail.Action) (e f : Option AuditError),
      run Tail.step {} as = some camera → Along Tail.step Tail.Caught {} as → camera.phase = .ended e →
      run Tail.step {} bs = some imu → Along Tail.step Tail.Caught {} bs → imu.phase = .ended f →
      captureAudit o start camera.stream imu.stream =
        captureAudit o start (journalLines [] camera.content) (journalLines [] imu.content) := by
  refine ⟨fun rows rest h => journalLines_complete h rest, ?_, Tail.along_faithful actions, fun _ => Tail.ends, ?_⟩
  · obtain ⟨hrows, rest, hrest, hleaves⟩ := journalLines_sound Pending.nil content
    exact ⟨hrows, rest, by simpa using hrest, hleaves⟩
  · intro camera imu as bs e f hcam hcam' hcamEnd himu himu' himuEnd
    rw [Tail.stream_of_caught hcam hcam' hcamEnd, Tail.stream_of_caught himu himu' himuEnd]

/-- An audit that lists the rows as it comes to them. -/
def listing : Observers (List (List UInt8)) :=
  ⟨fun row => .ok (row.headD 0).toNat, fun acc row => .ok (acc ++ [row]), fun acc _ => .ok acc,
    fun acc row => .ok (acc ++ [row])⟩

/-- The second record is appended in two pieces, with a check and a wait between them. -/
def caughtRecord : List Tail.Action :=
  [.append [97, newline, 98], .read, .read, .read, .check, .append [newline], .wait, .read, .finish, .read, .check]

theorem live_audit_lossless_sample :
    ∃ s, run Tail.step {} caughtRecord = some s ∧ s.phase = .ended none ∧
      captureAudit listing [] (journalLines [] s.content) (journalLines [] s.content) =
        .ok [[97, newline], [97, newline], [98, newline], [98, newline]] := by
  have hcaught : Along Tail.step Tail.Caught {} caughtRecord := by decide +kernel
  obtain ⟨-, -, -, -, haudit⟩ := live_audit_lossless [] caughtRecord listing []
  refine ⟨_, rfl, rfl, ?_⟩
  rw [← haudit _ _ caughtRecord caughtRecord none none rfl hcaught rfl rfl hcaught rfl]
  rfl

/-! The producer appends and finishes between the read that meets the end of the file and the
check of the flag: a record is lost, or a whole record is called truncated. -/

def lostRecord : List Tail.Action :=
  [.append [97, newline], .read, .read, .append [98, newline], .finish, .check]

def wholeRecord : List Tail.Action :=
  [.append [97], .read, .read, .append [newline], .finish, .check]

theorem live_audit_lossless_fails :
    (∃ s, run Tail.step {} lostRecord = some s ∧ s.stream = ([[97, newline]], none) ∧
      journalLines [] s.content = ([[97, newline], [98, newline]], none) ∧ ¬ s.Faithful) ∧
    ∃ s, run Tail.step {} wholeRecord = some s ∧ s.stream = ([], some .truncated) ∧
      journalLines [] s.content = ([[97, newline]], none) ∧ ¬ s.Faithful := by
  have hrecord : ∀ b : UInt8, b ≠ newline → IsRecord [b, newline] := fun b hb =>
    ⟨by simp [recordLimit], [b], by simpa using Ne.symm hb, rfl⟩
  have hclosed : ∀ rows : List (List UInt8), (∀ row ∈ rows, IsRecord row) →
      journalLines [] rows.flatten = (rows, none) := by
    intro rows h
    have := journalLines_complete h []
    simpa [prepend, ending] using this
  constructor
  · have hfile : journalLines [] [97, newline, 98, newline] = ([[97, newline], [98, newline]], none) :=
      hclosed [[97, newline], [98, newline]] (by simp [hrecord 97 (by decide), hrecord 98 (by decide)])
    refine ⟨_, rfl, rfl, hfile, fun h => ?_⟩
    cases hfile.symm.trans (h.ended none rfl)
  · have hfile : journalLines [] [97, newline] = ([[97, newline]], none) :=
      hclosed [[97, newline]] (by simp [hrecord 97 (by decide)])
    refine ⟨_, rfl, rfl, hfile, fun h => ?_⟩
    cases hfile.symm.trans (h.ended (some .truncated) rfl)

end Conductor.Live
