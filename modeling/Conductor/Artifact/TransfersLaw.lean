import Conductor.Lib.Concat
import Conductor.Artifact.Transfers
import Mathlib.Algebra.BigOperators.Group.List.Basic

/-! What a transfer receipt tells. The status is decided by each call on its own offset and count, so a body that
was cut into several calls is never `served`. -/

namespace Conductor.Artifact.Transfers

open Runs

/-! ### What the callers got -/

def Seen.bytes : Seen → ℕ
  | .delivered _ count => count
  | _ => 0

def Seen.fails : Seen → Bool
  | .raised _ | .thrown => true
  | _ => false

/-- The bytes of the completed calls, each chunk of `iter_chunks` counted. -/
def delivered (seen : List Seen) : ℕ := (seen.map Seen.bytes).sum

/-- A call raised. -/
def Failed (seen : List Seen) : Prop := ∃ s ∈ seen, s.fails

/-- The delivered ranges cover the bytes from `start` up to `stop`. -/
def Covers (seen : List Seen) (start stop : ℕ) : Prop :=
  ∀ p, start ≤ p → p < stop → ∃ offset count, .delivered offset count ∈ seen ∧ offset ≤ p ∧ p < offset + count

/-- What a receipt has to say. -/
structure Finish.Tells (finish : Finish) (size : ℕ) (seen : List Seen) : Prop where
  bytes : finish.bytesRead = delivered seen
  served : finish.status = .served ↔ ¬ Failed seen ∧ Covers seen 0 size
  someRead : ¬ Failed seen → ¬ Covers seen 0 size → 0 < delivered seen → finish.status = .someRead
  failed : Failed seen → finish.status = .failed

/-- The transfer of a closed representation is finished once, its receipt and its row tell what was served, and
it no longer counts as open. -/
structure Told (w : World) (handle : Handle) (identity : ℕ) : Prop where
  receipt : ∃ finish, w.finishes.filter (·.identity = identity) = [finish] ∧
    finish.Tells handle.tracked.representation.size handle.seen ∧
    (finish.receipt = .recorded →
      ∀ row ∈ w.transfers, row.identity = identity → row = ⟨identity, finish.status, finish.bytesRead⟩)
  released : w.released[handle.tracked.release]? = some true
  count : w.openRepresentations = w.handles.countP (!·.tracked.closed)

/-- A body that was served was served by one call, from its first byte to its last. -/
def InOneCall (size : ℕ) (seen : List Seen) : Prop :=
  ¬ Failed seen → Covers seen 0 size → .completed 0 size ∈ seen

/-! ### One representation -/

theorem Covers.mono {seen more : List Seen} {start stop : ℕ} (h : Covers seen start stop) :
    Covers (seen ++ more) start stop := by
  intro p hstart hstop
  obtain ⟨offset, count, hmem, hp⟩ := h p hstart hstop
  exact ⟨offset, count, List.mem_append_left _ hmem, hp⟩

/-- A range behind what is covered extends it. -/
theorem Covers.extend {seen : List Seen} {start stop count : ℕ} (h : Covers seen start stop) :
    Covers (seen ++ [.delivered stop count]) start (stop + count) := by
  intro p hstart hstop
  by_cases hp : p < stop
  · exact h.mono p hstart hp
  · exact ⟨stop, count, by simp, by omega, hstop⟩

theorem delivered_append (seen more : List Seen) : delivered (seen ++ more) = delivered seen + delivered more := by
  simp [delivered]

theorem failed_append (seen more : List Seen) : Failed (seen ++ more) ↔ Failed seen ∨ Failed more := by
  simp only [Failed, List.mem_append]
  constructor
  · rintro ⟨s, hs | hs, hfails⟩
    · exact .inl ⟨s, hs, hfails⟩
    · exact .inr ⟨s, hs, hfails⟩
  · rintro (⟨s, hs, hfails⟩ | ⟨s, hs, hfails⟩)
    · exact ⟨s, .inl hs, hfails⟩
    · exact ⟨s, .inr hs, hfails⟩

/-- The chunks of a suspended generator lie behind each other from its offset on. -/
def Chunks.Inv (seen : List Seen) : Chunks → Prop
  | .suspended offset _ cursor _ total => cursor = offset + total ∧ Covers seen offset (offset + total)
  | _ => True

theorem Chunks.Inv.mono {seen more : List Seen} {chunks : Chunks} (h : chunks.Inv seen) :
    chunks.Inv (seen ++ more) := by
  cases chunks with
  | suspended => exact ⟨h.1, h.2.mono⟩
  | fresh => trivial
  | finished => trivial

/-- What the counters of a representation say of what its callers got. -/
structure Tracked.Inv (t : Tracked) (seen : List Seen) : Prop where
  bytes : t.bytesRead = delivered seen
  failed : t.failed = true ↔ Failed seen
  fullRead : t.fullRead = true ↔ .completed 0 t.representation.size ∈ seen
  completed : ∀ offset total, .completed offset total ∈ seen → Covers seen offset (offset + total)
  chunks : ∀ chunks ∈ t.chunks, chunks.Inv seen

namespace Tracked

variable {self : Tracked} {seen : List Seen}

theorem Inv.setChunks (h : self.Inv seen) (i : ℕ) {chunks : Chunks} (hc : chunks.Inv seen) :
    Inv { self with chunks := self.chunks.set i chunks } seen where
  bytes := h.bytes
  failed := h.failed
  fullRead := h.fullRead
  completed := h.completed
  chunks other hother := by
    rcases List.mem_or_eq_of_mem_set hother with hmem | rfl
    · exact h.chunks other hmem
    · exact hc

/-- A failure is noted. -/
theorem Inv.fail (h : self.Inv seen) {s : Seen} (hs : s.fails = true) : self.fail.Inv (seen ++ [s]) where
  bytes := by
    rw [delivered_append, ← h.bytes]
    cases s <;> simp_all [Tracked.fail, delivered, Seen.bytes, Seen.fails]
  failed := by
    rw [failed_append]
    simp [Tracked.fail, Failed, hs]
  fullRead := by
    have hne : s ≠ .completed 0 self.representation.size := by
      rintro rfl
      simp [Seen.fails] at hs
    simp [Tracked.fail, h.fullRead, hne.symm]
  completed offset total hmem := by
    rcases mem_concat.1 hmem with hmem | rfl
    · exact (h.completed _ _ hmem).mono
    · simp [Seen.fails] at hs
  chunks chunks hc := (h.chunks chunks hc).mono

/-- Bytes behind a cursor are noted. -/
theorem Inv.deliver (h : self.Inv seen) (offset count : ℕ) :
    Inv { self with bytesRead := self.bytesRead + count } (seen ++ [.delivered offset count]) where
  bytes := by
    rw [delivered_append, ← h.bytes]
    simp [delivered, Seen.bytes]
  failed := by
    rw [failed_append, h.failed]
    simp [Failed, Seen.fails]
  fullRead := by simp [h.fullRead]
  completed start total hmem := by
    rcases List.mem_append.1 hmem with hmem | hmem
    · exact (h.completed _ _ hmem).mono
    · simp at hmem
  chunks chunks hc := (h.chunks chunks hc).mono

/-- The end of a call is noted. -/
theorem Inv.complete (h : self.Inv seen) {offset total : ℕ} (hcovers : Covers seen offset (offset + total)) :
    Inv { self with fullRead := self.fullRead || (offset == 0 && total == self.representation.size) }
      (seen ++ [.completed offset total]) where
  bytes := by
    rw [delivered_append, ← h.bytes]
    simp [delivered, Seen.bytes]
  failed := by
    rw [failed_append, h.failed]
    simp [Failed, Seen.fails]
  fullRead := by
    simp only [Bool.or_eq_true, Bool.and_eq_true, beq_iff_eq, h.fullRead, List.mem_append, List.mem_singleton,
      Seen.completed.injEq, @eq_comm ℕ 0, @eq_comm ℕ self.representation.size]
  completed start count hmem := by
    rcases List.mem_append.1 hmem with hmem | hmem
    · exact (h.completed _ _ hmem).mono
    · simp only [List.mem_singleton, Seen.completed.injEq] at hmem
      obtain ⟨rfl, rfl⟩ := hmem
      exact hcovers.mono
  chunks chunks hc := (h.chunks chunks hc).mono

/-- A call of `read` or of `send_to`. -/
theorem Inv.account (h : self.Inv seen) (offset : ℤ) (result : Except Error ℕ) :
    (self.account offset result).1.Inv (seen ++ (self.account offset result).2) := by
  cases result with
  | error e => exact h.fail rfl
  | ok count =>
    have hcovers : Covers (seen ++ [.delivered offset.toNat count]) offset.toNat (offset.toNat + count) :=
      Covers.extend fun p hstart hstop => by omega
    have := (h.deliver offset.toNat count).complete hcovers
    rwa [List.append_assoc] at this

/-- A turn of a generator. -/
theorem Inv.resume (h : self.Inv seen) (io : Io) (i : ℕ) {offset chunkSize cursor remaining total : ℕ}
    (hcursor : cursor = offset + total) (hcovers : Covers seen offset (offset + total)) :
    (self.resume io i offset chunkSize cursor remaining total).1.Inv
      (seen ++ (self.resume io i offset chunkSize cursor remaining total).2) := by
  rw [Tracked.resume]
  split
  · exact (h.fail rfl).setChunks i trivial
  · exact (h.complete hcovers).setChunks i trivial
  · rename_i block hblock _
    subst hcursor
    refine (h.deliver (offset + total) block.length).setChunks i ⟨Nat.add_assoc .., ?_⟩
    rw [← Nat.add_assoc]
    exact hcovers.extend

theorem Inv.next (h : self.Inv seen) (io : Io) (i : ℕ) :
    (self.next io i).1.Inv (seen ++ (self.next io i).2) := by
  rw [Tracked.next]
  split
  · rename_i offset length chunkSize hfresh
    split
    · exact (h.fail rfl).setChunks i trivial
    · rename_i chunkSize cursor remaining hstart
      have hcursor : cursor = offset.toNat := by
        rw [LockedBytes.startChunks] at hstart
        split at hstart
        · cases hstart
        · cases hcheck : self.representation.assertUnchanged io 0 <;> rw [hcheck] at hstart <;> cases hstart
          rfl
      exact h.resume io i hcursor fun p hstart hstop => by omega
  · rename_i hsuspended
    have hc := h.chunks _ (List.mem_of_getElem? hsuspended)
    exact h.resume io i hc.1 hc.2
  · simpa using h

theorem Inv.throw (h : self.Inv seen) (i : ℕ) : (self.throw i).1.Inv (seen ++ (self.throw i).2) := by
  rw [Tracked.throw]
  split
  · exact (h.fail rfl).setChunks i trivial
  · rw [List.append_nil]
    exact h.setChunks i trivial
  · simpa using h

/-- What one use of a representation keeps. -/
theorem Inv.use (h : self.Inv seen) (u : Use) : (self.use u).1.Inv (seen ++ (self.use u).2) := by
  cases u with
  | read io offset length => exact h.account offset _
  | sendTo io outputDescriptor offset length => exact h.account offset _
  | next io i => exact h.next io i
  | throw i => exact h.throw i
  | closeChunks i =>
    rw [Tracked.use, List.append_nil]
    exact h.setChunks i trivial
  | close fileRaises receipt => simpa [Tracked.use] using h
  | iterChunks offset length chunkSize =>
    simp only [Tracked.use, List.append_nil]
    refine ⟨h.bytes, h.failed, h.fullRead, h.completed, fun chunks hc => ?_⟩
    rcases mem_concat.1 hc with hc | rfl
    · exact h.chunks chunks hc
    · trivial

end Tracked

/-! ### The table -/

theorem mem_finishTransfer {identity bytesRead : ℕ} {status : Status} {transfers : List Row} {row : Row}
    (h : row ∈ finishTransfer identity status bytesRead transfers) :
    if row.identity = identity then row = ⟨identity, status, bytesRead⟩ else row ∈ transfers := by
  have hmem : row ∈ transfers.map fun row => if row.identity = identity then { row with status, bytesRead } else row := by
    rcases List.mem_append.1 h with h | h
    · exact List.mem_of_mem_take (List.mem_filter.1 h).1
    · exact List.mem_of_mem_drop h
  obtain ⟨old, hold, rfl⟩ := List.mem_map.1 hmem
  by_cases hid : old.identity = identity
  · simp [hid]
  · simp [hid, hold]

/-! ### All representations -/

/-- What one representation has in the world. The counters of a closed one are those of its close. -/
structure Handle.Inv (w : World) (h : Handle) : Prop where
  released : w.released[h.tracked.release]? = some h.tracked.closed
  counters : h.tracked.closed = false → h.tracked.Inv h.seen
  begun : ∀ identity, h.tracked.transfer = some identity → identity < w.begun
  pending : ∀ identity, h.tracked.transfer = some identity → h.tracked.closed = false →
    w.finishes.filter (·.identity = identity) = []
  receipt : ∀ identity, h.tracked.transfer = some identity → h.tracked.closed = true →
    ∃ (t : Tracked) (receipt : Receipt), t.Inv h.seen ∧ t.representation.size = h.tracked.representation.size ∧
      w.finishes.filter (·.identity = identity) = [⟨identity, t.status, t.bytesRead, receipt⟩] ∧
      (receipt = .recorded →
        ∀ row ∈ w.transfers, row.identity = identity → row = ⟨identity, t.status, t.bytesRead⟩)

/-- The acquisition and the transfer of a representation. -/
def Handle.numbers (h : Handle) : ℕ × Option ℕ := (h.tracked.release, h.tracked.transfer)

def Apart (a b : ℕ × Option ℕ) : Prop := a.1 ≠ b.1 ∧ ∀ identity, a.2 = some identity → a.2 ≠ b.2

structure World.Inv (w : World) : Prop where
  handles : ∀ h ∈ w.handles, h.Inv w
  count : w.openRepresentations = w.handles.countP (!·.tracked.closed)
  apart : (w.handles.map Handle.numbers).Pairwise Apart
  finishes : ∀ finish ∈ w.finishes, finish.identity < w.begun
  rows : ∀ row ∈ w.transfers, row.identity < w.begun

/-- What a step that is about one acquisition and one transfer leaves of the others. -/
structure Others (k : ℕ) (identity : Option ℕ) (w t : World) : Prop where
  released : ∀ j ≠ k, ∀ b, w.released[j]? = some b → t.released[j]? = some b
  begun : w.begun ≤ t.begun
  finishes : ∀ j < w.begun, some j ≠ identity →
    t.finishes.filter (·.identity = j) = w.finishes.filter (·.identity = j)
  rows : ∀ row ∈ t.transfers, row.identity < w.begun → some row.identity ≠ identity → row ∈ w.transfers

section Others

variable {k : ℕ} {identity : Option ℕ} {w t u : World}

theorem Others.trans (h : Others k identity w t) (h' : Others k identity t u) : Others k identity w u where
  released j hj b hb := h'.released j hj b (h.released j hj b hb)
  begun := h.begun.trans h'.begun
  finishes j hj hne := (h'.finishes j (hj.trans_le h.begun) hne).trans (h.finishes j hj hne)
  rows row hrow hlt hne := h.rows row (h'.rows row hrow (hlt.trans_le h.begun) hne) hlt hne

/-- Whom the representations belong to does not matter. -/
theorem others_handles (k : ℕ) (identity : Option ℕ) (w : World) (handles : List Handle) :
    Others k identity w { w with handles } :=
  ⟨fun _ _ _ hb => hb, le_rfl, fun _ _ _ => rfl, fun _ hrow _ _ => hrow⟩

theorem others_acquire (k : ℕ) (identity : Option ℕ) (w : World) : Others k identity w w.acquire where
  released j _ b hb := by
    obtain ⟨hj, rfl⟩ := List.getElem?_eq_some_iff.1 hb
    simp [World.acquire, List.getElem?_append_left hj, hj]
  begun := le_rfl
  finishes _ _ _ := rfl
  rows _ hrow _ _ := hrow

theorem others_beginTransfer (k : ℕ) (identity : Option ℕ) (w : World) : Others k identity w w.beginTransfer where
  released _ _ _ hb := hb
  begun := Nat.le_succ _
  finishes _ _ _ := rfl
  rows row hrow hlt _ := by
    rcases mem_concat.1 hrow with hrow | rfl
    · exact hrow
    · exact absurd hlt (lt_irrefl _)

theorem others_recordTransfer (k identity : ℕ) (status : Status) (bytesRead : ℕ) (receipt : Receipt) (w : World) :
    Others k (some identity) w (w.recordTransfer identity status bytesRead receipt) where
  released _ _ _ hb := hb
  begun := le_rfl
  finishes j _ hne := by
    have : identity ≠ j := fun h => hne (by rw [h])
    simp [World.recordTransfer, this]
  rows row hrow _ hne := by
    rw [World.recordTransfer] at hrow
    dsimp only at hrow
    split at hrow
    · have hmem := mem_finishTransfer hrow
      rwa [if_neg fun h => hne (by rw [h])] at hmem
    · exact hrow

theorem others_release (k : ℕ) (identity : Option ℕ) (w : World) : Others k identity w (w.release k) := by
  rw [World.release]
  split
  · refine ⟨fun j hj b hb => ?_, le_rfl, fun _ _ _ => rfl, fun _ hrow _ _ => hrow⟩
    rwa [List.getElem?_set_ne hj.symm]
  · exact ⟨fun _ _ _ hb => hb, le_rfl, fun _ _ _ => rfl, fun _ hrow _ _ => hrow⟩

/-- A representation of other numbers is as before. -/
theorem Handle.Inv.frame {h : Handle} (hinv : h.Inv w) (hothers : Others k identity w t)
    (hk : h.tracked.release ≠ k) (hid : ∀ j, h.tracked.transfer = some j → some j ≠ identity) : h.Inv t where
  released := hothers.released _ hk _ hinv.released
  counters := hinv.counters
  begun j hj := (hinv.begun j hj).trans_le hothers.begun
  pending j hj hclosed := by
    rw [hothers.finishes j (hinv.begun j hj) (hid j hj)]
    exact hinv.pending j hj hclosed
  receipt j hj hclosed := by
    obtain ⟨counters, receipt, hcounters, hsize, hfinish, hrow⟩ := hinv.receipt j hj hclosed
    refine ⟨counters, receipt, hcounters, hsize, ?_, fun hrecorded row hmem heq => ?_⟩
    · rw [hothers.finishes j (hinv.begun j hj) (hid j hj)]
      exact hfinish
    · subst heq
      exact hrow hrecorded row (hothers.rows row hmem (hinv.begun _ hj) (hid _ hj)) rfl

end Others

/-! ### The openings -/

section Opening

variable {w t : World}

theorem Handle.Inv.release_lt {h : Handle} (hinv : h.Inv w) : h.tracked.release < w.released.length :=
  (List.getElem?_eq_some_iff.1 hinv.released).1

/-- The representations do not notice an opening. -/
theorem World.Inv.others (hw : w.Inv) (hothers : Others w.released.length (some w.begun) w t) :
    ∀ h ∈ w.handles, h.Inv t := fun h hmem =>
  (hw.handles h hmem).frame hothers (hw.handles h hmem).release_lt.ne fun j hj heq =>
    ((hw.handles h hmem).begun j hj).ne (Option.some.inj heq)

theorem World.Inv.unopened (hw : w.Inv) (hothers : Others w.released.length (some w.begun) w t)
    (hhandles : t.handles = w.handles) (hcount : t.openRepresentations = w.openRepresentations)
    (hfinishes : ∀ finish ∈ t.finishes, finish.identity < t.begun) (hrows : ∀ row ∈ t.transfers, row.identity < t.begun) :
    t.Inv where
  handles := by
    rw [hhandles]
    exact hw.others hothers
  count := by
    rw [hhandles, hcount]
    exact hw.count
  apart := by
    rw [hhandles]
    exact hw.apart
  finishes := hfinishes
  rows := hrows

/-- The release of what was acquired. -/
theorem release_acquired (h : t.released = w.released ++ [false]) :
    t.release w.released.length =
      { t with openRepresentations := t.openRepresentations - 1, released := w.released ++ [true] } := by
  rw [World.release, if_pos (by rw [h]; simp)]
  simp [h]

theorem World.Inv.beginTransfer_rows (hw : w.Inv) : ∀ row ∈ w.beginTransfer.transfers, row.identity < w.begun + 1 := by
  intro row hrow
  rcases mem_concat.1 hrow with hrow | rfl
  · exact (hw.rows row hrow).trans (Nat.lt_succ_self _)
  · exact Nat.lt_succ_self _

theorem recordTransfer_rows {identity bytesRead : ℕ} {status : Status} {receipt : Receipt} (hid : identity < w.begun)
    (hrows : ∀ row ∈ w.transfers, row.identity < w.begun) :
    ∀ row ∈ (w.recordTransfer identity status bytesRead receipt).transfers, row.identity < w.begun := by
  intro row hrow
  rw [World.recordTransfer] at hrow
  dsimp only at hrow
  split at hrow
  · have hmem := mem_finishTransfer hrow
    split at hmem
    · rw [hmem]
      exact hid
    · exact hrows row hmem
  · exact hrows row hrow

theorem recordTransfer_finishes {identity bytesRead : ℕ} {status : Status} {receipt : Receipt}
    (hid : identity < w.begun) (hfinishes : ∀ finish ∈ w.finishes, finish.identity < w.begun) :
    ∀ finish ∈ (w.recordTransfer identity status bytesRead receipt).finishes, finish.identity < w.begun := by
  exact forall_mem_concat hfinishes hid

/-- What was acquired for an opening that fails is released. -/
theorem World.Inv.release (hw : w.Inv) (hothers : Others w.released.length (some w.begun) w t)
    (hhandles : t.handles = w.handles) (hcount : t.openRepresentations = w.openRepresentations + 1)
    (hreleased : t.released = w.released ++ [false]) (hfinishes : ∀ finish ∈ t.finishes, finish.identity < t.begun)
    (hrows : ∀ row ∈ t.transfers, row.identity < t.begun) : (t.release w.released.length).Inv := by
  have hkept := hothers.trans (others_release w.released.length _ t)
  rw [release_acquired hreleased] at hkept ⊢
  exact hw.unopened hkept hhandles (by dsimp only; omega) hfinishes hrows

theorem World.Inv.acquire_release (hw : w.Inv) : (w.acquire.release w.released.length).Inv :=
  hw.release (others_acquire ..) rfl rfl rfl hw.finishes hw.rows

theorem World.Inv.beginTransfer_release (hw : w.Inv) : (w.acquire.beginTransfer.release w.released.length).Inv :=
  hw.release ((others_acquire ..).trans (others_beginTransfer ..)) rfl rfl rfl
    (fun finish hmem => (hw.finishes finish hmem).trans (Nat.lt_succ_self _)) hw.beginTransfer_rows

/-- A representation that is handed out. -/
theorem World.Inv.handOut (hw : w.Inv) (hothers : Others w.released.length (some w.begun) w t)
    (hhandles : t.handles = w.handles) (hcount : t.openRepresentations = w.openRepresentations + 1)
    (hreleased : t.released = w.released ++ [false]) (hfinishes : t.finishes = w.finishes)
    (hrows : ∀ row ∈ t.transfers, row.identity < t.begun) (size : ℕ) (transfer : Option ℕ)
    (htransfer : ∀ identity, transfer = some identity → identity = w.begun ∧ t.begun = w.begun + 1) :
    (t.handOut size w.released.length transfer).Inv where
  handles h hmem := by
    rcases mem_concat.1 hmem with hmem | hmem
    · rw [hhandles] at hmem
      have hinv := hw.others hothers h hmem
      exact ⟨hinv.released, hinv.counters, hinv.begun, hinv.pending, hinv.receipt⟩
    · obtain rfl := hmem
      refine ⟨by simp [World.handOut, hreleased], fun _ => ?_, fun j hj => ?_, fun j hj _ => ?_, nofun⟩
      · exact ⟨rfl, by simp [Failed], by simp, by simp, by simp⟩
      · obtain ⟨rfl, hbegun⟩ := htransfer j hj
        show w.begun < t.begun
        omega
      · obtain ⟨rfl, _⟩ := htransfer j hj
        show t.finishes.filter _ = []
        rw [hfinishes]
        exact List.filter_eq_nil_iff.2 fun finish hmem => by simpa using (hw.finishes finish hmem).ne
  count := by simp [World.handOut, hhandles, hcount, hw.count]
  apart := by
    simp only [World.handOut, hhandles, List.map_append, List.map_cons, List.map_nil]
    refine List.pairwise_append.2 ⟨hw.apart, List.pairwise_singleton .., fun a ha b hb => ?_⟩
    obtain ⟨h, hmem, rfl⟩ := List.mem_map.1 ha
    obtain rfl := List.mem_singleton.1 hb
    refine ⟨(hw.handles h hmem).release_lt.ne, fun j hj heq => ?_⟩
    exact ((hw.handles h hmem).begun j hj).ne (htransfer j (heq.symm.trans hj)).1
  finishes finish hmem := by
    have hlt := hw.finishes finish (by rw [← hfinishes]; exact hmem)
    exact hlt.trans_le hothers.begun
  rows := hrows

theorem World.Inv.openCancellableArtifact (hw : w.Inv) (size : ℕ) (opening : Opening) :
    (w.openCancellableArtifact size opening).Inv := by
  cases opening with
  | cancelled => exact hw
  | refused => exact hw
  | storeFailed => exact hw.acquire_release
  | artifactFailed => exact hw.acquire_release
  | beginFailed inserted =>
    cases inserted
    · exact hw.acquire_release
    · exact hw.beginTransfer_release
  | storeCloseFailed receipt =>
    exact hw.release (((others_acquire ..).trans (others_beginTransfer ..)).trans (others_recordTransfer ..)) rfl rfl rfl
      (recordTransfer_finishes (Nat.lt_succ_self _) fun finish hmem => (hw.finishes finish hmem).trans (Nat.lt_succ_self _))
      (recordTransfer_rows (Nat.lt_succ_self _) hw.beginTransfer_rows)
  | opened =>
    refine hw.handOut ((others_acquire ..).trans (others_beginTransfer ..)) rfl rfl rfl rfl hw.beginTransfer_rows size _ ?_
    rintro j ⟨⟩
    exact ⟨rfl, rfl⟩

theorem World.Inv.openManifest (hw : w.Inv) (size : ℕ) (opening : Opening) : (w.openManifest size opening).Inv := by
  cases opening with
  | cancelled => exact hw
  | refused => exact hw
  | storeFailed => exact hw.acquire_release
  | artifactFailed => exact hw.acquire_release
  | beginFailed inserted => exact hw.acquire_release
  | storeCloseFailed receipt => exact hw.acquire_release
  | opened => exact hw.handOut (others_acquire ..) rfl rfl rfl rfl hw.rows size none nofun

end Opening

/-! ### The uses -/

/-- A use counts and moves generators; what the representation is stays. -/
structure Tracked.Same (t u : Tracked) : Prop where
  representation : u.representation = t.representation
  release : u.release = t.release
  transfer : u.transfer = t.transfer
  closed : u.closed = t.closed

namespace Tracked

variable (self : Tracked)

theorem same_resume (io : Io) (i offset chunkSize cursor remaining total : ℕ) :
    self.Same (self.resume io i offset chunkSize cursor remaining total).1 := by
  rw [resume]
  split <;> exact ⟨rfl, rfl, rfl, rfl⟩

theorem same_next (io : Io) (i : ℕ) : self.Same (self.next io i).1 := by
  rw [next]
  split
  · split
    · exact ⟨rfl, rfl, rfl, rfl⟩
    · exact self.same_resume ..
  · exact self.same_resume ..
  · exact ⟨rfl, rfl, rfl, rfl⟩

theorem same_account (offset : ℤ) (result : Except Error ℕ) : self.Same (self.account offset result).1 := by
  cases result <;> exact ⟨rfl, rfl, rfl, rfl⟩

theorem same_use (u : Use) : self.Same (self.use u).1 := by
  cases u with
  | read io offset length => exact self.same_account ..
  | sendTo io outputDescriptor offset length => exact self.same_account ..
  | next io i => exact self.same_next io i
  | throw i =>
    simp only [use, throw]
    split <;> exact ⟨rfl, rfl, rfl, rfl⟩
  | closeChunks i => exact ⟨rfl, rfl, rfl, rfl⟩
  | close fileRaises receipt => exact ⟨rfl, rfl, rfl, rfl⟩
  | iterChunks offset length chunkSize => exact ⟨rfl, rfl, rfl, rfl⟩

end Tracked

section Use

variable {w : World} {i : ℕ} {h h' : Handle}

theorem Handle.Inv.use (hinv : h.Inv w) (u : Use) : (h.use u).Inv w where
  released := by
    have hsame := h.tracked.same_use u
    show w.released[(h.tracked.use u).1.release]? = some (h.tracked.use u).1.closed
    rw [hsame.release, hsame.closed]
    exact hinv.released
  counters hclosed := by
    have hopen : h.tracked.closed = false := (h.tracked.same_use u).closed.symm.trans hclosed
    simp only [Handle.use, hopen]
    exact (hinv.counters hopen).use u
  begun j hj := hinv.begun j ((h.tracked.same_use u).transfer.symm.trans hj)
  pending j hj hclosed := hinv.pending j ((h.tracked.same_use u).transfer.symm.trans hj)
    ((h.tracked.same_use u).closed.symm.trans hclosed)
  receipt j hj hclosed := by
    have hshut : h.tracked.closed = true := (h.tracked.same_use u).closed.symm.trans hclosed
    simp only [Handle.use, hshut, if_true, (h.tracked.same_use u).representation]
    exact hinv.receipt j ((h.tracked.same_use u).transfer.symm.trans hj) hshut

theorem Apart.symm {a b : ℕ × Option ℕ} (hab : Apart a b) : Apart b a :=
  ⟨hab.1.symm, fun j hj heq => hab.2 j (heq ▸ hj) heq.symm⟩

theorem World.Inv.apart_of_ne (hw : w.Inv) {j : ℕ} (hi : w.handles[i]? = some h) (hj : w.handles[j]? = some h')
    (hij : i ≠ j) : Apart h.numbers h'.numbers := by
  obtain ⟨hilt, rfl⟩ := List.getElem?_eq_some_iff.1 hi
  obtain ⟨hjlt, rfl⟩ := List.getElem?_eq_some_iff.1 hj
  have hpairs := List.pairwise_iff_getElem.1 hw.apart
  simp only [List.length_map, List.getElem_map] at hpairs
  rcases Nat.lt_or_gt_of_ne hij with hlt | hlt
  · exact hpairs i j hilt hjlt hlt
  · exact (hpairs j i hjlt hilt hlt).symm

/-- A representation with the numbers of the one in its place. -/
theorem World.Inv.set {t : World} (hw : w.Inv) (hi : w.handles[i]? = some h)
    (hhandles : t.handles = w.handles.set i h') (hnumbers : h'.numbers = h.numbers) (hinv : h'.Inv t)
    (hothers : Others h.tracked.release h.tracked.transfer w t)
    (hcount : t.openRepresentations = (w.handles.set i h').countP (!·.tracked.closed))
    (hfinishes : ∀ finish ∈ t.finishes, finish.identity < t.begun) (hrows : ∀ row ∈ t.transfers, row.identity < t.begun) :
    t.Inv where
  handles other hmem := by
    rw [hhandles] at hmem
    obtain ⟨j, hj⟩ := List.mem_iff_getElem?.1 hmem
    by_cases hij : i = j
    · subst hij
      rw [List.getElem?_set_self (List.getElem?_eq_some_iff.1 hi).1] at hj
      cases hj
      exact hinv
    · rw [List.getElem?_set_ne hij] at hj
      have hapart := (hw.apart_of_ne hi hj hij).symm
      exact (hw.handles other (List.mem_of_getElem? hj)).frame hothers hapart.1
        fun id hid heq => hapart.2 id hid (hid.trans heq)
  count := by rw [hhandles, hcount]
  apart := by
    have hsame : (w.handles.set i h').map Handle.numbers = w.handles.map Handle.numbers := by
      obtain ⟨hlt, rfl⟩ := List.getElem?_eq_some_iff.1 hi
      rw [List.map_set, hnumbers, ← List.getElem_map Handle.numbers (h := by simpa using hlt), List.set_getElem_self]
    rw [hhandles, hsame]
    exact hw.apart
  finishes := hfinishes
  rows := hrows

theorem countP_set_same {handles : List Handle} (hi : handles[i]? = some h)
    (hclosed : h'.tracked.closed = h.tracked.closed) :
    (handles.set i h').countP (!·.tracked.closed) = handles.countP (!·.tracked.closed) := by
  obtain ⟨hlt, rfl⟩ := List.getElem?_eq_some_iff.1 hi
  rw [List.countP_set hlt, hclosed]
  by_cases hc : handles[i].tracked.closed
  · simp [hc]
  · have hpos : 0 < handles.countP (!·.tracked.closed) :=
      List.countP_pos_iff.2 ⟨_, List.getElem_mem hlt, by simpa using hc⟩
    simp only [hc, Bool.not_false, if_true]
    omega

theorem countP_set_closed {handles : List Handle} (hi : handles[i]? = some h) (hopen : h.tracked.closed = false)
    (hclosed : h'.tracked.closed = true) :
    (handles.set i h').countP (!·.tracked.closed) + 1 = handles.countP (!·.tracked.closed) := by
  obtain ⟨hlt, rfl⟩ := List.getElem?_eq_some_iff.1 hi
  have hpos : 0 < handles.countP (!·.tracked.closed) :=
    List.countP_pos_iff.2 ⟨_, List.getElem_mem hlt, by simpa using hopen⟩
  rw [List.countP_set hlt, hclosed, hopen]
  simp only [Bool.not_false, Bool.not_true, if_true]
  simp
  omega

theorem World.Inv.use (hw : w.Inv) (hi : w.handles[i]? = some h) (u : Use) :
    World.Inv { w with handles := w.handles.set i (h.use u) } := by
  have hsame := h.tracked.same_use u
  have hinv := (hw.handles h (List.mem_of_getElem? hi)).use u
  refine hw.set hi rfl ?_ ⟨hinv.released, hinv.counters, hinv.begun, hinv.pending, hinv.receipt⟩
    (others_handles ..) ?_ hw.finishes hw.rows
  · exact Prod.ext hsame.release hsame.transfer
  · rw [countP_set_same hi hsame.closed]
    exact hw.count

section OnClose

variable (w) (t : Tracked) (receipt : Receipt)

@[simp] theorem onClose_released : (w.onClose t receipt).released = w.released := by
  rw [World.onClose]
  split <;> rfl

@[simp] theorem onClose_openRepresentations :
    (w.onClose t receipt).openRepresentations = w.openRepresentations := by
  rw [World.onClose]
  split <;> rfl

@[simp] theorem onClose_handles : (w.onClose t receipt).handles = w.handles := by
  rw [World.onClose]
  split <;> rfl

@[simp] theorem onClose_begun : (w.onClose t receipt).begun = w.begun := by
  rw [World.onClose]
  split <;> rfl

theorem others_onClose (k : ℕ) : Others k t.transfer w (w.onClose t receipt) := by
  rw [World.onClose]
  split
  · rename_i htransfer
    rw [htransfer]
    exact others_recordTransfer ..
  · exact ⟨fun _ _ _ hb => hb, le_rfl, fun _ _ _ => rfl, fun _ hrow _ _ => hrow⟩

variable {w t receipt}

theorem onClose_bounds (hid : ∀ identity, t.transfer = some identity → identity < w.begun)
    (hfinishes : ∀ finish ∈ w.finishes, finish.identity < w.begun)
    (hrows : ∀ row ∈ w.transfers, row.identity < w.begun) :
    (∀ finish ∈ (w.onClose t receipt).finishes, finish.identity < w.begun) ∧
      ∀ row ∈ (w.onClose t receipt).transfers, row.identity < w.begun := by
  rw [World.onClose]
  split
  · rename_i identity htransfer
    have hlt := hid identity htransfer
    exact ⟨recordTransfer_finishes hlt hfinishes, recordTransfer_rows hlt hrows⟩
  · exact ⟨hfinishes, hrows⟩

/-- The one receipt of a transfer that had none. -/
theorem onClose_receipt (receipt : Receipt) {identity : ℕ} (htransfer : t.transfer = some identity)
    (hnone : w.finishes.filter (·.identity = identity) = []) :
    (w.onClose t receipt).finishes.filter (·.identity = identity) = [⟨identity, t.status, t.bytesRead, receipt⟩] ∧
      (receipt = .recorded → ∀ row ∈ (w.onClose t receipt).transfers, row.identity = identity →
        row = ⟨identity, t.status, t.bytesRead⟩) := by
  simp only [World.onClose, htransfer, World.recordTransfer]
  constructor
  · rw [List.filter_append, hnone]
    simp
  · rintro rfl row hrow hrowid
    simpa [hrowid] using mem_finishTransfer hrow

end OnClose

theorem release_released {k : ℕ} (hk : w.released[k]? = some false) :
    w.release k = { w with openRepresentations := w.openRepresentations - 1, released := w.released.set k true } :=
  if_pos hk

/-- What the close of a representation does. -/
theorem World.Inv.close (hw : w.Inv) (hi : w.handles[i]? = some h) (receipt : Receipt) : (w.close i h receipt).Inv := by
  rw [World.close]
  split
  · exact hw
  · rename_i hopen
    rw [Bool.not_eq_true] at hopen
    have hinv := hw.handles h (List.mem_of_getElem? hi)
    have hfree : w.released[h.tracked.release]? = some false := hopen ▸ hinv.released
    set shut : Handle := { h with tracked := h.tracked.shut }
    set v : World := { w with handles := w.handles.set i shut }
    have hothers : Others h.tracked.release h.tracked.transfer w
        ((v.onClose h.tracked receipt).release h.tracked.release) :=
      ((others_handles ..).trans (others_onClose v h.tracked receipt h.tracked.release)).trans (others_release ..)
    have hbounds : (∀ finish ∈ (v.onClose h.tracked receipt).finishes, finish.identity < v.begun) ∧
        ∀ row ∈ (v.onClose h.tracked receipt).transfers, row.identity < v.begun :=
      onClose_bounds hinv.begun hw.finishes hw.rows
    rw [release_released (by rw [onClose_released]; exact hfree)] at hothers ⊢
    refine hw.set hi (onClose_handles ..) rfl ?_ hothers ?_ ?_ ?_
    · refine ⟨?_, nofun, ?_, nofun, fun identity hid _ => ?_⟩
      · simp [shut, v, Tracked.shut, (List.getElem?_eq_some_iff.1 hfree).1]
      · simpa [shut, v, Tracked.shut] using hinv.begun
      · have hreceipt := onClose_receipt (w := v) receipt hid (hinv.pending identity hid hopen)
        exact ⟨h.tracked, receipt, hinv.counters hopen, rfl, hreceipt.1, hreceipt.2⟩
    · have hcount : (w.handles.set i shut).countP (!·.tracked.closed) + 1 = w.handles.countP (!·.tracked.closed) :=
        countP_set_closed hi hopen rfl
      simp only [onClose_openRepresentations, v, hw.count, ← hcount]
      omega
    · simpa [v] using hbounds.1
    · simpa [v] using hbounds.2

end Use

/-! ### Runs -/

theorem inv_init : World.Inv {} where
  handles := nofun
  count := rfl
  apart := .nil
  finishes := nofun
  rows := nofun

theorem inv_step {w t : World} {action : Action} (hw : w.Inv) (hstep : step w action = some t) : t.Inv := by
  cases action with
  | openCancellableArtifact size opening =>
    cases hstep
    exact hw.openCancellableArtifact size opening
  | openManifest size opening =>
    cases hstep
    exact hw.openManifest size opening
  | use i u =>
    obtain ⟨h, hi, hstep⟩ := Option.map_eq_some_iff.1 hstep
    cases u with
    | close fileRaises receipt =>
      subst hstep
      exact hw.close hi receipt
    | _ =>
      subst hstep
      exact hw.use hi _

theorem inv_run {w : World} {actions : List Action} (hrun : run step {} actions = some w) : w.Inv :=
  run_invariant (fun _ _ _ => inv_step) inv_init hrun

/-- The status of a close tells what was served when a full body was one call. -/
theorem Tracked.Inv.tells_iff {t : Tracked} {seen : List Seen} (h : t.Inv seen) (identity : ℕ) (receipt : Receipt) :
    Finish.Tells ⟨identity, t.status, t.bytesRead, receipt⟩ t.representation.size seen ↔
      InOneCall t.representation.size seen := by
  have hcovers : t.fullRead = true → Covers seen 0 t.representation.size := fun hfull => by
    have := h.completed 0 _ (h.fullRead.1 hfull)
    rwa [Nat.zero_add] at this
  have hserved : t.status = .served ↔ ¬ Failed seen ∧ t.fullRead = true := by
    rw [← h.failed, Tracked.status]
    cases t.failed <;> cases t.fullRead <;> simp
    split <;> simp
  constructor
  · intro htells hfailed hall
    exact h.fullRead.1 (hserved.1 (htells.served.2 ⟨hfailed, hall⟩)).2
  · intro hone
    refine ⟨h.bytes, ?_, fun hfailed hall hsome => ?_, fun hfailed => ?_⟩
    · rw [hserved]
      exact and_congr_right fun hfailed => ⟨hcovers, fun hall => h.fullRead.2 (hone hfailed hall)⟩
    · have hfull : t.fullRead = false := by
        cases hfull : t.fullRead
        · rfl
        · exact absurd (hcovers hfull) hall
      rw [← h.failed] at hfailed
      rw [← h.bytes] at hsome
      simp [Tracked.status, hfailed, hfull, hsome.ne']
    · simp [Tracked.status, h.failed.2 hfailed]

/-! ### The receipts -/

/-- Whatever is opened, used and closed, by whomever and with whatever answers and failures: the transfer of a
closed representation tells what was served if and only if a body served in full was served by one call. -/
theorem receipts_tell_iff {actions : List Action} {w : World} (hrun : run step {} actions = some w) {h : Handle}
    (hmem : h ∈ w.handles) (hclosed : h.tracked.closed = true) {identity : ℕ} (hid : h.tracked.transfer = some identity) :
    Told w h identity ↔ InOneCall h.tracked.representation.size h.seen := by
  have hw := inv_run hrun
  have hinv := hw.handles h hmem
  obtain ⟨t, receipt, ht, hsize, hfinish, hrow⟩ := hinv.receipt identity hid hclosed
  rw [← hsize, ← ht.tells_iff identity receipt]
  constructor
  · rintro ⟨⟨finish, hone, htells, _⟩, _, _⟩
    obtain rfl := List.singleton_injective (hfinish.symm.trans hone)
    rwa [← hsize] at htells
  · intro htells
    refine ⟨⟨_, hfinish, ?_, hrow⟩, hclosed ▸ hinv.released, hw.count⟩
    rwa [← hsize]

/-- The middle of four bytes, and a body whose second call fails. -/
def partBodies : List Action :=
  [.openCancellableArtifact 4 .opened, .openCancellableArtifact 4 .opened,
    .use 0 (.sendTo { sendfile := .returned (some 2) } 5 1 (some 2)),
    .use 1 (.sendTo { sendfile := .returned (some 2) } 5 0 (some 2)), .use 1 (.sendTo { sendfile := .failed } 5 2 (some 2)),
    .use 0 (.close false .recorded), .use 1 (.close false .recorded)]

theorem receipts_tell_small : ∃ w ranged broken, run step {} partBodies = some w ∧ w.handles = [ranged, broken] ∧
    w.finishes = [⟨0, .someRead, 2, .recorded⟩, ⟨1, .failed, 2, .recorded⟩] ∧ Told w ranged 0 ∧ Told w broken 1 := by
  refine ⟨_, _, _, rfl, rfl, rfl, ?_, ?_⟩
  · refine (@receipts_tell_iff partBodies _ rfl _ List.mem_cons_self rfl _ rfl).2 fun _ hcovers => ?_
    -- no range has the first byte
    obtain ⟨offset, count, hmem, hle, -⟩ := hcovers 0 (Nat.le_refl 0) (by decide)
    rcases List.mem_pair.1 hmem with h | h
    · cases h
      omega
    · cases h
  · refine (@receipts_tell_iff partBodies _ rfl _ (List.mem_cons_of_mem _ List.mem_cons_self) rfl _ rfl).2 fun hfine _ => ?_
    exact absurd ⟨_, List.mem_cons_of_mem _ (List.mem_cons_of_mem _ List.mem_cons_self), rfl⟩ hfine

/-- A whole body of one byte more than the gateway writes at once. -/
def chunkedBody : List Action :=
  [.openCancellableArtifact 16385 .opened] ++
    (sendRepresentation (fun position => { sendfile := .returned (some (min 16384 (16385 - position))) }) 5 0 16385 false
      2).map (.use 0) ++ [.use 0 (.close false .recorded)]

/-- What its receiver got. -/
def chunkedSeen : List Seen :=
  [.delivered 0 16384, .completed 0 16384, .delivered 16384 1, .completed 16384 1]

theorem chunkedSeen_covers : ¬ Failed chunkedSeen ∧ Covers chunkedSeen 0 16385 := by
  constructor
  · simp [Failed, chunkedSeen, Seen.fails]
  · intro p _ hp
    by_cases hfirst : p < 16384
    · exact ⟨0, 16384, by simp [chunkedSeen], by omega, by omega⟩
    · exact ⟨16384, 1, by simp [chunkedSeen], by omega, by omega⟩

def chunkedHandle : Handle where
  tracked :=
    { representation := { size := 16385, closed := true }, release := 0, transfer := some 0, closed := true,
      bytesRead := 16385 }
  seen := chunkedSeen

def chunkedWorld : World where
  released := [true]
  transfers := finishTransfer 0 .someRead 16385 [⟨0, .opened, 0⟩]
  begun := 1
  finishes := [⟨0, .someRead, 16385, .recorded⟩]
  handles := [chunkedHandle]

/-- Before the close. -/
def chunkedOpen (bytesRead : ℕ) (seen : List Seen) : World where
  openRepresentations := 1
  released := [false]
  transfers := [⟨0, .opened, 0⟩]
  begun := 1
  handles := [{ tracked := { representation := { size := 16385 }, release := 0, transfer := some 0, bytesRead }, seen }]

theorem chunkedBody_runs : run step {} chunkedBody = some chunkedWorld := by
  have hopened : step {} (.openCancellableArtifact 16385 .opened) = some (chunkedOpen 0 []) := rfl
  have hfirst : step (chunkedOpen 0 []) (.use 0 (.sendTo { sendfile := .returned (some 16384) } 5 0 (some 16384))) =
      some (chunkedOpen 16384 (chunkedSeen.take 2)) := rfl
  have hsecond : step (chunkedOpen 16384 (chunkedSeen.take 2))
      (.use 0 (.sendTo { sendfile := .returned (some 1) } 5 16384 (some 1))) =
      some (chunkedOpen 16385 chunkedSeen) := rfl
  have hclosed : step (chunkedOpen 16385 chunkedSeen) (.use 0 (.close false .recorded)) = some chunkedWorld := rfl
  exact run_cons_eq_some.2 ⟨_, hopened, run_cons_eq_some.2 ⟨_, hfirst, run_cons_eq_some.2 ⟨_, hsecond,
    run_cons_eq_some.2 ⟨_, hclosed, rfl⟩⟩⟩⟩

/-- It was delivered, and its receipt says that only a part was. -/
theorem chunked_body_not_served : run step {} chunkedBody = some chunkedWorld ∧
    ¬ Failed chunkedHandle.seen ∧ Covers chunkedHandle.seen 0 chunkedHandle.tracked.representation.size ∧
      ¬ Told chunkedWorld chunkedHandle 0 := by
  refine ⟨chunkedBody_runs, chunkedSeen_covers.1, chunkedSeen_covers.2, ?_⟩
  rintro ⟨⟨finish, hone, htells, _⟩, _, _⟩
  have hfinish : [(⟨0, .someRead, 16385, .recorded⟩ : Finish)] = [finish] := hone
  obtain rfl := List.singleton_injective hfinish
  have hserved := htells.served.2 chunkedSeen_covers
  cases hserved

end Conductor.Artifact.Transfers
