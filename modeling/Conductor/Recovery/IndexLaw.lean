import Conductor.Recovery.Index
import Conductor.Recovery.RawFrames
import Conductor.Lib.Runs

/-! What a `RecoveryIndex` holds after any writes, checkpoints and rollbacks. A compressed
index is the frames of some blocks and a pending block; a checkpoint keeps the frames that
were there, and a rollback cuts the file back to them. -/

namespace Conductor.Recovery

open Checked Runs

variable {z : Zstd} {w : RecoveryIndex} {o : Output} {content view payload : List UInt8}
  {blocks : List (List UInt8)}

theorem Output.write_atEnd (h : o.position = o.content.length) (payload : List UInt8) :
    o.write payload = ⟨o.content ++ payload, (o.content ++ payload).length⟩ := by
  simp [Output.write, h]

/-- A compressed index that has been told of `content` and has still to take `view`. -/
structure Encoded (z : Zstd) (w : RecoveryIndex) (o : Output) (content : List UInt8)
    (blocks : List (List UInt8)) (view : List UInt8) : Prop where
  compressed : w.compressed = true
  file : o.content = blocks.flatMap z.compress
  atEnd : o.position = o.content.length
  whole : blocks.flatten ++ w.pending ++ view = content
  limit : ∀ x ∈ blocks, x ≠ [] ∧ x.length ≤ storageBlockBytes
  pending : w.pending.length ≤ storageBlockBytes
  size : w.size = content.length
  digest : w.digest = content
  encodedSize : w.encodedSize = o.content.length
  encodedDigest : w.encodedDigest = o.content

theorem flush_encoded (h : Encoded z w o content blocks view) :
    ∃ more, Encoded z (w.flush z o).1 (w.flush z o).2 content (blocks ++ more) view ∧
      (w.flush z o).1.pending = [] := by
  unfold RecoveryIndex.flush
  split
  · next hnil => exact ⟨[], by simpa using h, hnil⟩
  · next hne =>
    refine ⟨[w.pending], ?_, rfl⟩
    have hwhole := h.whole
    simp only [RecoveryIndex.writeOutput, h.compressed, ↓reduceIte, Output.write_atEnd h.atEnd]
    refine ⟨rfl, ?_, rfl, ?_, ?_, Nat.zero_le _, h.size, h.digest, ?_, ?_⟩
    · simp [h.file]
    · simpa using hwhole
    · simp only [List.mem_append, List.mem_singleton, or_imp, forall_and, forall_eq]
      exact ⟨⟨fun x hx => (h.limit x hx).1, hne⟩, fun x hx => (h.limit x hx).2, h.pending⟩
    · simp [h.encodedSize]
    · simp [h.encodedDigest]

/-! ### Writing -/

theorem extend_pending (w : RecoveryIndex) (view : List UInt8)
    (h : w.pending.length ≤ storageBlockBytes) : (w.extend view).pending.length ≤ storageBlockBytes := by
  simp only [RecoveryIndex.extend, RecoveryIndex.room, List.length_append, List.length_take]
  omega

theorem extend_encoded (h : Encoded z w o content blocks view) :
    Encoded z (w.extend view) o content blocks (view.drop (w.room view)) := by
  refine ⟨h.compressed, h.file, h.atEnd, ?_, h.limit, extend_pending w view h.pending, h.size, h.digest,
    h.encodedSize, h.encodedDigest⟩
  have hwhole := h.whole
  simpa [RecoveryIndex.extend] using hwhole

/-- Between the passes of `write` the pending block is not full. -/
theorem fill_encoded : ∀ (passes : ℕ) {w : RecoveryIndex} {o : Output} {blocks : List (List UInt8)}
    {view : List UInt8}, Encoded z w o content blocks view → w.pending.length < storageBlockBytes →
    ∃ more rest, Encoded z (w.fill z passes o view).1 (w.fill z passes o view).2 content (blocks ++ more) rest ∧
      (w.fill z passes o view).1.pending.length < storageBlockBytes ∧ (view.length ≤ passes → rest = []) := by
  intro passes
  induction passes with
  | zero =>
    intro w o blocks view h hpending
    refine ⟨[], view, by simpa [RecoveryIndex.fill] using h, hpending, fun hlen => ?_⟩
    exact List.eq_nil_of_length_eq_zero (by omega)
  | succ passes ih =>
    intro w o blocks view h hpending
    unfold RecoveryIndex.fill
    split
    · next hnil => exact ⟨[], view, by simpa using h, hpending, fun _ => hnil⟩
    next hne =>
    have hnext := extend_encoded h
    have hview := List.length_pos_iff.2 hne
    have hroom : 0 < w.room view := by
      unfold RecoveryIndex.room
      omega
    have hshort : view.length ≤ passes + 1 → (view.drop (w.room view)).length ≤ passes := by
      rw [List.length_drop]
      omega
    by_cases hfull : (w.extend view).pending.length = storageBlockBytes
    · simp only [hfull, ↓reduceIte]
      obtain ⟨more, hflushed, hempty⟩ := flush_encoded hnext
      have hlt : ((w.extend view).flush z o).1.pending.length < storageBlockBytes := by
        rw [hempty]
        decide
      obtain ⟨more', rest, hfilled, hlt', hrest⟩ := ih hflushed hlt
      exact ⟨more ++ more', rest, by simpa using hfilled, hlt', fun hlen => hrest (hshort hlen)⟩
    · simp only [hfull, ↓reduceIte]
      have hle := hnext.pending
      obtain ⟨more, rest, hfilled, hlt', hrest⟩ := ih hnext (by omega)
      exact ⟨more, rest, hfilled, hlt', fun hlen => hrest (hshort hlen)⟩

theorem account_encoded (h : Encoded z w o content blocks []) (payload : List UInt8) :
    Encoded z (w.account payload) o (content ++ payload) blocks payload := by
  refine ⟨h.compressed, h.file, h.atEnd, ?_, h.limit, h.pending, ?_, ?_, h.encodedSize, h.encodedDigest⟩
  · rw [← h.whole]
    simp [RecoveryIndex.account]
  · simp [RecoveryIndex.account, h.size]
  · simp [RecoveryIndex.account, h.digest]

theorem write_encoded (h : Encoded z w o content blocks []) (hpending : w.pending.length < storageBlockBytes)
    (payload : List UInt8) :
    ∃ more, Encoded z (w.write z o payload).1 (w.write z o payload).2 (content ++ payload) (blocks ++ more) [] ∧
      (w.write z o payload).1.pending.length < storageBlockBytes := by
  unfold RecoveryIndex.write
  rw [if_pos h.compressed]
  obtain ⟨more, rest, hfilled, hlt, hrest⟩ := fill_encoded payload.length (account_encoded h payload) hpending
  obtain rfl := hrest le_rfl
  exact ⟨more, hfilled, hlt⟩

/-! ### Checkpoints -/

/-- The checkpoint at which the file was the frames of `kept`. -/
def checkpointAt (z : Zstd) (kept : List (List UInt8)) : Checkpoint :=
  let encoded := kept.flatMap z.compress
  ⟨encoded.length, kept.flatten.length, kept.flatten, encoded.length, encoded⟩

theorem checkpoint_encoded (h : Encoded z w o content blocks []) :
    ∃ kept, w.checkpoint z o = (checkpointAt z kept, w.flush z o) ∧ kept.flatten = content ∧
      Encoded z (w.flush z o).1 (w.flush z o).2 content kept [] ∧ (w.flush z o).1.pending = [] := by
  obtain ⟨more, hflushed, hempty⟩ := flush_encoded h
  have hcontent : (blocks ++ more).flatten = content := by
    have := hflushed.whole
    rwa [hempty, List.append_nil, List.append_nil] at this
  refine ⟨blocks ++ more, ?_, hcontent, hflushed, hempty⟩
  simp only [RecoveryIndex.checkpoint, checkpointAt, Output.tell, hflushed.atEnd, hflushed.size,
    hflushed.digest, hflushed.encodedSize, hflushed.encodedDigest, hflushed.file, hcontent]

theorem rollback_encoded {kept more : List (List UInt8)} (h : Encoded z w o content (kept ++ more) []) :
    Encoded z (w.rollback o (checkpointAt z kept)).1 (w.rollback o (checkpointAt z kept)).2 kept.flatten kept [] ∧
      (w.rollback o (checkpointAt z kept)).1.pending = [] := by
  have hfile : (w.rollback o (checkpointAt z kept)).2.content = kept.flatMap z.compress := by
    simp [RecoveryIndex.rollback, Output.seek, Output.truncate, checkpointAt, h.file]
  refine ⟨⟨h.compressed, hfile, ?_, ?_, ?_, Nat.zero_le _, rfl, rfl, ?_, ?_⟩, rfl⟩
  · rw [hfile]
    rfl
  · simp [RecoveryIndex.rollback]
  · exact fun x hx => h.limit x (List.mem_append_left _ hx)
  · rw [hfile]
    rfl
  · rw [hfile]
    rfl

/-! ### The finished file -/

/-- A compressed index after `finish`. -/
structure Finished (z : Zstd) (w : RecoveryIndex) (o : Output) (content : List UInt8)
    (blocks : List (List UInt8)) : Prop where
  compressed : w.compressed = true
  file : o.content = blocks.flatMap z.compress
  whole : blocks.flatten = content
  limit : ∀ x ∈ blocks, x.length ≤ storageBlockBytes
  nonempty : blocks ≠ []
  empty : content = [] → blocks = [[]]
  size : w.size = content.length
  digest : w.digest = content
  encodedSize : w.encodedSize = o.content.length
  encodedDigest : w.encodedDigest = o.content

theorem finish_encoded (h : Encoded z w o content blocks []) :
    ∃ blocks', Finished z (w.finish z o).1 (w.finish z o).2 content blocks' := by
  obtain ⟨more, hflushed, hempty⟩ := flush_encoded h
  have hwhole : (blocks ++ more).flatten = content := by
    have := hflushed.whole
    rwa [hempty, List.append_nil, List.append_nil] at this
  have hblocks : content = [] → blocks ++ more = [] := by
    intro hnil
    apply List.eq_nil_iff_forall_not_mem.2
    intro x hx
    exact (hflushed.limit x hx).1 (List.flatten_eq_nil_iff.1 (hwhole.trans hnil) x hx)
  unfold RecoveryIndex.finish
  rw [if_pos h.compressed]
  by_cases hzero : (w.flush z o).1.size = 0
  · have hnil : content = [] := List.eq_nil_of_length_eq_zero (hflushed.size ▸ hzero)
    have hfile : (w.flush z o).2.content = [] := by rw [hflushed.file, hblocks hnil, List.flatMap_nil]
    have hencoded := hflushed.encodedSize
    have hdigest := hflushed.encodedDigest
    rw [hfile] at hencoded hdigest
    refine ⟨[[]], ?_⟩
    simp only [hzero, ↓reduceIte, RecoveryIndex.writeOutput, hflushed.compressed,
      Output.write_atEnd hflushed.atEnd, hfile]
    refine ⟨rfl, by simp, hnil.symm, by simp, by simp, fun _ => rfl, ?_, hflushed.digest, ?_, ?_⟩
    · rw [hnil]
      rfl
    · simp [hencoded]
    · simp [hdigest]
  · simp only [hzero, ↓reduceIte]
    have hne : content ≠ [] := by
      rintro rfl
      exact hzero hflushed.size
    refine ⟨blocks ++ more, hflushed.compressed, hflushed.file, hwhole, fun x hx => (hflushed.limit x hx).2,
      ?_, fun hnil => absurd hnil hne, hflushed.size, hflushed.digest, hflushed.encodedSize,
      hflushed.encodedDigest⟩
    intro hnil
    rw [hnil] at hwhole
    exact hne hwhole.symm

theorem Finished.decode (hz : z.Lossless) (h : Finished z w o content blocks) (splits : List ℕ) :
    decodedMetadata z ⟨o.content, splits⟩ = .ok content := by
  rw [h.file, decodedMetadata_frames (fun x hx => hz x (h.limit x hx)) h.nonempty, h.whole]

theorem Finished.verify (hz : z.Lossless) (h : Finished z w o content blocks)
    (hexdigest : List UInt8 → String) : w.verify z hexdigest o.content =
      .ok (some ⟨"zstd", 1, storageBlockBytes, content.length, hexdigest content⟩) := by
  simp [RecoveryIndex.verify, h.compressed, RecoveryIndex.digestOf, h.encodedSize, h.encodedDigest,
    h.decode hz [], h.size, h.digest]

/-! ### Both storage modes -/

/-- An index that is written as it is: nothing but the file changes. -/
structure Plain (w : RecoveryIndex) (o : Output) (content : List UInt8) : Prop where
  unchanged : w = { compressed := false }
  file : o.content = content
  atEnd : o.position = content.length

/-- `content` is what the index holds, and `saved` is the last checkpoint with what the index
held then. -/
def Holds (z : Zstd) (w : RecoveryIndex) (o : Output) (content : List UInt8)
    (saved : Option (Checkpoint × List UInt8)) : Bool → Prop
  | true => ∃ blocks, Encoded z w o content blocks [] ∧ w.pending.length < storageBlockBytes ∧
      ∀ p ∈ saved, ∃ kept more, blocks = kept ++ more ∧ p = (checkpointAt z kept, kept.flatten)
  | false => Plain w o content ∧ ∀ p ∈ saved, p.2 <+: content ∧ p.1 = ⟨p.2.length, 0, [], 0, []⟩

variable {saved : Option (Checkpoint × List UInt8)} {compressed : Bool}

theorem holds_start (z : Zstd) (compressed : Bool) : Holds z { compressed } {} [] none compressed := by
  cases compressed with
  | false => exact ⟨⟨rfl, rfl, rfl⟩, nofun⟩
  | true =>
    refine ⟨[], ⟨rfl, rfl, rfl, rfl, nofun, Nat.zero_le _, rfl, rfl, rfl, rfl⟩, ?_, nofun⟩
    decide

theorem holds_write (h : Holds z w o content saved compressed) (payload : List UInt8) :
    Holds z (w.write z o payload).1 (w.write z o payload).2 (content ++ payload) saved compressed := by
  cases compressed with
  | true =>
    obtain ⟨blocks, h, hpending, hsaved⟩ := h
    obtain ⟨more, hwritten, hlt⟩ := write_encoded h hpending payload
    refine ⟨blocks ++ more, hwritten, hlt, fun p hp => ?_⟩
    obtain ⟨kept, later, rfl, rfl⟩ := hsaved p hp
    exact ⟨kept, later ++ more, List.append_assoc .., rfl⟩
  | false =>
    obtain ⟨⟨rfl, hfile, hatEnd⟩, hsaved⟩ := h
    have hend : o.position = o.content.length := by rw [hfile, hatEnd]
    simp only [RecoveryIndex.write, RecoveryIndex.writeOutput, Bool.false_eq_true, ↓reduceIte,
      Output.write_atEnd hend, hfile]
    refine ⟨⟨rfl, rfl, rfl⟩, fun p hp => ?_⟩
    obtain ⟨hbefore, heq⟩ := hsaved p hp
    exact ⟨hbefore.trans (List.prefix_append _ _), heq⟩

theorem holds_checkpoint (h : Holds z w o content saved compressed) :
    Holds z (w.checkpoint z o).2.1 (w.checkpoint z o).2.2 content (some ((w.checkpoint z o).1, content))
      compressed := by
  cases compressed with
  | true =>
    obtain ⟨blocks, h, -, -⟩ := h
    obtain ⟨kept, hcheckpoint, rfl, hkept, hempty⟩ := checkpoint_encoded h
    rw [hcheckpoint]
    refine ⟨kept, hkept, ?_, fun p hp => ?_⟩
    · simp only [hempty]
      decide
    · cases hp
      exact ⟨kept, [], (List.append_nil _).symm, rfl⟩
  | false =>
    obtain ⟨⟨rfl, hfile, hatEnd⟩, -⟩ := h
    refine ⟨⟨rfl, hfile, hatEnd⟩, fun p hp => ?_⟩
    cases hp
    exact ⟨List.prefix_rfl, by simp [RecoveryIndex.checkpoint, RecoveryIndex.flush, Output.tell, hatEnd]⟩

theorem holds_rollback {c : Checkpoint} {before : List UInt8}
    (h : Holds z w o content (some (c, before)) compressed) :
    Holds z (w.rollback o c).1 (w.rollback o c).2 before (some (c, before)) compressed := by
  cases compressed with
  | true =>
    obtain ⟨blocks, h, -, hsaved⟩ := h
    obtain ⟨kept, more, rfl, heq⟩ := hsaved _ rfl
    simp only [Prod.mk.injEq] at heq
    obtain ⟨rfl, rfl⟩ := heq
    obtain ⟨hrolled, hempty⟩ := rollback_encoded h
    refine ⟨kept, hrolled, ?_, fun p hp => ?_⟩
    · rw [hempty]
      decide
    · cases hp
      exact ⟨kept, [], (List.append_nil _).symm, rfl⟩
  | false =>
    obtain ⟨⟨rfl, hfile, hatEnd⟩, hsaved⟩ := h
    obtain ⟨hbefore, hc⟩ := hsaved _ rfl
    simp only at hbefore hc
    subst hc
    obtain ⟨rest, hrest⟩ := hbefore
    refine ⟨⟨rfl, ?_, rfl⟩, fun p hp => ?_⟩
    · simp [RecoveryIndex.rollback, Output.seek, Output.truncate, hfile, ← hrest]
    · cases hp
      exact ⟨List.prefix_rfl, rfl⟩

/-- What `finish` leaves in the file, and what `verify` says of it. -/
def Published (z : Zstd) (hexdigest : List UInt8 → String) (w : RecoveryIndex) (o : Output)
    (content : List UInt8) : Bool → Prop
  | true => (∀ splits, decodedMetadata z ⟨o.content, splits⟩ = .ok content) ∧
      (∃ blocks, Finished z w o content blocks) ∧ w.verify z hexdigest o.content =
        .ok (some ⟨"zstd", 1, storageBlockBytes, content.length, hexdigest content⟩)
  | false => o.content = content ∧ w = { compressed := false } ∧ w.verify z hexdigest o.content = .ok none

theorem holds_finish (hz : z.Lossless) (h : Holds z w o content saved compressed)
    (hexdigest : List UInt8 → String) :
    Published z hexdigest (w.finish z o).1 (w.finish z o).2 content compressed := by
  cases compressed with
  | true =>
    obtain ⟨blocks, h, -, -⟩ := h
    obtain ⟨blocks', hfinished⟩ := finish_encoded h
    exact ⟨hfinished.decode hz, ⟨blocks', hfinished⟩, hfinished.verify hz hexdigest⟩
  | false =>
    obtain ⟨⟨rfl, hfile, -⟩, -⟩ := h
    exact ⟨hfile, rfl, rfl⟩

/-! ### Runs -/

inductive Op where
  | write (payload : List UInt8)
  | checkpoint
  | rollback

structure Session where
  index : RecoveryIndex
  output : Output := {}
  saved : Option Checkpoint := none

/-- A rollback goes to the last checkpoint taken. -/
def Session.step (z : Zstd) (s : Session) : Op → Option Session
  | .write payload =>
    let (index, output) := s.index.write z s.output payload
    some { s with index, output }
  | .checkpoint =>
    let (c, index, output) := s.index.checkpoint z s.output
    some ⟨index, output, some c⟩
  | .rollback => s.saved.map fun c =>
    let (index, output) := s.index.rollback s.output c
    { s with index, output }

/-- What the index is for: the payloads that survive, and those that survived at the last
checkpoint. -/
structure Ledger where
  content : List UInt8 := []
  saved : Option (List UInt8) := none

def Ledger.step (l : Ledger) : Op → Option Ledger
  | .write payload => some { l with content := l.content ++ payload }
  | .checkpoint => some { l with saved := some l.content }
  | .rollback => l.saved.map fun content => { l with content }

/-- The session represents the ledger. -/
structure Represents (z : Zstd) (compressed : Bool) (s : Session) (l : Ledger) : Prop where
  holds : Holds z s.index s.output l.content (s.saved.bind fun c => l.saved.map (c, ·)) compressed
  saved : s.saved.isSome = l.saved.isSome

theorem represents_step {s t : Session} {l : Ledger} {op : Op} (h : Represents z compressed s l)
    (ht : s.step z op = some t) : ∃ m, l.step op = some m ∧ Represents z compressed t m := by
  cases op with
  | write payload =>
    cases ht
    exact ⟨_, rfl, holds_write h.holds payload, h.saved⟩
  | checkpoint =>
    cases ht
    exact ⟨_, rfl, holds_checkpoint h.holds, rfl⟩
  | rollback =>
    obtain ⟨hholds, hsome⟩ := h
    obtain ⟨index, output, saved⟩ := s
    obtain ⟨content, before⟩ := l
    cases saved with
    | none => cases ht
    | some c =>
      cases before with
      | none => cases hsome
      | some before =>
        cases ht
        exact ⟨_, rfl, holds_rollback hholds, rfl⟩

theorem represents_run {ops : List Op} : ∀ {s t : Session} {l : Ledger}, Represents z compressed s l →
    run (Session.step z) s ops = some t → ∃ m, run Ledger.step l ops = some m ∧ Represents z compressed t m := by
  induction ops with
  | nil =>
    intro s t l h ht
    cases ht
    exact ⟨l, rfl, h⟩
  | cons op ops ih =>
    intro s t l h ht
    obtain ⟨u, hu, hrest⟩ := run_cons_eq_some.1 ht
    obtain ⟨m, hm, hrep⟩ := represents_step h hu
    obtain ⟨n, hn, hfinal⟩ := ih hrep hrest
    exact ⟨n, run_cons_eq_some.2 ⟨m, hm, hn⟩, hfinal⟩

/-- The pending block between the passes of a write, and when a pass has added its bytes. -/
def Bounded (z : Zstd) (s : Session) : Bool → Prop
  | true => ∀ (payload : List UInt8) (passes : ℕ) (view : List UInt8),
      let w := ((s.index.account payload).fill z passes s.output payload).1
      w.pending.length < storageBlockBytes ∧ (w.extend view).pending.length ≤ storageBlockBytes
  | false => s.index.pending = []

theorem bounded_of_holds {s : Session} (h : Holds z s.index s.output content saved compressed) :
    Bounded z s compressed := by
  cases compressed with
  | true =>
    obtain ⟨blocks, h, hpending, -⟩ := h
    intro payload passes view w
    obtain ⟨more, rest, -, hlt, -⟩ := fill_encoded passes (account_encoded h payload) hpending
    exact ⟨hlt, extend_pending w view hlt.le⟩
  | false =>
    rw [Bounded, h.1.unchanged]

/-- After any operations a compressed index ends in frames that decode to the surviving payloads,
with the right totals; a plain one ends in the payloads themselves. -/
theorem recovery_index_law (hz : z.Lossless) (hexdigest : List UInt8 → String) (compressed : Bool)
    {ops : List Op} {s : Session} (hrun : run (Session.step z) { index := { compressed } } ops = some s) :
    ∃ l, run Ledger.step {} ops = some l ∧ Bounded z s compressed ∧
      Published z hexdigest (s.index.finish z s.output).1 (s.index.finish z s.output).2 l.content
        compressed := by
  have hstart : Represents z compressed { index := { compressed } } {} := ⟨holds_start z compressed, rfl⟩
  obtain ⟨l, hl, hholds, -⟩ := represents_run hstart hrun
  exact ⟨l, hl, bounded_of_holds hholds, holds_finish hz hholds hexdigest⟩

/-! A record is committed and a second one is rolled back. The checksums of the contents that are
compressed, `a` and `ab`, are those of the real codec. -/

def sampleZstd : Zstd := Raw.zstd fun x =>
  if x = [97] then [0x5b, 0x6e, 0x8c, 0xa9] else if x = [97, 98] then [0x61, 0x4a, 0xd0, 0x92] else [0, 0, 0, 0]

def sampleOps : List Op := [.write [97], .checkpoint, .write [98], .rollback]

theorem sampleZstd_lossless : sampleZstd.Lossless := by
  apply Raw.zstd_lossless
  intro x
  split
  · rfl
  · split <;> rfl

theorem recovery_index_law_sample :
    ∃ s, run (Session.step sampleZstd) { index := { compressed := true } } sampleOps = some s ∧
      ∀ hexdigest, ∃ l, run Ledger.step {} sampleOps = some l ∧ Bounded sampleZstd s true ∧
        Published sampleZstd hexdigest (s.index.finish sampleZstd s.output).1
          (s.index.finish sampleZstd s.output).2 l.content true :=
  ⟨_, rfl, fun hexdigest => recovery_index_law sampleZstd_lossless hexdigest true rfl⟩

/-- A plain index counts nothing, and `verify` compares nothing. -/
theorem recovery_index_totals_fail :
    ∃ s, run (Session.step sampleZstd) { index := { compressed := false } } [.write [97]] = some s ∧
      (s.index.finish sampleZstd s.output).2.content = [97] ∧
      (s.index.finish sampleZstd s.output).1.size ≠ [97].length ∧
      (s.index.finish sampleZstd s.output).1.digest ≠ [97] ∧
      (s.index.finish sampleZstd s.output).1.encodedSize ≠ [97].length ∧
      (s.index.finish sampleZstd s.output).1.encodedDigest ≠ [97] ∧
      ∀ hexdigest, (s.index.finish sampleZstd s.output).1.verify sampleZstd hexdigest [97] = .ok none :=
  ⟨_, rfl, by decide, by decide, by decide, by decide, by decide, fun _ => rfl⟩

end Conductor.Recovery
