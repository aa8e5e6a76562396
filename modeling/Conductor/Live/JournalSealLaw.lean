import Conductor.Lib.Blocks
import Conductor.Live.JournalSeal
import Conductor.Recovery.IndexLaw

/-! Following a journal and reading it once leave the same compacted file. The blocks that a
run of passes has stored are a cut of what was read so far, and there is one cut. -/

namespace Conductor.Live.JournalSeal

open Checked Recovery Blocks Runs

/-- Both decoders answer the content of a frame that the compressor made of a block. -/
structure Codec.Lossless (z : Codec) : Prop where
  frames : z.toZstd.Lossless
  decompress : ∀ x : List UInt8, x ≠ [] → x.length ≤ storageBlockBytes → z.decompress (z.compress x) = some x

variable {z : Codec} {blocks : List (List UInt8)} {consumed content data : List UInt8} {j : Journal}

theorem storageBlockBytes_pos : 0 < storageBlockBytes := by decide

/-! ### Reads -/

theorem read_spec (content : List UInt8) (splits : List ℕ) {n : ℕ} (hn : 0 < n) :
    ∃ k splits', 0 < k ∧ k ≤ n ∧
      Source.read ⟨content, splits⟩ n = (content.take k, ⟨content.drop k, splits'⟩) := by
  cases splits with
  | nil => exact ⟨n, [], hn, le_rfl, rfl⟩
  | cons k splits => exact ⟨min n (k + 1), splits, by omega, min_le_left _ _, rfl⟩

theorem bufferedFrom_eq (count : ℕ) : ∀ (fuel : ℕ) (data rest : List UInt8) (splits : List ℕ),
    count ≤ data.length + fuel → data.length ≤ count →
    ∃ splits', bufferedFrom count fuel data ⟨rest, splits⟩ =
      (data ++ rest.take (count - data.length), ⟨rest.drop (count - data.length), splits'⟩) := by
  intro fuel
  induction fuel with
  | zero =>
    intro data rest splits hfuel hle
    have hzero : count - data.length = 0 := by omega
    exact ⟨splits, by simp [bufferedFrom, hzero]⟩
  | succ fuel ih =>
    intro data rest splits hfuel hle
    unfold bufferedFrom
    split
    · next hlt =>
      obtain ⟨k, splits', hk, hkn, hread⟩ := read_spec rest splits (n := count - data.length) (by omega)
      rw [hread]
      dsimp only
      split
      · next hnil =>
        obtain rfl : rest = [] := by
          rcases List.take_eq_nil_iff.1 hnil with h | h
          · omega
          · exact h
        exact ⟨splits', by simp⟩
      · next hne =>
        have hlen : (rest.take k).length ≤ k := List.length_take_le ..
        have hpos := List.length_pos_iff.2 hne
        obtain ⟨splits'', h⟩ := ih (data ++ rest.take k) (rest.drop k) splits'
          (by rw [List.length_append]; omega) (by rw [List.length_append]; omega)
        refine ⟨splits'', ?_⟩
        rw [h]
        by_cases hshort : rest.length ≤ k
        · rw [List.take_of_length_le hshort, List.drop_of_length_le hshort,
            List.take_of_length_le (l := rest) (by omega), List.drop_of_length_le (l := rest) (by omega)]
          simp
        · have hrest : k + (count - (data ++ rest.take k).length) = count - data.length := by
            rw [List.length_append, List.length_take]
            omega
          rw [List.append_assoc, ← List.take_add, List.drop_drop, hrest]
    · next hge =>
      have hzero : count - data.length = 0 := by omega
      exact ⟨splits, by simp [hzero]⟩

/-- A buffered read of a file is short only at its end. -/
theorem buffered_eq (count : ℕ) (content : List UInt8) (splits : List ℕ) :
    ∃ splits', buffered count ⟨content, splits⟩ = (content.take count, ⟨content.drop count, splits'⟩) := by
  obtain ⟨splits', h⟩ := bufferedFrom_eq count count [] content splits (by simp) (by simp)
  rw [List.nil_append, List.length_nil, Nat.sub_zero] at h
  exact ⟨splits', h⟩

/-! ### The blocks that were stored -/

/-- The digests and the output are those of `blocks`. -/
structure Stored (z : Codec) (j : Journal) (blocks : List (List UInt8)) : Prop where
  digest : j.digest = blocks.flatten
  size : j.size = blocks.flatten.length
  encodedDigest : j.encodedDigest = blocks.flatMap z.compress
  output : j.output = ⟨blocks.flatMap z.compress, (blocks.flatMap z.compress).length⟩

/-- What was read so far is cut into the stored blocks and the pending one. -/
def Follows (z : Codec) (j : Journal) (consumed : List UInt8) : Prop :=
  ∃ blocks, Cut storageBlockBytes blocks j.pending consumed ∧ Stored z j blocks

theorem Stored.write (h : Stored z j blocks) (x : List UInt8) : j.output.write (z.compress x) =
      ⟨(blocks ++ [x]).flatMap z.compress, ((blocks ++ [x]).flatMap z.compress).length⟩ := by
  rw [h.output, Output.write_atEnd rfl, List.flatMap_append, List.flatMap_singleton]

theorem pread_write {output : Output} (hend : output.position = output.content.length) (encoded : List UInt8) :
    Journal.pread (output.write encoded) encoded.length output.tell = encoded := by
  simp [Journal.pread, Output.write, Output.tell, hend]

theorem store_ok (hz : z.Lossless) (h : Stored z j blocks) (hne : j.pending ≠ [])
    (hle : j.pending.length ≤ storageBlockBytes) :
    ∃ j', j.store z = .ok j' ∧ Stored z j' (blocks ++ [j.pending]) ∧ j'.pending = [] ∧
      j'.position = j.position ∧ j'.sourceId = j.sourceId := by
  have hback : Journal.pread (j.output.write (z.compress j.pending)) (z.compress j.pending).length j.output.tell =
      z.compress j.pending := pread_write (by rw [h.output]) _
  refine ⟨{ j with
      pending := [], digest := j.digest ++ j.pending, size := j.size + j.pending.length
      encodedDigest := j.encodedDigest ++ z.compress j.pending
      output := j.output.write (z.compress j.pending) }, ?_, ⟨?_, ?_, ?_, ?_⟩, rfl, rfl, rfl⟩
  · simp [Journal.store, hback, hz.decompress j.pending hne hle]
  · simp [h.digest]
  · simp [h.size]
  · simp [h.encodedDigest]
  · exact h.write j.pending

theorem stored_extend (h : Stored z j blocks) (data : List UInt8) : Stored z (j.extend data) blocks :=
  ⟨h.digest, h.size, h.encodedDigest, h.output⟩

/-- A pass that read something, or that is not final. -/
theorem pass_ok (hz : z.Lossless) (h : Follows z j consumed) (final : Bool)
    (hfit : data.length ≤ storageBlockBytes - j.pending.length) (hmore : final = true → data ≠ []) :
    ∃ j', j.pass z final data = .ok j' ∧ Follows z j' (consumed ++ data) ∧
      j'.position = j.position + data.length ∧ j'.sourceId = j.sourceId := by
  obtain ⟨blocks, hcut, hstored⟩ := h
  have hshort := hcut.short
  have hstored' := stored_extend hstored data
  have hlen : (j.extend data).pending.length ≤ storageBlockBytes := by
    simp only [Journal.extend, List.length_append]
    omega
  have hlast : ¬ (final = true ∧ data = [] ∧ (j.extend data).pending ≠ []) :=
    fun hlast => hmore hlast.1 hlast.2.1
  unfold Journal.pass
  by_cases hfull : (j.extend data).pending.length = storageBlockBytes
  · have hne : (j.extend data).pending ≠ [] := by
      apply List.ne_nil_of_length_pos
      rw [hfull]
      exact storageBlockBytes_pos
    obtain ⟨j', hstore, hstored'', hpending, hposition, hid⟩ := store_ok hz hstored' hne hlen
    refine ⟨j', ?_, ⟨blocks ++ [j.pending ++ data], ?_, hstored''⟩, hposition, hid⟩
    · simp only [hfull, true_or, ↓reduceIte, hstore]
    · rw [hpending]
      exact hcut.close storageBlockBytes_pos hfull
  · refine ⟨j.extend data, ?_, ⟨blocks, ?_, hstored'⟩, rfl, rfl⟩
    · simp only [hfull, hlast, or_self, ↓reduceIte]
    · exact hcut.extend (lt_of_le_of_ne hlen hfull)

/-- The final pass that reads nothing stores what is pending. -/
theorem pass_last (hz : z.Lossless) (hcut : Cut storageBlockBytes blocks j.pending consumed)
    (hstored : Stored z j blocks) :
    ∃ j', j.pass z true [] = .ok j' ∧ Stored z j' (closed blocks j.pending) ∧ j'.sourceId = j.sourceId := by
  have hextend : j.extend [] = j := by simp [Journal.extend]
  have hfull : j.pending.length ≠ storageBlockBytes := hcut.short.ne
  unfold Journal.pass
  simp only [hextend, hfull, true_and, false_or]
  by_cases hnil : j.pending = []
  · exact ⟨j, by simp [hnil], by simpa [closed, hnil] using hstored, rfl⟩
  · obtain ⟨j', hstore, hstored', -, -, hid⟩ := store_ok hz hstored hnil hcut.short.le
    exact ⟨j', by simp [hnil, hstore], by simpa [closed, hnil] using hstored', hid⟩

/-- The final loop ends with the blocks of the whole file. -/
theorem pumpFinal_ok (hz : z.Lossless) : ∀ (fuel : ℕ) {j : Journal} {consumed : List UInt8} (rest : List UInt8)
    (splits : List ℕ), Follows z j consumed → rest.length < fuel →
    ∃ j' blocks short, j.pumpFinal z fuel ⟨rest, splits⟩ = .ok j' ∧
      Cut storageBlockBytes blocks short (consumed ++ rest) ∧ Stored z j' (closed blocks short) ∧
      j'.sourceId = j.sourceId := by
  intro fuel
  induction fuel with
  | zero => intro j consumed rest splits _ hfuel; omega
  | succ fuel ih =>
    intro j consumed rest splits h hfuel
    obtain ⟨blocks, hcut, hstored⟩ := id h
    have hshort := hcut.short
    obtain ⟨k, splits', hk, hkn, hread⟩ :=
      read_spec rest splits (n := storageBlockBytes - j.pending.length) (by omega)
    unfold Journal.pumpFinal Journal.read
    rw [hread]
    by_cases hnil : rest.take k = []
    · obtain rfl : rest = [] := by
        rcases List.take_eq_nil_iff.1 hnil with hzero | hrest
        · omega
        · exact hrest
      obtain ⟨j', hpass, hstored', hid⟩ := pass_last hz hcut hstored
      refine ⟨j', blocks, j.pending, ?_, by rwa [List.append_nil], hstored', hid⟩
      simp [hpass, bind, Except.bind, pure, Except.pure]
    · have hfit : (rest.take k).length ≤ storageBlockBytes - j.pending.length :=
        (List.length_take_le ..).trans hkn
      obtain ⟨j₁, hpass, hfollows, -, hid₁⟩ := pass_ok hz h true hfit fun _ => hnil
      have hpos := List.length_pos_iff.2 hnil
      have hdrop : (rest.drop k).length < fuel := by
        rw [List.length_take] at hpos
        rw [List.length_drop]
        omega
      obtain ⟨j', blocks', short, hpump, hcut', hstored', hid⟩ := ih (rest.drop k) splits' hfollows hdrop
      refine ⟨j', blocks', short, ?_, ?_, hstored', hid.trans hid₁⟩
      · simp only [hpass, hnil, bind, Except.bind, ↓reduceIte, hpump]
      · rwa [List.append_assoc, List.take_append_drop] at hcut'

/-! ### A run -/

structure Tracks (z : Codec) (s : State) : Prop where
  follows : Follows z s.journal (s.file.content.take s.journal.position)
  position : s.journal.position ≤ s.file.content.length
  sourceId : s.journal.sourceId = (s.file.device, s.file.inode)
  error : s.error = none

theorem tracks_start (z : Codec) (f : File) : Tracks z (start f) := by
  refine ⟨⟨[], ?_, ⟨rfl, rfl, rfl, rfl⟩⟩, Nat.zero_le _, rfl, rfl⟩
  simpa [start, Journal.new] using Cut.nil storageBlockBytes_pos

theorem tracks_pass (hz : z.Lossless) {s : State} (h : Tracks z s) (passes : ℕ) (splits : List ℕ) :
    Tracks z (s.pass z passes splits) := by
  obtain ⟨hfollows, hposition, hid, herror⟩ := h
  obtain ⟨_, hcut, -⟩ := id hfollows
  have hshort := hcut.short
  obtain ⟨k, splits', hk, hkn, hread⟩ := read_spec (s.file.content.drop s.journal.position) splits
    (n := storageBlockBytes - s.journal.pending.length) (by omega)
  have hdata : (s.journal.read (s.journal.source s.file splits)).1 =
      (s.file.content.drop s.journal.position).take k := by
    simp only [Journal.read, Journal.source, hread]
  have hfit : ((s.file.content.drop s.journal.position).take k).length ≤
      storageBlockBytes - s.journal.pending.length := (List.length_take_le ..).trans hkn
  obtain ⟨j', hpass, hfollows', hposition', hid'⟩ := pass_ok hz hfollows false hfit (by simp)
  unfold State.pass
  rw [hdata]
  simp only [hpass]
  refine ⟨?_, ?_, hid'.trans hid, herror⟩
  · rw [← List.take_add] at hfollows'
    rw [hposition']
    have htake : s.file.content.take
          (s.journal.position + ((s.file.content.drop s.journal.position).take k).length) =
        s.file.content.take (s.journal.position + k) := by
      apply List.take_eq_take_iff.2
      rw [List.length_take, List.length_drop]
      omega
    rwa [htake]
  · dsimp only
    rw [hposition', List.length_take, List.length_drop]
    omega

theorem tracks_step (hz : z.Lossless) {s t : State} {a : Action} (h : Tracks z s) (ht : step z s a = some t) :
    Tracks z t := by
  cases a with
  | append data mtime ctime =>
    cases ht
    refine ⟨?_, ?_, h.sourceId, h.error⟩
    · rw [List.take_append_of_le_length h.position]
      exact h.follows
    · exact h.position.trans (by simp)
  | pump =>
    obtain ⟨-, rfl⟩ := Option.ite_none_right_eq_some.1 ht |>.imp_right fun h => (Option.some.inj h).symm
    exact ⟨h.follows, h.position, h.sourceId, h.error⟩
  | pass splits =>
    simp only [step] at ht
    split at ht
    · cases ht
    · next passes _ =>
      cases ht
      exact tracks_pass hz h passes splits

/-! ### The complete file -/

/-- The frames of a file that is cut into blocks. -/
def frames (blocks : List (List UInt8)) : List (List UInt8) := if blocks.flatten = [] then [[]] else blocks

/-- What `compact_metadata` has after writing `blocks`. -/
def summary (z : Codec) (blocks : List (List UInt8)) : Compaction :=
  ⟨blocks.flatten.length, blocks.flatten, blocks.flatMap z.compress⟩

theorem summary_add (z : Codec) (blocks : List (List UInt8)) (block : List UInt8) :
    (summary z blocks).add z block = summary z (blocks ++ [block]) := by
  simp [summary, Compaction.add]

/-- The loop of `compact_metadata` writes the one cut of the file. -/
theorem compactBlocks_ok (z : Codec) : ∀ (fuel : ℕ) (blocks : List (List UInt8)) (rest : List UInt8) (splits : List ℕ),
    (∀ b ∈ blocks, b.length = storageBlockBytes) → rest.length < fuel →
    ∃ blocks' short, Cut storageBlockBytes blocks' short (blocks.flatten ++ rest) ∧
      compactBlocks z fuel (summary z blocks) ⟨rest, splits⟩ = .ok (summary z (closed blocks' short)) := by
  intro fuel
  induction fuel with
  | zero => intro blocks rest splits _ hfuel; omega
  | succ fuel ih =>
    intro blocks rest splits hfull hfuel
    obtain ⟨splits', hread⟩ := buffered_eq storageBlockBytes rest splits
    have hpos := storageBlockBytes_pos
    unfold compactBlocks
    rw [hread]
    dsimp only
    by_cases hnil : rest = []
    · subst hnil
      exact ⟨blocks, [], ⟨hfull, by simpa using hpos, rfl⟩, by simp [closed]⟩
    have hlen := List.length_pos_iff.2 hnil
    have hblock : rest.take storageBlockBytes ≠ [] := by
      apply List.ne_nil_of_length_pos
      rw [List.length_take]
      omega
    rw [if_neg hblock, summary_add]
    by_cases hlast : rest.length < storageBlockBytes
    · refine ⟨blocks, rest, ⟨hfull, hlast, rfl⟩, ?_⟩
      rw [List.take_of_length_le hlast.le, List.drop_of_length_le hlast.le, closed, if_neg hnil]
      obtain ⟨fuel, rfl⟩ : ∃ n, fuel = n + 1 := ⟨fuel - 1, by omega⟩
      obtain ⟨splits'', hend⟩ := buffered_eq storageBlockBytes [] splits'
      unfold compactBlocks
      rw [hend]
      simp
    · have hfull' : ∀ b ∈ blocks ++ [rest.take storageBlockBytes], b.length = storageBlockBytes := by
        refine forall_mem_concat hfull ?_
        rw [List.length_take]
        omega
      obtain ⟨blocks', short, hcut, h⟩ := ih _ (rest.drop storageBlockBytes) splits' hfull'
        (by rw [List.length_drop]; omega)
      refine ⟨blocks', short, ?_, h⟩
      rw [List.flatten_append, List.flatten_singleton, List.append_assoc, List.take_append_drop] at hcut
      exact hcut

theorem frames_length (h : ∀ b ∈ blocks, b.length ≤ storageBlockBytes) :
    ∀ b ∈ frames blocks, b.length ≤ storageBlockBytes := by
  intro b hb
  unfold frames at hb
  split at hb
  · rw [List.mem_singleton.1 hb]
    exact Nat.zero_le _
  · exact h b hb

theorem frames_flatten (blocks : List (List UInt8)) : (frames blocks).flatten = blocks.flatten := by
  unfold frames
  split
  · next h => rw [h]; rfl
  · rfl

theorem frames_ne_nil (blocks : List (List UInt8)) : frames blocks ≠ [] := by
  unfold frames
  split
  · simp
  · next h =>
    rintro rfl
    exact h rfl

/-- The output of either way, with the frame of an empty file. -/
theorem frames_output {short : List UInt8} (z : Codec) (h : Cut storageBlockBytes blocks short content) :
    (if content.length = 0 then (closed blocks short).flatMap z.compress ++ z.compress []
      else (closed blocks short).flatMap z.compress) = (frames (closed blocks short)).flatMap z.compress := by
  unfold frames
  rw [h.flatten_closed]
  by_cases hnil : content = []
  · subst hnil
    have hblocks := h.closed_of_nil storageBlockBytes_pos
    simp [hblocks]
  · rw [if_neg (mt List.eq_nil_of_length_eq_zero hnil), if_neg hnil]

theorem decode_frames (hz : z.Lossless) {short : List UInt8} (h : Cut storageBlockBytes blocks short content)
    (splits : List ℕ) :
    decodedMetadata z.toZstd ⟨(frames (closed blocks short)).flatMap z.compress, splits⟩ = .ok content := by
  have hframes : ∀ x ∈ frames (closed blocks short), IsFrame z.toZstd storageBlockBytes (z.compress x) x :=
    fun x hx => hz.frames x (frames_length h.length_le x hx)
  rw [decodedMetadata_frames hframes (frames_ne_nil _), frames_flatten, h.flatten_closed]

/-- The compacted file of `content`, cut into `blocks` and the rest `short`. -/
def compacted (z : Codec) (hexdigest : List UInt8 → String) (content : List UInt8) (blocks : List (List UInt8))
    (short : List UInt8) : Compacted :=
  ⟨(frames (closed blocks short)).flatMap z.compress, compression hexdigest content.length content⟩

theorem compactMetadata_ok (hz : z.Lossless) (hexdigest : List UInt8 → String) (content : List UInt8)
    (splits splits' : List ℕ) :
    ∃ blocks short, Cut storageBlockBytes blocks short content ∧
      compactMetadata z hexdigest content splits splits' = .ok (compacted z hexdigest content blocks short) := by
  obtain ⟨blocks, short, hcut, hloop⟩ := compactBlocks_ok z (content.length + 1) [] content splits
    (by simp) (Nat.lt_succ_self _)
  have hcut : Cut storageBlockBytes blocks short content := hcut
  have hloop : compactBlocks z (content.length + 1) {} ⟨content, splits⟩ = _ := hloop
  have hdecode := decode_frames hz hcut splits'
  refine ⟨blocks, short, hcut, ?_⟩
  unfold compactMetadata
  simp only [hloop, bind, Except.bind, summary, hcut.flatten_closed, frames_output z hcut, hdecode,
    ne_eq, not_true_eq_false, ↓reduceIte, pure, Except.pure, compacted]

theorem finish_ok (hz : z.Lossless) (hexdigest : List UInt8 → String) {s : State} (h : Tracks z s) (splits : List ℕ) :
    ∃ blocks short, Cut storageBlockBytes blocks short s.file.content ∧
      finish z hexdigest s.journal s.file s.file splits =
        .ok ⟨(s.file.identity, hexdigest s.file.content), hexdigest ((frames (closed blocks short)).flatMap z.compress),
          compacted z hexdigest s.file.content blocks short⟩ := by
  have hfuel : (s.file.content.drop s.journal.position).length < s.file.content.length + 1 := by
    rw [List.length_drop]
    omega
  obtain ⟨j, blocks, short, hpump, hcut, hstored, hid⟩ :=
    pumpFinal_ok hz (s.file.content.length + 1) (s.file.content.drop s.journal.position) splits h.follows hfuel
  rw [List.take_append_drop] at hcut
  have hsize : j.size = s.file.content.length := by rw [hstored.size, hcut.flatten_closed]
  have hdigest : j.digest = s.file.content := by rw [hstored.digest, hcut.flatten_closed]
  have hempty : (j.writeEmpty z).output.content = (frames (closed blocks short)).flatMap z.compress ∧
      (j.writeEmpty z).encodedDigest = (frames (closed blocks short)).flatMap z.compress := by
    rw [← frames_output z hcut]
    unfold Journal.writeEmpty
    rw [hsize]
    split
    · rw [hstored.output, hstored.encodedDigest]
      exact ⟨by rw [Output.write_atEnd rfl], rfl⟩
    · rw [hstored.output, hstored.encodedDigest]
      exact ⟨rfl, rfl⟩
  have hsame : (j.writeEmpty z).size = j.size ∧ (j.writeEmpty z).digest = j.digest ∧
      (j.writeEmpty z).sourceId = j.sourceId := by
    unfold Journal.writeEmpty
    split <;> exact ⟨rfl, rfl, rfl⟩
  refine ⟨blocks, short, hcut, ?_⟩
  unfold finish Journal.source
  simp only [hpump, bind, Except.bind, hempty, hsame, hid, h.sourceId, hsize, hdigest, File.identity, ne_eq,
    not_true_eq_false, or_self, ↓reduceIte, pure, Except.pure, compacted]

/-- However the appends and the passes interleave, no pass fails, and the finished journal is what
one reading of the final file makes of it, and decodes to that file. -/
theorem live_seal_agrees (hz : z.Lossless) (hexdigest : List UInt8 → String) {f : File} {actions : List Action}
    {s : State} (hrun : run (step z) (start f) actions = some s) :
    s.error = none ∧ ∀ splits, ∃ prepared, finish z hexdigest s.journal s.file s.file splits = .ok prepared ∧
      (∀ splits₁ splits₂,
        compactMetadata z hexdigest s.file.content splits₁ splits₂ = .ok prepared.compacted) ∧
      prepared.compacted.compression.uncompressedBytes = s.file.content.length ∧
      prepared.compacted.compression.uncompressedSha256 = hexdigest s.file.content ∧
      ∀ splits', decodedMetadata z.toZstd ⟨prepared.compacted.target, splits'⟩ = .ok s.file.content := by
  have htracks : Tracks z s := run_invariant (I := Tracks z) (fun s a t h ht => tracks_step hz h ht) (tracks_start z f) hrun
  refine ⟨htracks.error, fun splits => ?_⟩
  obtain ⟨blocks, short, hcut, hfinish⟩ := finish_ok hz hexdigest htracks splits
  refine ⟨_, hfinish, ?_, rfl, rfl, decode_frames hz hcut⟩
  intro splits₁ splits₂
  obtain ⟨blocks', short', hcut', hcompact⟩ := compactMetadata_ok hz hexdigest s.file.content splits₁ splits₂
  obtain ⟨rfl, rfl⟩ := hcut.unique hcut'
  exact hcompact

/-! A byte arrives before a pass reads it, and another one after the pass. -/

def sampleCodec : Codec := { sampleZstd with decompress := sampleZstd.decode }

theorem sampleCodec_lossless : sampleCodec.Lossless :=
  ⟨sampleZstd_lossless, fun x _ hle => (sampleZstd_lossless x hle).decode⟩

def sampleActions : List Action := [.append [97] 1 1, .pump, .pass [], .append [98] 2 2]

theorem live_seal_agrees_sample :
    ∃ s, run (step sampleCodec) (start ⟨0, 7, [], 0, 0⟩) sampleActions = some s ∧ s.error = none ∧
      ∀ hexdigest splits, ∃ prepared, finish sampleCodec hexdigest s.journal s.file s.file splits = .ok prepared ∧
        (∀ splits₁ splits₂,
          compactMetadata sampleCodec hexdigest s.file.content splits₁ splits₂ = .ok prepared.compacted) ∧
        prepared.compacted.compression.uncompressedBytes = s.file.content.length ∧
        prepared.compacted.compression.uncompressedSha256 = hexdigest s.file.content ∧
        ∀ splits',
          decodedMetadata sampleCodec.toZstd ⟨prepared.compacted.target, splits'⟩ = .ok s.file.content := by
  have hrun : ∃ s, run (step sampleCodec) (start ⟨0, 7, [], 0, 0⟩) sampleActions = some s := ⟨_, rfl⟩
  obtain ⟨s, hs⟩ := hrun
  exact ⟨s, hs, (live_seal_agrees sampleCodec_lossless (fun _ => "") hs).1, fun hexdigest =>
    (live_seal_agrees sampleCodec_lossless hexdigest hs).2⟩

end Conductor.Live.JournalSeal
