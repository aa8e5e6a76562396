import Conductor.Capture.ScatterWrite
import Mathlib.Data.List.Infix

/-! Scatter writes are complete and in order. `Pours` says, without any chunk, how bytes go out while the
kernel takes a first part of what is offered; both loops pour out what is left behind their cursors. -/

namespace Conductor.Capture.Scatter

/-- A partial result, of at least one byte, or a signal. -/
def Reply.Benign : Reply → Prop
  | .room bytes => 0 < bytes
  | .interrupted => True
  | .failed => False

/-- How many partial results there are. -/
def writes (replies : List Reply) : ℕ := replies.countP fun reply => reply ≠ .interrupted

/-- The bytes of all partial results. -/
def room : List Reply → ℕ
  | [] => 0
  | .room bytes :: replies => bytes + room replies
  | _ :: replies => room replies

/-! ### Pouring -/

/-- The rest of the bytes goes out; every call offers a first part of it, all of it under `whole`. -/
inductive Pours {α : Type} (Inside : Cursor → Prop) (whole : Prop) (value : α) : List UInt8 → List Reply → Ran α → Prop
  | done (replies : List Reply) : Pours Inside whole value [] replies { ending := .returned value }
  | waiting (rest : List UInt8) (c : Cursor) (hrest : rest ≠ []) (hc : Inside c) :
      Pours Inside whole value rest [] { ending := .waiting, slices := [c] }
  | wrote (rest offered : List UInt8) (bytes : ℕ) (replies : List Reply) (c : Cursor) (r : Ran α)
      (hoffered : offered <+: rest) (hne : offered ≠ []) (hwhole : whole → offered = rest) (hbytes : 0 < bytes)
      (hc : Inside c) (hr : Pours Inside whole value (rest.drop (offered.take bytes).length) replies r) :
      Pours Inside whole value rest (.room bytes :: replies) (r.after c (offered.take bytes))
  | interrupted (rest : List UInt8) (replies : List Reply) (c : Cursor) (r : Ran α) (hrest : rest ≠ [])
      (hc : Inside c) (hr : Pours Inside whole value rest replies r) :
      Pours Inside whole value rest (.interrupted :: replies) (r.after c [])

section Pours

variable {α : Type} {Inside : Cursor → Prop} {whole : Prop} {value : α} {rest : List UInt8} {replies : List Reply}
  {r : Ran α}

theorem Pours.inside (h : Pours Inside whole value rest replies r) : ∀ c ∈ r.slices, Inside c := by
  induction h with
  | done => simp
  | waiting rest c _ hc => simpa using hc
  | wrote rest offered bytes replies c r _ _ _ _ hc _ ih => simpa [Ran.after] using ⟨hc, ih⟩
  | interrupted rest replies c r _ hc _ ih => simpa [Ran.after] using ⟨hc, ih⟩

theorem Pours.sent_prefix (h : Pours Inside whole value rest replies r) : r.sent <+: rest := by
  induction h with
  | done => simp
  | waiting => simp
  | wrote rest offered bytes replies c r hoffered _ _ _ _ _ ih =>
    obtain ⟨behind, rfl⟩ := (List.take_prefix bytes offered).trans hoffered
    rw [List.drop_left] at ih
    exact (List.prefix_append_right_inj _).2 ih
  | interrupted rest replies c r _ _ _ ih => simpa [Ran.after] using ih

/-- A run returns with everything sent, or waits after as many partial results as it could have. -/
theorem Pours.ending (h : Pours Inside whole value rest replies r) :
    (r.ending = .returned value ∧ r.sent = rest) ∨
      (r.ending = .waiting ∧ r.sent ≠ rest ∧ writes replies ≤ r.sent.length) := by
  induction h with
  | done => simp
  | waiting rest c hrest => simpa [writes] using hrest.symm
  | wrote rest offered bytes replies c r hoffered hne _ hbytes _ _ ih =>
    have hlength : 0 < (offered.take bytes).length := by
      have := List.length_pos_iff.2 hne
      rw [List.length_take]
      omega
    obtain ⟨behind, rfl⟩ := (List.take_prefix bytes offered).trans hoffered
    rw [List.drop_left] at ih
    have hwrites : writes (.room bytes :: replies) = writes replies + 1 := by simp [writes]
    rcases ih with ⟨hending, hsent⟩ | ⟨hending, hsent, hle⟩
    · exact .inl ⟨hending, congrArg _ hsent⟩
    · refine .inr ⟨hending, fun h => hsent (List.append_cancel_left h), ?_⟩
      simp only [Ran.after, List.length_append]
      omega
  | interrupted rest replies c r _ _ _ ih => simpa [Ran.after, writes] using ih

/-- Where everything is offered the partial results alone say what was sent. -/
theorem Pours.sent_of_whole (h : Pours Inside whole value rest replies r) (hwhole : whole) :
    r.sent = rest.take (room replies) := by
  induction h with
  | done => simp
  | waiting => simp [room]
  | wrote rest offered bytes replies c r _ _ hoffered _ _ _ ih =>
    obtain rfl := hoffered hwhole
    simp only [Ran.after, ih, room, List.take_add]
    congr 2
    by_cases h : bytes ≤ offered.length
    · simp [h]
    · rw [List.drop_eq_nil_of_le (by simp; omega), List.drop_eq_nil_of_le (by omega)]
  | interrupted rest replies c r _ _ _ ih => simpa [Ran.after, room] using ih

/-- A call with vectors that the system takes. -/
theorem writev_cases {vectors : List (List UInt8)} {reply : Reply} (hreply : reply.Benign)
    (hvectors : vectors.length ≤ iovMax) :
    (∃ bytes, 0 < bytes ∧ reply = .room bytes ∧ writev vectors reply = .wrote (vectors.flatten.take bytes)) ∨
      (reply = .interrupted ∧ writev vectors reply = .interrupted) := by
  cases reply with
  | room bytes => exact .inl ⟨bytes, hreply, rfl, if_neg (by omega)⟩
  | interrupted => exact .inr ⟨rfl, if_neg (by omega)⟩
  | failed => exact hreply.elim

end Pours

/-! ### Cursors -/

/-- What is left behind the cursor. -/
def rest (chunks : List (List UInt8)) (c : Cursor) : List UInt8 := (chunks.drop c.index).flatten.drop c.offset

/-- The slice of the cursor begins inside its chunk. -/
def Inside (chunks : List (List UInt8)) (c : Cursor) : Prop :=
  ∃ h : c.index < chunks.length, c.offset < chunks[c.index].length

def Placed (chunks : List (List UInt8)) (c : Cursor) : Prop := c.offset = 0 ∨ Inside chunks c

section Cursor

variable {chunks : List (List UInt8)} {c : Cursor}

theorem rest_start (chunks : List (List UInt8)) : rest chunks ⟨0, 0⟩ = chunks.flatten := by simp [rest]

theorem rest_chunk (h : c.index < chunks.length) (hoffset : c.offset ≤ chunks[c.index].length) :
    rest chunks c = chunks[c.index].drop c.offset ++ rest chunks ⟨c.index + 1, 0⟩ := by
  simp only [rest, List.drop_eq_getElem_cons h, List.flatten_cons, List.drop_zero]
  rw [List.drop_append_of_le_length hoffset]

theorem rest_end (h : chunks.length ≤ c.index) : rest chunks c = [] := by simp [rest, List.drop_eq_nil_of_le h]

theorem placed_next (chunks : List (List UInt8)) (i : ℕ) : Placed chunks ⟨i, 0⟩ := .inl rfl

theorem Placed.le (h : Placed chunks c) (hindex : c.index < chunks.length) : c.offset ≤ chunks[c.index].length := by
  rcases h with h | ⟨_, h⟩ <;> omega

theorem Placed.inside (h : Placed chunks c) (hindex : c.index < chunks.length) (hne : chunks[c.index] ≠ []) :
    Inside chunks c := by
  rcases h with h | h
  · exact ⟨hindex, h ▸ List.length_pos_iff.2 hne⟩
  · exact h

theorem Inside.rest_ne_nil (h : Inside chunks c) : rest chunks c ≠ [] := by
  obtain ⟨hindex, hlt⟩ := h
  rw [rest_chunk hindex hlt.le]
  simp
  omega

end Cursor

/-! ### session_io.rs -/

namespace Native

variable {chunks : List (List UInt8)} {c : Cursor}

theorem skipEmpty_spec (h : Placed chunks c) :
    rest chunks (skipEmpty chunks c) = rest chunks c ∧
      (chunks.length ≤ (skipEmpty chunks c).index ∨ Inside chunks (skipEmpty chunks c)) := by
  induction c using skipEmpty.induct chunks with
  | case1 c hindex hempty ih =>
    have hoffset := h.le hindex
    rw [skipEmpty, dif_pos hindex, if_pos hempty, rest_chunk hindex hoffset]
    simpa [List.isEmpty_iff.1 hempty] using ih (placed_next chunks _)
  | case2 c hindex hempty =>
    rw [skipEmpty, dif_pos hindex, if_neg hempty]
    exact ⟨rfl, .inr (h.inside hindex (mt List.isEmpty_iff.2 hempty))⟩
  | case3 c hindex =>
    rw [skipEmpty, dif_neg hindex]
    exact ⟨rfl, .inl (by omega)⟩

/-- A call offers a first part of what is left, and all of it where the chunks are few. -/
theorem vectors_spec (h : Inside chunks c) : ∃ vs, vectors chunks c = some vs ∧ vs.length ≤ iovMax ∧
    vs.flatten <+: rest chunks c ∧ vs.flatten ≠ [] ∧
      ((chunks.filter fun chunk => !chunk.isEmpty).length ≤ iovMax → vs.flatten = rest chunks c) := by
  obtain ⟨hindex, hlt⟩ := h
  set later := (chunks.drop (c.index + 1)).filter fun chunk => !chunk.isEmpty with hlater
  have hflatten : later.flatten = rest chunks ⟨c.index + 1, 0⟩ := by
    rw [hlater, List.flatten_filter_not_isEmpty, rest, List.drop_zero]
  have hrest := rest_chunk hindex hlt.le
  have hvectors : vectors chunks c = some (chunks[c.index].drop c.offset :: later.take (writevMax - 1)) := by
    rw [vectors, dif_pos hindex, if_neg (by omega)]
  refine ⟨_, hvectors, ?_, ?_, ?_, ?_⟩
  · rw [List.length_cons, List.length_take]
    have := Nat.min_le_left (writevMax - 1) later.length
    simp only [writevMax, iovMax] at this ⊢
    omega
  · rw [hrest, List.flatten_cons, List.prefix_append_right_inj, ← hflatten]
    nth_rewrite 2 [← List.take_append_drop (writevMax - 1) later]
    rw [List.flatten_append]
    exact List.prefix_append _ _
  · simp
    omega
  · intro hfew
    have hne : chunks[c.index] ≠ [] := List.length_pos_iff.1 (by omega)
    have hsplit : chunks = chunks.take c.index ++ chunks[c.index] :: chunks.drop (c.index + 1) := by
      rw [← List.drop_eq_getElem_cons, List.take_append_drop]
    rw [hsplit, List.filter_append, List.filter_cons_of_pos (by simpa using hne), List.length_append,
      List.length_cons, ← hlater] at hfew
    have hall : later.take (writevMax - 1) = later := by
      rw [List.take_eq_self_iff]
      simp only [iovMax, writevMax] at hfew ⊢
      omega
    rw [hall, List.flatten_cons, hflatten, hrest]

theorem advance_spec (h : Placed chunks c) {n : ℕ} (hn : 0 < n) (hle : n ≤ (rest chunks c).length) :
    ∃ next, advance chunks c n = some next ∧ Placed chunks next ∧ rest chunks next = (rest chunks c).drop n := by
  induction c, n using advance.induct chunks with
  | case1 c n hindex hempty ih =>
    have hrest := rest_chunk hindex (h.le hindex)
    rw [List.isEmpty_iff.1 hempty, List.drop_nil, List.nil_append] at hrest
    rw [advance, dif_pos hindex, if_pos hempty, hrest]
    exact ih (placed_next chunks _) hn (hrest ▸ hle)
  | case2 c n hindex _ hbehind =>
    have := h.le hindex
    omega
  | case3 c n hindex hempty hbehind available hlt =>
    rw [advance, dif_pos hindex, if_neg hempty, if_neg hbehind]
    refine ⟨⟨c.index, c.offset + n⟩, if_pos hlt, .inr ⟨hindex, ?_⟩, ?_⟩
    · simp only [available] at hlt ⊢
      omega
    · rw [rest, rest, List.drop_drop]
  | case4 c n hindex hempty hbehind available hge hzero =>
    have hn : n = (chunks[c.index].drop c.offset).length := by
      rw [List.length_drop]
      simp only [available] at hge hzero
      omega
    rw [advance, dif_pos hindex, if_neg hempty, if_neg hbehind, rest_chunk hindex (h.le hindex)]
    refine ⟨⟨c.index + 1, 0⟩, (if_neg hge).trans (if_pos hzero), placed_next chunks _, ?_⟩
    rw [hn, List.drop_left]
  | case5 c n hindex hempty hbehind available hge hnonzero ih =>
    have hrest := rest_chunk hindex (h.le hindex)
    have hn : n = (chunks[c.index].drop c.offset).length + (n - available) := by
      rw [List.length_drop]
      simp only [available] at hge ⊢
      omega
    have hle' : n - available ≤ (rest chunks ⟨c.index + 1, 0⟩).length := by
      rw [hrest, List.length_append] at hle
      omega
    obtain ⟨next, hnext, hplaced, hdrop⟩ := ih (placed_next chunks _) (by omega) hle'
    rw [advance, dif_pos hindex, if_neg hempty, if_neg hbehind]
    refine ⟨next, ((if_neg hge).trans (if_neg hnonzero)).trans hnext, hplaced, ?_⟩
    rw [hdrop, hrest, hn, ← List.drop_drop, List.drop_left]
    congr 1
    omega
  | case6 c n hindex =>
    rw [rest_end (by omega)] at hle
    simp at hle
    omega

/-- The native loop pours out what is behind its cursor. -/
theorem loop_pours (chunks : List (List UInt8)) {replies : List Reply} (hreplies : ∀ reply ∈ replies, reply.Benign)
    {c : Cursor} {total : UInt64} (h : Placed chunks c) :
    Pours (Inside chunks) ((chunks.filter fun chunk => !chunk.isEmpty).length ≤ iovMax)
      (total + .ofNat (rest chunks c).length) (rest chunks c) replies (loop chunks replies c total) := by
  induction replies generalizing c total with
  | nil =>
    obtain ⟨hrest, hskip⟩ := skipEmpty_spec h
    rw [loop, ← hrest]
    rcases hskip with hend | hinside
    · rw [rest_end hend, if_pos hend]
      simpa using Pours.done _
    · obtain ⟨vs, hvs, -⟩ := vectors_spec hinside
      rw [if_neg (by have := hinside.1; omega), hvs]
      exact .waiting _ _ hinside.rest_ne_nil hinside
  | cons reply replies ih =>
    obtain ⟨hreply, htail⟩ := List.forall_mem_cons.1 hreplies
    obtain ⟨hrest, hskip⟩ := skipEmpty_spec h
    rw [loop, ← hrest]
    rcases hskip with hend | hinside
    · rw [rest_end hend, if_pos hend]
      simpa using Pours.done _
    · obtain ⟨vs, hvs, hlength, hprefix, hne, hwhole⟩ := vectors_spec hinside
      rw [if_neg (by have := hinside.1; omega), hvs]
      rcases writev_cases hreply hlength with ⟨bytes, hbytes, rfl, hwrote⟩ | ⟨rfl, hinterrupted⟩
      · have hpos : 0 < (vs.flatten.take bytes).length := by
          have := List.length_pos_iff.2 hne
          rw [List.length_take]
          omega
        have hle := ((List.take_prefix bytes vs.flatten).trans hprefix).length_le
        obtain ⟨next, hnext, hplaced, hdrop⟩ := advance_spec (.inr hinside) hpos hle
        simp only [hwrote, if_neg hpos.ne', hnext]
        refine .wrote _ _ _ _ _ _ hprefix hne hwhole hbytes hinside ?_
        have hpours := @ih htail next (total + .ofNat (vs.flatten.take bytes).length) hplaced
        rw [hdrop, List.length_drop, UInt64.add_assoc, ← UInt64.ofNat_add, Nat.add_sub_cancel' hle] at hpours
        exact hpours
      · simp only [hinterrupted]
        exact .interrupted _ _ _ _ hinside.rest_ne_nil hinside (ih htail (.inr hinside))

theorem writevAll_pours (chunks : List (List UInt8)) (fd : ℕ) {replies : List Reply}
    (hreplies : ∀ reply ∈ replies, reply.Benign) :
    Pours (Inside chunks) ((chunks.filter fun chunk => !chunk.isEmpty).length ≤ iovMax)
      (.ofNat chunks.flatten.length) chunks.flatten replies (writevAll chunks fd replies) := by
  have hpours := @loop_pours chunks replies hreplies ⟨0, 0⟩ 0 (placed_next chunks 0)
  rw [rest_start, UInt64.zero_add] at hpours
  rw [writevAll, if_neg (by omega)]
  exact hpours

end Native

/-! ### stereo_encoder.py -/

namespace Python

variable {views : List (List UInt8)} {c : Cursor}

theorem advance_spec (h : Placed views c) {n : ℕ} (hle : n ≤ (rest views c).length) :
    Placed views (advance views c n) ∧ rest views (advance views c n) = (rest views c).drop n := by
  induction c, n using advance.induct views with
  | case1 c n hindex hge ih =>
    have hrest := rest_chunk hindex (h.le hindex)
    have hn : n = (views[c.index].drop c.offset).length + (n - (views[c.index].length - c.offset)) := by
      rw [List.length_drop]
      omega
    have hle' : n - (views[c.index].length - c.offset) ≤ (rest views ⟨c.index + 1, 0⟩).length := by
      rw [hrest, List.length_append] at hle
      omega
    obtain ⟨hplaced, hdrop⟩ := ih (placed_next views _) hle'
    rw [advance, dif_pos hindex, if_pos hge]
    refine ⟨hplaced, ?_⟩
    rw [hdrop, hrest, hn, ← List.drop_drop, List.drop_left]
    congr 1
    omega
  | case2 c n hindex hlt =>
    rw [advance, dif_pos hindex, if_neg hlt]
    refine ⟨.inr ⟨hindex, by dsimp only; omega⟩, ?_⟩
    rw [rest, rest, List.drop_drop]
  | case3 c n hindex =>
    rw [rest_end (by omega)] at hle
    obtain rfl : n = 0 := by simpa using hle
    rw [advance, dif_neg hindex]
    simpa using h

/-- The loop of Python pours out everything in every call, where the system takes all views. -/
theorem loop_pours (hviews : ∀ view ∈ views, view ≠ []) (hfew : views.length ≤ iovMax) {replies : List Reply}
    (hreplies : ∀ reply ∈ replies, reply.Benign) {c : Cursor} (h : Placed views c) :
    Pours (Inside views) True () (rest views c) replies (loop views replies c) := by
  induction replies generalizing c with
  | nil =>
    rw [loop]
    split
    · next hindex =>
      have hinside := h.inside hindex (hviews _ (List.getElem_mem hindex))
      exact .waiting _ _ hinside.rest_ne_nil hinside
    · next hindex =>
      rw [rest_end (by omega)]
      exact .done _
  | cons reply replies ih =>
    obtain ⟨hreply, htail⟩ := List.forall_mem_cons.1 hreplies
    rw [loop]
    split
    · next hindex =>
      have hinside := h.inside hindex (hviews _ (List.getElem_mem hindex))
      have hflatten : (views[c.index].drop c.offset :: views.drop (c.index + 1)).flatten = rest views c := by
        rw [List.flatten_cons, rest_chunk hindex (h.le hindex), rest, List.drop_zero]
      have hlength : (views[c.index].drop c.offset :: views.drop (c.index + 1)).length ≤ iovMax := by
        rw [List.length_cons, List.length_drop]
        omega
      rcases writev_cases hreply hlength with ⟨bytes, hbytes, rfl, hwrote⟩ | ⟨rfl, hinterrupted⟩
      · rw [hflatten] at hwrote
        have hpos : 0 < ((rest views c).take bytes).length := by
          have := List.length_pos_iff.2 hinside.rest_ne_nil
          rw [List.length_take]
          omega
        obtain ⟨hplaced, hdrop⟩ := advance_spec h (List.take_prefix bytes (rest views c)).length_le
        simp only [hwrote, if_neg hpos.ne']
        refine .wrote _ _ _ _ _ _ (List.prefix_refl _) hinside.rest_ne_nil (fun _ => rfl) hbytes hinside ?_
        rw [← hdrop]
        exact ih htail hplaced
      · simp only [hinterrupted]
        exact .interrupted _ _ _ _ hinside.rest_ne_nil hinside (ih htail h)
    · next hindex =>
      rw [rest_end (by omega)]
      exact .done _

theorem writevAll_pours {chunks : List (List UInt8)}
    (hfew : (chunks.filter fun chunk => !chunk.isEmpty).length ≤ iovMax) {replies : List Reply}
    (hreplies : ∀ reply ∈ replies, reply.Benign) :
    Pours (Inside (chunks.filter fun chunk => !chunk.isEmpty)) True () chunks.flatten replies
      (writevAll chunks replies) := by
  have hviews : ∀ view ∈ chunks.filter fun chunk => !chunk.isEmpty, view ≠ [] := by
    intro view hview
    simpa using (List.mem_filter.1 hview).2
  have hpours := loop_pours hviews hfew hreplies (placed_next _ 0)
  rwa [rest_start, List.flatten_filter_not_isEmpty] at hpours

/-- More views than the system takes: nothing is sent. -/
theorem writevAll_einval {chunks : List (List UInt8)}
    (hmany : iovMax < (chunks.filter fun chunk => !chunk.isEmpty).length) (reply : Reply) (replies : List Reply) :
    (writevAll chunks (reply :: replies)).sent = [] := by
  rw [writevAll, loop, dif_pos (by simp only; omega)]
  have hlength : iovMax < ((chunks.filter fun chunk => !chunk.isEmpty)[0].drop 0 ::
      (chunks.filter fun chunk => !chunk.isEmpty).drop 1).length := by
    rw [List.length_cons, List.length_drop]
    omega
  simp only [writev, if_pos hlength]

end Python

/-! ### Both -/

/-- Every run of the native loop sends the chunks in order: it returns their length, or it waits after fewer
partial results than there are bytes. Every call begins inside a chunk. The loop of Python sends the same bytes,
and returns when the native one does. -/
structure InOrder (chunks : List (List UInt8)) : Prop where
  native : ∀ (fd : ℕ) (replies : List Reply), (∀ reply ∈ replies, reply.Benign) →
    let r := Native.writevAll chunks fd replies
    ((r.ending = .returned (.ofNat chunks.flatten.length) ∧ r.sent = chunks.flatten) ∨
        (r.ending = .waiting ∧ r.sent <+: chunks.flatten ∧ writes replies < chunks.flatten.length)) ∧
      ∀ c ∈ r.slices, Inside chunks c
  python : ∀ (fd : ℕ) (replies : List Reply), (∀ reply ∈ replies, reply.Benign) →
    (Python.writevAll chunks replies).sent = (Native.writevAll chunks fd replies).sent ∧
      ((Python.writevAll chunks replies).ending = .returned () ↔
        (Native.writevAll chunks fd replies).ending = .returned (.ofNat chunks.flatten.length))

theorem native_inOrder (chunks : List (List UInt8)) (fd : ℕ) {replies : List Reply}
    (hreplies : ∀ reply ∈ replies, reply.Benign) :
    let r := Native.writevAll chunks fd replies
    ((r.ending = .returned (.ofNat chunks.flatten.length) ∧ r.sent = chunks.flatten) ∨
        (r.ending = .waiting ∧ r.sent <+: chunks.flatten ∧ writes replies < chunks.flatten.length)) ∧
      ∀ c ∈ r.slices, Inside chunks c := by
  have hpours := Native.writevAll_pours chunks fd hreplies
  refine ⟨hpours.ending.imp_right ?_, hpours.inside⟩
  rintro ⟨hending, hsent, hle⟩
  have hlength := hpours.sent_prefix.length_le
  have hne : (Native.writevAll chunks fd replies).sent.length ≠ chunks.flatten.length :=
    fun h => hsent (hpours.sent_prefix.eq_of_length h)
  exact ⟨hending, hpours.sent_prefix, by omega⟩

/-- The two loops return together, as both have sent everything then and only then. -/
theorem python_inOrder {chunks : List (List UInt8)}
    (hfew : (chunks.filter fun chunk => !chunk.isEmpty).length ≤ iovMax) (fd : ℕ) {replies : List Reply}
    (hreplies : ∀ reply ∈ replies, reply.Benign) :
    (Python.writevAll chunks replies).sent = (Native.writevAll chunks fd replies).sent ∧
      ((Python.writevAll chunks replies).ending = .returned () ↔
        (Native.writevAll chunks fd replies).ending = .returned (.ofNat chunks.flatten.length)) := by
  have hnative := Native.writevAll_pours chunks fd hreplies
  have hpython := Python.writevAll_pours hfew hreplies
  have hsent : (Python.writevAll chunks replies).sent = (Native.writevAll chunks fd replies).sent := by
    rw [hpython.sent_of_whole trivial, hnative.sent_of_whole hfew]
  refine ⟨hsent, ?_⟩
  rcases hnative.ending with ⟨h, hall⟩ | ⟨h, hpart, -⟩ <;> rcases hpython.ending with ⟨h', hall'⟩ | ⟨h', hpart', -⟩
  · simp [h, h']
  · exact absurd (hsent.trans hall) hpart'
  · exact absurd (hsent.symm.trans hall') hpart
  · simp [h, h']

theorem flatten_ne_nil {chunks : List (List UInt8)} (h : 0 < (chunks.filter fun chunk => !chunk.isEmpty).length) :
    chunks.flatten ≠ [] := by
  obtain ⟨chunk, hchunk⟩ := List.exists_mem_of_length_pos h
  obtain ⟨hmem, hne⟩ := List.mem_filter.1 hchunk
  intro hnil
  simp [List.flatten_eq_nil_iff.1 hnil chunk hmem] at hne

/-- With more chunks the native loop has sent something, and Python nothing. -/
theorem not_inOrder {chunks : List (List UInt8)} (hmany : iovMax < (chunks.filter fun chunk => !chunk.isEmpty).length) :
    ¬ InOrder chunks := by
  intro h
  have hbenign : ∀ reply ∈ [Reply.room 1], reply.Benign := by simp [Reply.Benign]
  have hpython := Python.writevAll_einval hmany (.room 1) []
  obtain ⟨hsent, -⟩ := h.python 0 _ hbenign
  rcases (Native.writevAll_pours chunks 0 hbenign).ending with ⟨-, hall⟩ | ⟨-, -, hle⟩
  · rw [← hsent, hpython] at hall
    exact flatten_ne_nil (by omega) hall.symm
  · rw [← hsent, hpython] at hle
    simp [writes] at hle

/-- The writes are in order for exactly the lists whose non-empty chunks the system takes in one call. -/
theorem scatter_writes_iff (chunks : List (List UInt8)) :
    InOrder chunks ↔ (chunks.filter fun chunk => !chunk.isEmpty).length ≤ iovMax := by
  constructor
  · intro h
    by_contra hmany
    exact not_inOrder (by omega) h
  · exact fun hfew => ⟨fun fd replies => native_inOrder chunks fd, fun fd replies => python_inOrder hfew fd⟩

/-- 1025 chunks of one byte. -/
theorem scatter_writes_fail : ¬ InOrder (List.replicate 1025 [0]) := by
  apply not_inOrder
  rw [List.filter_replicate_of_pos rfl, List.length_replicate]
  decide

end Conductor.Capture.Scatter
