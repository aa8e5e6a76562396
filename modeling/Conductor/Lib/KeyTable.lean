import Conductor.Lib.Concat

/-! A table with a primary key, as the list of its rows in the order of their row ids.
`insertOrIgnore`, `insertOrReplace` and `delete` are the statements of that name; a
replaced row gets a new row id. The lemmas say what a key gives after a list of
statements, and that keys stay unique. -/

namespace Conductor.KeyTable

variable {κ β : Type*} [DecidableEq κ]

def insertOrIgnore (rows : List (κ × β)) (row : κ × β) : List (κ × β) :=
  if (rows.lookup row.1).isSome then rows else rows ++ [row]

def delete (rows : List (κ × β)) (key : κ) : List (κ × β) := rows.filter (·.1 ≠ key)

def insertOrReplace (rows : List (κ × β)) (row : κ × β) : List (κ × β) := delete rows row.1 ++ [row]

theorem lookup_cons (row : κ × β) (rows : List (κ × β)) (key : κ) :
    (row :: rows).lookup key = if key = row.1 then some row.2 else rows.lookup key := by
  obtain ⟨k, b⟩ := row
  rw [List.lookup_cons]
  split_ifs with h
  · rw [beq_iff_eq.2 h]
  · rw [beq_eq_false_iff_ne.2 h]

theorem lookup_singleton (row : κ × β) (key : κ) : [row].lookup key = if key = row.1 then some row.2 else none := by
  rw [lookup_cons, List.lookup_nil]

theorem lookup_insertOrIgnore (rows : List (κ × β)) (row : κ × β) (key : κ) :
    (insertOrIgnore rows row).lookup key = (rows.lookup key).or ([row].lookup key) := by
  unfold insertOrIgnore
  split_ifs with h
  · obtain ⟨b, hb⟩ := Option.isSome_iff_exists.1 h
    rw [lookup_singleton]
    split_ifs with hk
    · rw [hk, hb, Option.some_or]
    · rw [Option.or_none]
  · rw [List.lookup_append]

theorem lookup_delete (rows : List (κ × β)) (key other : κ) :
    (delete rows other).lookup key = if key = other then none else rows.lookup key := by
  induction rows with
  | nil => simp [delete]
  | cons row rows ih =>
    unfold delete at ih ⊢
    by_cases hk : row.1 = other
    · rw [List.filter_cons_of_neg (by simpa using hk), ih, lookup_cons, hk]
      split_ifs <;> rfl
    · rw [List.filter_cons_of_pos (by simpa using hk), lookup_cons, lookup_cons, ih]
      split_ifs with h1 h2
      · exact absurd (h1.symm.trans h2) hk
      all_goals rfl

theorem lookup_insertOrReplace (rows : List (κ × β)) (row : κ × β) (key : κ) :
    (insertOrReplace rows row).lookup key = if key = row.1 then some row.2 else rows.lookup key := by
  unfold insertOrReplace
  rw [List.lookup_append, lookup_delete, lookup_singleton]
  split_ifs
  · rfl
  · exact Option.or_none

/-! ### Lists of statements -/

theorem lookup_foldl_insertOrIgnore (rows news : List (κ × β)) (key : κ) :
    (news.foldl insertOrIgnore rows).lookup key = (rows.lookup key).or (news.lookup key) := by
  induction news generalizing rows with
  | nil => simp
  | cons row news ih =>
    rw [List.foldl_cons, ih, lookup_insertOrIgnore, Option.or_assoc, ← List.lookup_append]
    rfl

theorem lookup_foldl_delete (rows : List (κ × β)) (keys : List κ) (key : κ) :
    (keys.foldl delete rows).lookup key = if key ∈ keys then none else rows.lookup key := by
  induction keys generalizing rows with
  | nil => simp
  | cons k keys ih =>
    rw [List.foldl_cons, ih, lookup_delete]
    by_cases h1 : key ∈ keys <;> by_cases h2 : key = k <;> simp [h1, h2]

/-- The last row given for a key replaces the others. -/
theorem lookup_foldl_insertOrReplace (rows news : List (κ × β)) (key : κ) :
    (news.foldl insertOrReplace rows).lookup key = (news.reverse.lookup key).or (rows.lookup key) := by
  induction news generalizing rows with
  | nil => simp
  | cons row news ih =>
    rw [List.foldl_cons, ih, lookup_insertOrReplace, List.reverse_cons, List.lookup_append, Option.or_assoc,
      lookup_singleton]
    congr 1
    split_ifs <;> rfl

/-! ### Unique keys -/

def UniqueKeys (rows : List (κ × β)) : Prop := (rows.map (·.1)).Nodup

variable {row : κ × β} {rows : List (κ × β)} {key : κ} {P : κ → Prop}

theorem UniqueKeys.append (h : UniqueKeys rows) (hnew : rows.lookup row.1 = none) : UniqueKeys (rows ++ [row]) := by
  unfold UniqueKeys at h ⊢
  rw [List.map_append, List.map_singleton, List.nodup_append]
  refine ⟨h, List.nodup_singleton _, ?_⟩
  intro k hk k' hk' heq
  rw [List.mem_singleton.1 hk'] at heq
  obtain ⟨r, hr, rfl⟩ := List.mem_map.1 hk
  simpa [heq] using List.lookup_eq_none_iff.1 hnew r hr

theorem UniqueKeys.insertOrIgnore (h : UniqueKeys rows) (row : κ × β) : UniqueKeys (insertOrIgnore rows row) := by
  unfold KeyTable.insertOrIgnore
  split_ifs with hs
  · exact h
  · exact h.append (Option.not_isSome_iff_eq_none.1 hs)

theorem UniqueKeys.delete (h : UniqueKeys rows) (key : κ) : UniqueKeys (delete rows key) :=
  List.Nodup.sublist (List.filter_sublist.map _) h

theorem UniqueKeys.insertOrReplace (h : UniqueKeys rows) (row : κ × β) : UniqueKeys (insertOrReplace rows row) :=
  (h.delete row.1).append (by rw [lookup_delete, if_pos rfl])

theorem UniqueKeys.lookup_iff (h : UniqueKeys rows) {b : β} : rows.lookup key = some b ↔ (key, b) ∈ rows := by
  induction rows with
  | nil => simp
  | cons row rows ih =>
    obtain ⟨k, v⟩ := row
    obtain ⟨hk, hrest⟩ := List.nodup_cons.1 (show (k :: rows.map (·.1)).Nodup from h)
    rw [lookup_cons, List.mem_cons, Prod.mk.injEq]
    split_ifs with heq
    · obtain rfl : key = k := heq
      have hout : (key, b) ∉ rows := fun hb => hk (List.mem_map.2 ⟨_, hb, rfl⟩)
      simp [hout, eq_comm]
    · rw [ih hrest]
      simp [heq]

omit [DecidableEq κ] in
theorem UniqueKeys.tail (h : UniqueKeys (row :: rows)) : UniqueKeys rows :=
  (List.nodup_cons.1 h).2

theorem UniqueKeys.lookup_head (h : UniqueKeys (row :: rows)) : rows.lookup row.1 = none := by
  rw [List.lookup_eq_none_iff]
  intro e he
  have hrow := (List.nodup_cons.1 h).1
  simp only [bne_iff_ne, ne_eq]
  intro heq
  apply hrow
  show row.1 ∈ rows.map (·.1)
  rw [heq]
  exact List.mem_map_of_mem he

theorem delete_of_lookup_none (h : rows.lookup key = none) : delete rows key = rows := by
  unfold KeyTable.delete
  rw [List.filter_eq_self]
  intro row hrow
  have hne := List.lookup_eq_none_iff.1 h row hrow
  exact decide_eq_true fun heq => by simp [heq] at hne

/-- The row of a key and the rows that a deletion of the key leaves. -/
theorem UniqueKeys.perm_delete (h : UniqueKeys rows) {b : β}
    (hkey : rows.lookup key = some b) : rows.Perm ((key, b) :: KeyTable.delete rows key) := by
  induction rows with
  | nil => simp at hkey
  | cons row rows ih =>
    rw [lookup_cons] at hkey
    split_ifs at hkey with heq
    · have hout : rows.lookup key = none := by
        rw [List.lookup_eq_none_iff]
        intro r hr
        have hne : row.1 ≠ r.1 := fun h' =>
          (List.nodup_cons.1 h).1 (List.mem_map.2 ⟨r, hr, h'.symm⟩)
        exact bne_iff_ne.2 (heq ▸ hne)
      have hrow : row = (key, b) := Prod.ext heq.symm (Option.some.inj hkey)
      have hdelete : KeyTable.delete (row :: rows) key = rows := by
        have hhead : KeyTable.delete (row :: rows) key = KeyTable.delete rows key :=
          List.filter_cons_of_neg (by simp [heq])
        rw [hhead, delete_of_lookup_none hout]
      rw [hdelete, hrow]
    · have hdelete : KeyTable.delete (row :: rows) key = row :: KeyTable.delete rows key :=
        List.filter_cons_of_pos (by simpa using Ne.symm heq)
      rw [hdelete]
      exact ((ih h.tail hkey).cons row).trans (.swap _ _ _)

theorem UniqueKeys.perm_insertOrReplace (h : UniqueKeys rows) {b : β}
    (hkey : rows.lookup key = some b) : (KeyTable.insertOrReplace rows (key, b)).Perm rows :=
  (List.perm_append_singleton _ _).trans (h.perm_delete hkey).symm

/-- Unique keys, all of which satisfy `P`. -/
structure Keyed (P : κ → Prop) (rows : List (κ × β)) : Prop where
  unique : UniqueKeys rows
  keys : ∀ row ∈ rows, P row.1

theorem Keyed.insertOrIgnore (h : Keyed P rows) (hrow : P row.1) : Keyed P (insertOrIgnore rows row) where
  unique := h.unique.insertOrIgnore row
  keys r hr := by
    unfold KeyTable.insertOrIgnore at hr
    split_ifs at hr
    · exact h.keys r hr
    · rcases mem_concat.1 hr with hr | hr
      · exact h.keys r hr
      · rwa [hr]

theorem Keyed.delete (h : Keyed P rows) (key : κ) : Keyed P (delete rows key) where
  unique := h.unique.delete key
  keys r hr := h.keys r (List.mem_of_mem_filter hr)

theorem Keyed.insertOrReplace (h : Keyed P rows) (hrow : P row.1) : Keyed P (insertOrReplace rows row) where
  unique := h.unique.insertOrReplace row
  keys r hr := by
    rcases mem_concat.1 hr with hr | hr
    · exact (h.delete row.1).keys r hr
    · rwa [hr]

omit [DecidableEq κ] in
theorem Keyed.foldl {α : Type*} {f : List (κ × β) → α → List (κ × β)} {as : List α}
    (hf : ∀ rows, ∀ a ∈ as, Keyed P rows → Keyed P (f rows a)) (h : Keyed P rows) : Keyed P (as.foldl f rows) := by
  induction as generalizing rows with
  | nil => exact h
  | cons a as ih =>
    exact ih (fun rows b hb => hf rows b (List.mem_cons_of_mem _ hb)) (hf rows a List.mem_cons_self h)

end Conductor.KeyTable
