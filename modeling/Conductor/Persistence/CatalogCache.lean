import Conductor.Persistence.Catalog

/-! What the sections under `_validation_lock` do to the validation cache: each keeps the byte
total and both limits, and an eviction pops no key that its scan has seen. -/

namespace Conductor.Persistence.Catalog

open Runs KeyTable

variable {Raw Fn Thread : Type} {env : Env Raw Fn} {c : Cache Raw Fn} {entries : List (Key × Entry Raw Fn)}
  {seen : Seen} {key : Key} {entry : Entry Raw Fn} {size : ℕ} {bytes : ℤ}

def totalBytes (env : Env Raw Fn) (entries : List (Key × Entry Raw Fn)) : ℤ :=
  (entries.map fun e => (env.getsizeof e.2.raw : ℤ)).sum

@[simp] theorem totalBytes_nil (env : Env Raw Fn) : totalBytes env [] = 0 := rfl

@[simp] theorem totalBytes_cons (env : Env Raw Fn) (e : Key × Entry Raw Fn) (entries : List (Key × Entry Raw Fn)) :
    totalBytes env (e :: entries) = env.getsizeof e.2.raw + totalBytes env entries := by
  simp [totalBytes]

theorem totalBytes_append (env : Env Raw Fn) (entries others : List (Key × Entry Raw Fn)) :
    totalBytes env (entries ++ others) = totalBytes env entries + totalBytes env others := by
  simp [totalBytes]

theorem totalBytes_perm (env : Env Raw Fn) {others : List (Key × Entry Raw Fn)} (h : entries.Perm others) :
    totalBytes env entries = totalBytes env others :=
  (h.map _).sum_eq

/-- The total is that of the entries, and both limits hold. -/
structure Cache.Bounded (env : Env Raw Fn) (c : Cache Raw Fn) : Prop where
  unique : UniqueKeys c.entries
  total : c.bytes = totalBytes env c.entries
  bytes : c.bytes ≤ validationCacheBytes
  entries : c.entries.length ≤ validationCacheEntries

theorem bounded_empty (env : Env Raw Fn) : Cache.Bounded env {} :=
  ⟨List.nodup_nil, rfl, Int.natCast_nonneg _, Nat.zero_le _⟩

/-- A part of the entries with a total of its own. -/
theorem Cache.Bounded.sub (h : c.Bounded env) (hsub : entries.Sublist c.entries)
    (htotal : bytes = totalBytes env entries) : Cache.Bounded env ⟨entries, bytes⟩ where
  unique := List.Nodup.sublist (hsub.map _) h.unique
  total := htotal
  bytes := by
    have hle : totalBytes env entries ≤ totalBytes env c.entries :=
      (hsub.map _).sum_le_sum fun _ hx => by
        obtain ⟨e, -, rfl⟩ := List.mem_map.1 hx
        exact Int.natCast_nonneg _
    have := h.total ▸ h.bytes
    exact htotal ▸ hle.trans this
  entries := hsub.length_le.trans h.entries

theorem forget_entries (env : Env Raw Fn) (c : Cache Raw Fn) (key : Key) :
    (c.forget env key).entries = delete c.entries key := by
  unfold Cache.forget
  split
  · next hnone => rw [delete_of_lookup_none hnone]
  · rfl

theorem forget_bounded (h : c.Bounded env) (key : Key) : (c.forget env key).Bounded env := by
  unfold Cache.forget
  split
  · exact h
  · next previous hsome =>
    apply h.sub List.filter_sublist
    have htotal := totalBytes_perm env (h.unique.perm_delete hsome)
    rw [totalBytes_cons] at htotal
    rw [h.total, htotal, add_sub_cancel_left]
    rfl

/-- What the eviction leaves and what it has popped: none of it was seen in the scan of the thread,
and when it went through, the new entry fits. -/
theorem evict_spec (env : Env Raw Fn) (seen : Seen) (hsize : size ≤ validationCacheBytes) :
    ∀ (entries : List (Key × Entry Raw Fn)) (bytes : ℤ), bytes = totalBytes env entries →
    ∃ gone left total fits, evict env seen size entries bytes = (⟨left, total⟩, fits) ∧ entries = gone ++ left ∧
      total = totalBytes env left ∧ (∀ l, seen = some l → ∀ e ∈ gone, e.1 ∉ l) ∧
      (fits = true → left.length < validationCacheEntries ∧ total + size ≤ validationCacheBytes) := by
  intro entries
  induction entries with
  | nil =>
    intro bytes htotal
    refine ⟨[], [], bytes, true, rfl, rfl, htotal, by simp, fun _ => ⟨Nat.succ_pos _, ?_⟩⟩
    rw [htotal, totalBytes_nil, zero_add]
    exact_mod_cast hsize
  | cons e rest ih =>
    intro bytes htotal
    obtain ⟨oldest, previous⟩ := e
    unfold evict
    split_ifs with hfull hseen
    · exact ⟨[], _, bytes, false, rfl, rfl, htotal, by simp, by simp⟩
    · have hrest : bytes - env.getsizeof previous.raw = totalBytes env rest := by
        rw [htotal, totalBytes_cons]
        ring
      obtain ⟨gone, left, total, fits, hevict, rfl, htotal', hgone, hfits⟩ := ih _ hrest
      refine ⟨(oldest, previous) :: gone, left, total, fits, hevict, rfl, htotal', ?_, hfits⟩
      intro l hl
      have hout : oldest ∉ l := by simpa [hl] using hseen
      exact List.forall_mem_cons.2 ⟨hout, hgone l hl⟩
    · obtain ⟨hlen, hbytes⟩ := not_or.1 hfull
      refine ⟨[], _, bytes, true, rfl, rfl, htotal, by simp, fun _ => ⟨?_, not_lt.1 hbytes⟩⟩
      rw [List.length_cons]
      omega

/-- `_remember_summary_validation` as a whole: the cache stays within its limits, it pops nothing
that the scan has seen, and a key is marked exactly when its entry is stored. -/
theorem remember_spec (h : c.Bounded env) (seen : Seen) (key : Key) (entry : Entry Raw Fn) :
    ∃ c' seen', rememberSummaryValidation env c seen key entry = (c', seen') ∧ c'.Bounded env ∧
      (∀ e ∈ c'.entries, e ∈ c.entries ∨ e = (key, entry)) ∧
      (∀ l, seen = some l → ∀ e ∈ c.entries, e.1 ≠ key → e ∉ c'.entries → e.1 ∉ l) ∧
      ((c'.entries.lookup key = none ∧ seen' = seen) ∨
        (c'.entries.lookup key = some entry ∧ seen' = seen.map (addKey · key) ∧
          ∀ l, seen = some l → key ∈ l ∨ l.length < validationCacheEntries)) := by
  have hforget := forget_bounded h key
  have hentries := forget_entries env c key
  have hnone : (c.forget env key).entries.lookup key = none := by
    rw [hentries, lookup_delete, if_pos rfl]
  have hsub : ∀ e ∈ (c.forget env key).entries, e ∈ c.entries := by
    rw [hentries]
    exact fun e he => List.mem_of_mem_filter he
  have hkept : ∀ e ∈ c.entries, e.1 ≠ key → e ∈ (c.forget env key).entries := by
    rw [hentries]
    exact fun e he hne => List.mem_filter.2 ⟨he, decide_eq_true hne⟩
  unfold rememberSummaryValidation
  dsimp only
  split_ifs with hlarge hmarked
  · exact ⟨_, seen, rfl, hforget, fun e he => .inl (hsub e he),
      fun l _ e he hne hout => absurd (hkept e he hne) hout, .inl ⟨hnone, rfl⟩⟩
  · exact ⟨_, seen, rfl, hforget, fun e he => .inl (hsub e he),
      fun l _ e he hne hout => absurd (hkept e he hne) hout, .inl ⟨hnone, rfl⟩⟩
  have hsize : env.getsizeof entry.raw ≤ validationCacheBytes := not_lt.1 (not_or.1 hlarge).1
  obtain ⟨gone, left, total, fits, hevict, happend, htotal, hgone, hfits⟩ :=
    evict_spec env seen hsize _ _ hforget.total
  have hleft : left.Sublist (c.forget env key).entries := by
    rw [happend]
    exact List.sublist_append_right _ _
  have hleftBounded : Cache.Bounded env ⟨left, total⟩ := hforget.sub hleft htotal
  have hleftNone : left.lookup key = none := by
    rw [happend, List.lookup_append] at hnone
    exact (Option.or_eq_none_iff.1 hnone).2
  have hpopped : ∀ l, seen = some l → ∀ e ∈ c.entries, e.1 ≠ key → e ∉ left → e.1 ∉ l := by
    intro l hl e he hne hout
    have hmem := hkept e he hne
    rw [happend] at hmem
    exact hgone l hl e ((List.mem_append.1 hmem).resolve_right hout)
  rw [hevict]
  cases fits with
  | false =>
    exact ⟨_, seen, rfl, hleftBounded, fun e he => .inl (hsub e (hleft.subset he)), hpopped, .inl ⟨hleftNone, rfl⟩⟩
  | true =>
    obtain ⟨hlen, hbytes⟩ := hfits rfl
    refine ⟨_, _, rfl, ⟨?_, ?_, hbytes, ?_⟩, ?_, ?_, .inr ⟨?_, rfl, ?_⟩⟩
    · exact hleftBounded.unique.append hleftNone
    · simp [totalBytes_append, htotal]
    · rw [List.length_append, List.length_singleton]
      exact hlen
    · intro e he
      rcases mem_concat.1 he with he | he
      · exact .inl (hsub e (hleft.subset he))
      · exact .inr he
    · exact fun l hl e he hne hout => hpopped l hl e he hne fun hin => hout (List.mem_append_left _ hin)
    · rw [List.lookup_append, hleftNone, Option.none_or, lookup_singleton, if_pos rfl]
    · intro l hl
      by_contra hno
      obtain ⟨hout, hlong⟩ := not_or.1 hno
      exact hmarked (by simp [hl, hout, not_lt.1 hlong])

/-- An entry that fits is stored, and nothing is popped. -/
theorem remember_fits (hnone : c.entries.lookup key = none)
    (hroom : ∀ l, seen = some l → key ∈ l ∨ l.length < validationCacheEntries)
    (hlen : c.entries.length < validationCacheEntries) (hnonneg : 0 ≤ c.bytes)
    (hbytes : c.bytes + env.getsizeof entry.raw ≤ validationCacheBytes) :
    rememberSummaryValidation env c seen key entry =
      (⟨c.entries ++ [(key, entry)], c.bytes + env.getsizeof entry.raw⟩, seen.map (addKey · key)) := by
  have hforget : c.forget env key = c := by simp [Cache.forget, hnone]
  have hsize : ¬ (validationCacheBytes < env.getsizeof entry.raw ∨ validationCacheEntries ≤ 0) := by
    rintro (hlarge | hzero)
    · omega
    · omega
  have hmarked : ¬ seen.any (fun seen => key ∉ seen ∧ validationCacheEntries ≤ seen.length) = true := by
    cases seen with
    | none => simp
    | some l =>
      have := hroom l rfl
      simp only [Option.any_some, decide_eq_true_iff, not_and, not_le]
      exact this.resolve_left
  have hevict : evict env seen (env.getsizeof entry.raw) c.entries c.bytes = (c, true) := by
    obtain ⟨entries, bytes⟩ := c
    cases entries with
    | nil => rfl
    | cons e rest =>
      have hfits : ¬ (validationCacheEntries ≤ rest.length + 1 ∨
          (validationCacheBytes : ℤ) < bytes + env.getsizeof entry.raw) := by
        rintro (hfull | hlarge)
        · exact absurd hlen (not_lt.2 hfull)
        · exact absurd hbytes (not_le.2 hlarge)
      exact if_neg hfits
  unfold rememberSummaryValidation
  dsimp only
  rw [if_neg hsize, if_neg hmarked, hforget, hevict]

theorem discard_spec (h : c.Bounded env) (volume : String) (discovered : List String) :
    (c.discard env volume discovered).Bounded env ∧
      ∀ e, e ∈ (c.discard env volume discovered).entries ↔
        e ∈ c.entries ∧ ¬ (e.1.volume = volume ∧ e.1.session ∉ discovered) := by
  have hfold : ∀ (keys : List Key) (c : Cache Raw Fn), c.Bounded env →
      Cache.Bounded env (keys.foldl (fun c key =>
        if key.volume = volume ∧ key.session ∉ discovered then c.forget env key else c) c) ∧
      ∀ e, e ∈ (keys.foldl (fun c key =>
        if key.volume = volume ∧ key.session ∉ discovered then c.forget env key else c) c).entries ↔
        e ∈ c.entries ∧ ¬ (e.1 ∈ keys ∧ e.1.volume = volume ∧ e.1.session ∉ discovered) := by
    intro keys
    induction keys with
    | nil => exact fun c h => ⟨h, fun e => by simp⟩
    | cons key keys ih =>
      intro c h
      rw [List.foldl_cons]
      split_ifs with hgone
      · obtain ⟨hbounded, hmem⟩ := ih _ (forget_bounded h key)
        refine ⟨hbounded, fun e => ?_⟩
        rw [hmem, forget_entries, delete, List.mem_filter, decide_eq_true_iff, List.mem_cons]
        by_cases he : e.1 = key
        · simp [he, hgone]
        · simp [he]
      · obtain ⟨hbounded, hmem⟩ := ih _ h
        refine ⟨hbounded, fun e => ?_⟩
        rw [hmem, List.mem_cons]
        by_cases he : e.1 = key
        · simp [he, hgone]
        · simp [he]
  obtain ⟨hbounded, hmem⟩ := hfold (c.entries.map (·.1)) c h
  refine ⟨hbounded, fun e => (hmem e).trans ?_⟩
  constructor
  · rintro ⟨he, hkept⟩
    exact ⟨he, fun hgone => hkept ⟨List.mem_map_of_mem he, hgone⟩⟩
  · rintro ⟨he, hkept⟩
    exact ⟨he, fun hgone => hkept hgone.2⟩

/-- `_summary_was_validated` as a whole. -/
theorem lookup_spec [DecidableEq Raw] [DecidableEq Fn] (h : c.Bounded env) (seen : Seen) (key : Key) (entry : Entry Raw Fn) :
    ∃ c' seen', summaryWasValidated env c seen key entry =
        (decide (c.entries.lookup key = some entry), c', seen') ∧ c'.Bounded env ∧
      (∀ e ∈ c'.entries, e ∈ c.entries) ∧
      seen' = if c.entries.lookup key = some entry then
          seen.map fun l => if l.length < validationCacheEntries then addKey l key else l
        else seen := by
  unfold summaryWasValidated
  split_ifs with hhit
  · have hperm := h.unique.perm_insertOrReplace hhit
    refine ⟨⟨insertOrReplace c.entries (key, entry), c.bytes⟩, _, by rw [decide_eq_true hhit],
      ⟨?_, ?_, h.bytes, ?_⟩, fun e he => hperm.mem_iff.1 he, rfl⟩
    · exact h.unique.insertOrReplace _
    · exact h.total.trans (totalBytes_perm env hperm).symm
    · exact hperm.length_eq ▸ h.entries
  · refine ⟨_, _, by rw [decide_eq_false hhit], forget_bounded h key, ?_, rfl⟩
    rw [forget_entries]
    exact fun e he => List.mem_of_mem_filter he

end Conductor.Persistence.Catalog
