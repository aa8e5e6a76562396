import Mathlib.Data.List.Basic

/-! Threads of critical sections. A program is a tree of sections, each of which is atomic and
answers, for a state, the list of what it may do; the section waits where that list is empty. Between
two sections of a thread the other threads do as they like, within what the thread relies on.

`Safe R G Q E p s` is rely-guarantee reasoning for one program: from `s`, as long as the others
make `R`-steps, every section of `p` makes a `G`-step, and the program ends in `Q` or raises in `E`.
`Pool.advance_safe` puts the threads together. -/

namespace Conductor.Sections

inductive Proc (σ ε α : Type) : Type 1 where
  | ret (a : α)
  | raise (e : ε)
  | atomic {β : Type} (f : σ → List (β × σ)) (k : β → Proc σ ε α)

namespace Proc

variable {σ ε α β : Type}

protected def bind (p : Proc σ ε α) (g : α → Proc σ ε β) : Proc σ ε β :=
  match p with
  | .ret a => g a
  | .raise e => .raise e
  | .atomic f k => .atomic f fun b => (k b).bind g

instance : Monad (Proc σ ε) where
  pure := .ret
  bind := Proc.bind

/-- `except`. -/
def attempt (p : Proc σ ε α) (h : ε → Proc σ ε α) : Proc σ ε α :=
  match p with
  | .ret a => .ret a
  | .raise e => h e
  | .atomic f k => .atomic f fun b => (k b).attempt h

/-- `finally`. -/
def ensure (p : Proc σ ε α) (c : Proc σ ε Unit) : Proc σ ε α :=
  match p with
  | .ret a => c.bind fun _ => .ret a
  | .raise e => c.bind fun _ => .raise e
  | .atomic f k => .atomic f fun b => (k b).ensure c

def lift : Except ε α → Proc σ ε α
  | .ok a => .ret a
  | .error e => .raise e

/-- A section that gives a value or raises. -/
def critical (f : σ → List (Except ε α × σ)) : Proc σ ε α := .atomic f lift

def update (f : σ → σ) : Proc σ ε Unit := .atomic (fun s => [((), f s)]) .ret

end Proc

/-! ### Rely and guarantee -/

section Rules

variable {σ ε α β : Type} {R G : σ → σ → Prop} {P P' : σ → Prop} {Q Q' : α → σ → Prop} {E E' : ε → σ → Prop}

def Safe (R G : σ → σ → Prop) (Q : α → σ → Prop) (E : ε → σ → Prop) : Proc σ ε α → σ → Prop
  | .ret a, s => ∀ t, R s t → Q a t
  | .raise e, s => ∀ t, R s t → E e t
  | .atomic f k, s => ∀ t, R s t → ∀ r ∈ f t, G t r.2 ∧ Safe R G Q E (k r.1) r.2

/-- What a thread relies on is a preorder. -/
structure Rely (R : σ → σ → Prop) : Prop where
  refl : ∀ s, R s s
  trans : ∀ s t u, R s t → R t u → R s u

def Stable (R : σ → σ → Prop) (P : σ → Prop) : Prop := ∀ s t, P s → R s t → P t

def Triple (R G : σ → σ → Prop) (P : σ → Prop) (p : Proc σ ε α) (Q : α → σ → Prop) (E : ε → σ → Prop) : Prop :=
  ∀ s, P s → Safe R G Q E p s

variable {p : Proc σ ε α} {s : σ} {g : β → Proc σ ε α} {c : Proc σ ε Unit} {f : σ → List (Except ε α × σ)}

/-- What the others do keeps a program safe. -/
theorem Safe.later (hR : Rely R) {t : σ} (h : Safe R G Q E p s) (hst : R s t) : Safe R G Q E p t := by
  cases p with
  | ret a => exact fun u hu => h u (hR.trans s t u hst hu)
  | raise e => exact fun u hu => h u (hR.trans s t u hst hu)
  | atomic f k => exact fun u hu => h u (hR.trans s t u hst hu)

theorem Safe.mono (h : Safe R G Q E p s) (hQ : ∀ a t, Q a t → Q' a t)
    (hE : ∀ e t, E e t → E' e t) : Safe R G Q' E' p s := by
  induction p generalizing s with
  | ret a => exact fun t ht => hQ a t (h t ht)
  | raise e => exact fun t ht => hE e t (h t ht)
  | atomic f k ih =>
    intro t ht r hr
    obtain ⟨hG, hk⟩ := h t ht r hr
    exact ⟨hG, ih r.1 hk⟩

theorem Safe.bind {p : Proc σ ε β}
    (h : Safe R G (fun b t => Safe R G Q E (g b) t) E p s) (hR : Rely R) : Safe R G Q E (p.bind g) s := by
  induction p generalizing s with
  | ret b => exact h s (hR.refl s)
  | raise e => exact h
  | atomic f k ih =>
    intro t ht r hr
    obtain ⟨hG, hk⟩ := h t ht r hr
    exact ⟨hG, ih r.1 hk⟩

theorem Safe.attempt {g : ε → Proc σ ε α}
    (h : Safe R G Q (fun e t => Safe R G Q E (g e) t) p s) (hR : Rely R) : Safe R G Q E (p.attempt g) s := by
  induction p generalizing s with
  | ret a => exact h
  | raise e => exact h s (hR.refl s)
  | atomic f k ih =>
    intro t ht r hr
    obtain ⟨hG, hk⟩ := h t ht r hr
    exact ⟨hG, ih r.1 hk⟩

theorem Safe.ensure
    (h : Safe R G (fun a t => Safe R G (fun _ => Q a) E c t) (fun e t => Safe R G (fun _ => E e) E c t) p s)
    (hR : Rely R) (hQ : ∀ a, Stable R (Q a)) (hE : ∀ e, Stable R (E e)) : Safe R G Q E (p.ensure c) s := by
  induction p generalizing s with
  | ret a => exact ((h s (hR.refl s)).mono (fun _ t ht u hu => hQ a t u ht hu) fun _ _ ht => ht).bind hR
  | raise e => exact ((h s (hR.refl s)).mono (fun _ t ht u hu => hE e t u ht hu) fun _ _ ht => ht).bind hR
  | atomic f k ih =>
    intro t ht r hr
    obtain ⟨hG, hk⟩ := h t ht r hr
    exact ⟨hG, ih r.1 hk⟩

/-! ### Rules for triples -/

theorem Triple.mono (h : Triple R G P p Q E) (hP : ∀ s, P' s → P s)
    (hQ : ∀ a s, Q a s → Q' a s) (hE : ∀ e s, E e s → E' e s) : Triple R G P' p Q' E' :=
  fun s hs => (h s (hP s hs)).mono hQ hE

theorem triple_ret {a : α} (hQ : Stable R (Q a)) (h : ∀ s, P s → Q a s) : Triple R G P (pure a) Q E :=
  fun s hs t ht => hQ s t (h s hs) ht

theorem triple_raise {e : ε} (hE : Stable R (E e)) (h : ∀ s, P s → E e s) : Triple R G P (.raise e) Q E :=
  fun s hs t ht => hE s t (h s hs) ht

theorem triple_bind {p : Proc σ ε β} {M : β → σ → Prop} (hR : Rely R)
    (hp : Triple R G P p M E) (hg : ∀ b, Triple R G (M b) (g b) Q E) : Triple R G P (p >>= g) Q E :=
  fun s hs => ((hp s hs).mono (fun b t ht => hg b t ht) fun _ _ ht => ht).bind hR

theorem triple_attempt {g : ε → Proc σ ε α} {M : ε → σ → Prop} (hR : Rely R)
    (hp : Triple R G P p Q M) (hg : ∀ e, Triple R G (M e) (g e) Q E) : Triple R G P (p.attempt g) Q E :=
  fun s hs => ((hp s hs).mono (fun _ _ ht => ht) fun e t ht => hg e t ht).attempt hR

theorem triple_ensure {M : α → σ → Prop} {N : ε → σ → Prop} (hR : Rely R)
    (hQ : ∀ a, Stable R (Q a)) (hE : ∀ e, Stable R (E e)) (hp : Triple R G P p M N)
    (hv : ∀ a, Triple R G (M a) c (fun _ => Q a) E) (he : ∀ e, Triple R G (N e) c (fun _ => E e) E) :
    Triple R G P (p.ensure c) Q E :=
  fun s hs => ((hp s hs).mono (fun a t ht => hv a t ht) fun e t ht => he e t ht).ensure hR hQ hE

/-- What a section gives. -/
def Gives (Q : α → σ → Prop) (E : ε → σ → Prop) : Except ε α × σ → Prop
  | (.ok a, t) => Q a t
  | (.error e, t) => E e t

theorem triple_critical (hP : Stable R P) (hQ : ∀ a, Stable R (Q a))
    (hE : ∀ e, Stable R (E e)) (h : ∀ s, P s → ∀ r ∈ f s, G s r.2 ∧ Gives Q E r) :
    Triple R G P (.critical f) Q E := by
  intro s hs t ht r hr
  obtain ⟨o, u⟩ := r
  obtain ⟨hG, hr⟩ := h t (hP s t hs ht) _ hr
  refine ⟨hG, ?_⟩
  cases o with
  | ok a => exact fun v hv => hQ a u v hr hv
  | error e => exact fun v hv => hE e u v hr hv

theorem triple_update {f : σ → σ} {Q : Unit → σ → Prop} (hP : Stable R P) (hQ : Stable R (Q ()))
    (h : ∀ s, P s → G s (f s) ∧ Q () (f s)) : Triple R G P (.update f) Q E := by
  intro s hs t ht r hr
  rw [List.mem_singleton.1 hr]
  obtain ⟨hG, hr⟩ := h t (hP s t hs ht)
  exact ⟨hG, fun v hv => hQ _ v hr hv⟩

/-! ### Programs that keep an assertion -/

def Keeps (R G : σ → σ → Prop) (P : σ → Prop) (p : Proc σ ε α) : Prop := Triple R G P p (fun _ => P) fun _ => P

theorem keeps_pure (hP : Stable R P) (a : α) : Keeps R G P (pure a : Proc σ ε α) := triple_ret hP fun _ h => h

theorem keeps_raise (hP : Stable R P) (e : ε) : Keeps R G P (.raise e : Proc σ ε α) := triple_raise hP fun _ h => h

theorem Keeps.bind {p : Proc σ ε β} (hR : Rely R) (hp : Keeps R G P p)
    (hg : ∀ b, Keeps R G P (g b)) : Keeps R G P (p >>= g) := triple_bind hR hp hg

theorem Keeps.attempt {g : ε → Proc σ ε α} (hR : Rely R) (hp : Keeps R G P p)
    (hg : ∀ e, Keeps R G P (g e)) : Keeps R G P (p.attempt g) := triple_attempt hR hp hg

theorem Keeps.ensure (hR : Rely R) (hP : Stable R P) (hp : Keeps R G P p)
    (hc : Keeps R G P c) : Keeps R G P (p.ensure c) :=
  triple_ensure hR (fun _ => hP) (fun _ => hP) hp (fun _ => hc) fun _ => hc

theorem keeps_critical (hP : Stable R P)
    (h : ∀ s, P s → ∀ r ∈ f s, G s r.2 ∧ P r.2) : Keeps R G P (.critical f) := by
  refine triple_critical hP (fun _ => hP) (fun _ => hP) fun s hs r hr => ?_
  obtain ⟨o, t⟩ := r
  obtain ⟨hG, ht⟩ := h s hs _ hr
  cases o with
  | ok a => exact ⟨hG, ht⟩
  | error e => exact ⟨hG, ht⟩

end Rules

/-! ### Pools of threads -/

structure Pool (ι σ ε α : Type) : Type 1 where
  shared : σ
  threads : List (ι × Proc σ ε α)

namespace Pool

variable {ι σ ε α : Type}

/-- The section of a thread, with one of its results. -/
def advance (p : Pool ι σ ε α) (i choice : ℕ) : Option (Pool ι σ ε α) :=
  match p.threads[i]? with
  | some (id, .atomic f k) => (f p.shared)[choice]?.map fun r => ⟨r.2, p.threads.set i (id, k r.1)⟩
  | _ => none

def add (p : Pool ι σ ε α) (shared : σ) (thread : ι × Proc σ ε α) : Pool ι σ ε α :=
  ⟨shared, p.threads ++ [thread]⟩

variable (R G : ι → σ → σ → Prop) (Apart : ι → ι → Prop) (Q : ι → α → σ → Prop) (E : ι → ε → σ → Prop)

/-- What the steps of a thread mean to the threads apart from it. -/
structure Discipline : Prop where
  rely : ∀ i, Rely (R i)
  compatible : ∀ i j s t, Apart i j → G i s t → R j s t

/-- All threads are safe, and they are apart. -/
structure AllSafe (p : Pool ι σ ε α) : Prop where
  apart : ∀ (i j : ℕ) (th th' : ι × Proc σ ε α), i ≠ j → p.threads[i]? = some th → p.threads[j]? = some th' →
    Apart th.1 th'.1
  each : ∀ (i : ℕ) (th : ι × Proc σ ε α), p.threads[i]? = some th →
    Safe (R th.1) (G th.1) (Q th.1) (E th.1) th.2 p.shared

variable {R G Apart Q E}

variable {p : Pool ι σ ε α} {th : ι × Proc σ ε α} {p' : Pool ι σ ε α} {i : ℕ} {choice : ℕ}

theorem advance_cases (h : p.advance i choice = some p') :
    ∃ (id : ι) (β : Type) (f : σ → List (β × σ)) (k : β → Proc σ ε α) (b : β),
      p.threads[i]? = some (id, .atomic f k) ∧ (b, p'.shared) ∈ f p.shared ∧
      p'.threads = p.threads.set i (id, k b) := by
  unfold advance at h
  split at h
  · rename_i id β f k hthread
    obtain ⟨⟨b, t⟩, hr, rfl⟩ := Option.map_eq_some_iff.1 h
    exact ⟨id, β, f, k, b, hthread, List.mem_of_getElem? hr, rfl⟩
  · cases h

/-- A thread keeps its name. -/
theorem advance_thread (h : p.advance i choice = some p')
    (hth : th ∈ p'.threads) : ∃ th' ∈ p.threads, th'.1 = th.1 := by
  obtain ⟨id, β, f, k, b, hthread, -, hthreads⟩ := advance_cases h
  rw [hthreads] at hth
  rcases List.mem_or_eq_of_mem_set hth with hth | rfl
  · exact ⟨th, hth, rfl⟩
  · exact ⟨_, List.mem_of_getElem? hthread, rfl⟩

/-- A thread of the list with one thread's program replaced. -/
theorem set_thread_cases {threads : List (ι × Proc σ ε α)} {j : ℕ} {id : ι} {q q' : Proc σ ε α}
    (hi : threads[i]? = some (id, q)) (hj : (threads.set i (id, q'))[j]? = some th) :
    ∃ th', threads[j]? = some th' ∧ th'.1 = th.1 ∧ (j = i → th = (id, q')) ∧ (j ≠ i → th' = th) := by
  rw [List.getElem?_set] at hj
  split at hj
  · rename_i heq
    subst heq
    split at hj
    · cases hj
      exact ⟨_, hi, rfl, fun _ => rfl, fun hne => absurd rfl hne⟩
    · cases hj
  · rename_i hne
    exact ⟨th, hj, rfl, fun h => absurd h.symm hne, fun _ => rfl⟩

/-- A thread goes on with a program that is safe in a state that the others allow. -/
theorem AllSafe.replace (hp : AllSafe R G Apart Q E p) {id : ι} {q q' : Proc σ ε α}
    {shared : σ} (hi : p.threads[i]? = some (id, q))
    (hstep : ∀ (j : ℕ) (th : ι × Proc σ ε α), j ≠ i → p.threads[j]? = some th → R th.1 p.shared shared)
    (hd : Discipline R G Apart) (hsafe : Safe (R id) (G id) (Q id) (E id) q' shared) :
    AllSafe R G Apart Q E ⟨shared, p.threads.set i (id, q')⟩ := by
  refine ⟨fun j j' th th' hne hj hj' => ?_, fun j th hj => ?_⟩
  · obtain ⟨u, hu, hid, -⟩ := set_thread_cases hi hj
    obtain ⟨u', hu', hid', -⟩ := set_thread_cases hi hj'
    rw [← hid, ← hid']
    exact hp.apart j j' u u' hne hu hu'
  · obtain ⟨u, hu, -, hsame, hother⟩ := set_thread_cases hi hj
    by_cases hji : j = i
    · rw [hsame hji]
      exact hsafe
    · rw [← hother hji]
      exact (hp.each j u hu).later (hd.rely u.1) (hstep j u hji hu)

/-- A section of one thread makes its step and leaves all threads safe. -/
theorem advance_safe (hd : Discipline R G Apart) (hp : AllSafe R G Apart Q E p)
    (h : p.advance i choice = some p') : AllSafe R G Apart Q E p' ∧ ∃ id, G id p.shared p'.shared := by
  obtain ⟨id, β, f, k, b, hthread, hb, hthreads⟩ := advance_cases h
  obtain ⟨hG, hk⟩ := hp.each i _ hthread p.shared ((hd.rely id).refl _) _ hb
  refine ⟨?_, id, hG⟩
  obtain ⟨u, ths⟩ := p'
  obtain rfl : ths = p.threads.set i (id, k b) := hthreads
  exact hp.replace hthread (fun j th hne hj => hd.compatible id th.1 _ _ (hp.apart i j _ th hne.symm hthread hj) hG)
    hd hk

/-- A new thread, apart from the others, that is safe where it starts. -/
theorem add_safe (hd : Discipline R G Apart) (hp : AllSafe R G Apart Q E p) {shared : σ}
    {thread : ι × Proc σ ε α} (hapart : ∀ th ∈ p.threads, Apart th.1 thread.1 ∧ Apart thread.1 th.1)
    (hstep : ∀ th ∈ p.threads, R th.1 p.shared shared)
    (hsafe : Safe (R thread.1) (G thread.1) (Q thread.1) (E thread.1) thread.2 shared) :
    AllSafe R G Apart Q E (p.add shared thread) := by
  have hcases : ∀ (i : ℕ) (th : ι × Proc σ ε α), (p.threads ++ [thread])[i]? = some th →
      (p.threads[i]? = some th ∧ th ∈ p.threads) ∨ (i = p.threads.length ∧ th = thread) := by
    intro i th hi
    rw [List.getElem?_append] at hi
    split at hi
    · exact .inl ⟨hi, List.mem_of_getElem? hi⟩
    · rename_i hge
      rw [List.getElem?_singleton] at hi
      split at hi
      · exact .inr ⟨by omega, (Option.some.inj hi).symm⟩
      · cases hi
  constructor
  · intro i j th th' hne hi hj
    rcases hcases i th hi with ⟨hi, hmem⟩ | ⟨hi, rfl⟩
    · rcases hcases j th' hj with ⟨hj, -⟩ | ⟨-, rfl⟩
      · exact hp.apart i j th th' hne hi hj
      · exact (hapart th hmem).1
    · rcases hcases j th' hj with ⟨-, hmem⟩ | ⟨hj, rfl⟩
      · exact (hapart th' hmem).2
      · omega
  · intro i th hi
    rcases hcases i th hi with ⟨hi, hmem⟩ | ⟨-, rfl⟩
    · exact (hp.each i th hi).later (hd.rely th.1) (hstep th hmem)
    · exact hsafe

end Pool

end Conductor.Sections
