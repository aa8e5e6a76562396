import Mathlib.Data.List.Forall2
import Conductor.Lib.Checked

/-! A traversal that may fail, in two forms: one that gives the list of the items it meets, and one
that hands each item to an accumulator at once. `Reads` relates a computation with errors to
the value it gives, `Feeds` relates the second form to the first; both compose along sequences,
fields that are read first and loops. -/

namespace Conductor.Gather

open Checked

variable {ε σ α β γ : Type}

/-- The lists of the elements, one behind the other. -/
def gather {m : Type → Type} [Monad m] (f : α → m (List β)) : List α → m (List β)
  | [] => pure []
  | x :: xs => do
    let here ← f x
    let rest ← gather f xs
    return here ++ rest

section Reads

/-- The computation succeeds exactly with the value that is there. -/
def Reads (r : Except ε γ) (o : Option γ) : Prop := ∀ v, r = .ok v ↔ o = some v

theorem Reads.ok (v : γ) : Reads (.ok v : Except ε γ) (some v) := by simp [Reads]

theorem Reads.error (e : ε) : Reads (.error e : Except ε γ) none := by simp [Reads]

theorem Reads.bind {r : Except ε γ} {o : Option γ} {f : γ → Except ε β} {g : γ → Option β} (h : Reads r o)
    (hf : ∀ v, Reads (f v) (g v)) : Reads (r >>= f) (o >>= g) := by
  intro w
  simp only [bind_eq_ok, Option.bind_eq_bind, Option.bind_eq_some_iff, h _, hf _ _]

theorem Reads.gather {f : α → Except ε (List β)} {g : α → Option (List β)} (h : ∀ x, Reads (f x) (g x)) :
    ∀ l : List α, Reads (gather f l) (gather g l)
  | [] => Reads.ok []
  | x :: l => (h x).bind fun _ => (Reads.gather h l).bind fun _ => Reads.ok _

end Reads

section Feeds

variable {push : σ → α → Except ε σ}

/-- The run succeeds exactly if the items are there and every one of them can be pushed. -/
def Feeds (push : σ → α → Except ε σ) (run : σ → Except ε σ) (items : Option (List α)) : Prop :=
  ∀ s s', run s = .ok s' ↔ ∃ xs, items = some xs ∧ xs.foldlM push s = .ok s'

theorem Feeds.done : Feeds push .ok (some []) := by
  intro s s'
  simp [pure, Except.pure]

theorem Feeds.item (x : α) : Feeds push (push · x) (some [x]) := by
  intro s s'
  simp [List.foldlM_cons]

theorem Feeds.refused {run : σ → Except ε σ} (h : ∀ s s', run s ≠ .ok s') : Feeds push run none := by
  intro s s'
  simp [h s s']

theorem Feeds.seq {f g : σ → Except ε σ} {xs ys : Option (List α)} (hf : Feeds push f xs) (hg : Feeds push g ys) :
    Feeds push (fun s => f s >>= g) (do return (← xs) ++ (← ys)) := by
  intro s s'
  simp only [bind_eq_ok, hf _ _, hg _ _, Option.bind_eq_bind, Option.bind_eq_some_iff, Option.pure_def,
    Option.some.injEq]
  constructor
  · rintro ⟨t, ⟨as, has, hs⟩, bs, hbs, ht⟩
    refine ⟨as ++ bs, ⟨as, has, bs, hbs, rfl⟩, ?_⟩
    rw [List.foldlM_append, bind_eq_ok]
    exact ⟨t, hs, ht⟩
  · rintro ⟨_, ⟨as, has, bs, hbs, rfl⟩, h⟩
    rw [List.foldlM_append, bind_eq_ok] at h
    obtain ⟨t, hs, ht⟩ := h
    exact ⟨t, ⟨as, has, hs⟩, bs, hbs, ht⟩

/-- A value that is read before anything is pushed. -/
theorem Feeds.read {r : Except ε γ} {o : Option γ} {f : γ → σ → Except ε σ} {items : γ → Option (List α)}
    (h : Reads r o) (hf : ∀ v, Feeds push (f v) (items v)) :
    Feeds push (fun s => r >>= fun v => f v s) (o >>= items) := by
  intro s s'
  simp only [bind_eq_ok, h _, hf _ _ _, Option.bind_eq_bind, Option.bind_eq_some_iff]
  constructor
  · rintro ⟨v, hv, xs, hxs, hrun⟩
    exact ⟨xs, ⟨v, hv, hxs⟩, hrun⟩
  · rintro ⟨xs, ⟨v, hv, hxs⟩, hrun⟩
    exact ⟨v, hv, xs, hxs, hrun⟩

theorem Feeds.loop {f : σ → β → Except ε σ} {items : β → Option (List α)}
    (h : ∀ x, Feeds push (f · x) (items x)) : ∀ l : List β, Feeds push (fun s => l.foldlM f s) (gather items l)
  | [] => Feeds.done
  | x :: l => by
    have hcons : (fun s => (x :: l).foldlM f s) = fun s => f s x >>= fun t => l.foldlM f t :=
      funext fun s => List.foldlM_cons
    rw [hcons]
    exact (h x).seq (Feeds.loop h l)

end Feeds

variable {xs : List α}

/-- Items that are parsed as they come: all of them parse, and the values go in. -/
theorem foldlM_parse {parse : α → Except ε β} {insert : σ → β → Except ε σ} {s s' : σ} :
    xs.foldlM (fun s x => parse x >>= insert s) s = .ok s' ↔
      ∃ ys, List.Forall₂ (fun x y => parse x = .ok y) xs ys ∧ ys.foldlM insert s = .ok s' := by
  induction xs generalizing s with
  | nil => simp [List.forall₂_nil_left_iff]
  | cons x xs ih =>
    rw [List.foldlM_cons, bind_eq_ok]
    constructor
    · rintro ⟨t, hx, ht⟩
      obtain ⟨y, hy, hins⟩ := bind_eq_ok.1 hx
      obtain ⟨ys, hys, hrest⟩ := ih.1 ht
      refine ⟨y :: ys, .cons hy hys, ?_⟩
      rw [List.foldlM_cons, bind_eq_ok]
      exact ⟨t, hins, hrest⟩
    · rintro ⟨_, hall, hrun⟩
      cases hall with
      | @cons _ y _ ys hy hys =>
        rw [List.foldlM_cons, bind_eq_ok] at hrun
        obtain ⟨t, hins, hrest⟩ := hrun
        exact ⟨t, bind_eq_ok.2 ⟨y, hy, hins⟩, ih.2 ⟨ys, hys, hrest⟩⟩

theorem exists_of_forall₂ {R : α → β → Prop} {ys : List β} (h : List.Forall₂ R xs ys) {y : β}
    (hy : y ∈ ys) : ∃ x ∈ xs, R x y := by
  induction h with
  | nil => cases hy
  | cons hxy _ ih =>
    rcases List.mem_cons.mp hy with rfl | hy
    · exact ⟨_, List.mem_cons_self, hxy⟩
    · obtain ⟨x, hx, hr⟩ := ih hy
      exact ⟨x, List.mem_cons_of_mem _ hx, hr⟩

theorem exists_forall₂ {R : α → β → Prop} (h : ∀ x ∈ xs, ∃ y, R x y) : ∃ ys, List.Forall₂ R xs ys := by
  induction xs with
  | nil => exact ⟨[], .nil⟩
  | cons x xs ih =>
    obtain ⟨⟨y, hy⟩, hrest⟩ := List.forall_mem_cons.mp h
    obtain ⟨ys, hys⟩ := ih hrest
    exact ⟨y :: ys, .cons hy hys⟩

end Conductor.Gather
