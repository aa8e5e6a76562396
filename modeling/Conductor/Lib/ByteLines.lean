import Mathlib.Data.List.Infix
import Mathlib.Algebra.Order.Group.Nat

/-! Reading lines from a byte string. `readline n` is the line that a stream returns
at a position: up to and including the next newline, the end of the bytes, or `n`
bytes, whichever comes first. -/

namespace Conductor.ByteLines

def newline : UInt8 := 10

def readline : ℕ → List UInt8 → List UInt8
  | 0, _ => []
  | _ + 1, [] => []
  | n + 1, b :: rest => if b = newline then [b] else b :: readline n rest

def endsWithNewline (line : List UInt8) : Bool := line.getLast? == some newline

variable {n : ℕ} {u v line body : List UInt8}

theorem readline_isPrefix (n : ℕ) (u : List UInt8) : readline n u <+: u := by
  induction n, u using readline.induct with
  | case1 => exact List.nil_prefix
  | case2 => exact List.nil_prefix
  | case3 n rest => simp [readline]
  | case4 n b rest hb ih => simpa [readline, hb] using ih

theorem readline_append_drop (n : ℕ) (u : List UInt8) :
    readline n u ++ u.drop (readline n u).length = u :=
  (List.prefix_append_drop (readline_isPrefix n u)).symm

theorem readline_eq_nil (hn : 0 < n) : readline n u = [] ↔ u = [] := by
  obtain ⟨n, rfl⟩ := Nat.exists_eq_succ_of_ne_zero hn.ne'
  cases u with
  | nil => simp [readline]
  | cons b u => by_cases hb : b = newline <;> simp [readline, hb]

/-- A line is a whole one, or it stops at the limit or at the end of the bytes. -/
theorem readline_cases (n : ℕ) (u : List UInt8) :
    (∃ body, newline ∉ body ∧ body.length < n ∧ readline n u = body ++ [newline]) ∨
      (newline ∉ readline n u ∧ ((readline n u).length = n ∨ readline n u = u)) := by
  induction n, u using readline.induct with
  | case1 => exact .inr ⟨by simp [readline], .inl rfl⟩
  | case2 => exact .inr ⟨by simp [readline], .inr rfl⟩
  | case3 n rest => exact .inl ⟨[], by simp, by simp, by simp [readline]⟩
  | case4 n b rest hb ih =>
    rcases ih with ⟨body, hbody, hlen, heq⟩ | ⟨hline, hstop⟩
    · exact .inl ⟨b :: body, by simp [hbody, Ne.symm hb], by simpa using hlen, by simp [readline, hb, heq]⟩
    · refine .inr ⟨by simp [readline, hb, hline, Ne.symm hb], hstop.imp (fun h => ?_) fun h => ?_⟩
      · simp [readline, hb, h]
      · simp [readline, hb, h]

theorem readline_length_le (n : ℕ) (u : List UInt8) : (readline n u).length ≤ n := by
  induction n, u using readline.induct with
  | case1 => simp [readline]
  | case2 => simp [readline]
  | case3 n rest => simp [readline]
  | case4 n b rest hb ih => simpa [readline, hb] using ih

/-- Bytes without a newline that fit are read together with what follows. -/
theorem readline_append (hbody : newline ∉ body) (hlen : body.length ≤ n) :
    readline n (body ++ v) = body ++ readline (n - body.length) v := by
  induction body generalizing n with
  | nil => simp
  | cons b body ih =>
    simp only [List.mem_cons, not_or] at hbody
    obtain ⟨n, rfl⟩ := Nat.exists_eq_succ_of_ne_zero (by simp at hlen; omega : n ≠ 0)
    simp only [List.length_cons, Nat.succ_eq_add_one, Nat.add_le_add_iff_right] at hlen
    simp [readline, Ne.symm hbody.1, ih hbody.2 hlen]

theorem readline_line (hbody : newline ∉ body) (hlen : body.length < n) :
    readline n (body ++ newline :: v) = body ++ [newline] := by
  rw [readline_append hbody hlen.le]
  obtain ⟨k, hk⟩ := Nat.exists_eq_succ_of_ne_zero (Nat.sub_ne_zero_of_lt hlen)
  simp [hk, readline]

/-- A line that did not stop at the end of the bytes does not depend on what follows it. -/
theorem readline_stable (h : readline n u = line)
    (hstop : line.length = n ∨ endsWithNewline line = true) (v : List UInt8) :
    readline n (line ++ v) = line := by
  rcases readline_cases n u with ⟨body, hbody, hlen, heq⟩ | ⟨hline, -⟩
  · rw [h] at heq
    subst heq
    rw [List.append_assoc, List.singleton_append]
    exact readline_line hbody hlen
  · rw [h] at hline
    rcases hstop with hfull | hend
    · rw [readline_append hline hfull.le, hfull, Nat.sub_self]
      simp [readline]
    · simp only [endsWithNewline, beq_iff_eq] at hend
      exact absurd (List.mem_of_getLast? hend) hline

theorem endsWithNewline_append_newline (body : List UInt8) :
    endsWithNewline (body ++ [newline]) = true := by
  simp [endsWithNewline]

theorem endsWithNewline_of_notMem (h : newline ∉ line) : endsWithNewline line = false := by
  simp only [endsWithNewline, beq_eq_false_iff_ne]
  exact fun hlast => h (List.mem_of_getLast? hlast)

/-- A whole line: one newline, at its end. -/
def IsLine (line : List UInt8) : Prop := ∃ body, newline ∉ body ∧ line = body ++ [newline]

theorem IsLine.ne_nil (h : IsLine line) : line ≠ [] := by
  obtain ⟨body, -, rfl⟩ := h
  simp

theorem IsLine.endsWithNewline (h : IsLine line) : endsWithNewline line = true := by
  obtain ⟨body, -, rfl⟩ := h
  exact endsWithNewline_append_newline body

theorem readline_isLine (h : IsLine line) (hlen : line.length ≤ n) : readline n (line ++ v) = line := by
  obtain ⟨body, hbody, rfl⟩ := h
  rw [List.append_assoc, List.singleton_append]
  exact readline_line hbody (by simp at hlen; omega)

theorem isLine_readline (h : ByteLines.endsWithNewline (readline n u) = true) : IsLine (readline n u) := by
  rcases readline_cases n u with ⟨body, hbody, -, heq⟩ | ⟨hline, -⟩
  · exact ⟨body, hbody, heq⟩
  · rw [endsWithNewline_of_notMem hline] at h
    cases h

/-- The first line of a byte string is one. -/
theorem IsLine.append_inj {line' : List UInt8} (h : IsLine line) (h' : IsLine line') (heq : line ++ u = line' ++ v) :
    line = line' ∧ u = v := by
  have hline : line = line' :=
    calc line = readline (line.length + line'.length) (line ++ u) := (readline_isLine h (by omega)).symm
      _ = readline (line.length + line'.length) (line' ++ v) := by rw [heq]
      _ = line' := readline_isLine h' (by omega)
  subst hline
  exact ⟨rfl, List.append_cancel_left heq⟩

end Conductor.ByteLines
