import Conductor.Lib.Concat

/-! POSIX paths as texts: `PurePosixPath` and the functions `join`, `dirname` and `normpath` of `posixpath`, and over
them the lexical walk along the components of a relative path, which fails where it would leave the directory it
started in. -/

namespace Conductor.PosixPath

abbrev Text := List Char

/-- `text.split("/")`. -/
def components (text : Text) : List Text := text.splitOn '/'

/-- `"/".join(parts)`. -/
def slashed (parts : List Text) : Text := ['/'].intercalate parts

def isAbsolute (text : Text) : Bool := text.head? == some '/'

/-- Two leading slashes are a root of their own, three are not. -/
def root : Text → List Text
  | '/' :: '/' :: '/' :: _ => [['/']]
  | '/' :: '/' :: _ => [['/', '/']]
  | '/' :: _ => [['/']]
  | _ => []

/-- `PurePosixPath(text).parts`. -/
def parts (text : Text) : List Text := root text ++ (components text).filter fun c => c ≠ [] ∧ c ≠ ['.']

def join (a b : Text) : Text :=
  if isAbsolute b then b else if a = [] ∨ a.getLast? = some '/' then a ++ b else a ++ '/' :: b

def dirname (text : Text) : Text :=
  let head := (text.reverse.dropWhile (· ≠ '/')).reverse
  if head.all (· = '/') then head else (head.reverse.dropWhile (· = '/')).reverse

/-- A component in the loop of `normpath`. -/
def normStep (absolute : Bool) (done : List Text) (c : Text) : List Text :=
  if c = [] ∨ c = ['.'] then done
  else if c ≠ ['.', '.'] ∨ absolute = false ∧ done = [] ∨ done.getLast? = some ['.', '.'] then done ++ [c]
  else done.dropLast

def normpath (text : Text) : Text :=
  if text = [] then ['.']
  else
    let slashes := (root text).headD []
    let path := slashes ++ slashed ((components text).foldl (normStep (slashes ≠ [])) [])
    if path = [] then ['.'] else path

/-! ### The walk -/

/-- One step from a directory that is given by its components. -/
def step (at_ : List Text) (c : Text) : Option (List Text) :=
  if c = [] ∨ c = ['.'] then some at_
  else if c = ['.', '.'] then if at_ = [] then none else some at_.dropLast
  else some (at_ ++ [c])

/-- A walk along components. -/
def walk : List Text → List Text → Option (List Text)
  | here, [] => some here
  | here, c :: rest => (step here c).bind fun next => walk next rest

/-- A component that names something. -/
structure Plain (c : Text) : Prop where
  nonempty : c ≠ []
  here : c ≠ ['.']
  up : c ≠ ['.', '.']
  slash : '/' ∉ c

variable {text : Text} {c name : Text} {here path : List Text}

theorem mem_components_slash (h : c ∈ components text) : '/' ∉ c := by
  unfold components at h
  induction text generalizing c with
  | nil =>
    rw [List.splitOn_nil] at h
    simp [List.mem_singleton.1 h]
  | cons d text ih =>
    rw [List.splitOn_cons_eq_if_modifyHead] at h
    split at h
    · rcases List.mem_cons.1 h with rfl | h
      · simp
      · exact ih h
    · next hd =>
      obtain ⟨first, rest, hsplit⟩ := List.exists_cons_of_ne_nil (List.splitOn_ne_nil '/' text)
      rw [hsplit] at h ih
      rcases List.mem_cons.1 h with rfl | h
      · have := ih List.mem_cons_self
        simp only [beq_iff_eq] at hd
        simp [this, Ne.symm hd]
      · exact ih (List.mem_cons_of_mem _ h)

theorem slashed_components (text : Text) : slashed (components text) = text := List.intercalate_splitOn '/'

theorem components_slashed {parts : List Text} (h : ∀ c ∈ parts, '/' ∉ c) (hne : parts ≠ []) :
    components (slashed parts) = parts := List.splitOn_intercalate '/' h hne

theorem components_singleton (h : '/' ∉ c) : components c = [c] := List.splitOn_eq_singleton h

theorem components_append (a b : Text) : components (a ++ '/' :: b) = components a ++ components b :=
  List.splitOn_append_cons_self a b

theorem components_ne_nil (text : Text) : components text ≠ [] := List.splitOn_ne_nil '/' text

/-! ### What `normpath` does to a relative path -/

theorem walk_append (here a b : List Text) : walk here (a ++ b) = (walk here a).bind fun next => walk next b := by
  induction a generalizing here with
  | nil => rfl
  | cons c a ih =>
    simp only [List.cons_append, walk, Option.bind_assoc]
    congr 1
    funext next
    exact ih next

theorem walk_plain (h : ∀ c ∈ path, Plain c) : walk here path = some (here ++ path) := by
  induction path generalizing here with
  | nil => simp [walk]
  | cons c path ih =>
    have hc := h c List.mem_cons_self
    have hstep : step here c = some (here ++ [c]) := by
      simp [step, hc.nonempty, hc.here, hc.up]
    rw [walk, hstep, Option.bind_some, ih fun d hd => h d (List.mem_cons_of_mem c hd)]
    simp

theorem step_plain {next : List Text} (h : ∀ d ∈ here, Plain d) (hslash : '/' ∉ c)
    (hs : step here c = some next) : ∀ d ∈ next, Plain d := by
  unfold step at hs
  split at hs
  · cases hs
    exact h
  · next hempty =>
    rw [not_or] at hempty
    split at hs
    · split at hs
      · cases hs
      · cases hs
        exact fun d hd => h d (List.dropLast_subset _ hd)
    · next hup =>
      cases hs
      exact forall_mem_concat h ⟨hempty.1, hempty.2, hup, hslash⟩

theorem walk_all_plain {last : List Text} (h : ∀ d ∈ here, Plain d) (hslash : ∀ c ∈ path, '/' ∉ c)
    (hw : walk here path = some last) : ∀ d ∈ last, Plain d := by
  induction path generalizing here with
  | nil =>
    cases hw
    exact h
  | cons c path ih =>
    obtain ⟨next, hnext, hrest⟩ := Option.bind_eq_some_iff.1 hw
    exact ih (step_plain h (hslash c List.mem_cons_self) hnext)
      (fun d hd => hslash d (List.mem_cons_of_mem c hd)) hrest

/-- A path that went up out of its start keeps its first component. -/
theorem normStep_up {done : List Text} (h : done.head? = some ['.', '.']) (c : Text) :
    (normStep false done c).head? = some ['.', '.'] := by
  obtain ⟨rest, rfl⟩ : ∃ rest, done = ['.', '.'] :: rest := by
    cases done with
    | nil => cases h
    | cons d rest => exact ⟨rest, by rw [Option.some.inj h]⟩
  unfold normStep
  split
  · rfl
  · split
    · rfl
    · next hlast =>
      cases rest with
      | nil => simp at hlast
      | cons d rest => rfl

theorem foldl_normStep_up {done : List Text} (h : done.head? = some ['.', '.']) (path : List Text) :
    (path.foldl (normStep false) done).head? = some ['.', '.'] := by
  induction path generalizing done with
  | nil => exact h
  | cons c path ih => exact ih (normStep_up h c)

theorem normStep_step (h : ∀ d ∈ here, Plain d) (c : Text) : step here c = some (normStep false here c) ∨
      step here c = none ∧ (normStep false here c).head? = some ['.', '.'] := by
  unfold step normStep
  by_cases hempty : c = [] ∨ c = ['.']
  · rw [if_pos hempty, if_pos hempty]
    exact .inl rfl
  · rw [if_neg hempty, if_neg hempty]
    by_cases hup : c = ['.', '.']
    · rw [if_pos hup]
      by_cases hnil : here = []
      · subst hnil
        rw [if_pos rfl, if_pos (.inr (.inl ⟨rfl, rfl⟩)), hup]
        exact .inr ⟨rfl, rfl⟩
      · have hlast : here.getLast? ≠ some ['.', '.'] := fun hl => (h _ (List.mem_of_getLast? hl)).up rfl
        rw [if_neg hnil, if_neg (by simp [hup, hnil, hlast])]
        exact .inl rfl
    · rw [if_neg hup, if_pos (.inl hup)]
      exact .inl rfl

/-- The components that `normpath` leaves are where the walk ends; when it cannot be made, the first one is `..`. -/
theorem foldl_normStep (h : ∀ d ∈ here, Plain d) (hslash : ∀ c ∈ path, '/' ∉ c) :
    walk here path = some (path.foldl (normStep false) here) ∨
      walk here path = none ∧ (path.foldl (normStep false) here).head? = some ['.', '.'] := by
  induction path generalizing here with
  | nil => exact .inl rfl
  | cons c path ih =>
    rcases normStep_step h c with hs | ⟨hs, hup⟩
    · have hnext := step_plain h (hslash c List.mem_cons_self) hs
      rw [walk, hs, Option.bind_some, List.foldl_cons]
      exact ih hnext fun d hd => hslash d (List.mem_cons_of_mem c hd)
    · rw [walk, hs, Option.bind_none, List.foldl_cons]
      exact .inr ⟨rfl, foldl_normStep_up hup path⟩


/-! ### The target of a link -/

section Solid

variable {a : Text} (h : ∀ c ∈ components a, c ≠ [])

include h

theorem ne_nil_of_solid : a ≠ [] := by
  rintro rfl
  exact h [] (by simp [components]) rfl

theorem head_of_solid : a.head? ≠ some '/' := by
  intro hhead
  obtain ⟨rest, rfl⟩ : ∃ rest, a = '/' :: rest := by
    cases a with
    | nil => cases hhead
    | cons c rest => exact ⟨rest, by rw [Option.some.inj hhead]⟩
  exact h [] (by rw [← List.nil_append ('/' :: rest), components_append]; simp [components]) rfl

theorem last_of_solid : a.getLast? ≠ some '/' := by
  intro hlast
  obtain ⟨before, rfl⟩ := List.getLast?_eq_some_iff.1 hlast
  exact h [] (by rw [components_append]; simp [components]) rfl

theorem dirname_append {b : Text} (hb : '/' ∉ b) : dirname (a ++ '/' :: b) = a := by
  have hcut : ((a ++ '/' :: b).reverse.dropWhile (· ≠ '/')).reverse = a ++ ['/'] := by
    have hall : ∀ c ∈ b.reverse, (decide (c ≠ '/')) = true := by
      intro c hc
      have : c ≠ '/' := fun heq => hb (heq ▸ List.mem_reverse.1 hc)
      simpa using this
    rw [List.reverse_append, List.reverse_cons, List.append_assoc, List.dropWhile_append_of_pos hall]
    simp
  have hmixed : ¬ (a ++ ['/']).all (· = '/') := by
    intro hall
    simp only [List.all_eq_true, decide_eq_true_eq] at hall
    obtain ⟨c, rest, rfl⟩ := List.exists_cons_of_ne_nil (ne_nil_of_solid h)
    exact head_of_solid h (by rw [hall c (by simp)]; rfl)
  unfold dirname
  simp only [hcut, if_neg hmixed]
  rw [List.reverse_append, List.reverse_singleton, List.singleton_append, List.dropWhile_cons_of_pos (by simp)]
  obtain ⟨c, hc⟩ : ∃ c, a.getLast? = some c := Option.ne_none_iff_exists'.1 fun hn =>
    ne_nil_of_solid h (List.getLast?_eq_none_iff.1 hn)
  obtain ⟨before, rfl⟩ := List.getLast?_eq_some_iff.1 hc
  have hne : c ≠ '/' := by
    rintro rfl
    exact last_of_solid h hc
  rw [List.reverse_append, List.reverse_singleton, List.singleton_append,
    List.dropWhile_cons_of_neg (by simpa using hne)]
  simp

end Solid

theorem solid_of_plain (h : ∀ c ∈ components text, Plain c) : ∀ c ∈ components text, c ≠ [] :=
  fun c hc => (h c hc).nonempty

/-- The directory of a name of two components or more. -/
theorem components_dirname (h : ∀ c ∈ components name, Plain c) (hlen : 2 ≤ (components name).length) :
    components (dirname name) = (components name).dropLast := by
  obtain ⟨init, last, hsplit⟩ : ∃ init last, components name = init ++ [last] :=
    ⟨_, _, (List.dropLast_append_getLast (components_ne_nil name)).symm⟩
  have hinit : init ≠ [] := by
    rintro rfl
    rw [hsplit] at hlen
    simp at hlen
  rw [hsplit] at h
  have hplain : ∀ c ∈ init, Plain c := fun c hc => h c (List.mem_append_left _ hc)
  have hlast := h last (by simp)
  have hback : components (slashed init) = init := components_slashed (fun c hc => (hplain c hc).slash) hinit
  have hname : name = slashed init ++ '/' :: last := by
    have hsame : components (slashed init ++ '/' :: last) = components name := by
      rw [components_append, hback, hsplit, components_singleton hlast.slash]
    rw [← slashed_components name, ← hsame, slashed_components]
  have hsolid : ∀ c ∈ components (slashed init), c ≠ [] := by
    rw [hback]
    exact fun c hc => (hplain c hc).nonempty
  rw [hsplit, List.dropLast_concat, hname, dirname_append hsolid hlast.slash, hback]

theorem root_eq_nil (h : text.head? ≠ some '/') : root text = [] := by
  match text with
  | [] => rfl
  | c :: rest =>
    have hc : c ≠ '/' := fun heq => h (by rw [heq]; rfl)
    unfold root
    split <;> simp_all

/-- `normpath` of a relative path. -/
theorem normpath_relative (hhead : text.head? ≠ some '/') (hne : text ≠ []) : normpath text =
      if slashed ((components text).foldl (normStep false) []) = [] then ['.']
      else slashed ((components text).foldl (normStep false) []) := by
  unfold normpath
  rw [if_neg hne, root_eq_nil hhead]
  rfl

theorem slashed_ne_nil {parts : List Text} (h : ∀ c ∈ parts, Plain c) (hne : parts ≠ []) : slashed parts ≠ [] := by
  intro hnil
  have hback := components_slashed (fun c hc => (h c hc).slash) hne
  rw [hnil] at hback
  exact (h [] (hback ▸ by simp [components])).nonempty rfl

/-- The normal form of a relative path is a name exactly when the walk along it ends there. -/
theorem normpath_eq_iff {target : Text} (hhead : text.head? ≠ some '/') (hne : text ≠ [])
    (ht : ∀ c ∈ components target, Plain c) :
    normpath text = target ↔ walk [] (components text) = some (components target) := by
  have hslash : ∀ c ∈ components text, '/' ∉ c := fun c hc => mem_components_slash hc
  rw [normpath_relative hhead hne]
  rcases foldl_normStep (List.forall_mem_nil Plain) hslash with hwalk | ⟨hwalk, hup⟩
  · have hplain := walk_all_plain (by simp) hslash hwalk
    rw [hwalk, Option.some.injEq]
    generalize (components text).foldl (normStep false) [] = last at *
    constructor
    · intro heq
      by_cases hnil : last = []
      · subst hnil
        rw [if_pos (show slashed [] = [] from rfl)] at heq
        subst heq
        have hdot : ['.'] ∈ components ['.'] := by rw [components_singleton (by simp)]; simp
        exact absurd rfl (ht ['.'] hdot).here
      · rw [if_neg (slashed_ne_nil hplain hnil)] at heq
        rw [← heq, components_slashed (fun c hc => (hplain c hc).slash) hnil]
    · rintro rfl
      rw [if_neg (slashed_ne_nil hplain (components_ne_nil target)), slashed_components]
  · rw [hwalk]
    refine iff_of_false (fun heq => ?_) (by simp)
    generalize (components text).foldl (normStep false) [] = last at *
    obtain ⟨rest, rfl⟩ : ∃ rest, last = ['.', '.'] :: rest := by
      cases last with
      | nil => cases hup
      | cons d rest => exact ⟨rest, by rw [Option.some.inj hup]⟩
    have hfirst : ['.', '.'] ∈ components (slashed (['.', '.'] :: rest)) := by
      cases rest with
      | nil =>
        show ['.', '.'] ∈ components ['.', '.']
        rw [components_singleton (by simp)]
        simp
      | cons d rest =>
        have hslashed : slashed (['.', '.'] :: d :: rest) = ['.', '.'] ++ '/' :: slashed (d :: rest) := by
          simp [slashed, List.intercalate_cons_cons]
        rw [hslashed, components_append, components_singleton (by simp)]
        simp
    have hne' : slashed (['.', '.'] :: rest) ≠ [] := by
      intro hnil
      rw [hnil] at hfirst
      simp [components] at hfirst
    rw [if_neg hne'] at heq
    exact (ht _ (heq ▸ hfirst)).up rfl

theorem walk_from (h : ∀ c ∈ here, Plain c) : walk [] (here ++ path) = walk here path := by
  rw [walk_append, walk_plain h, List.nil_append, Option.bind_some]

/-- The target of a link in the directory of a name. -/
theorem target_eq_iff {link target : Text} (h : ∀ c ∈ components name, Plain c)
    (hlen : 2 ≤ (components name).length) (hlink : isAbsolute link = false) (ht : ∀ c ∈ components target, Plain c) :
    normpath (join (dirname name) link) = target ↔
      walk (components name).dropLast (components link) = some (components target) := by
  have hdir := components_dirname h hlen
  have hplain : ∀ c ∈ (components name).dropLast, Plain c := fun c hc => h c (List.dropLast_subset _ hc)
  have hsolid : ∀ c ∈ components (dirname name), c ≠ [] := by
    rw [hdir]
    exact fun c hc => (hplain c hc).nonempty
  have hjoin : join (dirname name) link = dirname name ++ '/' :: link := by
    unfold join
    rw [hlink, if_neg (by simp), if_neg (by simp [ne_nil_of_solid hsolid, last_of_solid hsolid])]
  have hhead : (dirname name ++ '/' :: link).head? ≠ some '/' := by
    rw [List.head?_append_of_ne_nil _ (ne_nil_of_solid hsolid)]
    exact head_of_solid hsolid
  rw [hjoin, normpath_eq_iff hhead (by simp) ht, components_append, hdir, walk_from hplain]

/-- A name without odd components is its parts. -/
theorem parts_of_plain (h : ∀ c ∈ components name, Plain c) : parts name = components name := by
  rw [parts, root_eq_nil (head_of_solid (solid_of_plain h)), List.nil_append, List.filter_eq_self]
  intro c hc
  simp [(h c hc).nonempty, (h c hc).here]

theorem components_injective {a b : Text} (h : components a = components b) : a = b := by
  rw [← slashed_components a, h, slashed_components]

theorem slashed_cons {rest : List Text} (h : rest ≠ []) : slashed (c :: rest) = c ++ '/' :: slashed rest := by
  rw [slashed, List.intercalate_cons_of_ne_nil h]
  simp [slashed]

end Conductor.PosixPath
