import Mathlib.Data.List.Basic
import Mathlib.Tactic.Basic

/-!
# Slash-separated texts and what they resolve to

A text is read as the pieces between its separators.  The first piece is the `lead` (empty for an
absolute path); the others are component names, among them the special ones: the empty piece and
`.`, which stay where they are, and `..`, which goes up.  `below` is the list of names that remain
when the special pieces are carried out on a stack that starts empty and cannot go above its
bottom.

`below_append` is the law the rewriting of paths is checked against: what stands after a separator
acts on the stack of what stands before it.
-/

namespace PathComponents

variable {α : Type} (sep dot : α)

/-- The text that writes a separator before each component. -/
def render (cs : List (List α)) : List α := cs.flatMap fun c => sep :: c

/-- The text of an absolute path: the root is a separator of its own. -/
def absolute (cs : List (List α)) : List α := if cs = [] then [sep] else render sep cs

@[simp] theorem render_nil : render sep ([] : List (List α)) = [] := rfl

@[simp] theorem render_cons (c : List α) (cs : List (List α)) :
    render sep (c :: cs) = sep :: c ++ render sep cs := rfl

@[simp] theorem render_append (cs ds : List (List α)) :
    render sep (cs ++ ds) = render sep cs ++ render sep ds := List.flatMap_append

variable [DecidableEq α]

/-- The pieces of a text between its separators. -/
def pieces (s : List α) : List (List α) := s.splitOn sep

/-- The text before the first separator. -/
def lead (s : List α) : List α := (pieces sep s).headD []

/-- A piece that names an entry: not empty, not `.` or `..`, without a separator in it. -/
structure IsName (c : List α) : Prop where
  ne_nil : c ≠ []
  ne_dot : c ≠ [dot]
  ne_dotdot : c ≠ [dot, dot]
  notMem : sep ∉ c

instance (c : List α) : Decidable (IsName sep dot c) :=
  decidable_of_iff (c ≠ [] ∧ c ≠ [dot] ∧ c ≠ [dot, dot] ∧ sep ∉ c)
    ⟨fun ⟨h₁, h₂, h₃, h₄⟩ => ⟨h₁, h₂, h₃, h₄⟩, fun ⟨h₁, h₂, h₃, h₄⟩ => ⟨h₁, h₂, h₃, h₄⟩⟩

/-- One piece acts on the stack of names. -/
def resolveStep (stack : List (List α)) (c : List α) : List (List α) :=
  if c = [] ∨ c = [dot] then stack
  else if c = [dot, dot] then stack.dropLast
  else stack ++ [c]

/-- A list of pieces acts on the stack of names. -/
def resolve (stack cs : List (List α)) : List (List α) := cs.foldl (resolveStep dot) stack

/-- The names a text leads to, below its lead. -/
def below (s : List α) : List (List α) := resolve dot [] (pieces sep s).tail

/-! ### Pieces -/

theorem pieces_ne_nil (s : List α) : pieces sep s ≠ [] := List.splitOn_ne_nil sep s

@[simp] theorem pieces_nil : pieces sep ([] : List α) = [[]] := List.splitOn_nil sep

@[simp] theorem pieces_append (x y : List α) :
    pieces sep (x ++ sep :: y) = pieces sep x ++ pieces sep y :=
  List.splitOn_append_cons_self x y

@[simp] theorem pieces_cons_sep (y : List α) : pieces sep (sep :: y) = [] :: pieces sep y := by
  have h := pieces_append sep [] y
  rw [pieces_nil] at h
  exact h

theorem pieces_of_notMem {s : List α} (h : sep ∉ s) : pieces sep s = [s] :=
  List.splitOn_eq_singleton h

theorem pieces_append_of_notMem {x : List α} (h : sep ∉ x) (y : List α) :
    pieces sep (x ++ sep :: y) = x :: pieces sep y := by
  rw [pieces_append, pieces_of_notMem sep h]
  rfl

/-- A text is cut at its first separator, if it has one. -/
theorem notMem_or_cut (s : List α) : sep ∉ s ∨ ∃ x y, s = x ++ sep :: y ∧ sep ∉ x := by
  induction s with
  | nil => exact .inl (by simp)
  | cons c s ih =>
      by_cases hc : c = sep
      · subst hc
        exact .inr ⟨[], s, rfl, by simp⟩
      · rcases ih with h | ⟨x, y, rfl, hx⟩
        · exact .inl (by simp [Ne.symm hc, h])
        · exact .inr ⟨c :: x, y, rfl, by simp [Ne.symm hc, hx]⟩

/-- A text is cut at its last separator, if it has one. -/
theorem notMem_or_cut_last (s : List α) : sep ∉ s ∨ ∃ x y, s = x ++ sep :: y ∧ sep ∉ y := by
  induction s with
  | nil => exact .inl (by simp)
  | cons c s ih =>
      rcases ih with h | ⟨x, y, rfl, hy⟩
      · by_cases hc : c = sep
        · subst hc
          exact .inr ⟨[], s, rfl, h⟩
        · exact .inl (by simp [Ne.symm hc, h])
      · exact .inr ⟨c :: x, y, rfl, hy⟩

/-- Induction over a text from separator to separator. -/
theorem cut_induction {motive : List α → Prop} (last : ∀ s, sep ∉ s → motive s)
    (cut : ∀ x y, sep ∉ x → motive y → motive (x ++ sep :: y)) (s : List α) : motive s := by
  rcases notMem_or_cut sep s with h | ⟨x, y, hs, hx⟩
  · exact last s h
  · subst hs
    exact cut x y hx (cut_induction last cut y)
termination_by s.length
decreasing_by
  subst hs
  simp only [List.length_append, List.length_cons]
  omega

theorem notMem_of_mem_pieces {s p : List α} (hp : p ∈ pieces sep s) : sep ∉ p := by
  induction s using cut_induction sep with
  | last s h =>
      rw [pieces_of_notMem sep h, List.mem_singleton] at hp
      rwa [hp]
  | cut x y hx ih =>
      rw [pieces_append_of_notMem sep hx, List.mem_cons] at hp
      rcases hp with rfl | hp
      · exact hx
      · exact ih hp

/-- The pieces of a written path are what it was written from. -/
theorem pieces_render {l : List α} (hl : sep ∉ l) {cs : List (List α)} (hcs : ∀ c ∈ cs, sep ∉ c) :
    pieces sep (l ++ render sep cs) = l :: cs := by
  induction cs generalizing l with
  | nil =>
      rw [render_nil, List.append_nil]
      exact pieces_of_notMem sep hl
  | cons c cs ih =>
      have hc : sep ∉ c := hcs c (by simp)
      have hrest : pieces sep (c ++ render sep cs) = c :: cs :=
        ih hc fun d hd => hcs d (List.mem_cons_of_mem c hd)
      rw [render_cons, List.cons_append, pieces_append_of_notMem sep hl, hrest]

/-- A piece has only characters of the text. -/
theorem subset_of_mem_pieces {s p : List α} (hp : p ∈ pieces sep s) : p ⊆ s := by
  induction s using cut_induction sep with
  | last s h =>
      rw [pieces_of_notMem sep h, List.mem_singleton] at hp
      rw [hp]
      exact List.Subset.refl s
  | cut x y hx ih =>
      rw [pieces_append_of_notMem sep hx, List.mem_cons] at hp
      rcases hp with rfl | hp
      · exact List.subset_append_left p _
      · intro c hc
        exact List.mem_append_right x (List.mem_cons_of_mem sep (ih hp hc))

theorem pieces_eq_lead_cons (s : List α) : pieces sep s = lead sep s :: (pieces sep s).tail := by
  unfold lead
  cases hp : pieces sep s with
  | nil => exact absurd hp (pieces_ne_nil sep s)
  | cons p ps => rfl

/-- A text is its lead and the separators and pieces that follow. -/
theorem eq_lead_append_render (s : List α) :
    s = lead sep s ++ render sep (pieces sep s).tail := by
  induction s using cut_induction sep with
  | last s h => simp [lead, pieces_of_notMem sep h]
  | cut x y hx ih =>
      have hlead : lead sep (x ++ sep :: y) = x := by
        rw [lead, pieces_append_of_notMem sep hx, List.headD_cons]
      have htail : (pieces sep (x ++ sep :: y)).tail = pieces sep y := by
        rw [pieces_append_of_notMem sep hx, List.tail_cons]
      rw [hlead, htail, pieces_eq_lead_cons, render_cons, List.cons_append, ← ih]

theorem tail_pieces_append (x y : List α) :
    (pieces sep (x ++ sep :: y)).tail = (pieces sep x).tail ++ pieces sep y := by
  rw [pieces_append, List.tail_append_of_ne_nil (pieces_ne_nil sep x)]

/-- The pieces between two separators. -/
def inner (s : List α) : List (List α) := (pieces sep s).tail.dropLast

theorem inner_append (x y : List α) :
    inner sep (x ++ sep :: y) = (pieces sep x).tail ++ (pieces sep y).dropLast := by
  show (pieces sep (x ++ sep :: y)).tail.dropLast = _
  rw [tail_pieces_append, List.dropLast_append_of_ne_nil (pieces_ne_nil sep y)]

/-- A piece after the lead stands in the text right after a separator. -/
theorem cut_at_piece {s p : List α} {cs ds : List (List α)}
    (h : (pieces sep s).tail = cs ++ p :: ds) :
    s = (lead sep s ++ render sep cs) ++ sep :: (p ++ render sep ds) := by
  have hs := eq_lead_append_render sep s
  rw [h, render_append, render_cons] at hs
  rw [List.append_assoc]
  exact hs

/-- A piece between two separators, in the text. -/
theorem exists_cut_of_mem_inner {s p : List α} (hp : p ∈ inner sep s) :
    ∃ z w, s = z ++ sep :: (p ++ sep :: w) := by
  have hp' : p ∈ (pieces sep s).tail.dropLast := hp
  obtain ⟨cs, ds, hcut⟩ := List.append_of_mem hp'
  have hne : (pieces sep s).tail ≠ [] := by
    intro h0
    rw [h0] at hp'
    simp at hp'
  have hlast := List.dropLast_append_getLast hne
  rw [hcut, List.append_assoc, List.cons_append] at hlast
  have hs := cut_at_piece sep hlast.symm
  cases ds with
  | nil =>
      rw [List.nil_append, render_cons, render_nil, List.append_nil] at hs
      exact ⟨_, _, hs⟩
  | cons d ds =>
      rw [List.cons_append, render_cons, List.cons_append] at hs
      exact ⟨_, _, hs⟩

/-- The last piece, in the text. -/
theorem mem_inner_or_last {s p : List α} (hp : p ∈ (pieces sep s).tail) :
    p ∈ inner sep s ∨ ∃ z, s = z ++ sep :: p := by
  obtain ⟨cs, ds, hcut⟩ := List.append_of_mem hp
  cases ds with
  | nil =>
      have hs := cut_at_piece sep hcut
      rw [render_nil, List.append_nil] at hs
      exact .inr ⟨_, hs⟩
  | cons d ds =>
      refine .inl ?_
      show p ∈ (pieces sep s).tail.dropLast
      rw [hcut, List.dropLast_append_of_ne_nil (by simp), List.dropLast_cons_of_ne_nil (by simp)]
      simp

@[simp] theorem lead_append (x y : List α) : lead sep (x ++ sep :: y) = lead sep x := by
  rw [lead, lead, pieces_append]
  cases hp : pieces sep x with
  | nil => exact absurd hp (pieces_ne_nil sep x)
  | cons p ps => rfl

@[simp] theorem lead_cons_sep (y : List α) : lead sep (sep :: y) = [] := by
  rw [lead, pieces_cons_sep, List.headD_cons]

theorem notMem_lead (s : List α) : sep ∉ lead sep s := by
  apply notMem_of_mem_pieces sep (s := s)
  rw [pieces_eq_lead_cons]
  exact List.mem_cons_self

/-! ### The stack of names -/

@[simp] theorem resolve_nil (st : List (List α)) : resolve dot st [] = st := rfl

@[simp] theorem resolve_cons (st cs : List (List α)) (c : List α) :
    resolve dot st (c :: cs) = resolve dot (resolveStep dot st c) cs := rfl

@[simp] theorem resolve_append (st cs ds : List (List α)) :
    resolve dot st (cs ++ ds) = resolve dot (resolve dot st cs) ds := by
  unfold resolve
  exact List.foldl_append

@[simp] theorem resolveStep_empty (st : List (List α)) : resolveStep dot st [] = st := by
  simp [resolveStep]

@[simp] theorem resolveStep_dot (st : List (List α)) : resolveStep dot st [dot] = st := by
  simp [resolveStep]

@[simp] theorem resolveStep_dotdot (st : List (List α)) :
    resolveStep dot st [dot, dot] = st.dropLast := by
  simp [resolveStep]

theorem resolveStep_of_ne (st : List (List α)) {c : List α} (h₁ : c ≠ []) (h₂ : c ≠ [dot])
    (h₃ : c ≠ [dot, dot]) : resolveStep dot st c = st ++ [c] := by
  simp [resolveStep, h₁, h₂, h₃]

/-- The stack holds only what was pushed. -/
theorem mem_or_mem_of_mem_resolve {st cs : List (List α)} {c : List α}
    (hc : c ∈ resolve dot st cs) : c ∈ st ∨ c ∈ cs := by
  induction cs generalizing st with
  | nil => exact .inl hc
  | cons d cs ih =>
      rw [resolve_cons] at hc
      rcases ih hc with h | h
      · unfold resolveStep at h
        split_ifs at h with h₁ h₂
        · exact .inl h
        · exact .inl (List.dropLast_subset st h)
        · rw [List.mem_append, List.mem_singleton] at h
          rcases h with h | rfl
          · exact .inl h
          · exact .inr (by simp)
      · exact .inr (List.mem_cons_of_mem d h)

variable {sep dot}

theorem resolve_names {cs : List (List α)} (h : ∀ c ∈ cs, IsName sep dot c)
    (st : List (List α)) : resolve dot st cs = st ++ cs := by
  induction cs generalizing st with
  | nil => simp
  | cons c cs ih =>
      have hc := h c (by simp)
      rw [resolve_cons, resolveStep_of_ne dot st hc.ne_nil hc.ne_dot hc.ne_dotdot,
        ih fun d hd => h d (List.mem_cons_of_mem c hd)]
      simp

/-- What the stack holds is names. -/
theorem isName_of_mem_resolve {st cs : List (List α)} (hst : ∀ c ∈ st, IsName sep dot c)
    (hcs : ∀ c ∈ cs, sep ∉ c) : ∀ c ∈ resolve dot st cs, IsName sep dot c := by
  induction cs generalizing st with
  | nil => exact hst
  | cons c cs ih =>
      rw [resolve_cons]
      refine ih ?_ fun d hd => hcs d (List.mem_cons_of_mem c hd)
      intro d hd
      unfold resolveStep at hd
      split_ifs at hd with h₁ h₂
      · exact hst d hd
      · exact hst d (List.dropLast_subset st hd)
      · rw [List.mem_append, List.mem_singleton] at hd
        rcases hd with hd | rfl
        · exact hst d hd
        · push Not at h₁
          exact ⟨h₁.1, h₁.2, h₂, hcs d (by simp)⟩

variable (sep dot)

theorem mem_pieces_of_mem_below {s c : List α} (hc : c ∈ below sep dot s) : c ∈ pieces sep s := by
  rcases mem_or_mem_of_mem_resolve dot hc with h | h
  · simp at h
  · exact List.mem_of_mem_tail h

/-- **What stands after a separator acts on the stack of what stands before it.** -/
theorem below_append (x y : List α) :
    below sep dot (x ++ sep :: y) = resolve dot (below sep dot x) (pieces sep y) := by
  unfold below
  rw [tail_pieces_append, resolve_append]

theorem below_cons_sep (y : List α) :
    below sep dot (sep :: y) = resolve dot [] (pieces sep y) := by
  unfold below
  rw [pieces_cons_sep, List.tail_cons]

theorem below_of_notMem {s : List α} (h : sep ∉ s) : below sep dot s = [] := by
  unfold below
  rw [pieces_of_notMem sep h]
  rfl

theorem isName_of_mem_below (s : List α) : ∀ c ∈ below sep dot s, IsName sep dot c := by
  refine isName_of_mem_resolve (by simp) fun c hc => ?_
  exact notMem_of_mem_pieces sep (List.mem_of_mem_tail hc)

theorem below_render {l : List α} (hl : sep ∉ l) {cs : List (List α)}
    (hcs : ∀ c ∈ cs, IsName sep dot c) : below sep dot (l ++ render sep cs) = cs := by
  unfold below
  rw [pieces_render sep hl fun c hc => (hcs c hc).notMem, List.tail_cons, resolve_names hcs]
  rfl

end PathComponents
