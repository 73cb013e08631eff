import Mathlib.Data.List.Basic
import Mathlib.Data.List.TakeDrop
import Mathlib.Tactic.Basic

/-!
# Bounded buffers and the strings in them

A buffer is a list of cells, a pointer into it is a position, and every access outside the list
answers `none`.  A string is what stands before the first terminator `nul`.

`Holds nul k b s` says that the buffer has `k` cells and begins with the string `s`.  The operations
that shorten or change a string in place have one rule each: `Holds.put`, `Holds.cut`,
`Holds.close`.

`Arrives` is total correctness for loops that are run with a bound on their rounds: from some bound
on the result is the same and satisfies the postcondition.

`Lifts (Before t)` is the frame rule: what a function does with a buffer it also does when the cells
`t` stand behind the buffer, and it leaves them as they are.
-/

namespace CString

variable {α : Type}

/-! ### Accesses -/

/-- `b[p]`. -/
def read (b : List α) (p : Nat) : Option α := b[p]?

/-- `b[p] = c`. -/
def write (b : List α) (p : Nat) (c : α) : Option (List α) :=
  if p < b.length then some (b.set p c) else none

/-- `memmove(b + dst, b + src, n)`. -/
def move (b : List α) (dst src n : Nat) : Option (List α) :=
  if dst + n ≤ b.length ∧ src + n ≤ b.length then
    some (b.take dst ++ (b.drop src).take n ++ b.drop (dst + n))
  else none

/-- `memcpy(b + p, s, strlen(s))`. -/
def copy (b : List α) (p : Nat) (s : List α) : Option (List α) :=
  if p + s.length ≤ b.length then some (b.take p ++ (s ++ b.drop (p + s.length))) else none

theorem read_append (x : List α) (c : α) (r : List α) : read (x ++ c :: r) x.length = some c := by
  unfold read
  rw [List.getElem?_append_right (Nat.le_refl _), Nat.sub_self]
  rfl

theorem write_append (x : List α) (c d : α) (r : List α) :
    write (x ++ c :: r) x.length d = some (x ++ d :: r) := by
  have hlt : x.length < (x ++ c :: r).length := by
    rw [List.length_append, List.length_cons]
    omega
  rw [write, if_pos hlt, List.set_append_right _ _ (Nat.le_refl _), Nat.sub_self]
  rfl

theorem length_of_write {b b' : List α} {p : Nat} {c : α} (h : write b p c = some b') :
    b'.length = b.length := by
  unfold write at h
  split_ifs at h
  rw [Option.some.injEq] at h
  rw [← h, List.length_set]

theorem length_of_move {b b' : List α} {dst src n : Nat} (h : move b dst src n = some b') :
    b'.length = b.length := by
  unfold move at h
  split_ifs at h with hle
  rw [Option.some.injEq] at h
  rw [← h]
  simp only [List.length_append, List.length_take, List.length_drop]
  omega

/-- Moving what follows a g down over it; the last cells keep what they had. -/
theorem move_append (x g y r : List α) :
    move (x ++ (g ++ (y ++ r))) x.length (x.length + g.length) y.length =
      some (x ++ (y ++ ((g ++ y).drop y.length ++ r))) := by
  have hle : x.length + y.length ≤ (x ++ (g ++ (y ++ r))).length ∧
      x.length + g.length + y.length ≤ (x ++ (g ++ (y ++ r))).length := by
    simp only [List.length_append]
    omega
  have hsrc : (x ++ (g ++ (y ++ r))).drop (x.length + g.length) = y ++ r := by
    rw [← List.append_assoc]
    exact List.drop_left' List.length_append
  have hdst : (x ++ (g ++ (y ++ r))).drop (x.length + y.length) =
      (g ++ y).drop y.length ++ r := by
    rw [List.drop_append, List.drop_eq_nil_of_le (by omega), List.nil_append,
      Nat.add_sub_cancel_left, ← List.append_assoc, List.drop_append_of_le_length]
    rw [List.length_append]
    omega
  rw [move, if_pos hle, List.take_left' rfl, hsrc, List.take_left' rfl, hdst, List.append_assoc]

/-- A copy that fits: the cells up to its end, and no cell more. -/
theorem exists_copy {b s : List α} {p : Nat} (h : p + s.length ≤ b.length) :
    ∃ b', copy b p s = some b' ∧ b'.length = b.length ∧ b'.take (p + s.length) = b.take p ++ s := by
  have htake : (b.take p).length = p := by
    rw [List.length_take]
    omega
  refine ⟨_, if_pos h, ?_, ?_⟩
  · simp only [List.length_append, List.length_drop, htake]
    omega
  · rw [← List.append_assoc]
    apply List.take_left'
    rw [List.length_append, htake]

/-! ### Strings -/

variable {nul : α} {b b' s x y g : List α}

variable (nul) in
/-- The buffer of `k` cells begins with the string `s` and its terminator. -/
structure Holds (k : Nat) (b s : List α) : Prop where
  notMem : nul ∉ s
  size : b.length = k
  cells : ∃ r, b = s ++ nul :: r

variable {k : Nat}

theorem holds_append (h : nul ∉ s) : Holds nul (s.length + 1) (s ++ [nul]) s :=
  ⟨h, List.length_append, [], rfl⟩

theorem Holds.length_lt (h : Holds nul k b s) : s.length < k := by
  obtain ⟨r, rfl⟩ := h.cells
  have hsize := h.size
  rw [List.length_append, List.length_cons] at hsize
  omega

/-- Within the string its own cell is read, at its end the terminator. -/
theorem Holds.read (h : Holds nul k b (x ++ y)) : read b x.length = some (y.head?.getD nul) := by
  obtain ⟨r, rfl⟩ := h.cells
  cases y with
  | nil =>
      rw [List.append_nil, read_append]
      rfl
  | cons c y =>
      rw [List.append_assoc, List.cons_append, read_append]
      rfl

/-- One character for another. -/
theorem Holds.put {c : α} (h : Holds nul k b (x ++ c :: y)) {d : α} (hd : d ≠ nul) :
    ∃ b', write b x.length d = some b' ∧ Holds nul k b' (x ++ d :: y) := by
  obtain ⟨r, rfl⟩ := h.cells
  have hw : write (x ++ c :: y ++ nul :: r) x.length d = some (x ++ d :: (y ++ nul :: r)) := by
    rw [List.append_assoc]
    exact write_append x c d (y ++ nul :: r)
  refine ⟨_, hw, ?_, (length_of_write hw).trans h.size, r, ?_⟩
  · intro hmem
    have hnot := h.notMem
    simp only [List.mem_append, List.mem_cons, not_or] at hmem hnot
    obtain hx | rfl | hy := hmem
    · exact hnot.1 hx
    · exact hd rfl
    · exact hnot.2.2 hy
  · rw [List.append_assoc]
    rfl

/-- A terminator ends the string earlier. -/
theorem Holds.cut (h : Holds nul k b (x ++ y)) :
    ∃ b', write b x.length nul = some b' ∧ Holds nul k b' x := by
  obtain ⟨r, rfl⟩ := h.cells
  have hx : nul ∉ x := fun hmem => h.notMem (List.mem_append_left y hmem)
  obtain ⟨c, r', hcells⟩ : ∃ c r', x ++ y ++ nul :: r = x ++ c :: r' := by
    cases y with
    | nil => exact ⟨nul, r, by rw [List.append_nil]⟩
    | cons c y => exact ⟨c, y ++ nul :: r, by rw [List.append_assoc]; rfl⟩
  have hw : write (x ++ y ++ nul :: r) x.length nul = some (x ++ nul :: r') := by
    rw [hcells, write_append]
  exact ⟨_, hw, hx, (length_of_write hw).trans h.size, r', rfl⟩

/-- The rest of the string is moved down over a part of it, with its terminator. -/
theorem Holds.close (h : Holds nul k b (x ++ (g ++ y))) {a n : Nat}
    (ha : a = x.length + g.length) (hn : n = y.length + 1) :
    ∃ b', move b x.length a n = some b' ∧ Holds nul k b' (x ++ y) := by
  obtain ⟨r, rfl⟩ := h.cells
  subst ha hn
  have hmove := move_append x g (y ++ [nul]) r
  rw [List.length_append, List.length_singleton] at hmove
  have hcells : x ++ (g ++ y) ++ nul :: r = x ++ (g ++ (y ++ [nul] ++ r)) := by simp
  rw [← hcells] at hmove
  refine ⟨_, hmove, ?_, (length_of_move hmove).trans h.size, ?_⟩
  · intro hmem
    have hnot := h.notMem
    simp only [List.mem_append, not_or] at hmem hnot
    obtain hx | hy := hmem
    · exact hnot.1 hx
    · exact hnot.2.2 hy
  · exact ⟨(g ++ (y ++ [nul])).drop (y.length + 1) ++ r, by simp⟩

/-! ### Reading strings -/

section Reading

variable [DecidableEq α]

variable (nul) in
/-- The string that begins the buffer, when there is a terminator. -/
def string : List α → Option (List α)
  | [] => none
  | c :: cs => if c = nul then some [] else (string cs).map fun s => c :: s

variable (nul) in
/-- The string at a pointer. -/
def stringAt (b : List α) (p : Nat) : Option (List α) := string nul (b.drop p)

variable (nul) in
/-- `strlen(b + p)`. -/
def strlen (b : List α) (p : Nat) : Option Nat := (stringAt nul b p).map List.length

theorem string_append (h : nul ∉ s) (r : List α) : string nul (s ++ nul :: r) = some s := by
  induction s with
  | nil => exact if_pos rfl
  | cons c s ih =>
      have hc : c ≠ nul := by
        intro heq
        exact h (by simp [heq])
      have hs : nul ∉ s := fun hmem => h (List.mem_cons_of_mem c hmem)
      rw [List.cons_append, string, if_neg hc, ih hs]
      rfl

theorem Holds.stringAt (h : Holds nul k b (x ++ y)) : stringAt nul b x.length = some y := by
  obtain ⟨r, rfl⟩ := h.cells
  have hy : nul ∉ y := fun hmem => h.notMem (List.mem_append_right x hmem)
  unfold CString.stringAt
  rw [List.append_assoc, List.drop_left' rfl, string_append hy]

theorem Holds.strlen (h : Holds nul k b (x ++ y)) : strlen nul b x.length = some y.length := by
  unfold CString.strlen
  rw [h.stringAt]
  rfl

end Reading

/-! ### Loops with a bound on their rounds -/

variable {β γ : Type}

/-- From some bound on, the result is the same and satisfies `P`. -/
def Arrives (F : Nat → Option β) (P : β → Prop) : Prop :=
  ∃ N v, (∀ n, N ≤ n → F n = some v) ∧ P v

theorem Arrives.of_some {f : Option β} {P : β → Prop} (h : ∃ v, f = some v ∧ P v) :
    Arrives (fun _ => f) P := by
  obtain ⟨v, hf, hv⟩ := h
  exact ⟨0, v, fun _ _ => hf, hv⟩

theorem Arrives.mono {F : Nat → Option β} {P Q : β → Prop} (h : Arrives F P)
    (hPQ : ∀ v, P v → Q v) : Arrives F Q := by
  obtain ⟨N, v, hF, hv⟩ := h
  exact ⟨N, v, hF, hPQ v hv⟩

theorem Arrives.bind {F : Nat → Option β} {G : Nat → β → Option γ} {P : β → Prop}
    {Q : γ → Prop} (h : Arrives F P) (hG : ∀ v, P v → Arrives (fun n => G n v) Q) :
    Arrives (fun n => F n >>= G n) Q := by
  obtain ⟨N, v, hF, hv⟩ := h
  obtain ⟨M, w, hw, hQ⟩ := hG v hv
  refine ⟨max N M, w, ?_, hQ⟩
  intro n hn
  show (F n >>= G n) = some w
  rw [hF n (by omega)]
  exact hw n (by omega)

/-- The last round of a loop. -/
theorem Arrives.last {F : Nat → Option β} {P : β → Prop} {v : β} (h : P v)
    (hF : ∀ n, F (n + 1) = some v) : Arrives F P := by
  refine ⟨1, v, ?_, h⟩
  intro n hn
  cases n with
  | zero => omega
  | succ n => exact hF n

/-- A round of a loop. -/
theorem Arrives.round {F G : Nat → Option β} {P : β → Prop} (h : Arrives G P)
    (hFG : ∀ n, F (n + 1) = G n) : Arrives F P := by
  obtain ⟨N, v, hG, hv⟩ := h
  refine ⟨N + 1, v, ?_, hv⟩
  intro n hn
  cases n with
  | zero => omega
  | succ n =>
      rw [hFG]
      exact hG n (by omega)

/-- Loops that agree from their first round on. -/
theorem Arrives.of_agree {F G : Nat → Option β} {P : β → Prop} (h : Arrives G P)
    (hFG : ∀ n, F (n + 1) = G (n + 1)) : Arrives F P := by
  obtain ⟨N, v, hG, hv⟩ := h
  refine ⟨N + 1, v, ?_, hv⟩
  intro n hn
  cases n with
  | zero => omega
  | succ n =>
      rw [hFG]
      exact hG (n + 1) (by omega)

/-! ### Cells behind the buffer -/

/-- When `f` has a result, `g` has one that is related to it. -/
def Lifts (R : β → γ → Prop) (f : Option β) (g : Option γ) : Prop :=
  ∀ v, f = some v → ∃ w, g = some w ∧ R v w

/-- The cells `t` stand behind the buffer `b`. -/
def Before (t b b' : List α) : Prop := b' = b ++ t

theorem Lifts.ret {R : β → γ → Prop} {v : β} {w : γ} (h : R v w) : Lifts R (some v) (some w) := by
  intro u hu
  rw [Option.some.injEq] at hu
  exact ⟨w, rfl, hu ▸ h⟩

theorem Lifts.none {R : β → γ → Prop} {g : Option γ} : Lifts R Option.none g :=
  fun _ h => absurd h (by simp)

theorem Lifts.bind {β' γ' : Type} {R : β → γ → Prop} {Q : β' → γ' → Prop} {f : Option β}
    {g : Option γ} {F : β → Option β'} {G : γ → Option γ'} (h : Lifts R f g)
    (hFG : ∀ v w, R v w → Lifts Q (F v) (G w)) : Lifts Q (f >>= F) (g >>= G) := by
  intro u hu
  cases hf : f with
  | none =>
      rw [hf] at hu
      exact absurd hu (by simp)
  | some v =>
      obtain ⟨w, hg, hvw⟩ := h v hf
      rw [hf] at hu
      obtain ⟨x, hx, hux⟩ := hFG v w hvw u hu
      exact ⟨x, by rw [hg]; exact hx, hux⟩

/-- Reading gives the same. -/
theorem Lifts.bind_eq {β' γ' : Type} {Q : β' → γ' → Prop} {f g : Option β}
    {F : β → Option β'} {G : β → Option γ'} (h : Lifts Eq f g) (hFG : ∀ v, Lifts Q (F v) (G v)) :
    Lifts Q (f >>= F) (g >>= G) :=
  h.bind fun v _ hvw => hvw ▸ hFG v

variable (t : List α)

theorem read_lifts (b : List α) (p : Nat) : Lifts Eq (read b p) (read (b ++ t) p) := by
  intro c hc
  unfold read at hc ⊢
  have hlt := (List.getElem?_eq_some_iff.mp hc).1
  rw [List.getElem?_append_left hlt]
  exact ⟨c, hc, rfl⟩

theorem write_lifts (b : List α) (p : Nat) (c : α) :
    Lifts (Before t) (write b p c) (write (b ++ t) p c) := by
  intro b' hb'
  unfold write at hb' ⊢
  split_ifs at hb' with hlt
  rw [Option.some.injEq] at hb'
  rw [if_pos (by rw [List.length_append]; omega)]
  refine ⟨_, rfl, ?_⟩
  rw [Before, ← hb', List.set_append_left _ _ hlt]

theorem move_lifts (b : List α) (dst src n : Nat) :
    Lifts (Before t) (move b dst src n) (move (b ++ t) dst src n) := by
  intro b' hb'
  unfold move at hb' ⊢
  split_ifs at hb' with hle
  rw [Option.some.injEq] at hb'
  rw [if_pos (by rw [List.length_append]; omega)]
  refine ⟨_, rfl, ?_⟩
  rw [Before, ← hb', List.take_append_of_le_length (by omega),
    List.drop_append_of_le_length (by omega), List.take_append_of_le_length (by
      rw [List.length_drop]
      omega), List.drop_append_of_le_length (by omega)]
  simp only [List.append_assoc]

theorem stringAt_lifts [DecidableEq α] (nul : α) (b : List α) (p : Nat) :
    Lifts Eq (stringAt nul b p) (stringAt nul (b ++ t) p) := by
  have hstring : ∀ c : List α, Lifts Eq (string nul c) (string nul (c ++ t)) := by
    intro c
    induction c with
    | nil => exact Lifts.none
    | cons d c ih =>
        intro s hs
        rw [string] at hs
        rw [List.cons_append, string]
        by_cases hd : d = nul
        · rw [if_pos hd] at hs ⊢
          exact ⟨s, hs, rfl⟩
        · rw [if_neg hd, Option.map_eq_some_iff] at hs
          obtain ⟨s', hs', rfl⟩ := hs
          obtain ⟨w, hw, rfl⟩ := ih s' hs'
          rw [if_neg hd, hw]
          exact ⟨_, rfl, rfl⟩
  unfold stringAt
  by_cases hp : p ≤ b.length
  · rw [List.drop_append_of_le_length hp]
    exact hstring (b.drop p)
  · rw [List.drop_eq_nil_of_le (by omega)]
    exact Lifts.none

theorem strlen_lifts [DecidableEq α] (nul : α) (b : List α) (p : Nat) :
    Lifts Eq (strlen nul b p) (strlen nul (b ++ t) p) := by
  intro n hn
  unfold strlen at hn ⊢
  rw [Option.map_eq_some_iff] at hn
  obtain ⟨s, hs, rfl⟩ := hn
  obtain ⟨w, hw, rfl⟩ := stringAt_lifts t nul b p s hs
  rw [hw]
  exact ⟨_, rfl, rfl⟩

variable {t}

/-- The frame rule for loops. -/
theorem Arrives.behind {F G : Nat → Option (List α)} {P : List α → Prop} (h : Arrives F P)
    (hFG : ∀ n, Lifts (Before t) (F n) (G n)) : Arrives G fun b => ∃ a, P a ∧ b = a ++ t := by
  obtain ⟨N, v, hF, hv⟩ := h
  refine ⟨N, v ++ t, ?_, v, hv, rfl⟩
  intro n hn
  obtain ⟨w, hw, rfl⟩ := hFG n v (hF n hn)
  exact hw

end CString
