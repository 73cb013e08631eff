import Mathlib.Logic.Function.Basic
import Mathlib.Data.List.Basic
import Mathlib.Data.List.Induction
import Mathlib.Tactic.Basic

/-!
# Graphs with labelled edges, and the rooted trees among them

A `Graph` gives every node at most one successor for each label.  `walk` follows a list of labels.
The file has the frame rules for a change of one edge (`walk_eq_of_not_uses`) and of one node
(`Station`), the rooted trees with the facts that follow from their definition (`unique_path`,
`acyclic`, `named_once`), and the three changes that keep a tree a tree: a new leaf, a removed leaf,
an edge with a new label.
-/

namespace NameGraph

variable {N L : Type}

/-- A graph: every node has at most one successor for each label. -/
abbrev Graph (N L : Type) := N → L → Option N

/-- Follow the labels. -/
def walk (G : Graph N L) : N → List L → Option N
  | a, [] => some a
  | a, l :: ls => (G a l).bind fun b => walk G b ls

variable {G G' : Graph N L} {a b c : N} {l l' : L} {xs ys : List L}

@[simp] theorem walk_nil (G : Graph N L) (a : N) : walk G a [] = some a := rfl

@[simp] theorem walk_cons (G : Graph N L) (a : N) (l : L) (ls : List L) :
    walk G a (l :: ls) = (G a l).bind fun b => walk G b ls := rfl

theorem walk_append (G : Graph N L) (a : N) (xs ys : List L) :
    walk G a (xs ++ ys) = (walk G a xs).bind fun b => walk G b ys := by
  induction xs generalizing a with
  | nil => rfl
  | cons l xs ih =>
      rw [List.cons_append, walk_cons, walk_cons, Option.bind_assoc]
      congr 1
      funext b
      exact ih b

theorem walk_concat (G : Graph N L) (a : N) (xs : List L) (l : L) :
    walk G a (xs ++ [l]) = (walk G a xs).bind fun b => G b l := by
  rw [walk_append]
  congr 1
  funext b
  rw [walk_cons]
  cases G b l <;> rfl

theorem walk_concat_eq_some :
    walk G a (xs ++ [l]) = some c ↔ ∃ b, walk G a xs = some b ∧ G b l = some c := by
  rw [walk_concat, Option.bind_eq_some_iff]

theorem walk_append_eq_some :
    walk G a (xs ++ ys) = some c ↔ ∃ b, walk G a xs = some b ∧ walk G b ys = some c := by
  rw [walk_append, Option.bind_eq_some_iff]

/-! ### A change of one edge -/

/-- The walk along `q` takes the edge of `b` with the label `l`. -/
def Uses (G : Graph N L) (a : N) (q : List L) (b : N) (l : L) : Prop :=
  ∃ xs ys, q = xs ++ l :: ys ∧ walk G a xs = some b

/-- Graphs that agree except for the edge of `b` with the label `l`. -/
def AgreeOff (G G' : Graph N L) (b : N) (l : L) : Prop :=
  ∀ a m, ¬ (a = b ∧ m = l) → G' a m = G a m

theorem AgreeOff.symm (h : AgreeOff G G' b l) : AgreeOff G' G b l :=
  fun a m hne => (h a m hne).symm

/-- **The frame rule.**  A walk that does not take the changed edge is not changed. -/
theorem walk_eq_of_not_uses (h : AgreeOff G G' b l) (q : List L) (a : N)
    (hq : ¬ Uses G a q b l) : walk G' a q = walk G a q := by
  induction q generalizing a with
  | nil => rfl
  | cons m q ih =>
      have hne : ¬ (a = b ∧ m = l) := by
        rintro ⟨rfl, rfl⟩
        exact hq ⟨[], q, rfl, rfl⟩
      rw [walk_cons, walk_cons, h a m hne]
      cases hg : G a m with
      | none => rfl
      | some d =>
          show walk G' d q = walk G d q
          apply ih
          rintro ⟨xs, ys, rfl, hxs⟩
          refine hq ⟨m :: xs, ys, rfl, ?_⟩
          rw [walk_cons, hg]
          exact hxs

/-- A walk that arrives and does not take the changed edge still arrives, whatever is new. -/
theorem walk_mono_off (h : ∀ a m d, ¬ (a = b ∧ m = l) → G a m = some d → G' a m = some d)
    {q : List L} (hu : ¬ Uses G a q b l) (hq : walk G a q = some c) : walk G' a q = some c := by
  induction q generalizing a with
  | nil => exact hq
  | cons m q ih =>
      rw [walk_cons, Option.bind_eq_some_iff] at hq
      obtain ⟨d, hd, hq⟩ := hq
      have hne : ¬ (a = b ∧ m = l) := by
        rintro ⟨rfl, rfl⟩
        exact hu ⟨[], q, rfl, rfl⟩
      rw [walk_cons, h a m d hne hd]
      refine ih ?_ hq
      rintro ⟨xs, ys, rfl, hxs⟩
      refine hu ⟨m :: xs, ys, rfl, ?_⟩
      rw [walk_cons, hd]
      exact hxs

/-- More edges, more walks. -/
theorem walk_mono (h : ∀ a l b, G a l = some b → G' a l = some b) {q : List L}
    (hq : walk G a q = some c) : walk G' a q = some c := by
  induction q generalizing a with
  | nil => exact hq
  | cons m q ih =>
      rw [walk_cons, Option.bind_eq_some_iff] at hq
      obtain ⟨d, hd, hq⟩ := hq
      rw [walk_cons, h a m d hd]
      exact ih hq

/-- A walk that is lost with one edge took it. -/
theorem uses_of_lost (h : ∀ a m d, ¬ (a = b ∧ m = l) → G a m = some d → G' a m = some d)
    {q : List L} (hq : walk G a q = some c) (hlost : walk G' a q ≠ some c) : Uses G a q b l := by
  by_contra hu
  exact hlost (walk_mono_off h hu hq)

/-- A walk that took an edge went on from there. -/
theorem walk_of_uses {q : List L} (hu : Uses G a q b l) (hq : walk G a q = some c) :
    ∃ ys, walk G b (l :: ys) = some c := by
  obtain ⟨xs, ys, rfl, hxs⟩ := hu
  rw [walk_append, hxs, Option.bind_some] at hq
  exact ⟨ys, hq⟩

/-- A walk that takes an edge takes it a first time. -/
theorem Uses.first {q : List L} (hu : Uses G a q b l) :
    ∃ xs ys, q = xs ++ l :: ys ∧ walk G a xs = some b ∧ ¬ Uses G a xs b l := by
  obtain ⟨xs, ys, hq, hxs⟩ := hu
  induction hn : xs.length using Nat.strongRecOn generalizing xs ys with
  | ind n ih =>
      by_cases hagain : Uses G a xs b l
      · obtain ⟨zs, ws, hcut, hzs⟩ := hagain
        have hshort : zs.length < n := by
          rw [← hn, hcut, List.length_append, List.length_cons]
          omega
        apply ih zs.length hshort zs (ws ++ l :: ys) _ hzs rfl
        rw [hq, hcut, List.append_assoc, List.cons_append]
      · exact ⟨xs, ys, hq, hxs, hagain⟩

/-- What is reached is new, or was reached before, if every edge is an old one from an old node or
leads to such a node. -/
theorem reached_or_new {P : N → Prop} {r : N} (h : ∀ a l b, G' a l = some b →
    P b ∨ (∃ ys, walk G r ys = some b) ∨ (G a l = some b ∧ ¬ P a)) {q : List L}
    (hq : walk G' r q = some b) : P b ∨ ∃ ys, walk G r ys = some b := by
  induction q using List.reverseRecOn generalizing b with
  | nil => exact .inr ⟨[], hq⟩
  | append_singleton q l ih =>
      rw [walk_concat_eq_some] at hq
      obtain ⟨a, ha, hl⟩ := hq
      obtain hb | hb | ⟨hold, hnew⟩ := h a l b hl
      · exact .inl hb
      · exact .inr hb
      · obtain hpa | ⟨ys, hys⟩ := ih ha
        · exact absurd hpa hnew
        · exact .inr ⟨ys ++ [l], walk_concat_eq_some.mpr ⟨a, hys, hold⟩⟩

/-! ### Rooted trees -/

/-- The edges join nodes, name no node twice and never the root, and every node is reached. -/
structure RootedTree (G : Graph N L) (root : N) (node : N → Prop) : Prop where
  source : ∀ {a l b}, G a l = some b → node a
  target : ∀ {a l b}, G a l = some b → node b
  once : ∀ {a l a' l' b}, G a l = some b → G a' l' = some b → a' = a ∧ l' = l
  root_unnamed : ∀ {a l}, G a l ≠ some root
  root_node : node root
  reached : ∀ {b}, node b → ∃ q, walk G root q = some b

variable {root : N} {node : N → Prop}

/-- A node has one path from the root. -/
theorem RootedTree.unique_path (h : RootedTree G root node) {b : N} {xs ys : List L}
    (hx : walk G root xs = some b) (hy : walk G root ys = some b) : xs = ys := by
  induction xs using List.reverseRecOn generalizing ys b with
  | nil =>
      rcases List.eq_nil_or_concat' ys with rfl | ⟨ys, m, rfl⟩
      · rfl
      · rw [walk_concat_eq_some] at hy
        obtain ⟨d, -, hd⟩ := hy
        rw [walk_nil, Option.some.injEq] at hx
        subst hx
        exact absurd hd h.root_unnamed
  | append_singleton xs l ih =>
      rw [walk_concat_eq_some] at hx
      obtain ⟨d, hxd, hd⟩ := hx
      rcases List.eq_nil_or_concat' ys with rfl | ⟨ys, m, rfl⟩
      · rw [walk_nil, Option.some.injEq] at hy
        subst hy
        exact absurd hd h.root_unnamed
      · rw [walk_concat_eq_some] at hy
        obtain ⟨e, hye, he⟩ := hy
        obtain ⟨rfl, rfl⟩ := h.once hd he
        rw [ih hxd hye]

/-- A node other than the root is named by exactly one edge. -/
theorem RootedTree.named_once (h : RootedTree G root node) {b : N} (hb : node b) (hne : b ≠ root) :
    ∃ a l, G a l = some b ∧ ∀ a' l', G a' l' = some b → a' = a ∧ l' = l := by
  obtain ⟨q, hq⟩ := h.reached hb
  rcases List.eq_nil_or_concat' q with rfl | ⟨q, m, rfl⟩
  · rw [walk_nil, Option.some.injEq] at hq
    exact absurd hq.symm hne
  · rw [walk_concat_eq_some] at hq
    obtain ⟨a, -, ha⟩ := hq
    exact ⟨a, m, ha, fun a' l' h' => h.once ha h'⟩

/-- No walk leads from a node back to itself. -/
theorem RootedTree.acyclic (h : RootedTree G root node) {a : N} {q : List L} (hq : q ≠ []) :
    walk G a q ≠ some a := by
  intro hcycle
  have ha : node a := by
    cases q with
    | nil => exact absurd rfl hq
    | cons m q =>
        rw [walk_cons, Option.bind_eq_some_iff] at hcycle
        obtain ⟨d, hd, -⟩ := hcycle
        exact h.source hd
  obtain ⟨p, hp⟩ := h.reached ha
  have hpq : walk G root (p ++ q) = some a := by
    rw [walk_append, hp]
    exact hcycle
  have heq := h.unique_path hp hpq
  exact hq (List.self_eq_append_right.mp heq)

/-- A node that has an edge for every way there reaches what the other graph reaches. -/
theorem reached_of_edges (h : ∀ a l b, G a l = some b → ∃ l', G' a l' = some b) {q : List L}
    (hq : walk G root q = some b) : ∃ q', walk G' root q' = some b := by
  induction q using List.reverseRecOn generalizing b with
  | nil => exact ⟨[], hq⟩
  | append_singleton q l ih =>
      rw [walk_concat_eq_some] at hq
      obtain ⟨a, ha, hl⟩ := hq
      obtain ⟨q', hq'⟩ := ih ha
      obtain ⟨l', hl'⟩ := h a l b hl
      exact ⟨q' ++ [l'], walk_concat_eq_some.mpr ⟨a, hq', hl'⟩⟩

/-! ### Changes at one node -/

/-- Graphs that agree except at the edges of `a`. -/
def AgreeAway (G G' : Graph N L) (a : N) : Prop := ∀ b l, b ≠ a → G' b l = G b l

theorem AgreeAway.symm (h : AgreeAway G G' a) : AgreeAway G' G a :=
  fun b l hne => (h b l hne).symm

/-- The walk along `q` goes on from `a`. -/
def Leaves (G : Graph N L) (r : N) (q : List L) (a : N) : Prop :=
  ∃ xs l ys, q = xs ++ l :: ys ∧ walk G r xs = some a

/-- A walk that does not go on from the changed node is not changed. -/
theorem walk_eq_of_not_leaves (h : AgreeAway G G' a) (q : List L) (r : N)
    (hq : ¬ Leaves G r q a) : walk G' r q = walk G r q := by
  induction q generalizing r with
  | nil => rfl
  | cons m q ih =>
      have hne : r ≠ a := by
        intro heq
        exact hq ⟨[], m, q, rfl, by rw [walk_nil, heq]⟩
      rw [walk_cons, walk_cons, h r m hne]
      cases hg : G r m with
      | none => rfl
      | some d =>
          show walk G' d q = walk G d q
          apply ih
          rintro ⟨xs, l, ys, hxs, hwalk⟩
          refine hq ⟨m :: xs, l, ys, by rw [hxs, List.cons_append], ?_⟩
          rw [walk_cons, hg]
          exact hwalk

/-- A node with exactly one path from `r`. -/
structure Station (G : Graph N L) (r : N) (path : List L) (a : N) : Prop where
  reached : walk G r path = some a
  only : ∀ xs, walk G r xs = some a → xs = path

variable {r : N} {path : List L}

/-- No walk leads back to it. -/
theorem Station.no_return (s : Station G r path a) {q : List L} (hq : q ≠ []) :
    walk G a q ≠ some a := by
  intro hback
  have hlong : walk G r (path ++ q) = some a := walk_append_eq_some.mpr ⟨a, s.reached, hback⟩
  exact hq (List.append_right_eq_self.mp (s.only _ hlong))

theorem Station.not_leaves (s : Station G r path a) : ¬ Leaves G r path a := by
  rintro ⟨xs, l, ys, hpath, hxs⟩
  have hlen := congrArg List.length hpath
  rw [s.only xs hxs, List.length_append, List.length_cons] at hlen
  omega

/-- Behind a station nothing changes. -/
theorem Station.behind (s : Station G r path a) (h : AgreeAway G G' a) (hc : G a l = some c)
    (ys : List L) : walk G' c ys = walk G c ys := by
  refine walk_eq_of_not_leaves h ys c ?_
  rintro ⟨xs, m, zs, -, hxs⟩
  refine s.no_return (q := l :: xs) (by simp) ?_
  rw [walk_cons, hc]
  exact hxs

/-- The walks that pass a station go on along its new edges. -/
theorem Station.through (s : Station G r path a) (h : AgreeAway G G' a) (l : L) (ys : List L) :
    walk G' r (path ++ l :: ys) = (G' a l).bind fun c => walk G' c ys := by
  rw [walk_append, walk_eq_of_not_leaves h path r s.not_leaves, s.reached]
  rfl

/-- The walks that do not pass it do not change. -/
theorem Station.aside (s : Station G r path a) (h : AgreeAway G G' a) {q : List L}
    (hq : ∀ l ys, q ≠ path ++ l :: ys) : walk G' r q = walk G r q := by
  refine walk_eq_of_not_leaves h q r ?_
  rintro ⟨xs, l, ys, heq, hxs⟩
  rw [s.only xs hxs] at heq
  exact hq l ys heq

/-- **New edges to old successors** leave a station what it is. -/
theorem Station.relink (s : Station G r path a) (h : AgreeAway G G' a)
    (hedges : ∀ l c, G' a l = some c → ∃ l', G a l' = some c) : Station G' r path a := by
  refine ⟨(walk_eq_of_not_leaves h path r s.not_leaves).trans s.reached, ?_⟩
  intro q hq
  by_cases hleaves : Leaves G' r q a
  · obtain ⟨xs, l, ys, rfl, hxs⟩ := hleaves
    rw [walk_append, hxs, Option.bind_some, walk_cons, Option.bind_eq_some_iff] at hq
    obtain ⟨c, hc, hback⟩ := hq
    obtain ⟨l', hl'⟩ := hedges l c hc
    rw [s.behind h hl'] at hback
    refine absurd ?_ (s.no_return (q := l' :: ys) (by simp))
    rw [walk_cons, hl']
    exact hback
  · rw [← walk_eq_of_not_leaves h.symm q r hleaves] at hq
    exact s.only q hq

/-! ### Changes that keep a tree -/

/-- **A new leaf** under a free label. -/
theorem RootedTree.insert_leaf (h : RootedTree G root node) (hoff : AgreeOff G G' a l)
    (hnew : G' a l = some c) (hfree : G a l = none) (ha : node a) (hc : ¬ node c) :
    RootedTree G' root (fun b => node b ∨ b = c) := by
  have hkeep : ∀ x m y, G x m = some y → G' x m = some y := by
    intro x m y hxy
    have hne : ¬ (x = a ∧ m = l) := by
      rintro ⟨rfl, rfl⟩
      rw [hfree] at hxy
      exact absurd hxy (by simp)
    rw [hoff x m hne, hxy]
  have hsplit : ∀ {x m y}, G' x m = some y → (x = a ∧ m = l ∧ y = c) ∨ G x m = some y := by
    intro x m y hxy
    by_cases hxm : x = a ∧ m = l
    · obtain ⟨rfl, rfl⟩ := hxm
      rw [hnew, Option.some.injEq] at hxy
      exact .inl ⟨rfl, rfl, hxy.symm⟩
    · rw [hoff x m hxm] at hxy
      exact .inr hxy
  refine ⟨?_, ?_, ?_, ?_, .inl h.root_node, ?_⟩
  · intro x m y hxy
    rcases hsplit hxy with ⟨rfl, -, -⟩ | hxy
    · exact .inl ha
    · exact .inl (h.source hxy)
  · intro x m y hxy
    rcases hsplit hxy with ⟨-, -, rfl⟩ | hxy
    · exact .inr rfl
    · exact .inl (h.target hxy)
  · intro x m x' m' y hxy hxy'
    rcases hsplit hxy with ⟨rfl, rfl, rfl⟩ | hxy <;> rcases hsplit hxy' with ⟨rfl, rfl, hy⟩ | hxy'
    · exact ⟨rfl, rfl⟩
    · exact absurd (h.target hxy') hc
    · exact absurd (hy ▸ h.target hxy) hc
    · exact h.once hxy hxy'
  · intro x m hxm
    rcases hsplit hxm with ⟨-, -, rfl⟩ | hxm
    · exact hc h.root_node
    · exact h.root_unnamed hxm
  · rintro b (hb | rfl)
    · obtain ⟨q, hq⟩ := h.reached hb
      exact ⟨q, walk_mono hkeep hq⟩
    · obtain ⟨q, hq⟩ := h.reached ha
      exact ⟨q ++ [l], walk_concat_eq_some.mpr ⟨a, walk_mono hkeep hq, hnew⟩⟩

/-- **A removed leaf.** -/
theorem RootedTree.delete_leaf (h : RootedTree G root node) (hoff : AgreeOff G G' a l)
    (hgone : G' a l = none) (hac : G a l = some c) (hleaf : ∀ m, G c m = none) :
    RootedTree G' root (fun b => node b ∧ b ≠ c) := by
  have hsplit : ∀ {x m y}, G' x m = some y → ¬ (x = a ∧ m = l) ∧ G x m = some y := by
    intro x m y hxy
    have hne : ¬ (x = a ∧ m = l) := by
      rintro ⟨rfl, rfl⟩
      rw [hgone] at hxy
      exact absurd hxy (by simp)
    rw [hoff x m hne] at hxy
    exact ⟨hne, hxy⟩
  refine ⟨?_, ?_, ?_, ?_, ⟨h.root_node, ?_⟩, ?_⟩
  · intro x m y hxy
    refine ⟨h.source (hsplit hxy).2, ?_⟩
    rintro rfl
    have := (hsplit hxy).2
    rw [hleaf] at this
    exact absurd this (by simp)
  · intro x m y hxy
    refine ⟨h.target (hsplit hxy).2, ?_⟩
    rintro rfl
    exact (hsplit hxy).1 (h.once hac (hsplit hxy).2)
  · intro x m x' m' y hxy hxy'
    exact h.once (hsplit hxy).2 (hsplit hxy').2
  · intro x m hxm
    exact h.root_unnamed (hsplit hxm).2
  · rintro rfl
    exact h.root_unnamed hac
  · rintro b ⟨hb, hbc⟩
    obtain ⟨q, hq⟩ := h.reached hb
    refine ⟨q, ?_⟩
    rw [walk_eq_of_not_uses hoff q root]
    · exact hq
    · -- a walk that takes the edge ends at the leaf
      rintro ⟨xs, ys, rfl, hxs⟩
      rw [walk_append, hxs] at hq
      simp only [Option.bind_some, walk_cons, hac] at hq
      cases ys with
      | nil =>
          rw [walk_nil, Option.some.injEq] at hq
          exact hbc hq.symm
      | cons m ys =>
          rw [walk_cons, hleaf] at hq
          exact absurd hq (by simp)

/-- **A new label** for an edge, free or its own. -/
theorem RootedTree.relabel (h : RootedTree G root node) (hac : G a l = some c)
    (hnew : G' a l' = some c) (hgone : l' ≠ l → G' a l = none)
    (hoff : ∀ x m, ¬ (x = a ∧ (m = l ∨ m = l')) → G' x m = G x m)
    (hfree : l' ≠ l → G a l' = none) : RootedTree G' root node := by
  have hsplit : ∀ {x m y}, G' x m = some y →
      (x = a ∧ m = l' ∧ y = c) ∨ (¬ (x = a ∧ m = l') ∧ ¬ (x = a ∧ m = l) ∧ G x m = some y) := by
    intro x m y hxy
    by_cases hx : x = a ∧ m = l'
    · obtain ⟨rfl, rfl⟩ := hx
      rw [hnew, Option.some.injEq] at hxy
      exact .inl ⟨rfl, rfl, hxy.symm⟩
    · have hl : ¬ (x = a ∧ m = l) := by
        rintro ⟨rfl, rfl⟩
        have hne : l' ≠ m := fun h0 => hx ⟨rfl, h0.symm⟩
        rw [hgone hne] at hxy
        exact absurd hxy (by simp)
      rw [hoff x m] at hxy
      · exact .inr ⟨hx, hl, hxy⟩
      · rintro ⟨rfl, rfl | rfl⟩
        · exact hl ⟨rfl, rfl⟩
        · exact hx ⟨rfl, rfl⟩
  refine ⟨?_, ?_, ?_, ?_, h.root_node, ?_⟩
  · intro x m y hxy
    rcases hsplit hxy with ⟨rfl, -, -⟩ | ⟨-, -, hxy⟩
    · exact h.source hac
    · exact h.source hxy
  · intro x m y hxy
    rcases hsplit hxy with ⟨-, -, rfl⟩ | ⟨-, -, hxy⟩
    · exact h.target hac
    · exact h.target hxy
  · intro x m x' m' y hxy hxy'
    rcases hsplit hxy with ⟨rfl, rfl, rfl⟩ | ⟨-, hl, hxy⟩ <;>
      rcases hsplit hxy' with ⟨rfl, rfl, hy⟩ | ⟨-, hl', hxy'⟩
    · exact ⟨rfl, rfl⟩
    · exact absurd (h.once hac hxy') hl'
    · subst hy
      exact absurd (h.once hac hxy) hl
    · exact h.once hxy hxy'
  · intro x m hxm
    rcases hsplit hxm with ⟨-, -, rfl⟩ | ⟨-, -, hxm⟩
    · exact h.root_unnamed hac
    · exact h.root_unnamed hxm
  · intro b hb
    obtain ⟨q, hq⟩ := h.reached hb
    refine reached_of_edges ?_ hq
    intro x m y hxy
    by_cases hx : x = a ∧ m = l
    · obtain ⟨rfl, rfl⟩ := hx
      rw [hac, Option.some.injEq] at hxy
      exact ⟨l', hxy ▸ hnew⟩
    · refine ⟨m, ?_⟩
      rw [hoff x m, hxy]
      rintro ⟨rfl, rfl | rfl⟩
      · exact hx ⟨rfl, rfl⟩
      · have hne : m ≠ l := fun h0 => hx ⟨rfl, h0⟩
        rw [hfree hne] at hxy
        exact absurd hxy (by simp)

end NameGraph
