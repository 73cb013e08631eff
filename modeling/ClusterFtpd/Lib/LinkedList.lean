import Mathlib.Data.List.Basic
import Mathlib.Data.List.Nodup
import Mathlib.Logic.Function.Basic
import Mathlib.Tactic.Basic

/-!
# Doubly linked lists in a store of cells

A store gives every allocated address its two links.  `Chain m before cs after` says that the
cells of `cs` are linked one to the next, between the neighbours `before` and `after`; `IsList` is
a whole list with its two ends.

The rules are those of separate pieces: `chain_append` cuts a chain, `Chain.setNext` and
`Chain.setPrev` turn the link at one of its ends, and a cell elsewhere does not matter
(`Chain.congr`).  `IsList.push` and `IsList.remove` follow.
-/

namespace LinkedList

variable {A : Type}

/-- The links of a cell. -/
structure Links (A : Type) where
  prev : Option A
  next : Option A
  deriving DecidableEq

/-- The allocated cells. -/
abbrev Store (A : Type) := A → Option (Links A)

/-- `cs` is linked in both directions, between `before` and `after`. -/
def Chain (m : Store A) : Option A → List A → Option A → Prop
  | _, [], _ => True
  | before, c :: cs, after => m c = some ⟨before, cs.head?.or after⟩ ∧ Chain m (some c) cs after

variable {m m' : Store A} {before after first last v : Option A} {cs xs ys : List A} {p : A}

@[simp] theorem chain_nil : Chain m before [] after := trivial

theorem chain_cons : Chain m before (p :: cs) after ↔
    m p = some ⟨before, cs.head?.or after⟩ ∧ Chain m (some p) cs after := Iff.rfl

theorem chain_append : Chain m before (xs ++ ys) after ↔
    Chain m before xs (ys.head?.or after) ∧ Chain m (xs.getLast?.or before) ys after := by
  induction xs generalizing before with
  | nil => simp
  | cons x xs ih =>
      have hhead : (xs ++ ys).head?.or after = xs.head?.or (ys.head?.or after) := by
        rw [List.head?_append, Option.or_assoc]
      have hlast : (x :: xs).getLast?.or before = xs.getLast?.or (some x) := by
        rw [List.getLast?_cons]
        cases xs.getLast? <;> rfl
      rw [List.cons_append, chain_cons, chain_cons, ih, hhead, hlast, and_assoc]

/-- A chain does not depend on other cells. -/
theorem Chain.congr (h : ∀ c ∈ cs, m' c = m c) (hc : Chain m before cs after) :
    Chain m' before cs after := by
  induction cs generalizing before with
  | nil => exact chain_nil
  | cons c cs ih =>
      obtain ⟨hcell, hrest⟩ := hc
      refine ⟨?_, ih (fun d hd => h d (List.mem_cons_of_mem c hd)) hrest⟩
      rw [h c List.mem_cons_self, hcell]

theorem Chain.ne_none (h : Chain m before cs after) {c : A} (hc : c ∈ cs) : m c ≠ none := by
  induction cs generalizing before with
  | nil => exact absurd hc (by simp)
  | cons d cs ih =>
      obtain ⟨hcell, hrest⟩ := h
      obtain rfl | hmem := List.mem_cons.mp hc
      · rw [hcell]
        simp
      · exact ih hrest hmem

/-! ### Turning a link -/

section Links

variable [DecidableEq A]

/-- `p->next = v`, unless `p` is null. -/
def setNext (m : Store A) (p v : Option A) : Store A := fun c =>
  if p = some c then (m c).map fun l => { l with next := v } else m c

/-- `p->prev = v`, unless `p` is null. -/
def setPrev (m : Store A) (p v : Option A) : Store A := fun c =>
  if p = some c then (m c).map fun l => { l with prev := v } else m c

theorem setNext_of_ne {c : A} {q : Option A} (h : q ≠ some c) : setNext m q v c = m c := if_neg h

theorem setPrev_of_ne {c : A} {q : Option A} (h : q ≠ some c) : setPrev m q v c = m c := if_neg h

/-- The last cell of a chain gets another follower. -/
theorem Chain.setNext (h : Chain m before xs after) (hnodup : xs.Nodup) (v : Option A) :
    Chain (setNext m xs.getLast? v) before xs v := by
  obtain rfl | ⟨ys, l, rfl⟩ := List.eq_nil_or_concat' xs
  · exact chain_nil
  obtain ⟨hys, hl, -⟩ := chain_append.mp h
  rw [List.getLast?_concat]
  refine chain_append.mpr ⟨?_, ?_, chain_nil⟩
  · refine Chain.congr ?_ hys
    intro c hc
    refine setNext_of_ne ?_
    intro heq
    rw [Option.some.injEq] at heq
    rw [← heq] at hc
    have hdisj := List.disjoint_of_nodup_append hnodup
    exact hdisj hc (by simp)
  · unfold LinkedList.setNext
    rw [if_pos rfl, hl]
    rfl

/-- The first cell of a chain gets another predecessor. -/
theorem Chain.setPrev (h : Chain m before ys after) (hnodup : ys.Nodup) (v : Option A) :
    Chain (setPrev m ys.head? v) v ys after := by
  cases ys with
  | nil => exact chain_nil
  | cons r ys =>
      obtain ⟨hr, hys⟩ := h
      rw [List.nodup_cons] at hnodup
      refine ⟨?_, ?_⟩
      · unfold LinkedList.setPrev
        rw [List.head?_cons, if_pos rfl, hr]
        rfl
      · refine Chain.congr ?_ hys
        intro c hc
        refine setPrev_of_ne ?_
        intro heq
        rw [List.head?_cons, Option.some.injEq] at heq
        exact hnodup.1 (heq ▸ hc)

/-! ### Lists with their ends -/

/-- The list `cs` from `first` to `last`. -/
structure IsList (m : Store A) (first last : Option A) (cs : List A) : Prop where
  nodup : cs.Nodup
  chain : Chain m none cs none
  first_eq : first = cs.head?
  last_eq : last = cs.getLast?

omit [DecidableEq A] in
theorem isList_nil (m : Store A) : IsList m none none [] := ⟨List.nodup_nil, chain_nil, rfl, rfl⟩

/-- A new cell at the end. -/
theorem IsList.push (h : IsList m first last cs) (hp : p ∉ cs) :
    IsList (Function.update (LinkedList.setNext m last (some p)) p (some ⟨last, none⟩))
      (first.or (some p)) (some p) (cs ++ [p]) := by
  refine ⟨?_, ?_, ?_, ?_⟩
  · rw [List.nodup_append]
    refine ⟨h.nodup, List.nodup_singleton p, ?_⟩
    intro a ha b hb heq
    rw [List.mem_singleton] at hb
    rw [heq, hb] at ha
    exact hp ha
  · refine chain_append.mpr ⟨?_, ?_, chain_nil⟩
    · have hchain := h.chain.setNext h.nodup (some p)
      rw [← h.last_eq] at hchain
      refine Chain.congr ?_ hchain
      intro c hc
      refine Function.update_of_ne ?_ _ _
      intro heq
      exact hp (heq ▸ hc)
    · rw [Function.update_self, h.last_eq, Option.or_none]
      rfl
  · rw [h.first_eq, List.head?_append]
    rfl
  · rw [List.getLast?_concat]

omit [DecidableEq A] in
/-- A cell of the list knows its neighbours. -/
theorem IsList.links (h : IsList m first last (xs ++ p :: ys)) :
    m p = some ⟨xs.getLast?, ys.head?⟩ := by
  obtain ⟨-, hp, -⟩ := chain_append.mp h.chain
  rw [hp, Option.or_none, Option.or_none]

/-- A cell is taken out: its neighbours are linked to each other, and it is freed. -/
theorem IsList.remove (h : IsList m first last (xs ++ p :: ys)) :
    IsList (Function.update (LinkedList.setPrev (LinkedList.setNext m xs.getLast? ys.head?)
        ys.head? xs.getLast?) p none)
      (if first = some p then ys.head? else first) (if last = some p then xs.getLast? else last)
      (xs ++ ys) := by
  have hnodup := h.nodup
  rw [List.nodup_append, List.nodup_cons] at hnodup
  obtain ⟨hxs, ⟨hpys, hys⟩, hdisj⟩ := hnodup
  have hpxs : p ∉ xs := fun hmem => hdisj p hmem p List.mem_cons_self rfl
  have hapart : ∀ c ∈ xs, c ∉ ys := fun c hc hc' =>
    hdisj c hc c (List.mem_cons_of_mem p hc') rfl
  obtain ⟨hleft, hright⟩ := chain_append.mp h.chain
  obtain ⟨-, hright⟩ := hright
  refine ⟨?_, ?_, ?_, ?_⟩
  · rw [List.nodup_append]
    refine ⟨hxs, hys, ?_⟩
    intro a ha b hb heq
    exact hapart a ha (heq ▸ hb)
  · refine chain_append.mpr ⟨?_, ?_⟩
    · rw [Option.or_none]
      refine Chain.congr ?_ (hleft.setNext hxs ys.head?)
      intro c hc
      have hcp : c ≠ p := by
        rintro rfl
        exact hpxs hc
      rw [Function.update_of_ne hcp, setPrev_of_ne]
      intro heq
      exact hapart c hc (List.mem_of_mem_head? heq)
    · have hkept : Chain (LinkedList.setNext m xs.getLast? ys.head?) (some p) ys none := by
        refine Chain.congr ?_ hright
        intro c hc
        refine setNext_of_ne ?_
        intro heq
        exact hapart c (List.mem_of_getLast? heq) hc
      rw [Option.or_none]
      refine Chain.congr ?_ (hkept.setPrev hys xs.getLast?)
      intro c hc
      have hcp : c ≠ p := by
        rintro rfl
        exact hpys hc
      exact Function.update_of_ne hcp _ _
  · rw [h.first_eq, List.head?_append, List.head?_append]
    cases xs with
    | nil => simp
    | cons x xs =>
        have hne : x ≠ p := fun heq => hpxs (by simp [heq])
        simp [hne]
  · rw [h.last_eq, List.getLast?_append, List.getLast?_append, List.getLast?_cons]
    obtain rfl | ⟨zs, l, rfl⟩ := List.eq_nil_or_concat' ys
    · simp
    · have hne : l ≠ p := fun heq => hpys (by simp [heq])
      simp [hne]

end Links

end LinkedList
