import Mathlib.Data.List.Basic
import Mathlib.Data.List.Infix
import Mathlib.Tactic.Basic

/-!
# Lines that end with two characters

`cutLines cr nl s` is the text `s` cut behind every `cr` that `nl` follows; the two are taken off,
and what stands behind the last pair is a line as well unless it is empty.

* `cutLines_terminated`: lines without the pair, each with the pair behind it, are read back;
* `notMem_of_cutLines`: no line that is read has the pair in it;
* `cutLines_of_length`: a reader that gets as many characters as were sent reads one line at most.
-/

namespace Lines

variable {α : Type} [DecidableEq α]

/-- The character in front of the first line. -/
def consFirst (c : α) : List (List α) → List (List α)
  | [] => [[c]]
  | l :: ls => (c :: l) :: ls

/-- The lines of a text. -/
def cutLines (cr nl : α) : List α → List (List α)
  | [] => []
  | [c] => [[c]]
  | c :: d :: s =>
      if c = cr ∧ d = nl then [] :: cutLines cr nl s else consFirst c (cutLines cr nl (d :: s))

/-- The lines, each with its end. -/
def terminated (cr nl : α) (ls : List (List α)) : List α := (ls.map (· ++ [cr, nl])).flatten

variable {cr nl : α}

theorem cutLines_end (s : List α) : cutLines cr nl (cr :: nl :: s) = [] :: cutLines cr nl s :=
  if_pos ⟨rfl, rfl⟩

theorem cutLines_cons {c d : α} {s : List α} (h : ¬ (c = cr ∧ d = nl)) :
    cutLines cr nl (c :: d :: s) = consFirst c (cutLines cr nl (d :: s)) := if_neg h

/-- A line without the pair, behind which the pair stands. -/
theorem cutLines_line (hne : cr ≠ nl) {l : List α} (hl : ¬ [cr, nl] <:+: l) (s : List α) :
    cutLines cr nl (l ++ cr :: nl :: s) = l :: cutLines cr nl s := by
  induction l with
  | nil => exact cutLines_end s
  | cons c l ih =>
      have htail : ¬ [cr, nl] <:+: l := fun h => hl (h.trans (List.suffix_cons c l).isInfix)
      have hcut := ih htail
      cases l with
      | nil =>
          show cutLines cr nl (c :: cr :: nl :: s) = _
          rw [cutLines_cons fun h => hne h.2]
          rw [List.nil_append] at hcut
          rw [hcut]
          rfl
      | cons d l =>
          have hpair : ¬ (c = cr ∧ d = nl) := by
            intro h
            rw [h.1, h.2] at hl
            exact hl ⟨[], l, rfl⟩
          show cutLines cr nl (c :: d :: (l ++ cr :: nl :: s)) = _
          rw [cutLines_cons hpair]
          rw [List.cons_append] at hcut
          rw [hcut]
          rfl

/-- **Terminated lines are read back.** -/
theorem cutLines_terminated (hne : cr ≠ nl) {ls : List (List α)}
    (h : ∀ l ∈ ls, ¬ [cr, nl] <:+: l) : cutLines cr nl (terminated cr nl ls) = ls := by
  induction ls with
  | nil => rfl
  | cons l ls ih =>
      have hcons : terminated cr nl (l :: ls) = l ++ cr :: nl :: terminated cr nl ls := by
        show (l ++ [cr, nl]) ++ terminated cr nl ls = _
        rw [List.append_assoc]
        rfl
      rw [hcons, cutLines_line hne (h l List.mem_cons_self)]
      rw [ih fun m hm => h m (List.mem_cons_of_mem l hm)]

/-- The first line of a text begins with the first character of the text, unless it is empty. -/
theorem head_of_cutLines {c : α} {s l : List α} {ls : List (List α)}
    (h : cutLines cr nl (c :: s) = l :: ls) : l = [] ∨ l.head? = some c := by
  cases s with
  | nil =>
      have hl : [[c]] = l :: ls := h
      cases hl
      exact .inr rfl
  | cons d s =>
      by_cases hpair : c = cr ∧ d = nl
      · rw [hpair.1, hpair.2, cutLines_end] at h
        cases h
        exact .inl rfl
      · rw [cutLines_cons hpair] at h
        cases hcut : cutLines cr nl (d :: s) with
        | nil =>
            rw [hcut] at h
            cases h
            exact .inr rfl
        | cons m ms =>
            rw [hcut] at h
            cases h
            exact .inr rfl

/-- **No line has the pair in it.** -/
theorem notMem_of_cutLines {s : List α} : ∀ l ∈ cutLines cr nl s, ¬ [cr, nl] <:+: l := by
  have hshort : ∀ l : List α, l.length < 2 → ¬ [cr, nl] <:+: l := by
    intro l hlength hinfix
    have hle : 2 ≤ l.length := hinfix.length_le
    omega
  induction s using cutLines.induct cr nl with
  | case1 =>
      intro l hl
      cases hl
  | case2 c =>
      intro l hl
      have hone : l = [c] := List.mem_singleton.1 hl
      rw [hone]
      exact hshort [c] (Nat.lt_succ_self 1)
  | case3 c d s hpair ih =>
      intro l hl
      rw [hpair.1, hpair.2, cutLines_end] at hl
      rcases List.mem_cons.1 hl with hnil | hrest
      · rw [hnil]
        exact hshort [] (Nat.zero_lt_two)
      · exact ih l hrest
  | case4 c d s hpair ih =>
      intro l hl
      rw [cutLines_cons hpair] at hl
      cases hcut : cutLines cr nl (d :: s) with
      | nil =>
          rw [hcut] at hl
          have hone : l = [c] := List.mem_singleton.1 hl
          rw [hone]
          exact hshort [c] (Nat.lt_succ_self 1)
      | cons m ms =>
          rw [hcut] at hl ih
          rcases List.mem_cons.1 hl with hfirst | hrest
          · rw [hfirst]
            intro hinfix
            rcases List.infix_cons_iff.1 hinfix with hprefix | hinfix
            · -- The pair would begin the text.
              have hcr : cr = c ∧ [nl] <+: m := List.cons_prefix_cons.1 hprefix
              rcases head_of_cutLines hcut with hnil | hhead
              · rw [hnil] at hcr
                cases List.prefix_nil.1 hcr.2
              · cases m with
                | nil => cases hhead
                | cons e m =>
                    have hnl : nl = e := (List.cons_prefix_cons.1 hcr.2).1
                    have he : e = d := Option.some.inj hhead
                    exact hpair ⟨hcr.1.symm, he ▸ hnl.symm⟩
            · exact ih m List.mem_cons_self hinfix
          · exact ih l (List.mem_cons_of_mem m hrest)

omit [DecidableEq α] in
theorem length_consFirst (c : α) (ls : List (List α)) :
    (consFirst c ls).flatten.length = ls.flatten.length + 1 := by
  cases ls with
  | nil => rfl
  | cons l ls =>
      simp only [consFirst, List.flatten_cons, List.length_append, List.length_cons]
      omega

/-- The characters that are read were sent. -/
theorem length_cutLines (s : List α) : (cutLines cr nl s).flatten.length ≤ s.length := by
  induction s using cutLines.induct cr nl with
  | case1 => exact Nat.le_refl 0
  | case2 c => exact Nat.le_refl 1
  | case3 c d s hpair ih =>
      rw [hpair.1, hpair.2, cutLines_end]
      simp only [List.flatten_cons, List.nil_append, List.length_cons]
      omega
  | case4 c d s hpair ih =>
      rw [cutLines_cons hpair, length_consFirst]
      simp only [List.length_cons] at ih ⊢
      omega

/-- **Where all characters are read there was no line end.** -/
theorem cutLines_of_length {s : List α} (h : s.length ≤ (cutLines cr nl s).flatten.length) :
    cutLines cr nl s = if s = [] then [] else [s] := by
  induction s using cutLines.induct cr nl with
  | case1 => rfl
  | case2 c => rfl
  | case3 c d s hpair ih =>
      have hle : (cutLines cr nl s).flatten.length ≤ s.length := length_cutLines s
      rw [hpair.1, hpair.2, cutLines_end] at h
      simp only [List.flatten_cons, List.nil_append, List.length_cons] at h
      omega
  | case4 c d s hpair ih =>
      rw [cutLines_cons hpair, length_consFirst] at h
      have hrest : (d :: s).length ≤ (cutLines cr nl (d :: s)).flatten.length := by
        simp only [List.length_cons] at h ⊢
        omega
      rw [cutLines_cons hpair, ih hrest, if_neg (List.cons_ne_nil _ _),
        if_neg (List.cons_ne_nil _ _)]
      rfl

/-- A text without the pair is one line. -/
theorem cutLines_of_notMem {s : List α} (h : ¬ [cr, nl] <:+: s) :
    cutLines cr nl s = if s = [] then [] else [s] := by
  induction s using cutLines.induct cr nl with
  | case1 => rfl
  | case2 c => rfl
  | case3 c d s hpair ih =>
      rw [hpair.1, hpair.2] at h
      exact absurd ⟨[], s, rfl⟩ h
  | case4 c d s hpair ih =>
      have hrest : ¬ [cr, nl] <:+: d :: s := fun hd =>
        h (hd.trans (List.suffix_cons c (d :: s)).isInfix)
      rw [cutLines_cons hpair, ih hrest, if_neg (List.cons_ne_nil _ _),
        if_neg (List.cons_ne_nil _ _)]
      rfl

/-! ### Where the pair can stand -/

omit [DecidableEq α] in
/-- Behind a text without `cr` the pair stands in the rest. -/
theorem infix_of_append_left {x y : List α} (hx : cr ∉ x) (h : [cr, nl] <:+: x ++ y) :
    [cr, nl] <:+: y := by
  induction x with
  | nil => exact h
  | cons c x ih =>
      rcases List.infix_cons_iff.1 h with hprefix | hinfix
      · have hcr : cr = c := (List.cons_prefix_cons.1 hprefix).1
        rw [hcr] at hx
        exact absurd List.mem_cons_self hx
      · exact ih (fun hmem => hx (List.mem_cons_of_mem c hmem)) hinfix

omit [DecidableEq α] in
/-- In front of a text without `nl` the pair stands before it. -/
theorem infix_of_append_right {x y : List α} (hy : nl ∉ y) (h : [cr, nl] <:+: x ++ y) :
    [cr, nl] <:+: x := by
  induction x with
  | nil =>
      have hmem : nl ∈ y := h.subset (List.mem_cons_of_mem cr List.mem_cons_self)
      exact absurd hmem hy
  | cons c x ih =>
      rcases List.infix_cons_iff.1 h with hprefix | hinfix
      · obtain ⟨hcr, hnl⟩ := List.cons_prefix_cons.1 hprefix
        cases x with
        | nil =>
            have hmem : nl ∈ y := hnl.subset List.mem_cons_self
            exact absurd hmem hy
        | cons d x =>
            have hd : nl = d := (List.cons_prefix_cons.1 hnl).1
            rw [hcr, hd]
            exact ⟨[], x, rfl⟩
      · exact (ih hinfix).trans (List.suffix_cons c x).isInfix

end Lines
