import Mathlib.Data.List.Basic
import Mathlib.Tactic.Basic

/-!
# Streams that are written in blocks

A buffered writer is given a stream piece by piece and writes it in blocks of `n` elements; what does
not fill a block waits.  `Written n blocks rest stream` says that the writer was given `stream`, has
written `blocks`, and that `rest` waits.

* `Written.append`: what a writer does with the next piece is what it does with the waiting elements
  and the piece;
* `Written.length_rest`: how much waits depends on the length of the stream only;
* `Written.unique`: the blocks depend on the stream only, not on the pieces it came in;
* `Written.flatten_close`, `Written.whole_close`: the rest, written as the last block, completes the
  stream.
-/

namespace Blocks

variable {α : Type} {n : Nat} {blocks blocks' : List (List α)} {block rest rest' stream x : List α}

/-- The stream is in blocks of `n` elements and a rest that is shorter. -/
structure Written (n : Nat) (blocks : List (List α)) (rest stream : List α) : Prop where
  whole : ∀ block ∈ blocks, block.length = n
  short : rest.length < n
  all : blocks.flatten ++ rest = stream

/-- Nothing is written as long as the stream is shorter than a block. -/
theorem Written.waiting (h : rest.length < n) : Written n [] rest rest := by
  refine ⟨?_, h, List.nil_append rest⟩
  intro block hblock
  cases hblock

theorem Written.one (hblock : block.length = n) (h : rest.length < n) :
    Written n [block] rest (block ++ rest) := by
  refine ⟨?_, h, ?_⟩
  · intro m hm
    rw [List.mem_singleton.1 hm]
    exact hblock
  · rw [List.flatten_singleton]

/-- **The next piece**: the writer goes on with what waits. -/
theorem Written.append (h : Written n blocks rest stream)
    (h' : Written n blocks' rest' (rest ++ x)) :
    Written n (blocks ++ blocks') rest' (stream ++ x) := by
  refine ⟨?_, h'.short, ?_⟩
  · intro block hblock
    rcases List.mem_append.1 hblock with hold | hnew
    · exact h.whole block hold
    · exact h'.whole block hnew
  · rw [List.flatten_append, List.append_assoc, h'.all, ← List.append_assoc, h.all]

/-! ### Lengths -/

theorem map_length (h : ∀ block ∈ blocks, block.length = n) :
    blocks.map List.length = List.replicate blocks.length n := List.map_eq_replicate_iff.2 h

theorem length_flatten (h : ∀ block ∈ blocks, block.length = n) :
    blocks.flatten.length = blocks.length * n := by
  rw [List.length_flatten, map_length h, List.sum_replicate_nat]

theorem Written.length (h : Written n blocks rest stream) :
    stream.length = n * blocks.length + rest.length := by
  rw [← h.all, List.length_append, length_flatten h.whole, Nat.mul_comm]

theorem Written.length_rest (h : Written n blocks rest stream) :
    rest.length = stream.length % n := by
  rw [h.length, Nat.mul_add_mod, Nat.mod_eq_of_lt h.short]

theorem Written.length_blocks (h : Written n blocks rest stream) :
    blocks.length = stream.length / n := by
  rw [h.length, Nat.mul_add_div (Nat.zero_lt_of_lt h.short), Nat.div_eq_of_lt h.short,
    Nat.add_zero]

/-- Nothing waits where the stream is a number of whole blocks. -/
theorem Written.rest_empty_iff (h : Written n blocks rest stream) :
    rest.length = 0 ↔ n ∣ stream.length := by
  rw [h.length_rest, Nat.dvd_iff_mod_eq_zero]

/-! ### The pieces do not matter -/

/-- **The blocks of a stream are determined** by the stream. -/
theorem Written.unique (h : Written n blocks rest stream) (h' : Written n blocks' rest' stream) :
    blocks = blocks' ∧ rest = rest' := by
  have hcount : blocks.length = blocks'.length := h.length_blocks.trans h'.length_blocks.symm
  have hlengths : blocks.flatten.length = blocks'.flatten.length := by
    rw [length_flatten h.whole, length_flatten h'.whole, hcount]
  have hboth := List.append_inj (h.all.trans h'.all.symm) hlengths
  have hmaps : blocks.map List.length = blocks'.map List.length := by
    rw [map_length h.whole, map_length h'.whole, hcount]
  exact ⟨List.eq_iff_flatten_eq.2 ⟨hboth.1, hmaps⟩, hboth.2⟩

/-! ### The end of the stream -/

/-- **With the rest the stream is complete.** -/
theorem Written.flatten_close (h : Written n blocks rest stream) :
    (blocks ++ [rest]).flatten = stream := by
  rw [List.flatten_append, List.flatten_singleton, h.all]

/-- Every block in front of the rest is whole. -/
theorem Written.whole_close (h : Written n blocks rest stream) :
    ∀ block ∈ (blocks ++ [rest]).dropLast, block.length = n := by
  rw [List.dropLast_concat]
  exact h.whole

end Blocks
