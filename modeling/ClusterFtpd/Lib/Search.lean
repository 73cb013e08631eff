import ClusterFtpd.Lib.Interaction

/-!
# Searching by asking

`tryEach` asks for one value after the other until one is accepted.  Where every question is
answered by a predicate of its own (`Asks`), the run finds the first value that satisfies it
(`run_tryEach`), and it has asked for the values up to that one, `asked`.
-/

namespace Interaction

variable {I : Interface} {σ α : Type}

/-- Ask for one value after the other. -/
def tryEach (ask : α → Prog I Bool) : List α → Prog I (Option α)
  | [] => .ret none
  | a :: as => do
      if ← ask a then return some a else tryEach ask as

/-- The values up to the first that is accepted. -/
def asked (accepts : α → Bool) : List α → List α
  | [] => []
  | a :: as => a :: if accepts a then [] else asked accepts as

/-- A question is noted down, and its answer is `accepts`; what the states satisfy is kept. -/
def Asks (h : Handler I σ) (note : (o : I.Op) → I.Res o → Option α) (P : σ → Prop)
    (accepts : α → Bool) (ask : α → Prog I Bool) : Prop :=
  ∀ a s, P s → ∃ s', run h (ask a) s = .done (accepts a) s' ∧ trace h note (ask a) s = [a] ∧ P s'

variable {h : Handler I σ} {note : (o : I.Op) → I.Res o → Option α} {P : σ → Prop}
  {accepts : α → Bool} {ask : α → Prog I Bool}

/-- **The search rule.** -/
theorem run_tryEach (hask : Asks h note P accepts ask) (as : List α) {s : σ} (hs : P s) :
    ∃ s', run h (tryEach ask as) s = .done (as.find? accepts) s' ∧
      trace h note (tryEach ask as) s = asked accepts as ∧ P s' := by
  induction as generalizing s with
  | nil => exact ⟨s, rfl, rfl, hs⟩
  | cons a as ih =>
      obtain ⟨t, hrun, htrace, ht⟩ := hask a s hs
      rw [tryEach, run_bind, trace_bind, hrun, htrace]
      show ∃ s', run h (if accepts a = true then .ret (some a) else tryEach ask as) t = _ ∧
        [a] ++ trace h note (if accepts a = true then .ret (some a) else tryEach ask as) t = _ ∧ P s'
      cases haccepts : accepts a with
      | true =>
          refine ⟨t, ?_, ?_, ht⟩
          · rw [List.find?_cons_of_pos haccepts]
            rfl
          · rw [asked, if_pos haccepts]
            rfl
      | false =>
          have hno : ¬ accepts a = true := by
            rw [haccepts]
            exact Bool.false_ne_true
          obtain ⟨u, hrun', htrace', hu⟩ := ih ht
          refine ⟨u, ?_, ?_, hu⟩
          · rw [List.find?_cons_of_neg hno]
            exact hrun'
          · rw [asked, if_neg hno]
            exact congrArg (a :: ·) htrace'

/-- Behind a value that is not accepted the next one is asked for. -/
theorem mem_asked_second {a b : α} {as : List α} (ha : accepts a = false) :
    b ∈ asked accepts (a :: b :: as) := by
  have hno : ¬ accepts a = true := by
    rw [ha]
    exact Bool.false_ne_true
  rw [asked, if_neg hno]
  exact List.mem_cons_of_mem a List.mem_cons_self

end Interaction
