import ClusterFtpd.Lib.Interaction

/-!
# The outputs of a program

`note` tells which operations of a program are outputs, with their answers.

* `Yields note Q p`: whatever the answers are, an end of `p` and the outputs up to it satisfy `Q`;
* `Owes A note p n`: as long as the answers are as `A` assumes, the outputs of `p` weigh `n` when it
  ends, and never more before.  A program that runs beside others owes less with every output.

The rules are those of sequencing; `Yields.run` says what a run notes down, and `state_eq_trace`
what is collected of it in the state.
-/

namespace Interaction

variable {I J : Interface} {α β σ ε : Type}

/-! ### Every output -/

/-- Whatever the answers are, the value and the outputs of the program satisfy `Q`. -/
def Yields (note : (o : I.Op) → I.Res o → Option ε) : Prog I α → (α → List ε → Prop) → Prop
  | .ret a, Q => Q a []
  | .stop _, _ => True
  | .call o k, Q => ∀ r, Yields note (k r) fun a xs => Q a ((note o r).toList ++ xs)
  | .poll o again k, Q => ∀ r, again r = false →
      Yields note (k r) fun a xs => Q a ((note o r).toList ++ xs)

variable {note : (o : I.Op) → I.Res o → Option ε} {Q R : α → List ε → Prop}

theorem Yields.mono {p : Prog I α} (hp : Yields note p Q) (hQR : ∀ a xs, Q a xs → R a xs) :
    Yields note p R := by
  induction p generalizing Q R with
  | ret a => exact hQR a [] hp
  | stop w => trivial
  | call o k ih => exact fun r => ih r (hp r) fun a xs h => hQR a _ h
  | poll o again k ih => exact fun r hr => ih r (hp r hr) fun a xs h => hQR a _ h

/-- The outputs of a sequence follow one another. -/
theorem Yields.bind {S : β → List ε → Prop} {p : Prog I α} {f : α → Prog I β}
    (hp : Yields note p Q) (hf : ∀ a xs, Q a xs → Yields note (f a) fun b ys => S b (xs ++ ys)) :
    Yields note (p >>= f) S := by
  induction p generalizing Q S with
  | ret a => exact hf a [] hp
  | stop w => trivial
  | call o k ih =>
      intro r
      refine ih r (hp r) fun a xs h => ?_
      refine (hf a _ h).mono fun b ys hb => ?_
      rwa [List.append_assoc] at hb
  | poll o again k ih =>
      intro r hr
      refine ih r (hp r hr) fun a xs h => ?_
      refine (hf a _ h).mono fun b ys hb => ?_
      rwa [List.append_assoc] at hb

/-- A program without outputs. -/
theorem Every.yields_nil {P : I.Op → Prop} {p : Prog I α} (hp : Every P p)
    (hnote : ∀ o r, P o → note o r = none) : Yields note p fun _ xs => xs = [] := by
  induction p with
  | ret a => rfl
  | stop w => trivial
  | call o k ih =>
      intro r
      rw [hnote o r hp.1]
      exact ih r (hp.2 r)
  | poll o again k ih =>
      intro r _
      rw [hnote o r hp.1]
      exact ih r (hp.2 r)

/-- A sequence whose first part has no outputs. -/
theorem Yields.after {S : β → List ε → Prop} {P : I.Op → Prop} {p : Prog I α} {f : α → Prog I β}
    (hp : Every P p) (hnote : ∀ o r, P o → note o r = none) (hf : ∀ a, Yields note (f a) S) :
    Yields note (p >>= f) S := by
  refine (hp.yields_nil hnote).bind fun a xs hxs => ?_
  rw [hxs]
  exact hf a

/-- The outputs of a run. -/
theorem Yields.run {h : Handler I σ} {p : Prog I α} (hp : Yields note p Q) {s t : σ} {a : α}
    (hrun : Interaction.run h p s = .done a t) : Q a (trace h note p s) := by
  induction p generalizing s Q with
  | ret b =>
      rw [run_ret, Outcome.done.injEq] at hrun
      rw [← hrun.1]
      exact hp
  | stop w => exact absurd hrun (by simp)
  | call o k ih => exact ih _ (hp _) hrun
  | poll o again k ih =>
      rw [run_poll] at hrun
      by_cases ha : again (h o s).1 = true
      · rw [if_pos ha] at hrun
        exact absurd hrun (by simp)
      · rw [if_neg ha] at hrun
        rw [trace, if_neg ha]
        exact ih _ (hp _ (by simpa using ha)) hrun

/-- The outputs of a program of a smaller interface. -/
theorem Yields.translate {note' : (o : J.Op) → J.Res o → Option ε} {φ : I.Op → J.Op}
    {ρ : ∀ o, J.Res (φ o) → I.Res o} (hnote : ∀ o r, note' (φ o) r = note o (ρ o r)) {p : Prog I α}
    (hp : Yields note p Q) : Yields note' (translate φ ρ p) Q := by
  induction p generalizing Q with
  | ret a => exact hp
  | stop w => trivial
  | call o k ih =>
      intro r
      rw [hnote]
      exact ih _ (hp _)
  | poll o again k ih =>
      intro r hr
      rw [hnote]
      exact ih _ (hp _ hr)

/-- What is noted down of the outputs. -/
theorem trace_filterMap {δ : Type} (h : Handler I σ) {note' : (o : I.Op) → I.Res o → Option δ}
    {g : ε → Option δ} (hnote : ∀ o r, note' o r = (note o r).bind g) (p : Prog I α) (s : σ) :
    trace h note' p s = (trace h note p s).filterMap g := by
  have hhead : ∀ x : Option ε, (x.bind g).toList = x.toList.filterMap g := by
    intro x
    cases x with
    | none => rfl
    | some e =>
        cases hg : g e <;> simp [hg]
  induction p generalizing s with
  | ret a => rfl
  | stop w => rfl
  | call o k ih => rw [trace_call, trace_call, hnote, hhead, ih, List.filterMap_append]
  | poll o again k ih =>
      rw [trace, trace, hnote, hhead, List.filterMap_append]
      by_cases ha : again (h o s).1 = true
      · rw [if_pos ha, if_pos ha]
        rfl
      · rw [if_neg ha, if_neg ha, ih]

/-- Outputs that are collected in the state. -/
theorem state_eq_trace (note : (o : I.Op) → I.Res o → Option ε) (h : Handler I σ)
    (get : σ → List ε) (hstep : ∀ o s, get (h o s).2 = get s ++ (note o (h o s).1).toList)
    (p : Prog I α) (s : σ) : get (run h p s).state = get s ++ trace h note p s := by
  induction p generalizing s with
  | ret a => exact (List.append_nil _).symm
  | stop w => exact (List.append_nil _).symm
  | call o k ih =>
      rw [run_call, ih, hstep, trace_call, List.append_assoc]
  | poll o again k ih =>
      rw [run_poll, trace]
      by_cases ha : again (h o s).1 = true
      · rw [if_pos ha, if_pos ha, List.append_nil]
        exact hstep o s
      · rw [if_neg ha, if_neg ha, ih, hstep, List.append_assoc]

/-! ### What is still to come -/

/-- As long as the answers are as `A` assumes, the outputs up to the end weigh `n`, and never more
before. -/
def Owes (A : (o : I.Op) → I.Res o → Prop) (weight : (o : I.Op) → I.Res o → Nat)
    (Q : α → Nat → Prop) : Prog I α → Nat → Prop
  | .ret a, n => Q a n
  | .stop _, _ => True
  | .call o k, n => ∀ r, A o r → weight o r ≤ n ∧ Owes A weight Q (k r) (n - weight o r)
  | .poll o _ k, n => ∀ r, A o r → weight o r ≤ n ∧ Owes A weight Q (k r) (n - weight o r)

variable {A : (o : I.Op) → I.Res o → Prop} {weight : (o : I.Op) → I.Res o → Nat}
  {P : α → Nat → Prop} {S : β → Nat → Prop} {n : Nat}

theorem Owes.bind {p : Prog I α} {f : α → Prog I β} (hp : Owes A weight P p n)
    (hf : ∀ a m, P a m → Owes A weight S (f a) m) : Owes A weight S (p >>= f) n := by
  induction p generalizing n with
  | ret a => exact hf a n hp
  | stop w => trivial
  | call o k ih => exact fun r hr => ⟨(hp r hr).1, ih r (hp r hr).2⟩
  | poll o again k ih => exact fun r hr => ⟨(hp r hr).1, ih r (hp r hr).2⟩

/-- A sequence whose first part has no outputs. -/
theorem Owes.after {O : I.Op → Prop} {p : Prog I α} {f : α → Prog I β} (hp : Every O p)
    (hweight : ∀ o r, O o → weight o r = 0) (hf : ∀ a, Owes A weight S (f a) n) :
    Owes A weight S (p >>= f) n := by
  induction p with
  | ret a => exact hf a
  | stop w => trivial
  | call o k ih =>
      intro r _
      rw [hweight o r hp.1]
      exact ⟨Nat.zero_le n, ih r (hp.2 r)⟩
  | poll o again k ih =>
      intro r _
      rw [hweight o r hp.1]
      exact ⟨Nat.zero_le n, ih r (hp.2 r)⟩

end Interaction
