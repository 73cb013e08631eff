import ClusterFtpd.Lib.Interaction

/-!
# The values of a program

`Gives Q p`: whatever its operations are answered, the program `p` ends with values of `Q` only.
The rules are those of sequencing; `Gives.run` is what they say about a run.
-/

namespace Interaction

variable {I : Interface} {α β σ : Type} {Q R : α → Prop} {S : β → Prop}

/-- Every value the program can end with is in `Q`. -/
def Gives (Q : α → Prop) : Prog I α → Prop
  | .ret a => Q a
  | .stop _ => True
  | .call _ k => ∀ r, Gives Q (k r)
  | .poll _ _ k => ∀ r, Gives Q (k r)

theorem Gives.mono (hQR : ∀ a, Q a → R a) {p : Prog I α} (hp : Gives Q p) : Gives R p := by
  induction p with
  | ret a => exact hQR a hp
  | stop w => trivial
  | call o k ih => exact fun r => ih r (hp r)
  | poll o again k ih => exact fun r => ih r (hp r)

theorem Gives.bind {p : Prog I α} {f : α → Prog I β} (hp : Gives Q p)
    (hf : ∀ a, Q a → Gives S (f a)) : Gives S (p >>= f) := by
  induction p with
  | ret a => exact hf a hp
  | stop w => trivial
  | call o k ih => exact fun r => ih r (hp r)
  | poll o again k ih => exact fun r => ih r (hp r)

theorem gives_true (p : Prog I α) : Gives (fun _ => True) p := by
  induction p with
  | ret a => trivial
  | stop w => trivial
  | call o k ih => exact ih
  | poll o again k ih => exact ih

/-- A sequence whose first part may end with anything. -/
theorem Gives.after {p : Prog I α} {f : α → Prog I β} (hf : ∀ a, Gives S (f a)) :
    Gives S (p >>= f) :=
  (gives_true p).bind fun a _ => hf a

theorem gives_if {b : Prop} [Decidable b] {p q : Prog I α} (hp : Gives Q p) (hq : Gives Q q) :
    Gives Q (if b then p else q) := by
  by_cases hb : b
  · rw [if_pos hb]
    exact hp
  · rw [if_neg hb]
    exact hq

/-- The value of a run. -/
theorem Gives.run {h : Handler I σ} {p : Prog I α} (hp : Gives Q p) {s t : σ} {a : α}
    (hrun : Interaction.run h p s = .done a t) : Q a := by
  induction p generalizing s with
  | ret b =>
      rw [run_ret, Outcome.done.injEq] at hrun
      rw [← hrun.1]
      exact hp
  | stop w => exact absurd hrun (by simp)
  | call o k ih => exact ih _ (hp _) hrun
  | poll o again k ih =>
      rw [run_poll] at hrun
      by_cases ha : again (h o s).1
      · rw [if_pos ha] at hrun
        exact absurd hrun (by simp)
      · rw [if_neg ha] at hrun
        exact ih _ (hp _) hrun

end Interaction
