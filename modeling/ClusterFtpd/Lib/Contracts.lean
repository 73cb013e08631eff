import ClusterFtpd.Lib.Interaction

/-!
# Programs that run beside others

A `Contract` says what others may do to a shared state between two operations of a program, what an
operation does to it, and what the program pledges about the operations it issues.  `Honours C Q p`
says that `p` keeps its pledge whatever the answers are and whatever the others do in between, and
that `Q` holds when it ends.

The rules: `Honours.others` (the others do no harm), `Honours.bind` (sequencing), `Honours.imp`
(consequence), `Honours.frame` (an invariant that every operation keeps) and `Honours.translate`
(programs of a smaller interface).
-/

namespace Interaction

variable {I J : Interface} {α β σ : Type}

/-- What the others do, what an operation does, and what the program pledges. -/
structure Contract (I : Interface) (σ : Type) where
  others : σ → σ → Prop
  others_refl : ∀ s, others s s
  others_trans : ∀ {s t u}, others s t → others t u → others s u
  effect : (o : I.Op) → σ → I.Res o → σ → Prop
  pledge : I.Op → σ → Prop

variable (C : Contract I σ)

/-- The program keeps its pledge, and `Q` holds at its end. -/
def Honours (Q : α → σ → Prop) : Prog I α → σ → Prop
  | .ret a, s => ∀ t, C.others s t → Q a t
  | .stop _, _ => True
  | .call o k, s => ∀ t, C.others s t →
      C.pledge o t ∧ ∀ r u, C.effect o t r u → Honours Q (k r) u
  | .poll o again k, s => ∀ t, C.others s t →
      C.pledge o t ∧ ∀ r u, C.effect o t r u → again r = false → Honours Q (k r) u

variable {C} {Q Q' : α → σ → Prop} {R : β → σ → Prop} {s t : σ}

/-- What the others do takes nothing away. -/
theorem Honours.others {p : Prog I α} (h : Honours C Q p s) (ho : C.others s t) :
    Honours C Q p t := by
  cases p with
  | ret a => exact fun u hu => h u (C.others_trans ho hu)
  | stop w => trivial
  | call o k => exact fun u hu => h u (C.others_trans ho hu)
  | poll o again k => exact fun u hu => h u (C.others_trans ho hu)

theorem Honours.ret {a : α} (h : ∀ t, C.others s t → Q a t) : Honours C Q (.ret a) s := h

theorem Honours.stop {w : Stop} : Honours C Q (.stop w) s := trivial

/-- One operation in front. -/
theorem Honours.call {o : I.Op} {k : I.Res o → Prog I α} (h : ∀ t, C.others s t →
    C.pledge o t ∧ ∀ r u, C.effect o t r u → Honours C Q (k r) u) : Honours C Q (.call o k) s := h

/-- **The sequence rule.** -/
theorem Honours.bind {p : Prog I α} {f : α → Prog I β} (hp : Honours C Q p s)
    (hf : ∀ a t, Q a t → Honours C R (f a) t) : Honours C R (p >>= f) s := by
  induction p generalizing s with
  | ret a => exact hf a s (hp s (C.others_refl s))
  | stop w => trivial
  | call o k ih =>
      intro t ht
      obtain ⟨hpledge, hk⟩ := hp t ht
      exact ⟨hpledge, fun r u hu => ih r (hk r u hu)⟩
  | poll o again k ih =>
      intro t ht
      obtain ⟨hpledge, hk⟩ := hp t ht
      exact ⟨hpledge, fun r u hu ha => ih r (hk r u hu ha)⟩

/-- The rule of consequence. -/
theorem Honours.imp {p : Prog I α} (hp : Honours C Q p s) (hQ : ∀ a t, Q a t → Q' a t) :
    Honours C Q' p s := by
  induction p generalizing s with
  | ret a => exact fun t ht => hQ a t (hp t ht)
  | stop w => trivial
  | call o k ih =>
      intro t ht
      obtain ⟨hpledge, hk⟩ := hp t ht
      exact ⟨hpledge, fun r u hu => ih r (hk r u hu)⟩
  | poll o again k ih =>
      intro t ht
      obtain ⟨hpledge, hk⟩ := hp t ht
      exact ⟨hpledge, fun r u hu ha => ih r (hk r u hu ha)⟩

/-- **The frame rule.**  An invariant that the others and every operation of the program keep, and
under which the operations are within the pledge, holds at the end. -/
theorem Honours.frame {P : I.Op → Prop} {Inv : σ → Prop} {p : Prog I α} (hp : Every P p)
    (hothers : ∀ s t, C.others s t → Inv s → Inv t)
    (hop : ∀ o, P o → ∀ s, Inv s → C.pledge o s ∧ ∀ r u, C.effect o s r u → Inv u)
    (hs : Inv s) : Honours C (fun _ => Inv) p s := by
  induction p generalizing s with
  | ret a => exact fun t ht => hothers s t ht hs
  | stop w => trivial
  | call o k ih =>
      intro t ht
      obtain ⟨hpledge, heffect⟩ := hop o hp.1 t (hothers s t ht hs)
      exact ⟨hpledge, fun r u hu => ih r (hp.2 r) (heffect r u hu)⟩
  | poll o again k ih =>
      intro t ht
      obtain ⟨hpledge, heffect⟩ := hop o hp.1 t (hothers s t ht hs)
      exact ⟨hpledge, fun r u hu _ => ih r (hp.2 r) (heffect r u hu)⟩

/-- **The embedding rule.** -/
theorem Honours.translate {D : Contract J σ} {φ : I.Op → J.Op}
    {ρ : ∀ o, J.Res (φ o) → I.Res o} (hothers : ∀ s t, D.others s t → C.others s t)
    (hpledge : ∀ o s, C.pledge o s → D.pledge (φ o) s)
    (heffect : ∀ o s r u, D.effect (φ o) s r u → C.effect o s (ρ o r) u) {p : Prog I α}
    (hp : Honours C Q p s) : Honours D Q (Interaction.translate φ ρ p) s := by
  induction p generalizing s with
  | ret a => exact fun t ht => hp t (hothers s t ht)
  | stop w => trivial
  | call o k ih =>
      intro t ht
      obtain ⟨hp₁, hk⟩ := hp t (hothers s t ht)
      exact ⟨hpledge o t hp₁, fun r u hu => ih _ (hk _ u (heffect o t r u hu))⟩
  | poll o again k ih =>
      intro t ht
      obtain ⟨hp₁, hk⟩ := hp t (hothers s t ht)
      exact ⟨hpledge o t hp₁, fun r u hu ha => ih _ (hk _ u (heffect o t r u hu) ha)⟩

end Interaction
