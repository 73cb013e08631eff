import ClusterFtpd.Lib.Interaction

/-!
# Where a program has its values from

Some operations use a value, and some answers give one.  `Sourced A p` says that every value which
`p` uses is one of `A`, or has been given to `p` before.  A program keeps it from one operation to
the next, with the values it has been given by then (`Sourced.answer`).
-/

namespace Interaction

variable {I : Interface} {α β V : Type} {uses : I.Op → V → Prop}
  {gives : (o : I.Op) → I.Res o → V → Prop}

/-- Every value that the program uses is one of `A`, or has been given to it. -/
def Sourced (uses : I.Op → V → Prop) (gives : (o : I.Op) → I.Res o → V → Prop) :
    (V → Prop) → Prog I α → Prop
  | _, .ret _ => True
  | _, .stop _ => True
  | A, .call o k =>
      (∀ v, uses o v → A v) ∧ ∀ r, Sourced uses gives (fun v => A v ∨ gives o r v) (k r)
  | A, .poll o _ k =>
      (∀ v, uses o v → A v) ∧ ∀ r, Sourced uses gives (fun v => A v ∨ gives o r v) (k r)

variable {A B : V → Prop}

theorem Sourced.mono {p : Prog I α} (hp : Sourced uses gives A p) (hAB : ∀ v, A v → B v) :
    Sourced uses gives B p := by
  induction p generalizing A B with
  | ret a => trivial
  | stop w => trivial
  | call o k ih =>
      refine ⟨fun v hv => hAB v (hp.1 v hv), fun r => ih r (hp.2 r) ?_⟩
      intro v hv
      exact hv.imp_left (hAB v)
  | poll o again k ih =>
      refine ⟨fun v hv => hAB v (hp.1 v hv), fun r => ih r (hp.2 r) ?_⟩
      intro v hv
      exact hv.imp_left (hAB v)

theorem Sourced.bind {p : Prog I α} {f : α → Prog I β} (hp : Sourced uses gives A p)
    (hf : ∀ a, Sourced uses gives A (f a)) : Sourced uses gives A (p >>= f) := by
  induction p generalizing A with
  | ret a => exact hf a
  | stop w => trivial
  | call o k ih =>
      refine ⟨hp.1, fun r => ih r (hp.2 r) ?_⟩
      intro a
      exact (hf a).mono fun v hv => .inl hv
  | poll o again k ih =>
      refine ⟨hp.1, fun r => ih r (hp.2 r) ?_⟩
      intro a
      exact (hf a).mono fun v hv => .inl hv

/-- A program that uses nothing. -/
theorem Every.sourced {P : I.Op → Prop} {p : Prog I α} (hp : Every P p)
    (hnone : ∀ o v, P o → ¬ uses o v) : Sourced uses gives A p := by
  induction p generalizing A with
  | ret a => trivial
  | stop w => trivial
  | call o k ih => exact ⟨fun v hv => absurd hv (hnone o v hp.1), fun r => ih r (hp.2 r)⟩
  | poll o again k ih => exact ⟨fun v hv => absurd hv (hnone o v hp.1), fun r => ih r (hp.2 r)⟩

/-- **After an answer** the values are those of before, and what the answer gives. -/
theorem Sourced.answer {o : I.Op} {r : I.Res o} {q : Prog I α}
    (hq : Sourced uses gives (fun v => A v ∨ gives o r v) q) (hAB : ∀ v, A v → B v)
    (hgives : ∀ v, gives o r v → B v) : Sourced uses gives B q := by
  refine hq.mono fun v hv => ?_
  obtain hv | hv := hv
  · exact hAB v hv
  · exact hgives v hv

end Interaction
