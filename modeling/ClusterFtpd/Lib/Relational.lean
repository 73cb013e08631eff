import ClusterFtpd.Lib.Interaction

/-!
# Two programs side by side

An open handler can answer an operation in more than one way.  `Answers` relates the operation, the
state before it, the answer and the state behind it, and `Ends` the runs of a program under them.
A handler with a parameter that is read once an operation is open in this sense: `Ends.exists_run`
puts the choices of a run together to one choice for the whole run.

* `Paired` compares the runs of two programs from related states: every end of the first is matched
  by an end of the second.  Its rules are those of a relational Hoare logic.
* `Together` compares two programs operation by operation: they issue related operations, and for
  related answers they go on in the same way.  Other programs may run in between.

`Together.paired` goes from the second to the first.
-/

namespace Interaction

variable {I J : Interface} {α β γ δ σ ε X : Type}

/-- The answers to each operation, with the states behind them. -/
abbrev Answers (I : Interface) (σ : Type) := (o : I.Op) → σ → I.Res o → σ → Prop

/-- The program can end with the value and the second state. -/
def Ends (A : Answers I σ) : Prog I α → σ → α → σ → Prop
  | .ret a, s, b, t => b = a ∧ t = s
  | .stop _, _, _, _ => False
  | .call o k, s, b, t => ∃ r u, A o s r u ∧ Ends A (k r) u b t
  | .poll o again k, s, b, t => ∃ r u, A o s r u ∧ again r = false ∧ Ends A (k r) u b t

variable {A : Answers I σ} {B : Answers J σ}

/-- A sequence ends where its second part does. -/
theorem ends_bind {p : Prog I α} {f : α → Prog I β} {s t : σ} {b : β} :
    Ends A (p >>= f) s b t ↔ ∃ a u, Ends A p s a u ∧ Ends A (f a) u b t := by
  induction p generalizing s with
  | ret a =>
      constructor
      · intro h
        exact ⟨a, s, ⟨rfl, rfl⟩, h⟩
      · intro h
        obtain ⟨a', u, ⟨rfl, rfl⟩, hf⟩ := h
        exact hf
  | stop why =>
      constructor
      · intro h
        exact h.elim
      · intro h
        obtain ⟨a, u, hp, -⟩ := h
        exact hp.elim
  | call o k ih =>
      constructor
      · intro h
        obtain ⟨r, v, hr, hk⟩ := h
        obtain ⟨a, u, hp, hf⟩ := (ih r).mp hk
        exact ⟨a, u, ⟨r, v, hr, hp⟩, hf⟩
      · intro h
        obtain ⟨a, u, ⟨r, v, hr, hp⟩, hf⟩ := h
        exact ⟨r, v, hr, (ih r).mpr ⟨a, u, hp, hf⟩⟩
  | poll o again k ih =>
      constructor
      · intro h
        obtain ⟨r, v, hr, hagain, hk⟩ := h
        obtain ⟨a, u, hp, hf⟩ := (ih r).mp hk
        exact ⟨a, u, ⟨r, v, hr, hagain, hp⟩, hf⟩
      · intro h
        obtain ⟨a, u, ⟨r, v, hr, hagain, hp⟩, hf⟩ := h
        exact ⟨r, v, hr, hagain, (ih r).mpr ⟨a, u, hp, hf⟩⟩

/-- A program in a larger interface that answers its operations in the same way. -/
theorem ends_translate {φ : I.Op → J.Op} {ρ : ∀ o, J.Res (φ o) → I.Res o}
    (hρ : ∀ o r, ∃ r', ρ o r' = r) (hop : ∀ o s r t, B (φ o) s r t ↔ A o s (ρ o r) t)
    {p : Prog I α} {s t : σ} {a : α} : Ends B (translate φ ρ p) s a t ↔ Ends A p s a t := by
  induction p generalizing s with
  | ret a => exact Iff.rfl
  | stop why => exact Iff.rfl
  | call o k ih =>
      constructor
      · intro h
        obtain ⟨r, u, hr, hk⟩ := h
        exact ⟨ρ o r, u, (hop o s r u).mp hr, (ih _).mp hk⟩
      · intro h
        obtain ⟨r, u, hr, hk⟩ := h
        obtain ⟨r', rfl⟩ := hρ o r
        exact ⟨r', u, (hop o s r' u).mpr hr, (ih _).mpr hk⟩
  | poll o again k ih =>
      constructor
      · intro h
        obtain ⟨r, u, hr, hagain, hk⟩ := h
        exact ⟨ρ o r, u, (hop o s r u).mp hr, hagain, (ih _).mp hk⟩
      · intro h
        obtain ⟨r, u, hr, hagain, hk⟩ := h
        obtain ⟨r', rfl⟩ := hρ o r
        exact ⟨r', u, (hop o s r' u).mpr hr, hagain, (ih _).mpr hk⟩

/-! ### One choice for a whole run -/

/-- The answers of a handler whose parameter is open. -/
def someAnswer (h : X → Handler I σ) : Answers I σ := fun o s r t => ∃ x, h x o s = (r, t)

/-- The handler whose parameter is a function of the time. -/
def timed (h : X → Handler I σ) (clock : σ → Nat) (e : Nat → X) : Handler I σ :=
  fun o s => h (e (clock s)) o s

/-- The parameter is read at most once at a time. -/
def ReadsOnce (h : X → Handler I σ) (clock : σ → Nat) : Prop :=
  ∀ o s, (∀ x y, h x o s = h y o s ∧ clock (h x o s).2 = clock s) ∨
    ∀ x, clock s < clock (h x o s).2

variable {h : X → Handler I σ} {clock : σ → Nat}

theorem ReadsOnce.le (hreads : ReadsOnce h clock) (x : X) (o : I.Op) (s : σ) :
    clock s ≤ clock (h x o s).2 := by
  obtain hsame | hlater := hreads o s
  · exact Nat.le_of_eq (hsame x x).2.symm
  · exact Nat.le_of_lt (hlater x)

/-- A run does not depend on the parameter before its beginning. -/
theorem run_timed_congr (hreads : ReadsOnce h clock) {e e' : Nat → X} (p : Prog I α) {s : σ}
    (he : ∀ n, clock s ≤ n → e n = e' n) :
    run (timed h clock e) p s = run (timed h clock e') p s := by
  induction p generalizing s with
  | ret a => rfl
  | stop why => rfl
  | call o k ih =>
      have hsame : timed h clock e o s = timed h clock e' o s := by
        show h (e _) o s = h (e' _) o s
        rw [he _ (Nat.le_refl _)]
      rw [run_call, run_call, hsame]
      apply ih
      intro n hn
      exact he n (Nat.le_trans (hreads.le _ o s) hn)
  | poll o again k ih =>
      have hsame : timed h clock e o s = timed h clock e' o s := by
        show h (e _) o s = h (e' _) o s
        rw [he _ (Nat.le_refl _)]
      rw [run_poll, run_poll, hsame, ih]
      intro n hn
      exact he n (Nat.le_trans (hreads.le _ o s) hn)

/-- A run is one of the ends. -/
theorem ends_of_run {e : Nat → X} {p : Prog I α} {s t : σ} {a : α}
    (hrun : run (timed h clock e) p s = .done a t) : Ends (someAnswer h) p s a t := by
  induction p generalizing s with
  | ret b =>
      rw [run_ret, Outcome.done.injEq] at hrun
      exact ⟨hrun.1.symm, hrun.2.symm⟩
  | stop why => exact absurd hrun (by simp)
  | call o k ih => exact ⟨_, _, ⟨e (clock s), rfl⟩, ih _ hrun⟩
  | poll o again k ih =>
      rw [run_poll] at hrun
      by_cases hagain : again (timed h clock e o s).1 = true
      · rw [if_pos hagain] at hrun
        exact absurd hrun (by simp)
      · rw [if_neg hagain] at hrun
        exact ⟨_, _, ⟨e (clock s), rfl⟩, Bool.eq_false_iff.mpr hagain, ih _ hrun⟩

/-- The choices of an operation and of the run behind it. -/
theorem ReadsOnce.glue (hreads : ReadsOnce h clock) (x : X) (e : Nat → X) (o : I.Op) (s : σ) :
    ∃ e' : Nat → X, timed h clock e' o s = h x o s ∧
      ∀ n, clock (h x o s).2 ≤ n → e' n = e n := by
  obtain hsame | hlater := hreads o s
  · exact ⟨e, (hsame (e _) x).1, fun n _ => rfl⟩
  · refine ⟨Function.update e (clock s) x, ?_, ?_⟩
    · show h (Function.update e (clock s) x (clock s)) o s = h x o s
      rw [Function.update_self]
    · intro n hn
      have hlt := hlater x
      have hne : n ≠ clock s := by omega
      exact Function.update_of_ne hne x e

/-- **The choices of a run make one choice.** -/
theorem Ends.exists_run [Inhabited X] (hreads : ReadsOnce h clock) {p : Prog I α} {s t : σ} {a : α}
    (hends : Ends (someAnswer h) p s a t) :
    ∃ e : Nat → X, run (timed h clock e) p s = .done a t := by
  induction p generalizing s with
  | ret b =>
      obtain ⟨rfl, rfl⟩ := hends
      exact ⟨fun _ => default, rfl⟩
  | stop why => exact hends.elim
  | call o k ih =>
      obtain ⟨r, u, ⟨x, hx⟩, hk⟩ := hends
      obtain ⟨e, he⟩ := ih r hk
      obtain ⟨e', hnow, hbehind⟩ := hreads.glue x e o s
      rw [hx] at hnow hbehind
      refine ⟨e', ?_⟩
      rw [run_call, hnow, run_timed_congr hreads (k r) hbehind]
      exact he
  | poll o again k ih =>
      obtain ⟨r, u, ⟨x, hx⟩, hagain, hk⟩ := hends
      obtain ⟨e, he⟩ := ih r hk
      obtain ⟨e', hnow, hbehind⟩ := hreads.glue x e o s
      rw [hx] at hnow hbehind
      refine ⟨e', ?_⟩
      rw [run_poll, hnow, hagain, if_neg (by simp), run_timed_congr hreads (k r) hbehind]
      exact he

/-! ### Notes in the state -/

/-- The handler that writes its notes down. -/
def noted (h : Handler I σ) (note : (o : I.Op) → I.Res o → Option ε) : Handler I (σ × List ε) :=
  fun o s => ((h o s.1).1, (h o s.1).2, s.2 ++ (note o (h o s.1).1).toList)

/-- What is written down is the trace. -/
theorem run_noted (h : Handler I σ) (note : (o : I.Op) → I.Res o → Option ε) (p : Prog I α) (s : σ)
    (xs : List ε) :
    run (noted h note) p (s, xs) =
      (run h p s).mapState fun t => (t, xs ++ trace h note p s) := by
  induction p generalizing s xs with
  | ret a => simp
  | stop why => simp
  | call o k ih =>
      rw [run_call, run_call, trace_call]
      show run _ (k (h o s).1) ((h o s).2, xs ++ (note o (h o s).1).toList) = _
      rw [ih, List.append_assoc]
  | poll o again k ih =>
      rw [run_poll, run_poll, trace]
      show (if again (h o s).1 = true then _ else run _ (k (h o s).1)
        ((h o s).2, xs ++ (note o (h o s).1).toList)) = _
      by_cases hagain : again (h o s).1 = true
      · rw [if_pos hagain, if_pos hagain, if_pos hagain, List.append_nil]
        rfl
      · rw [if_neg hagain, if_neg hagain, if_neg hagain, ih, List.append_assoc]

theorem ReadsOnce.noted (hreads : ReadsOnce h clock) (note : (o : I.Op) → I.Res o → Option ε) :
    ReadsOnce (fun x => noted (h x) note) fun s => clock s.1 := by
  intro o s
  obtain hsame | hlater := hreads o s.1
  · refine .inl fun x y => ⟨?_, (hsame x x).2⟩
    show ((h x o s.1).1, (h x o s.1).2, s.2 ++ (note o (h x o s.1).1).toList) = _
    rw [(hsame x y).1]
    rfl
  · exact .inr fun x => hlater x

theorem timed_noted (h : X → Handler I σ) (note : (o : I.Op) → I.Res o → Option ε)
    (clock : σ → Nat) (e : Nat → X) :
    timed (fun x => noted (h x) note) (fun s => clock s.1) e = noted (timed h clock e) note := rfl

/-- A noted run that ends is a run with its trace. -/
theorem run_noted_done {h : Handler I σ} {note : (o : I.Op) → I.Res o → Option ε} {p : Prog I α}
    {s : σ} {a : α} {t : σ × List ε} :
    run (noted h note) p (s, []) = .done a t ↔
      run h p s = .done a t.1 ∧ t.2 = trace h note p s := by
  rw [run_noted, List.nil_append]
  cases hrun : run h p s with
  | done b u =>
      rw [Outcome.mapState_done, Outcome.done.injEq, Outcome.done.injEq]
      constructor
      · intro heq
        obtain ⟨rfl, rfl⟩ := heq
        exact ⟨⟨rfl, rfl⟩, rfl⟩
      · intro heq
        obtain ⟨⟨rfl, rfl⟩, htrace⟩ := heq
        exact ⟨rfl, Prod.ext rfl htrace.symm⟩
  | stopped why u =>
      rw [Outcome.mapState_stopped]
      constructor
      · intro heq
        exact absurd heq (by simp)
      · intro heq
        exact absurd heq.1 (by simp)

/-! ### Runs in pairs -/

/-- From related states, every end of the first program is matched by an end of the second. -/
def Paired (A : Answers I σ) (R : σ → σ → Prop) (p : Prog I α) (p' : Prog I β)
    (Q : α → β → σ → σ → Prop) : Prop :=
  ∀ s s', R s s' → ∀ a t, Ends A p s a t → ∃ b t', Ends A p' s' b t' ∧ Q a b t t'

variable {R S : σ → σ → Prop} {p : Prog I α} {p' : Prog I β}

theorem Paired.ret {Q : α → β → σ → σ → Prop} {a : α} {b : β} (h : ∀ s s', R s s' → Q a b s s') :
    Paired A R (.ret a) (.ret b) Q := by
  intro s s' hs a' t hends
  obtain ⟨rfl, rfl⟩ := hends
  exact ⟨b, s', ⟨rfl, rfl⟩, h _ _ hs⟩

theorem Paired.stop {Q : α → β → σ → σ → Prop} (why : Stop) : Paired A R (.stop why) p' Q :=
  fun _ _ _ _ _ hends => hends.elim

/-- The rule of sequences. -/
theorem Paired.bind {Q : α → β → σ → σ → Prop} {f : α → Prog I γ} {f' : β → Prog I δ}
    {T : γ → δ → σ → σ → Prop} (hp : Paired A R p p' Q)
    (hf : ∀ a b, Paired A (Q a b) (f a) (f' b) T) : Paired A R (p >>= f) (p' >>= f') T := by
  intro s s' hs c t hends
  obtain ⟨a, u, hfirst, hrest⟩ := ends_bind.mp hends
  obtain ⟨b, u', hfirst', hu⟩ := hp s s' hs a u hfirst
  obtain ⟨d, t', hrest', ht⟩ := hf a b u u' hu c t hrest
  exact ⟨d, t', ends_bind.mpr ⟨b, u', hfirst', hrest'⟩, ht⟩

/-- The rule of consequence. -/
theorem Paired.imp {Q T : α → β → σ → σ → Prop} (h : Paired A R p p' Q)
    (hpre : ∀ s s', S s s' → R s s') (hpost : ∀ a b t t', Q a b t t' → T a b t t') :
    Paired A S p p' T := by
  intro s s' hs a t hends
  obtain ⟨b, t', hends', ht⟩ := h s s' (hpre s s' hs) a t hends
  exact ⟨b, t', hends', hpost a b t t' ht⟩

/-- A single operation. -/
theorem Paired.op {o o' : I.Op} {Q : I.Res o → I.Res o' → σ → σ → Prop}
    (h : ∀ s s', R s s' → ∀ r t, A o s r t → ∃ r' t', A o' s' r' t' ∧ Q r r' t t') :
    Paired A R (.op o) (.op o') Q := by
  intro s s' hs a t hends
  obtain ⟨r, u, hr, rfl, rfl⟩ := hends
  obtain ⟨r', t', hr', ht⟩ := h s s' hs a t hr
  exact ⟨r', t', ⟨r', t', hr', rfl, rfl⟩, ht⟩

theorem Paired.translate {φ : I.Op → J.Op} {ρ : ∀ o, J.Res (φ o) → I.Res o}
    (hρ : ∀ o r, ∃ r', ρ o r' = r) (hop : ∀ o s r t, B (φ o) s r t ↔ A o s (ρ o r) t)
    {Q : α → β → σ → σ → Prop} (h : Paired A R p p' Q) :
    Paired B R (translate φ ρ p) (translate φ ρ p') Q := by
  intro s s' hs a t hends
  obtain ⟨b, t', hends', ht⟩ := h s s' hs a t ((ends_translate hρ hop).mp hends)
  exact ⟨b, t', (ends_translate hρ hop).mpr hends', ht⟩

/-- **Paired programs run alike**: for every run of the first there is one of the second. -/
theorem Paired.exists_run [Inhabited X] (hreads : ReadsOnce h clock)
    {note : (o : I.Op) → I.Res o → Option ε} {R : σ × List ε → σ × List ε → Prop}
    {T : α → β → σ × List ε → σ × List ε → Prop}
    (hp : Paired (someAnswer fun x => noted (h x) note) R p p' T) {e : Nat → X} {s s' t : σ} {a : α}
    (hs : R (s, []) (s', [])) (hrun : run (timed h clock e) p s = .done a t) :
    ∃ (e' : Nat → X) (b : β) (t' : σ), run (timed h clock e') p' s' = .done b t' ∧
      T a b (t, trace (timed h clock e) note p s) (t', trace (timed h clock e') note p' s') := by
  have hnoted : run (noted (timed h clock e) note) p (s, []) =
      .done a (t, trace (timed h clock e) note p s) := run_noted_done.mpr ⟨hrun, rfl⟩
  rw [← timed_noted] at hnoted
  obtain ⟨b, u, hends, hT⟩ := hp _ _ hs a _ (ends_of_run hnoted)
  obtain ⟨e', hrun'⟩ := hends.exists_run (hreads.noted note)
  rw [timed_noted] at hrun'
  have hdone := run_noted_done.mp hrun'
  refine ⟨e', b, u.1, hdone.1, ?_⟩
  rw [← hdone.2]
  exact hT

/-! ### Operation by operation -/

/-- Which operations are related, and how their answers then are. -/
abbrev Matching (I : Interface) := (o o' : I.Op) → (I.Res o → I.Res o' → Prop) → Prop

/-- The programs issue related operations, and go on in the same way for related answers. -/
inductive Together (M : Matching I) (Q : α → β → Prop) : Prog I α → Prog I β → Prop where
  | ret {a : α} {b : β} : Q a b → Together M Q (.ret a) (.ret b)
  | stop (why : Stop) : Together M Q (.stop why) (.stop why)
  | call {o o' : I.Op} {V : I.Res o → I.Res o' → Prop} {k : I.Res o → Prog I α}
      {k' : I.Res o' → Prog I β} : M o o' V → (∀ r r', V r r' → Together M Q (k r) (k' r')) →
      Together M Q (.call o k) (.call o' k')
  | poll {o o' : I.Op} {V : I.Res o → I.Res o' → Prop} {again : I.Res o → Bool}
      {again' : I.Res o' → Bool} {k : I.Res o → Prog I α} {k' : I.Res o' → Prog I β} :
      M o o' V → (∀ r r', V r r' → again r = again' r') →
      (∀ r r', V r r' → Together M Q (k r) (k' r')) →
      Together M Q (.poll o again k) (.poll o' again' k')

variable {M N : Matching I}

theorem Together.bind {Q : α → β → Prop} {f : α → Prog I γ} {f' : β → Prog I δ}
    {T : γ → δ → Prop} (hp : Together M Q p p') (hf : ∀ a b, Q a b → Together M T (f a) (f' b)) :
    Together M T (p >>= f) (p' >>= f') := by
  induction hp with
  | ret hab => exact hf _ _ hab
  | stop why => exact .stop why
  | call hop _ ih => exact .call hop ih
  | poll hop hagain _ ih => exact .poll hop hagain ih

theorem Together.imp {Q T : α → β → Prop} (h : Together M Q p p') (hQT : ∀ a b, Q a b → T a b) :
    Together M T p p' := by
  induction h with
  | ret hab => exact .ret (hQT _ _ hab)
  | stop why => exact .stop why
  | call hop _ ih => exact .call hop ih
  | poll hop hagain _ ih => exact .poll hop hagain ih

/-- A matching that knows more about the answers. -/
theorem Together.mono {Q : α → β → Prop} (h : Together M Q p p')
    (hMN : ∀ o o' V, M o o' V → ∃ V', N o o' V' ∧ ∀ r r', V' r r' → V r r') :
    Together N Q p p' := by
  induction h with
  | ret hab => exact .ret hab
  | stop why => exact .stop why
  | call hop _ ih =>
      obtain ⟨V', hop', hV⟩ := hMN _ _ _ hop
      exact .call hop' fun r r' hr => ih r r' (hV r r' hr)
  | poll hop hagain _ ih =>
      obtain ⟨V', hop', hV⟩ := hMN _ _ _ hop
      exact .poll hop' (fun r r' hr => hagain r r' (hV r r' hr)) fun r r' hr => ih r r' (hV r r' hr)

/-- A program beside itself, if all its operations are answered alike. -/
theorem Every.together {P : I.Op → Prop} (hP : ∀ o, P o → M o o Eq) {p : Prog I α}
    (hp : Every P p) : Together M Eq p p := by
  induction p with
  | ret a => exact .ret rfl
  | stop why => exact .stop why
  | call o k ih =>
      refine .call (hP o hp.1) fun r r' hr => ?_
      subst hr
      exact ih r (hp.2 r)
  | poll o again k ih =>
      refine .poll (hP o hp.1) (fun r r' hr => congrArg again hr) fun r r' hr => ?_
      subst hr
      exact ih r (hp.2 r)

/-- Related operations keep the relation between the states, and have related answers. -/
def Lockstep (A : Answers I σ) (M : Matching I) (R : σ → σ → Prop) : Prop :=
  ∀ o o' V, M o o' V → ∀ s s' r t, R s s' → A o s r t → ∃ r' t', A o' s' r' t' ∧ V r r' ∧ R t t'

/-- Programs that go together run in pairs. -/
theorem Together.paired (hlock : Lockstep A M R) {Q : α → β → Prop} (h : Together M Q p p') :
    Paired A R p p' fun a b t t' => Q a b ∧ R t t' := by
  induction h with
  | ret hab => exact .ret fun s s' hs => ⟨hab, hs⟩
  | stop why => exact .stop why
  | call hop _ ih =>
      intro s s' hs a t hends
      obtain ⟨r, u, hr, hrest⟩ := hends
      obtain ⟨r', u', hr', hV, hu⟩ := hlock _ _ _ hop s s' r u hs hr
      obtain ⟨b, t', hrest', ht⟩ := ih r r' hV u u' hu a t hrest
      exact ⟨b, t', ⟨r', u', hr', hrest'⟩, ht⟩
  | poll hop hagain _ ih =>
      intro s s' hs a t hends
      obtain ⟨r, u, hr, hno, hrest⟩ := hends
      obtain ⟨r', u', hr', hV, hu⟩ := hlock _ _ _ hop s s' r u hs hr
      obtain ⟨b, t', hrest', ht⟩ := ih r r' hV u u' hu a t hrest
      have hno' := (hagain r r' hV).symm.trans hno
      exact ⟨b, t', ⟨r', u', hr', hno', hrest'⟩, ht⟩

end Interaction
