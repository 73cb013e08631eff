import Mathlib.Logic.Function.Basic
import Mathlib.Tactic.Basic

/-!
# Interaction programs: stateful code as a tree of operations

A program over an interface is a finite tree of operations.  Each operation is answered by a
handler, and the rest of the program depends on the answer.  One program has several meanings:

* `run` executes it alone, over a handler, to an `Outcome`;
* an interleaving semantics steps several of them over one shared state.

`poll` is the busy wait of imperative code: the same operation is issued again as long as its
answer asks for it.  Executed alone, over a state that the operation does not change, a poll whose
first answer asks for another round never ends, and `run` says so (`Stop.loops`).

`trace` lists what a run notes down about its operations.

The rules the developments over this library use: `run_bind` and `trace_bind` (sequencing),
`run_translate` and `trace_translate` (embedding programs of a smaller interface), and the frame
rule `Every.run_state` (what every operation of a program preserves, its run preserves).
-/

namespace Interaction

/-- The operations a program can issue, with the type of the answer to each. -/
structure Interface where
  Op : Type
  Res : Op → Type

/-- Why a run ends without a value: a poll that never gets its answer, a call that does not
return, an uncaught exception, or undefined behaviour. -/
inductive Stop where
  | loops
  | blocked
  | terminate
  | undefinedBehaviour
  deriving DecidableEq, Repr

/-- Programs over the interface `I` with a result in `α`. -/
inductive Prog (I : Interface) (α : Type) : Type where
  | ret : α → Prog I α
  | stop : Stop → Prog I α
  | call : (o : I.Op) → (I.Res o → Prog I α) → Prog I α
  | poll : (o : I.Op) → (I.Res o → Bool) → (I.Res o → Prog I α) → Prog I α

variable {I J : Interface} {α β σ τ : Type}

namespace Prog

/-- Sequencing: graft `f a` onto every leaf `ret a`. -/
def bind : Prog I α → (α → Prog I β) → Prog I β
  | .ret a, f => f a
  | .stop w, _ => .stop w
  | .call o k, f => .call o fun r => (k r).bind f
  | .poll o again k, f => .poll o again fun r => (k r).bind f

instance : Monad (Prog I) where
  pure := .ret
  bind := .bind

/-- A single operation. -/
def op (o : I.Op) : Prog I (I.Res o) := .call o .ret

@[simp] theorem pure_eq (a : α) : (pure a : Prog I α) = .ret a := rfl

@[simp] theorem ret_bind (a : α) (f : α → Prog I β) : (Prog.ret a >>= f) = f a := rfl

@[simp] theorem stop_bind (w : Stop) (f : α → Prog I β) : (Prog.stop w >>= f) = .stop w := rfl

@[simp] theorem call_bind (o : I.Op) (k : I.Res o → Prog I α) (f : α → Prog I β) :
    (Prog.call o k >>= f) = .call o fun r => k r >>= f := rfl

@[simp] theorem poll_bind (o : I.Op) (again : I.Res o → Bool) (k : I.Res o → Prog I α)
    (f : α → Prog I β) :
    (Prog.poll o again k >>= f) = .poll o again fun r => k r >>= f := rfl

@[simp] theorem op_bind (o : I.Op) (f : I.Res o → Prog I β) : (op o >>= f) = .call o f := rfl

end Prog

/-! ### Running a program alone -/

/-- A handler answers an operation and moves the state. -/
abbrev Handler (I : Interface) (σ : Type) := (o : I.Op) → σ → I.Res o × σ

/-- How a run ends, with the state it leaves. -/
inductive Outcome (σ α : Type) where
  | done : α → σ → Outcome σ α
  | stopped : Stop → σ → Outcome σ α

namespace Outcome

/-- The state a run leaves, however it ends. -/
def state : Outcome σ α → σ
  | .done _ s => s
  | .stopped _ s => s

/-- The value of a run, if it ends with one. -/
def value : Outcome σ α → Option α
  | .done a _ => some a
  | .stopped _ _ => none

/-- Go on from a finished run. -/
def andThen : Outcome σ α → (α → σ → Outcome σ β) → Outcome σ β
  | .done a s, f => f a s
  | .stopped w s, _ => .stopped w s

@[simp] theorem state_done (a : α) (s : σ) : (Outcome.done a s).state = s := rfl

@[simp] theorem state_stopped (w : Stop) (s : σ) :
    (Outcome.stopped w s : Outcome σ α).state = s := rfl

@[simp] theorem value_done (a : α) (s : σ) : (Outcome.done a s).value = some a := rfl

@[simp] theorem value_stopped (w : Stop) (s : σ) :
    (Outcome.stopped w s : Outcome σ α).value = none := rfl

@[simp] theorem done_andThen (a : α) (s : σ) (f : α → σ → Outcome σ β) :
    (Outcome.done a s).andThen f = f a s := rfl

@[simp] theorem stopped_andThen (w : Stop) (s : σ) (f : α → σ → Outcome σ β) :
    (Outcome.stopped w s).andThen f = .stopped w s := rfl

/-- Read an outcome over a part of the state as one over the whole. -/
def mapState (g : σ → τ) : Outcome σ α → Outcome τ α
  | .done a s => .done a (g s)
  | .stopped w s => .stopped w (g s)

@[simp] theorem mapState_done (g : σ → τ) (a : α) (s : σ) :
    (Outcome.done a s).mapState g = .done a (g s) := rfl

@[simp] theorem mapState_stopped (g : σ → τ) (w : Stop) (s : σ) :
    (Outcome.stopped w s : Outcome σ α).mapState g = .stopped w (g s) := rfl

end Outcome

/-- Execute a program alone. -/
def run (h : Handler I σ) : Prog I α → σ → Outcome σ α
  | .ret a, s => .done a s
  | .stop w, s => .stopped w s
  | .call o k, s => run h (k (h o s).1) (h o s).2
  | .poll o again k, s =>
      if again (h o s).1 then .stopped .loops (h o s).2 else run h (k (h o s).1) (h o s).2

variable (h : Handler I σ)

@[simp] theorem run_ret (a : α) (s : σ) : run h (.ret a) s = .done a s := rfl

@[simp] theorem run_stop (w : Stop) (s : σ) : run h (.stop w : Prog I α) s = .stopped w s := rfl

@[simp] theorem run_call (o : I.Op) (k : I.Res o → Prog I α) (s : σ) :
    run h (.call o k) s = run h (k (h o s).1) (h o s).2 := rfl

theorem run_poll (o : I.Op) (again : I.Res o → Bool) (k : I.Res o → Prog I α) (s : σ) :
    run h (.poll o again k) s =
      if again (h o s).1 then .stopped .loops (h o s).2 else run h (k (h o s).1) (h o s).2 := rfl

/-- Running a sequence is running the first part and going on from its outcome. -/
theorem run_bind (p : Prog I α) (f : α → Prog I β) (s : σ) :
    run h (p >>= f) s = (run h p s).andThen fun a s' => run h (f a) s' := by
  induction p generalizing s with
  | ret a => rfl
  | stop w => rfl
  | call o k ih => exact ih _ _
  | poll o again k ih =>
      rw [Prog.poll_bind, run_poll, run_poll]
      by_cases ha : again (h o s).1
      · rw [if_pos ha, if_pos ha]; rfl
      · rw [if_neg ha, if_neg ha]; exact ih _ _

/-- A sequence that ends with a value has run through both parts. -/
theorem run_bind_done {p : Prog I α} {f : α → Prog I β} {s t : σ} {b : β} :
    run h (p >>= f) s = .done b t ↔ ∃ a u, run h p s = .done a u ∧ run h (f a) u = .done b t := by
  rw [run_bind]
  cases hp : run h p s with
  | done a u =>
      rw [Outcome.done_andThen]
      constructor
      · intro hf
        exact ⟨a, u, rfl, hf⟩
      · rintro ⟨a', u', heq, hf⟩
        rw [Outcome.done.injEq] at heq
        obtain ⟨rfl, rfl⟩ := heq
        exact hf
  | stopped w u =>
      rw [Outcome.stopped_andThen]
      constructor
      · intro hf
        exact absurd hf (by simp)
      · rintro ⟨a', u', heq, -⟩
        exact absurd heq (by simp)

theorem bind_bind {γ : Type} (p : Prog I α) (f : α → Prog I β) (g : β → Prog I γ) :
    (p >>= f) >>= g = p >>= fun a => f a >>= g := by
  induction p with
  | ret a => rfl
  | stop w => rfl
  | call o k ih => exact congrArg (Prog.call o) (funext ih)
  | poll o again k ih => exact congrArg (Prog.poll o again) (funext ih)

/-! ### One operation at a time -/

/-- The first operation of a program, with its answer, the rest of the program and the state. -/
def step (h : Handler I σ) : Prog I α → σ → Option ((Σ o, I.Res o) × Prog I α × σ)
  | .ret _, _ => none
  | .stop _, _ => none
  | .call o k, s => some (⟨o, (h o s).1⟩, k (h o s).1, (h o s).2)
  | .poll o again k, s =>
      some (⟨o, (h o s).1⟩, if again (h o s).1 then .poll o again k else k (h o s).1, (h o s).2)

/-- Put the program `f o` in the place of every call of `o`; polls are embedded by `φ` and `ρ`. -/
def expand (f : (o : I.Op) → Prog J (I.Res o)) (φ : I.Op → J.Op)
    (ρ : ∀ o, J.Res (φ o) → I.Res o) : Prog I α → Prog J α
  | .ret a => .ret a
  | .stop w => .stop w
  | .call o k => f o >>= fun r => expand f φ ρ (k r)
  | .poll o again k => .poll (φ o) (fun r => again (ρ o r)) fun r => expand f φ ρ (k (ρ o r))

/-! ### Embedding programs of a smaller interface -/

/-- Issue `φ o` wherever the program issues `o`, and read the answer back through `ρ`. -/
def translate (φ : I.Op → J.Op) (ρ : ∀ o, J.Res (φ o) → I.Res o) : Prog I α → Prog J α
  | .ret a => .ret a
  | .stop w => .stop w
  | .call o k => .call (φ o) fun r => translate φ ρ (k (ρ o r))
  | .poll o again k =>
      .poll (φ o) (fun r => again (ρ o r)) fun r => translate φ ρ (k (ρ o r))

/-- **The embedding rule.**  If the larger handler serves the translated operations on a part of
its state as the smaller one does, a translated program runs on that part alone. -/
theorem run_translate {h : Handler I σ} {g : Handler J τ} {φ : I.Op → J.Op}
    {ρ : ∀ o, J.Res (φ o) → I.Res o} (get : τ → σ) (set : τ → σ → τ)
    (hget : ∀ t s, get (set t s) = s) (hset : ∀ t s s', set (set t s) s' = set t s')
    (hself : ∀ t, set t (get t) = t)
    (hop : ∀ o t, ρ o (g (φ o) t).1 = (h o (get t)).1 ∧
      (g (φ o) t).2 = set t (h o (get t)).2) (p : Prog I α) (t : τ) :
    run g (translate φ ρ p) t = (run h p (get t)).mapState (set t) := by
  induction p generalizing t with
  | ret a => simp [translate, hself]
  | stop w => simp [translate, hself]
  | call o k ih =>
      obtain ⟨hres, hst⟩ := hop o t
      rw [translate, run_call, run_call, ih, hres, hst, hget]
      cases run h (k (h o (get t)).1) (h o (get t)).2 <;> simp [hset]
  | poll o again k ih =>
      obtain ⟨hres, hst⟩ := hop o t
      rw [translate, run_poll, run_poll, hres, hst]
      by_cases ha : again (h o (get t)).1
      · simp [ha]
      · rw [if_neg ha, if_neg ha, ih, hget]
        cases run h (k (h o (get t)).1) (h o (get t)).2 <;> simp [hset]

/-! ### The frame rule -/

/-- Every operation the program can issue, on any path, satisfies `P`. -/
def Every (P : I.Op → Prop) : Prog I α → Prop
  | .ret _ => True
  | .stop _ => True
  | .call o k => P o ∧ ∀ r, Every P (k r)
  | .poll o _ k => P o ∧ ∀ r, Every P (k r)

variable {P : I.Op → Prop}

@[simp] theorem every_ret (a : α) : Every P (.ret a) := trivial

@[simp] theorem every_stop (w : Stop) : Every P (.stop w : Prog I α) := trivial

@[simp] theorem every_call (o : I.Op) (k : I.Res o → Prog I α) :
    Every P (.call o k) ↔ P o ∧ ∀ r, Every P (k r) := Iff.rfl

@[simp] theorem every_poll (o : I.Op) (again : I.Res o → Bool) (k : I.Res o → Prog I α) :
    Every P (.poll o again k) ↔ P o ∧ ∀ r, Every P (k r) := Iff.rfl

@[simp] theorem every_ite (c : Prop) [Decidable c] (p q : Prog I α) :
    Every P (if c then p else q) ↔ (c → Every P p) ∧ (¬c → Every P q) := by
  by_cases hc : c <;> simp [hc]

theorem every_true (p : Prog I α) : Every (fun _ => True) p := by
  induction p with
  | ret a => trivial
  | stop w => trivial
  | call o k ih => exact ⟨trivial, ih⟩
  | poll o again k ih => exact ⟨trivial, ih⟩

theorem Every.bind {p : Prog I α} {f : α → Prog I β} (hp : Every P p) (hf : ∀ a, Every P (f a)) :
    Every P (p >>= f) := by
  induction p with
  | ret a => exact hf a
  | stop w => trivial
  | call o k ih => exact ⟨hp.1, fun r => ih r (hp.2 r)⟩
  | poll o again k ih => exact ⟨hp.1, fun r => ih r (hp.2 r)⟩

theorem Every.mono {Q : I.Op → Prop} (hPQ : ∀ o, P o → Q o) {p : Prog I α} (hp : Every P p) :
    Every Q p := by
  induction p with
  | ret a => trivial
  | stop w => trivial
  | call o k ih => exact ⟨hPQ o hp.1, fun r => ih r (hp.2 r)⟩
  | poll o again k ih => exact ⟨hPQ o hp.1, fun r => ih r (hp.2 r)⟩

theorem Every.translate {Q : J.Op → Prop} {φ : I.Op → J.Op} {ρ : ∀ o, J.Res (φ o) → I.Res o}
    (hQ : ∀ o, P o → Q (φ o)) {p : Prog I α} (hp : Every P p) :
    Every Q (translate φ ρ p) := by
  induction p with
  | ret a => trivial
  | stop w => trivial
  | call o k ih => exact ⟨hQ o hp.1, fun r => ih _ (hp.2 _)⟩
  | poll o again k ih => exact ⟨hQ o hp.1, fun r => ih _ (hp.2 _)⟩

/-- **The frame rule.**  A reflexive and transitive relation that every operation of the program
keeps between the states before and after it holds between the ends of the run. -/
theorem Every.run_state {R : σ → σ → Prop} (hrefl : ∀ s, R s s)
    (htrans : ∀ s t u, R s t → R t u → R s u) (hstep : ∀ o, P o → ∀ s, R s (h o s).2)
    {p : Prog I α} (hp : Every P p) (s : σ) : R s (run h p s).state := by
  induction p generalizing s with
  | ret a => exact hrefl s
  | stop w => exact hrefl s
  | call o k ih => exact htrans _ _ _ (hstep o hp.1 s) (ih _ (hp.2 _) _)
  | poll o again k ih =>
      rw [run_poll]
      by_cases ha : again (h o s).1
      · rw [if_pos ha]; exact hstep o hp.1 s
      · rw [if_neg ha]; exact htrans _ _ _ (hstep o hp.1 s) (ih _ (hp.2 _) _)

/-- The frame rule for a part of the state that no operation of the program changes. -/
theorem Every.run_keeps {γ : Type} (get : σ → γ) (hstep : ∀ o, P o → ∀ s, get (h o s).2 = get s)
    {p : Prog I α} (hp : Every P p) (s : σ) : get (run h p s).state = get s :=
  hp.run_state h (R := fun s t => get t = get s) (fun _ => rfl)
    (fun _ _ _ h₁ h₂ => h₂.trans h₁) hstep s

/-! ### Under an assumption on the answers -/

/-- Every operation the program can issue satisfies `P`, as long as the answers satisfy `A`. -/
def EveryIf (A : (o : I.Op) → I.Res o → Prop) (P : I.Op → Prop) : Prog I α → Prop
  | .ret _ => True
  | .stop _ => True
  | .call o k => P o ∧ ∀ r, A o r → EveryIf A P (k r)
  | .poll o _ k => P o ∧ ∀ r, A o r → EveryIf A P (k r)

variable {A : (o : I.Op) → I.Res o → Prop}

theorem EveryIf.bind {p : Prog I α} {f : α → Prog I β} (hp : EveryIf A P p)
    (hf : ∀ a, EveryIf A P (f a)) : EveryIf A P (p >>= f) := by
  induction p with
  | ret a => exact hf a
  | stop w => trivial
  | call o k ih => exact ⟨hp.1, fun r hr => ih r (hp.2 r hr)⟩
  | poll o again k ih => exact ⟨hp.1, fun r hr => ih r (hp.2 r hr)⟩

/-- What every operation satisfies needs no assumption. -/
theorem Every.everyIf {Q : I.Op → Prop} (hPQ : ∀ o, P o → Q o) {p : Prog I α} (hp : Every P p) :
    EveryIf A Q p := by
  induction p with
  | ret a => trivial
  | stop w => trivial
  | call o k ih => exact ⟨hPQ o hp.1, fun r _ => ih r (hp.2 r)⟩
  | poll o again k ih => exact ⟨hPQ o hp.1, fun r _ => ih r (hp.2 r)⟩

/-! ### What a run notes down -/

variable {ε : Type}

/-- The notes of a run, in the order of its operations; `note` tells which operations are noted. -/
def trace (note : (o : I.Op) → I.Res o → Option ε) : Prog I α → σ → List ε
  | .ret _, _ => []
  | .stop _, _ => []
  | .call o k, s => (note o (h o s).1).toList ++ trace note (k (h o s).1) (h o s).2
  | .poll o again k, s =>
      (note o (h o s).1).toList ++
        if again (h o s).1 then [] else trace note (k (h o s).1) (h o s).2

variable (note : (o : I.Op) → I.Res o → Option ε)

@[simp] theorem trace_ret (a : α) (s : σ) : trace h note (.ret a) s = [] := rfl

@[simp] theorem trace_stop (w : Stop) (s : σ) : trace h note (.stop w : Prog I α) s = [] := rfl

@[simp] theorem trace_call (o : I.Op) (k : I.Res o → Prog I α) (s : σ) :
    trace h note (.call o k) s =
      (note o (h o s).1).toList ++ trace h note (k (h o s).1) (h o s).2 := rfl

/-- The notes of a sequence: those of the first part, and of the second if the first ends. -/
theorem trace_bind (p : Prog I α) (f : α → Prog I β) (s : σ) :
    trace h note (p >>= f) s = trace h note p s ++
      match run h p s with
      | .done a t => trace h note (f a) t
      | .stopped _ _ => [] := by
  induction p generalizing s with
  | ret a => rfl
  | stop w => rfl
  | call o k ih =>
      rw [Prog.call_bind, trace_call, trace_call, run_call, ih, List.append_assoc]
  | poll o again k ih =>
      rw [Prog.poll_bind, trace, trace, run_poll]
      by_cases ha : again (h o s).1
      · rw [if_pos ha, if_pos ha, if_pos ha]
        simp
      · rw [if_neg ha, if_neg ha, if_neg ha, ih, List.append_assoc]

/-- The notes of a program that the larger handler runs as the smaller one does. -/
theorem trace_translate {h : Handler I σ} {g : Handler J σ} {φ : I.Op → J.Op}
    {ρ : ∀ o, J.Res (φ o) → I.Res o} {note : (o : I.Op) → I.Res o → Option ε}
    {note' : (o : J.Op) → J.Res o → Option ε}
    (hop : ∀ o t, ρ o (g (φ o) t).1 = (h o t).1 ∧ (g (φ o) t).2 = (h o t).2)
    (hnote : ∀ o r, note' (φ o) r = note o (ρ o r)) (p : Prog I α) (s : σ) :
    trace g note' (translate φ ρ p) s = trace h note p s := by
  induction p generalizing s with
  | ret a => rfl
  | stop w => rfl
  | call o k ih =>
      obtain ⟨hres, hst⟩ := hop o s
      rw [translate, trace_call, trace_call, hnote, hres, hst, ih]
  | poll o again k ih =>
      obtain ⟨hres, hst⟩ := hop o s
      rw [translate, trace, trace, hnote, hres, hst, ih]

/-- Every note of a program is about one of its operations. -/
theorem Every.mem_trace {p : Prog I α} (hp : Every P p) {s : σ} {x : ε}
    (hx : x ∈ trace h note p s) : ∃ o r, P o ∧ note o r = some x := by
  induction p generalizing s with
  | ret a => exact absurd hx (by simp)
  | stop w => exact absurd hx (by simp)
  | call o k ih =>
      rw [trace_call, List.mem_append, Option.mem_toList] at hx
      obtain hx | hx := hx
      · exact ⟨o, _, hp.1, hx⟩
      · exact ih _ (hp.2 _) hx
  | poll o again k ih =>
      rw [trace, List.mem_append, Option.mem_toList] at hx
      obtain hx | hx := hx
      · exact ⟨o, _, hp.1, hx⟩
      · by_cases ha : again (h o s).1
        · rw [if_pos ha] at hx
          exact absurd hx (by simp)
        · rw [if_neg ha] at hx
          exact ih _ (hp.2 _) hx

/-- A program whose operations are not noted has no notes. -/
theorem Every.trace_eq_nil {p : Prog I α} (hp : Every P p)
    (hnone : ∀ o r, P o → note o r = none) (s : σ) : trace h note p s = [] := by
  rw [List.eq_nil_iff_forall_not_mem]
  intro x hx
  obtain ⟨o, r, ho, hnote⟩ := hp.mem_trace h note hx
  rw [hnone o r ho] at hnote
  exact absurd hnote (by simp)

/-! ### How many operations a run makes -/

/-- No path through the program issues more than `n` operations. -/
def AtMost : Prog I α → Nat → Prop
  | .ret _, _ => True
  | .stop _, _ => True
  | .call _ k, n => ∃ m, n = m + 1 ∧ ∀ r, AtMost (k r) m
  | .poll _ _ k, n => ∃ m, n = m + 1 ∧ ∀ r, AtMost (k r) m

/-- A run notes down at most one thing for each operation. -/
theorem AtMost.length_trace {p : Prog I α} {n : Nat} (hp : AtMost p n) (s : σ) :
    (trace h note p s).length ≤ n := by
  have hone : ∀ x : Option ε, x.toList.length ≤ 1 := by
    intro x
    cases x <;> simp
  induction p generalizing n s with
  | ret a => exact Nat.zero_le n
  | stop w => exact Nat.zero_le n
  | call o k ih =>
      obtain ⟨m, rfl, hrest⟩ := hp
      have hfirst := hone (note o (h o s).1)
      have hlater := ih _ (hrest (h o s).1) (h o s).2
      rw [trace_call, List.length_append]
      omega
  | poll o again k ih =>
      obtain ⟨m, rfl, hrest⟩ := hp
      have hfirst := hone (note o (h o s).1)
      have hlater := ih _ (hrest (h o s).1) (h o s).2
      rw [trace, List.length_append]
      by_cases ha : again (h o s).1
      · rw [if_pos ha, List.length_nil]
        omega
      · rw [if_neg ha]
        omega

/-! ### What holds along a run -/

/-- Every operation the run issues satisfies `B` in the state it is issued in. -/
def Along (B : I.Op → σ → Prop) : Prog I α → σ → Prop
  | .ret _, _ => True
  | .stop _, _ => True
  | .call o k, s => B o s ∧ Along B (k (h o s).1) (h o s).2
  | .poll o again k, s =>
      B o s ∧ (again (h o s).1 = false → Along B (k (h o s).1) (h o s).2)

variable {B : I.Op → σ → Prop}

@[simp] theorem along_ret (a : α) (s : σ) : Along h B (.ret a) s := trivial

@[simp] theorem along_stop (w : Stop) (s : σ) : Along h B (.stop w : Prog I α) s := trivial

@[simp] theorem along_call (o : I.Op) (k : I.Res o → Prog I α) (s : σ) :
    Along h B (.call o k) s ↔ B o s ∧ Along h B (k (h o s).1) (h o s).2 := Iff.rfl

theorem along_bind (p : Prog I α) (f : α → Prog I β) (s : σ) :
    Along h B (p >>= f) s ↔ Along h B p s ∧ ∀ a t, run h p s = .done a t → Along h B (f a) t := by
  induction p generalizing s with
  | ret a =>
      constructor
      · intro hf
        refine ⟨trivial, ?_⟩
        intro a' t heq
        rw [run_ret, Outcome.done.injEq] at heq
        obtain ⟨rfl, rfl⟩ := heq
        exact hf
      · intro hf
        exact hf.2 a s rfl
  | stop w =>
      refine iff_of_true trivial ⟨trivial, ?_⟩
      intro a t heq
      exact absurd heq (by simp)
  | call o k ih =>
      rw [Prog.call_bind, along_call, along_call, ih, and_assoc]
      exact Iff.rfl
  | poll o again k ih =>
      rw [Prog.poll_bind, run_poll]
      show (_ ∧ (_ → Along h B (k _ >>= f) _)) ↔ (_ ∧ (_ → _)) ∧ _
      cases ha : again (h o s).1 with
      | true => simp
      | false => simp [ih, and_assoc]

/-- Every note of a run is about an operation that satisfies `B` where it is issued. -/
theorem Along.mem_trace {p : Prog I α} {s : σ} (hp : Along h B p s) {x : ε}
    (hx : x ∈ trace h note p s) : ∃ o t, B o t ∧ note o (h o t).1 = some x := by
  induction p generalizing s with
  | ret a => exact absurd hx (by simp)
  | stop w => exact absurd hx (by simp)
  | call o k ih =>
      rw [trace_call, List.mem_append, Option.mem_toList] at hx
      obtain hx | hx := hx
      · exact ⟨o, s, hp.1, hx⟩
      · exact ih _ hp.2 hx
  | poll o again k ih =>
      rw [trace, List.mem_append, Option.mem_toList] at hx
      obtain hx | hx := hx
      · exact ⟨o, s, hp.1, hx⟩
      · cases ha : again (h o s).1 with
        | true =>
            rw [ha, if_pos rfl] at hx
            exact absurd hx (by simp)
        | false =>
            rw [ha, if_neg (by simp)] at hx
            exact ih _ (hp.2 ha) hx

/-- What every operation of a program satisfies everywhere holds along its runs. -/
theorem Every.along {p : Prog I α} (hp : Every P p) (hB : ∀ o s, P o → B o s) (s : σ) :
    Along h B p s := by
  induction p generalizing s with
  | ret a => trivial
  | stop w => trivial
  | call o k ih => exact ⟨hB o s hp.1, ih _ (hp.2 _) _⟩
  | poll o again k ih => exact ⟨hB o s hp.1, fun _ => ih _ (hp.2 _) _⟩

/-- What every operation with `B` keeps holds wherever the run ends. -/
theorem Along.run_state {Inv : σ → Prop} (hstep : ∀ o s, B o s → Inv s → Inv (h o s).2)
    {p : Prog I α} {s : σ} (hp : Along h B p s) (hs : Inv s) : Inv (run h p s).state := by
  induction p generalizing s with
  | ret a => exact hs
  | stop w => exact hs
  | call o k ih => exact ih _ hp.2 (hstep o s hp.1 hs)
  | poll o again k ih =>
      have hafter := hstep o s hp.1 hs
      rw [run_poll]
      by_cases ha : again (h o s).1 = true
      · rw [if_pos ha]
        exact hafter
      · rw [if_neg ha]
        exact ih _ (hp.2 (Bool.eq_false_iff.2 ha)) hafter

/-! ### Triples -/

/-- From every state that satisfies `P`, the program issues only operations that `B` allows, and an
end of it satisfies `Q`. -/
structure Sound (h : Handler I σ) (B : I.Op → σ → Prop) (P : σ → Prop) (p : Prog I α)
    (Q : α → σ → Prop) : Prop where
  along : ∀ s, P s → Along h B p s
  ends : ∀ s, P s → ∀ a t, run h p s = .done a t → Q a t

variable {h} {P P' : σ → Prop} {Q : α → σ → Prop} {R : β → σ → Prop}

theorem Sound.ret {a : α} (hQ : ∀ s, P s → Q a s) : Sound h B P (.ret a) Q := by
  refine ⟨fun s _ => trivial, ?_⟩
  intro s hs a' t heq
  rw [run_ret, Outcome.done.injEq] at heq
  rw [← heq.1, ← heq.2]
  exact hQ s hs

theorem Sound.stop {w : Stop} : Sound h B P (.stop w : Prog I α) Q := by
  refine ⟨fun s _ => trivial, ?_⟩
  intro s _ a t heq
  exact absurd heq (by simp)

/-- **The sequence rule.** -/
theorem Sound.bind {p : Prog I α} {f : α → Prog I β} (hp : Sound h B P p Q)
    (hf : ∀ a, Sound h B (Q a) (f a) R) : Sound h B P (p >>= f) R := by
  constructor
  · intro s hs
    rw [along_bind]
    exact ⟨hp.along s hs, fun a t hrun => (hf a).along t (hp.ends s hs a t hrun)⟩
  · intro s hs b u hrun
    obtain ⟨a, t, hrun₁, hrun₂⟩ := (run_bind_done h).mp hrun
    exact (hf a).ends t (hp.ends s hs a t hrun₁) b u hrun₂

/-- The sequence rule where the first program keeps an invariant. -/
theorem Sound.bind_inv {p : Prog I α} {f : α → Prog I β} {S : α → Prop}
    (hp : Sound h B P p fun a s => S a ∧ P s) (hf : ∀ a, S a → Sound h B P (f a) R) :
    Sound h B P (p >>= f) R := by
  apply Sound.bind hp
  intro a
  constructor
  · intro s hs
    exact (hf a hs.1).along s hs.2
  · intro s hs
    exact (hf a hs.1).ends s hs.2

/-- The rule of consequence. -/
theorem Sound.imp {Q' : α → σ → Prop} {p : Prog I α} (hp : Sound h B P p Q)
    (hP : ∀ s, P' s → P s) (hQ : ∀ a s, Q a s → Q' a s) : Sound h B P' p Q' :=
  ⟨fun s hs => hp.along s (hP s hs), fun s hs a t hrun => hQ a t (hp.ends s (hP s hs) a t hrun)⟩

/-- **The frame rule.**  A condition that every operation keeps, and under which it is allowed. -/
theorem Sound.frame {O : I.Op → Prop} {p : Prog I α} (hp : Every O p)
    (hop : ∀ o, O o → ∀ s, P s → B o s ∧ P (h o s).2) : Sound h B P p fun _ => P := by
  have hboth : ∀ s, P s → Along h B p s ∧ ∀ a t, run h p s = .done a t → P t := by
    induction p with
    | ret a =>
        intro s hs
        refine ⟨trivial, ?_⟩
        intro a' t heq
        rw [run_ret, Outcome.done.injEq] at heq
        rw [← heq.2]
        exact hs
    | stop w => exact fun s _ => ⟨trivial, fun a t heq => absurd heq (by simp)⟩
    | call o k ih =>
        intro s hs
        obtain ⟨hB, hP⟩ := hop o hp.1 s hs
        obtain ⟨halong, hends⟩ := ih _ (hp.2 _) _ hP
        exact ⟨⟨hB, halong⟩, hends⟩
    | poll o again k ih =>
        intro s hs
        obtain ⟨hB, hP⟩ := hop o hp.1 s hs
        obtain ⟨halong, hends⟩ := ih (h o s).1 (hp.2 _) _ hP
        refine ⟨⟨hB, fun _ => halong⟩, ?_⟩
        intro a t heq
        rw [run_poll] at heq
        by_cases ha : again (h o s).1
        · rw [if_pos ha] at heq
          exact absurd heq (by simp)
        · rw [if_neg ha] at heq
          exact hends a t heq
  exact ⟨fun s hs => (hboth s hs).1, fun s hs => (hboth s hs).2⟩

/-- One operation. -/
theorem Sound.op {o : I.Op} {Q : I.Res o → σ → Prop} (hB : ∀ s, P s → B o s)
    (hQ : ∀ s, P s → Q (h o s).1 (h o s).2) : Sound h B P (Prog.op o) Q := by
  refine ⟨fun s hs => ⟨hB s hs, trivial⟩, ?_⟩
  intro s hs a t hrun
  have heq : Outcome.done (h o s).1 (h o s).2 = .done a t := hrun
  rw [Outcome.done.injEq] at heq
  rw [← heq.1, ← heq.2]
  exact hQ s hs

end Interaction
