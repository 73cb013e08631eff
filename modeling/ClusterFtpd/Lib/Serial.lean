import ClusterFtpd.Lib.Interaction
import Mathlib.Data.List.Basic
import Mathlib.Data.List.Infix

/-!
# Traces of interleaved programs and their sequential orders

A trace lists the operations that several programs executed over one shared state, in the order of
execution, each with the name of the program that issued it and with what that program learned from
the answer (`Event.saw`: the answers after which it goes on in the same way).

Two neighbouring events can be exchanged when, wherever they happen one after the other, they also
happen the other way round and leave the same state.  `Replays.serial` is the rule: if every event
that stands before an event of a program which is earlier in `order` can be exchanged with it, the
programs run one after the other in `order` give the same answers and the same final state.  The
exchanges are only asked for in the states of an invariant that every event of the trace keeps.

`Uses` says which answers a program does not tell apart, and `Exchangeable.of_unmoved` gets the
exchange of two events from there: neither operation moves the answer of the other.
-/

namespace Interaction

variable {I : Interface} {ι α β σ : Type}

/-- An executed operation, with the answers its program does not tell apart from the real one. -/
structure Event (I : Interface) where
  op : I.Op
  saw : I.Res op → Prop

variable (h : Handler I σ)

/-- The event happens in `s`: its program sees what it saw. -/
def Event.Happens (e : Event I) (s : σ) : Prop := e.saw (h e.op s).1

/-- The state after the event. -/
def Event.after (e : Event I) (s : σ) : σ := (h e.op s).2

/-- One operation of a running program: the program goes on as `q`, the shared state is `t`. -/
inductive Step : Prog I α → σ → Event I → Prog I α → σ → Prop where
  | call {o k s} :
      Step (.call o k) s ⟨o, fun r => k r = k (h o s).1⟩ (k (h o s).1) (h o s).2
  | poll {o again k s} : again (h o s).1 = false →
      Step (.poll o again k) s ⟨o, fun r => again r = false ∧ k r = k (h o s).1⟩
        (k (h o s).1) (h o s).2

/-- Wherever `d` follows `e` in a state of `Inv`, the two could have come the other way round. -/
def Exchangeable (Inv : σ → Prop) (e d : Event I) : Prop :=
  ∀ s, Inv s → e.Happens h s → d.Happens h (e.after h s) →
    d.Happens h s ∧ e.Happens h (d.after h s) ∧ e.after h (d.after h s) = d.after h (e.after h s)

/-- The event keeps the invariant. -/
def Event.Keeps (Inv : σ → Prop) (e : Event I) : Prop := ∀ s, Inv s → Inv (e.after h s)

/-- The events of the trace happen, in order, from `s` to `t`. -/
def Replays : List (Event I) → σ → σ → Prop
  | [], s, t => s = t
  | e :: es, s, t => e.Happens h s ∧ Replays es (e.after h s) t

/-- The program ends with `a` whenever its operations are answered as in the trace. -/
inductive Plays : Prog I α → List (Event I) → α → Prop where
  | ret (a) : Plays (.ret a) [] a
  | call {o k saw es a} : (∀ r, saw r → Plays (k r) es a) → Plays (.call o k) (⟨o, saw⟩ :: es) a
  | poll {o again k saw es a} : (∀ r, saw r → again r = false) →
      (∀ r, saw r → Plays (k r) es a) → Plays (.poll o again k) (⟨o, saw⟩ :: es) a

variable {h}

@[simp] theorem replays_nil {s t : σ} : Replays h ([] : List (Event I)) s t ↔ s = t := Iff.rfl

@[simp] theorem replays_cons {e : Event I} {es : List (Event I)} {s t : σ} :
    Replays h (e :: es) s t ↔ e.Happens h s ∧ Replays h es (e.after h s) t := Iff.rfl

theorem replays_append {es ds : List (Event I)} {s t : σ} :
    Replays h (es ++ ds) s t ↔ ∃ u, Replays h es s u ∧ Replays h ds u t := by
  induction es generalizing s with
  | nil => simp
  | cons e es ih => simp [ih, and_assoc]

theorem Step.happens {p q : Prog I α} {s t : σ} {e : Event I} (hst : Step h p s e q t) :
    e.Happens h s ∧ e.after h s = t := by
  cases hst with
  | call => exact ⟨rfl, rfl⟩
  | poll hagain => exact ⟨⟨hagain, rfl⟩, rfl⟩

theorem Step.plays {p q : Prog I α} {s t : σ} {e : Event I} {es : List (Event I)} {a : α}
    (hst : Step h p s e q t) (hq : Plays q es a) : Plays p (e :: es) a := by
  cases hst with
  | call =>
      apply Plays.call
      intro r hr
      rw [hr]
      exact hq
  | poll hagain =>
      apply Plays.poll
      · intro r hr
        exact hr.1
      · intro r hr
        rw [hr.2]
        exact hq

/-- A trace played alone is a run of the program. -/
theorem Plays.run {p : Prog I α} {es : List (Event I)} {a : α} (hp : Plays p es a) {s t : σ}
    (hes : Replays h es s t) : run h p s = .done a t := by
  induction hp generalizing s with
  | ret a =>
      rw [replays_nil] at hes
      rw [run_ret, hes]
  | call _ ih =>
      obtain ⟨hsaw, hrest⟩ := hes
      rw [run_call]
      exact ih _ hsaw hrest
  | @poll o again k saw es a hagain _ ih =>
      obtain ⟨hsaw, hrest⟩ := hes
      have hag : again (h o s).1 = false := hagain _ hsaw
      rw [run_poll, if_neg (by simp [hag])]
      exact ih _ hsaw hrest

/-! ### Answers that a program does not tell apart -/

variable {same : (o : I.Op) → I.Res o → I.Res o → Prop}

/-- The program goes on in the same way after answers that are the same to it. -/
def Uses (same : (o : I.Op) → I.Res o → I.Res o → Prop) : Prog I α → Prop
  | .ret _ => True
  | .stop _ => True
  | .call o k => (∀ r r', same o r r' → k r = k r') ∧ ∀ r, Uses same (k r)
  | .poll o again k =>
      (∀ r r', same o r r' → again r = again r' ∧ k r = k r') ∧ ∀ r, Uses same (k r)

@[simp] theorem uses_ret (a : α) : Uses same (.ret a : Prog I α) := trivial

theorem Uses.bind {p : Prog I α} {f : α → Prog I β} (hp : Uses same p)
    (hf : ∀ a, Uses same (f a)) : Uses same (p >>= f) := by
  induction p with
  | ret a => exact hf a
  | stop w => trivial
  | call o k ih =>
      refine ⟨?_, fun r => ih r (hp.2 r)⟩
      intro r r' hr
      show k r >>= f = k r' >>= f
      rw [hp.1 r r' hr]
  | poll o again k ih =>
      refine ⟨?_, fun r => ih r (hp.2 r)⟩
      intro r r' hr
      obtain ⟨hagain, hk⟩ := hp.1 r r' hr
      show again r = again r' ∧ k r >>= f = k r' >>= f
      rw [hk]
      exact ⟨hagain, rfl⟩

theorem Uses.ite {c : Prop} [Decidable c] {p q : Prog I α} (hp : Uses same p)
    (hq : Uses same q) : Uses same (if c then p else q) := by
  by_cases hc : c
  · rw [if_pos hc]
    exact hp
  · rw [if_neg hc]
    exact hq

/-- An answer that is the same as one that was seen would have been seen as well. -/
def Event.Respects (same : (o : I.Op) → I.Res o → I.Res o → Prop) (e : Event I) : Prop :=
  ∀ r r', same e.op r r' → e.saw r → e.saw r'

theorem Step.uses {p q : Prog I α} {s t : σ} {e : Event I} (hst : Step h p s e q t)
    (hp : Uses same p) : e.Respects same ∧ Uses same q := by
  cases hst with
  | call =>
      refine ⟨?_, hp.2 _⟩
      intro r r' hr hsaw
      exact (hp.1 r r' hr).symm.trans hsaw
  | poll _ =>
      refine ⟨?_, hp.2 _⟩
      intro r r' hr hsaw
      obtain ⟨hagain, hk⟩ := hp.1 r r' hr
      exact ⟨hagain.symm.trans hsaw.1, hk.symm.trans hsaw.2⟩

/-- `d` does not move the answer to `e`, in the states of `Inv`. -/
def Unmoved (h : Handler I σ) (Inv : σ → Prop)
    (same : (o : I.Op) → I.Res o → I.Res o → Prop) (e d : Event I) : Prop :=
  ∀ s, Inv s → same e.op (h e.op s).1 (h e.op (d.after h s)).1

/-- **Two events can be exchanged** when neither moves the answer of the other and their effects
commute. -/
theorem Exchangeable.of_unmoved {Inv : σ → Prop}
    {same' : (o : I.Op) → I.Res o → I.Res o → Prop} {e d : Event I} (he : e.Respects same)
    (hd : d.Respects same') (hsymm : ∀ o r r', same' o r r' → same' o r' r)
    (hed : Unmoved h Inv same e d) (hde : Unmoved h Inv same' d e)
    (hcomm : ∀ s, e.after h (d.after h s) = d.after h (e.after h s)) :
    Exchangeable h Inv e d := by
  intro s hs hes hds
  exact ⟨hd _ _ (hsymm _ _ _ (hde s hs)) hds, he _ _ (hed s hs) hes, hcomm s⟩

/-! ### Moving events -/

variable {Inv : σ → Prop}

theorem Replays.keeps {es : List (Event I)} {s t : σ} (hkeep : ∀ e ∈ es, e.Keeps h Inv)
    (htr : Replays h es s t) (hs : Inv s) : Inv t := by
  induction es generalizing s with
  | nil =>
      rw [replays_nil] at htr
      exact htr ▸ hs
  | cons e es ih =>
      exact ih (fun d hd => hkeep d (List.mem_cons_of_mem _ hd)) htr.2
        (hkeep e List.mem_cons_self s hs)

/-- An event that can be exchanged with each of those after it moves behind them. -/
theorem Replays.moveBack {e : Event I} {ds es : List (Event I)} {s t : σ}
    (hkeep : ∀ d ∈ ds, d.Keeps h Inv) (hs : Inv s) (hex : ∀ d ∈ ds, Exchangeable h Inv e d)
    (htr : Replays h (e :: (ds ++ es)) s t) : Replays h (ds ++ e :: es) s t := by
  induction ds generalizing s with
  | nil => exact htr
  | cons d ds ih =>
      obtain ⟨he, hd, hrest⟩ := htr
      obtain ⟨hd', he', hstate⟩ := hex d List.mem_cons_self s hs he hd
      refine ⟨hd', ih (fun d' hmem => hkeep d' (List.mem_cons_of_mem _ hmem))
        (hkeep d List.mem_cons_self s hs)
        (fun d' hmem => hex d' (List.mem_cons_of_mem _ hmem)) ⟨he', ?_⟩⟩
      rw [hstate]
      exact hrest

/-- The operations of program `c` in a trace. -/
def eventsOf [DecidableEq ι] (c : ι) (tr : List (ι × Event I)) : List (Event I) :=
  (tr.filter fun x => x.1 = c).map Prod.snd

/-- The rest of the trace. -/
def withoutEventsOf [DecidableEq ι] (c : ι) (tr : List (ι × Event I)) : List (ι × Event I) :=
  tr.filter fun x => x.1 ≠ c

section Order

variable [DecidableEq ι]

@[simp] theorem eventsOf_nil (c : ι) : eventsOf c ([] : List (ι × Event I)) = [] := rfl

theorem eventsOf_cons_self (c : ι) (e : Event I) (tr : List (ι × Event I)) :
    eventsOf c ((c, e) :: tr) = e :: eventsOf c tr := by simp [eventsOf]

theorem eventsOf_cons_of_ne {c d : ι} (hne : d ≠ c) (e : Event I) (tr : List (ι × Event I)) :
    eventsOf c ((d, e) :: tr) = eventsOf c tr := by simp [eventsOf, hne]

theorem eventsOf_append (c : ι) (tr ur : List (ι × Event I)) :
    eventsOf c (tr ++ ur) = eventsOf c tr ++ eventsOf c ur := by simp [eventsOf]

theorem eventsOf_withoutEventsOf {c d : ι} (hne : d ≠ c) (tr : List (ι × Event I)) :
    eventsOf d (withoutEventsOf c tr) = eventsOf d tr := by
  unfold eventsOf withoutEventsOf
  rw [List.filter_filter]
  congr 1
  apply List.filter_congr
  intro x _
  by_cases hx : x.1 = d
  · simp [hx, hne]
  · simp [hx]

theorem mem_eventsOf {c : ι} {e : Event I} {tr : List (ι × Event I)} :
    e ∈ eventsOf c tr ↔ (c, e) ∈ tr := by
  simp [eventsOf]

/-- One program first: its events move to the front of a trace. -/
theorem Replays.first {c : ι} {tr : List (ι × Event I)} {s t : σ}
    (hkeep : ∀ x ∈ tr, x.2.Keeps h Inv) (hs : Inv s)
    (hex : tr.Pairwise fun x y => x.1 ≠ c → y.1 = c → Exchangeable h Inv x.2 y.2)
    (htr : Replays h (tr.map Prod.snd) s t) :
    Replays h (eventsOf c tr ++ (withoutEventsOf c tr).map Prod.snd) s t := by
  induction tr generalizing s with
  | nil => exact htr
  | cons x tr ih =>
      obtain ⟨d, e⟩ := x
      rw [List.pairwise_cons] at hex
      obtain ⟨hhead, htail⟩ := hex
      obtain ⟨he, hrest⟩ := htr
      have hkeep' : ∀ x ∈ tr, x.2.Keeps h Inv := fun x hx => hkeep x (List.mem_cons_of_mem _ hx)
      have hrest' := ih hkeep' (hkeep _ List.mem_cons_self s hs) htail hrest
      by_cases hd : d = c
      · subst hd
        have hwo : withoutEventsOf d ((d, e) :: tr) = withoutEventsOf d tr := by
          simp [withoutEventsOf]
        rw [eventsOf_cons_self, hwo]
        exact ⟨he, hrest'⟩
      · have hwo : withoutEventsOf c ((d, e) :: tr) = (d, e) :: withoutEventsOf c tr := by
          simp [withoutEventsOf, hd]
        rw [eventsOf_cons_of_ne hd, hwo]
        apply Replays.moveBack _ hs
        · intro y hy
          exact hhead (c, y) (mem_eventsOf.mp hy) hd rfl
        · exact ⟨he, hrest'⟩
        · intro y hy
          exact hkeep' (c, y) (mem_eventsOf.mp hy)

/-- The programs run one after the other, each to its end. -/
def RunsInOrder (h : Handler I σ) (prog : β → Prog I α) (answer : β → α) : List β → σ → σ → Prop
  | [], s, t => s = t
  | y :: ys, s, t => ∃ u, run h (prog y) s = .done (answer y) u ∧
      RunsInOrder h prog answer ys u t

/-- Every event that stands before one of a program which is earlier in `order` can be exchanged
with it. -/
def Reorders (h : Handler I σ) (Inv : σ → Prop) (order : List ι) (tr : List (ι × Event I)) : Prop :=
  tr.Pairwise fun x y => [y.1, x.1].Sublist order → Exchangeable h Inv x.2 y.2

/-- **The serial rule.**  A trace that can be reordered is the trace of a sequential run: the same
answers and the same final state. -/
theorem Replays.serial {name : β → ι} {prog : β → Prog I α} {answer : β → α} {order : List β}
    {tr : List (ι × Event I)} {s t : σ} (hnodup : (order.map name).Nodup)
    (hmem : ∀ x ∈ tr, x.1 ∈ order.map name)
    (hplay : ∀ y ∈ order, Plays (prog y) (eventsOf (name y) tr) (answer y))
    (hkeep : ∀ x ∈ tr, x.2.Keeps h Inv) (hs : Inv s)
    (hex : Reorders h Inv (order.map name) tr) (htr : Replays h (tr.map Prod.snd) s t) :
    RunsInOrder h prog answer order s t := by
  induction order generalizing tr s with
  | nil =>
      cases tr with
      | nil => exact htr
      | cons x tr => exact absurd (hmem x List.mem_cons_self) (by simp)
  | cons y ys ih =>
      rw [List.map_cons, List.nodup_cons] at hnodup
      obtain ⟨hy, hnodup⟩ := hnodup
      have hrest_mem : ∀ x ∈ tr, x.1 ≠ name y → x.1 ∈ ys.map name := by
        intro x hx hne
        have hx' := hmem x hx
        rw [List.map_cons, List.mem_cons] at hx'
        exact hx'.resolve_left hne
      have hfirst : Replays h
          (eventsOf (name y) tr ++ (withoutEventsOf (name y) tr).map Prod.snd) s t := by
        apply Replays.first hkeep hs _ htr
        apply List.Pairwise.imp_of_mem _ hex
        intro x z hx _ hxz hne heq
        apply hxz
        rw [heq, List.map_cons]
        exact (List.singleton_sublist.mpr (hrest_mem x hx hne)).cons_cons (name y)
      obtain ⟨u, hown, hrest⟩ := replays_append.mp hfirst
      have hu : Inv u := by
        apply hown.keeps _ hs
        intro e he
        exact hkeep (name y, e) (mem_eventsOf.mp he)
      refine ⟨u, (hplay y List.mem_cons_self).run hown, ih hnodup ?_ ?_ ?_ hu ?_ hrest⟩
      · intro x hx
        have hx' : x ∈ tr ∧ x.1 ≠ name y := by simpa [withoutEventsOf] using hx
        exact hrest_mem x hx'.1 hx'.2
      · intro z hz
        have hne : name z ≠ name y := by
          intro heq
          apply hy
          rw [← heq]
          exact List.mem_map_of_mem hz
        rw [eventsOf_withoutEventsOf hne]
        exact hplay z (List.mem_cons_of_mem _ hz)
      · intro x hx
        exact hkeep x (List.mem_of_mem_filter hx)
      · have hsub : (withoutEventsOf (name y) tr).Sublist tr := List.filter_sublist
        apply (hex.sublist hsub).imp
        intro x z hxz hsl
        exact hxz (hsl.cons _)

end Order

end Interaction
