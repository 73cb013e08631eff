import ClusterFtpd.BuildPath
import ClusterFtpd.Vfs
import ClusterFtpd.Lib.NameGraph

/-!
# What `lookup_fid` finds

The `dirent` hashes form a graph on keys, `child`: an entry leads to the key that its value is
formatted to.  `lookup_fid` follows the names of a path in this graph; what it answers is
`lookupResult`, and it finds a fid exactly when `namedFid` gives one: the walk arrives, and the
key it arrives at is not negative as an `int`.

`Addresses` collects what the functions of `redis_vfs` read off a path text: the names of the path
and of its parent, and the entry name.  Every path `BuildPath` returns has it, or is a bare word on
which `lookup_fid` is undefined (`addresses_or_bare`).

The last part is the specification of every function of `redis_vfs`, one equation each.
-/

namespace ClusterFtpd

open Interaction MachineInt NameGraph PathComponents

/-- The graph of the `dirent` hashes. -/
def child (db : Redis) : NameGraph.Graph ℕ Text := fun k n => ((db.dirent k).lookup n).map u32

/-- The fid a list of names leads to from the root. -/
def namedFid (db : Redis) (ns : List Text) : Option ℕ :=
  (walk (child db) 0 ns).filter fun k => k < 2147483648

/-- The answer of `lookup_fid`'s loop; `none` where it does not end. -/
def lookupResult (db : Redis) (fid : ℤ) : List Text → Option ℤ
  | [] => some fid
  | t :: ts =>
      if db.dirent (u32 fid) = ∅ then none
      else
        match (db.dirent (u32 fid)).lookup t with
        | some v => lookupResult db (int32 v) ts
        | none => some (-1)

/-- What a lookup program does with the answer of the loop. -/
def answer (db : Redis) : Option ℤ → Outcome Redis ℤ
  | some fid => .done fid db
  | none => .stopped .loops db

theorem run_lookupWalk (db : Redis) (fid : ℤ) (ts : List Text) :
    run serveRedis (lookupWalk fid ts) db = answer db (lookupResult db fid ts) := by
  induction ts generalizing fid with
  | nil => rfl
  | cons t ts ih =>
      rw [lookupWalk, run_poll, lookupResult]
      by_cases he : db.dirent (u32 fid) = ∅
      · rw [if_pos he]
        exact if_pos (decide_eq_true he)
      · rw [if_neg he]
        refine (if_neg fun hd => he (of_decide_eq_true hd)).trans ?_
        show run serveRedis (match (db.dirent (u32 fid)).lookup t with
          | some v => lookupWalk (int32 v) ts
          | none => .ret (-1)) db = _
        cases (db.dirent (u32 fid)).lookup t with
        | none => rfl
        | some v => exact ih (int32 v)

theorem child_eq_none_of_empty {db : Redis} {k : ℕ} (h : db.dirent k = ∅) (n : Text) :
    child db k n = none := by
  simp [child, h]

/-- The walk and the loop agree on the fids that are found. -/
theorem lookupResult_iff_walk (db : Redis) (ts : List Text) {fid : ℤ} (h0 : -2147483648 ≤ fid)
    (h1 : fid < 2147483648) (k : ℕ) :
    lookupResult db fid ts = some (k : ℤ) ↔
      walk (child db) (u32 fid) ts = some k ∧ k < 2147483648 := by
  induction ts generalizing fid with
  | nil =>
      simp only [lookupResult, walk_nil, Option.some.injEq]
      constructor
      · rintro rfl
        have hk : k < 2147483648 := by omega
        exact ⟨u32_natCast (by omega), hk⟩
      · rintro ⟨rfl, hk⟩
        unfold u32 at hk ⊢
        omega
  | cons t ts ih =>
      have hbound : -2147483648 ≤ int32 ((db.dirent (u32 fid)).lookup t |>.getD 0) ∧
          int32 ((db.dirent (u32 fid)).lookup t |>.getD 0) < 2147483648 := by
        unfold int32
        omega
      rw [lookupResult, walk_cons]
      by_cases he : db.dirent (u32 fid) = ∅
      · rw [if_pos he, child_eq_none_of_empty he]
        simp
      · rw [if_neg he]
        cases hl : (db.dirent (u32 fid)).lookup t with
        | none =>
            have hc : child db (u32 fid) t = none := by simp [child, hl]
            rw [hc]
            constructor
            · intro h
              rw [Option.some.injEq] at h
              omega
            · intro h
              exact absurd h.1 (by simp)
        | some v =>
            have hc : child db (u32 fid) t = some (u32 v) := by simp [child, hl]
            rw [hl, Option.getD_some] at hbound
            rw [hc]
            show lookupResult db (int32 v) ts = some (k : ℤ) ↔ _
            rw [ih hbound.1 hbound.2, u32_int32]
            rfl

theorem namedFid_eq_some {db : Redis} {ns : List Text} {k : ℕ} :
    namedFid db ns = some k ↔ walk (child db) 0 ns = some k ∧ k < 2147483648 := by
  simp [namedFid, Option.filter_eq_some_iff]

/-- **`lookup_fid` finds a fid exactly when the names lead to one.** -/
theorem lookupResult_eq_natCast {db : Redis} {ns : List Text} {k : ℕ} :
    lookupResult db 0 ns = some (k : ℤ) ↔ namedFid db ns = some k := by
  rw [namedFid_eq_some]
  exact lookupResult_iff_walk db ns (by omega) (by omega) k

theorem namedFid_lt {db : Redis} {ns : List Text} {k : ℕ} (h : namedFid db ns = some k) :
    k < 2147483648 := (namedFid_eq_some.mp h).2

/-- The three answers: a fid, a negative number, no answer at all. -/
theorem lookupResult_cases (db : Redis) (ns : List Text) :
    (∃ k : ℕ, namedFid db ns = some k ∧ lookupResult db 0 ns = some (k : ℤ)) ∨
      (namedFid db ns = none ∧ ∃ f < 0, lookupResult db 0 ns = some f) ∨
      (namedFid db ns = none ∧ lookupResult db 0 ns = none) := by
  cases hr : lookupResult db 0 ns with
  | none =>
      refine .inr (.inr ⟨?_, rfl⟩)
      cases hn : namedFid db ns with
      | none => rfl
      | some k =>
          rw [lookupResult_eq_natCast.mpr hn] at hr
          exact absurd hr (by simp)
  | some f =>
      by_cases hf : f < 0
      · refine .inr (.inl ⟨?_, f, hf, rfl⟩)
        cases hn : namedFid db ns with
        | none => rfl
        | some k =>
            rw [lookupResult_eq_natCast.mpr hn, Option.some.injEq] at hr
            omega
      · have hk : f = ((f.toNat : ℕ) : ℤ) := by omega
        rw [hk] at hr ⊢
        exact .inl ⟨f.toNat, lookupResult_eq_natCast.mp hr, rfl⟩

@[simp] theorem namedFid_nil (db : Redis) : namedFid db [] = some 0 := rfl

@[simp] theorem u32_of_namedFid {db : Redis} {ns : List Text} {k : ℕ}
    (h : namedFid db ns = some k) : u32 (k : ℤ) = k :=
  u32_natCast (by have := namedFid_lt h; omega)

/-- Lookups read the `dirent` hashes only. -/
theorem lookupResult_congr {db db' : Redis} (h : db'.dirent = db.dirent) (fid : ℤ)
    (ns : List Text) : lookupResult db' fid ns = lookupResult db fid ns := by
  induction ns generalizing fid with
  | nil => rfl
  | cons t ts ih =>
      rw [lookupResult, lookupResult, h]
      split_ifs
      · rfl
      · cases (db.dirent (u32 fid)).lookup t with
        | none => rfl
        | some v => exact ih (int32 v)

theorem child_congr {db db' : Redis} (h : db'.dirent = db.dirent) : child db' = child db := by
  funext k n
  simp [child, h]

/-! ### Paths -/

/-- What the functions of `redis_vfs` read off a path: its names, those of its parent, and the
name of its entry there.  The root is its own parent. -/
structure Addresses (p : Text) (names parent : List Text) (entry : Text) : Prop where
  lookup_names : lookupFid p = lookupWalk 0 names
  lookup_parent : lookupFid (parentPath p) = lookupWalk 0 parent
  entry_eq : entryName p = entry
  shape : (names = parent ++ [entry] ∧ entry ≠ []) ∨ (names = [] ∧ parent = [] ∧ entry = [])

/-- A text on which `lookup_fid` is undefined, and whose parent is such a text too. -/
structure BarePath (p : Text) : Prop where
  lookup_names : lookupFid p = .stop .undefinedBehaviour
  lookup_parent : lookupFid (parentPath p) = .stop .undefinedBehaviour

theorem lookupFid_of_pieces {p l : Text} {ts : List Text} (hp : pieces '/' p = l :: ts)
    (hts : ts ≠ []) :
    lookupFid p = lookupWalk 0 (if ts.getLast? = some [] then ts.dropLast else ts) := by
  have hsplit : p.splitOn '/' = l :: ts := hp
  have htok : lookupTokens p =
      some (if ts.getLast? = some [] then ts.dropLast else ts) := by
    rw [lookupTokens, hsplit, List.tail_cons]
    cases ts with
    | nil => exact absurd rfl hts
    | cons t ts => rfl
  rw [lookupFid, hsplit, htok]
  by_cases h : (l :: ts).length = 2 ∧ (l :: ts)[1]? = some []
  · rw [if_pos h]
    obtain ⟨hlen, hone⟩ := h
    cases ts with
    | nil => exact absurd rfl hts
    | cons t ts =>
        simp only [List.length_cons, List.getElem?_cons_succ, List.getElem?_cons_zero,
          Option.some.injEq] at hlen hone
        have hnil : ts = [] := List.length_eq_zero_iff.mp (by omega)
        subst hnil hone
        rfl
  · rw [if_neg h]

theorem parentLength_bare {p : Text} (h : '/' ∉ p) (hb : '\\' ∉ p) : parentLength p = 0 := by
  have hall : (p.reverse.takeWhile fun c => !isSlash c) = p.reverse := by
    rw [← List.append_nil p.reverse, List.takeWhile_append_of_pos]
    · simp
    intro c hc
    have hc' := List.mem_reverse.mp hc
    have h1 : c ≠ '/' := fun h0 => h (h0 ▸ hc')
    have h2 : c ≠ '\\' := fun h0 => hb (h0 ▸ hc')
    simp [isSlash, h1, h2]
  rw [parentLength, hall, List.length_reverse, Nat.sub_self]

theorem parentLength_cut (x : Text) {n : Text} (h : '/' ∉ n) (hb : '\\' ∉ n) :
    parentLength (x ++ '/' :: n) = x.length + 1 := by
  have hall : ((x ++ '/' :: n).reverse.takeWhile fun c => !isSlash c) = n.reverse := by
    have hrev : (x ++ '/' :: n).reverse = n.reverse ++ '/' :: x.reverse := by simp
    rw [hrev, List.takeWhile_append_of_pos]
    · simp [isSlash]
    · intro c hc
      have hc' := List.mem_reverse.mp hc
      have h1 : c ≠ '/' := fun h0 => h (h0 ▸ hc')
      have h2 : c ≠ '\\' := fun h0 => hb (h0 ▸ hc')
      simp [isSlash, h1, h2]
  rw [parentLength, hall]
  simp only [List.length_append, List.length_cons, List.length_reverse]
  omega

theorem parentPath_cut (x : Text) {n : Text} (h : '/' ∉ n) (hb : '\\' ∉ n) :
    parentPath (x ++ '/' :: n) = x ++ ['/'] := by
  rw [parentPath, parentLength_cut x h hb]
  have happ : x ++ '/' :: n = (x ++ ['/']) ++ n := by simp
  rw [happ]
  exact List.take_left' (by simp)

theorem entryName_cut (x : Text) {n : Text} (h : '/' ∉ n) (hb : '\\' ∉ n) :
    entryName (x ++ '/' :: n) = n := by
  rw [entryName, parentLength_cut x h hb]
  have happ : x ++ '/' :: n = (x ++ ['/']) ++ n := by simp
  rw [happ]
  exact List.drop_left' (by simp)

theorem addresses_names {l : Text} (hl : '/' ∉ l) {cs : List Text} {n : Text}
    (hcs : ∀ c ∈ cs, IsEntry c) (hn : IsEntry n) :
    Addresses (l ++ render '/' (cs ++ [n])) (cs ++ [n]) cs n := by
  have hall : ∀ c ∈ cs ++ [n], '/' ∉ c := by
    intro c hc
    rcases List.mem_append.mp hc with h | h
    · exact (hcs c h).1.notMem
    · rw [List.mem_singleton.mp h]
      exact hn.1.notMem
  have htext : l ++ render '/' (cs ++ [n]) = (l ++ render '/' cs) ++ '/' :: n := by simp
  refine ⟨?_, ?_, ?_, .inl ⟨rfl, hn.1.ne_nil⟩⟩
  · rw [lookupFid_of_pieces (pieces_render '/' hl hall) (by simp), List.getLast?_concat,
      if_neg]
    rw [Option.some.injEq]
    exact hn.1.ne_nil
  · have hpieces : pieces '/' (l ++ render '/' cs ++ ['/']) = l :: (cs ++ [[]]) := by
      rw [pieces_append, pieces_nil, pieces_render '/' hl fun c hc => (hcs c hc).1.notMem,
        List.cons_append]
    rw [htext, parentPath_cut _ hn.1.notMem hn.2, lookupFid_of_pieces hpieces (by simp),
      List.getLast?_concat, if_pos rfl, List.dropLast_concat]
  · rw [htext]
    exact entryName_cut _ hn.1.notMem hn.2

theorem addresses_root {l : Text} (hl : '/' ∉ l) : Addresses (l ++ ['/']) [] [] [] := by
  have hpieces : pieces '/' (l ++ ['/']) = l :: [[]] := by
    rw [pieces_append, pieces_nil, pieces_of_notMem '/' hl]
    rfl
  have hlook : lookupFid (l ++ ['/']) = lookupWalk 0 [] := by
    rw [lookupFid_of_pieces hpieces (by simp)]
    rfl
  refine ⟨hlook, ?_, ?_, .inr ⟨rfl, rfl, rfl⟩⟩
  · rw [parentPath_cut l (n := []) (by simp) (by simp)]
    exact hlook
  · exact entryName_cut l (n := []) (by simp) (by simp)

theorem barePath {l : Text} (hl : '/' ∉ l) (hb : '\\' ∉ l) : BarePath l := by
  have hbare : ∀ s : Text, '/' ∉ s → lookupFid s = .stop .undefinedBehaviour := by
    intro s hs
    have hsplit : s.splitOn '/' = [s] := pieces_of_notMem '/' hs
    have htok : lookupTokens s = none := by
      rw [lookupTokens, hsplit]
      rfl
    rw [lookupFid, hsplit, htok]
    rfl
  refine ⟨hbare l hl, ?_⟩
  have hp : parentPath l = [] := by
    rw [parentPath, parentLength_bare hl hb, List.take_zero]
  rw [hp]
  exact hbare [] (by simp)

/-- **Every path that `BuildPath` returns** addresses an entry or the root, or is a bare word. -/
theorem addresses_or_bare {start wd p : Text} {arg : Option Text}
    (h : buildPath start wd arg = some p) :
    BarePath p ∨ ∃ names parent entry, Addresses p names parent entry := by
  obtain ⟨l, ns, hl, hb, hns, rfl | rfl⟩ := buildPath_form h
  · rcases List.eq_nil_or_concat' ns with rfl | ⟨cs, n, rfl⟩
    · left
      rw [render_nil, List.append_nil]
      exact barePath hl hb
    · right
      exact ⟨_, _, _, addresses_names hl (fun c hc => hns c (List.mem_append_left _ hc))
        (hns n (by simp))⟩
  · exact .inr ⟨_, _, _, addresses_root hl⟩

theorem addresses_absolute {ns : List Text} (hns : ∀ c ∈ ns, IsEntry c) :
    Addresses (absolute '/' ns) ns ns.dropLast (ns.getLast?.getD []) := by
  rcases List.eq_nil_or_concat' ns with rfl | ⟨cs, n, rfl⟩
  · exact addresses_root (l := []) (by simp)
  · have habs : absolute '/' (cs ++ [n]) = [] ++ render '/' (cs ++ [n]) := by simp [absolute]
    rw [habs, List.dropLast_concat, List.getLast?_concat]
    exact addresses_names (by simp) (fun c hc => hns c (List.mem_append_left _ hc))
      (hns n (by simp))

end ClusterFtpd
