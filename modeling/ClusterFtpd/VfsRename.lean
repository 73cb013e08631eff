import ClusterFtpd.VfsFrame

/-!
# What `rename` moves

`rename` takes the entry of the old path away and makes one for the new path.  The fid of the
directory it makes it in is looked up along the parent of the old path, so the entry always stays
in its directory, under the last name of the new path.

Main result: `rename_right_iff`: in a tree-shaped file system `rename` does what it should exactly
when both paths have the same parent.
-/

namespace ClusterFtpd

open Interaction MachineInt NameGraph PathComponents

/-- `q` in the one database resolves as `q'` in the other. -/
def ResolvesAs (db db' : Redis) (q q' : Text) : Prop :=
  ∀ k : ℕ, ask (lookupFid q') db' = some (k : ℤ) ↔ ask (lookupFid q) db = some (k : ℤ)

/-- `q` is the path or a path below it. -/
def AtOrBelow (path q : Text) : Prop := q = path ∨ (path ++ ['/']) <+: q

/-- The node of `old` is now that of `new`, with all that is below it, and nothing else has moved. -/
structure Moved (db db' : Redis) (old new : Text) : Prop where
  at_new : ResolvesAs db db' old new
  gone : old ≠ new → ∀ k : ℕ, ask (lookupFid old) db' ≠ some (k : ℤ)
  below : ∀ xs, (∀ c ∈ xs, IsEntry c) →
    ResolvesAs db db' (old ++ render '/' xs) (new ++ render '/' xs)
  others : ∀ q, Canonical q → ¬ AtOrBelow old q → ¬ AtOrBelow new q → ResolvesAs db db' q q

/-- A free place for `new`: a directory without an entry of its name, and not inside `old`. -/
structure FreePlace (db : Redis) (old new : Text) : Prop where
  directory : ∃ g : ℕ, ask (lookupFid (parentPath new)) db = some (g : ℤ) ∧ IsDir (db.stat g) ∧
    (db.dirent g).lookup (entryName new) = none
  outside : ¬ (old ++ ['/']) <+: new

/-- The parent of a path does not resolve. -/
def NoParent (db : Redis) (path : Text) : Prop :=
  ∀ f : ℕ, ask (lookupFid (parentPath path)) db ≠ some (f : ℤ)

/-- `rename` to a free place that succeeds has moved the node and nothing else; without a parent of
the new path it answers -1 and changes nothing. -/
structure RenameRight (db : Redis) (old new : Text) : Prop where
  moved : FreePlace db old new → ∀ db', run serveRedis (rename old new) db = .done 0 db' →
    Moved db db' old new
  refused : NoParent db new → run serveRedis (rename old new) db = .done (-1) db

variable {db db' : Redis} {P N : List Text} {o n : Text} {f k : ℕ}

/-! ### Paths with a last name -/

theorem absolute_concat (P : List Text) (o : Text) :
    absolute '/' (P ++ [o]) = render '/' (P ++ [o]) := if_neg (by simp)

theorem parentPath_absolute (P : List Text) (ho : IsEntry o) :
    parentPath (absolute '/' (P ++ [o])) = render '/' P ++ ['/'] := by
  have htext : absolute '/' (P ++ [o]) = render '/' P ++ '/' :: o := by
    rw [absolute_concat]
    simp
  rw [htext, parentPath_cut _ ho.1.notMem ho.2]

/-- Paths have the same parent when they have the same names in front of the last one. -/
theorem parentPath_eq_iff (hP : ∀ c ∈ P ++ [o], IsEntry c) (hN : ∀ c ∈ N ++ [n], IsEntry c) :
    parentPath (absolute '/' (N ++ [n])) = parentPath (absolute '/' (P ++ [o])) ↔ N = P := by
  rw [parentPath_absolute P (hP o (by simp)), parentPath_absolute N (hN n (by simp))]
  constructor
  · intro heq
    have hrender : render '/' N = render '/' P := List.append_cancel_right heq
    have hpN := pieces_render '/' (l := []) (by simp) (names_notMem (entries_of_append hN))
    have hpP := pieces_render '/' (l := []) (by simp) (names_notMem (entries_of_append hP))
    rw [List.nil_append] at hpN hpP
    have hpieces := congrArg (pieces '/') hrender
    rw [hpN, hpP, List.cons.injEq] at hpieces
    exact hpieces.2
  · intro heq
    rw [heq]

theorem ask_parent (hP : ∀ c ∈ P ++ [o], IsEntry c) :
    ask (lookupFid (parentPath (absolute '/' (P ++ [o])))) db = some (f : ℤ) ↔
      namedFid db P = some f := by
  have ha := (addresses_absolute hP).lookup_parent
  rw [List.dropLast_concat] at ha
  exact ask_lookupFid_natCast ha

theorem entryName_absolute (hN : ∀ c ∈ N ++ [n], IsEntry c) :
    entryName (absolute '/' (N ++ [n])) = n := by
  have ha := (addresses_absolute hN).entry_eq
  rw [List.getLast?_concat] at ha
  exact ha

/-! ### The node of the old parent -/

/-- A found fid is a station of the graph of entries. -/
theorem TreeShaped.station (h : TreeShaped db) (hf : namedFid db P = some f) :
    Station (child db) 0 P f := by
  obtain ⟨hwalk, hlt⟩ := namedFid_eq_some.mp hf
  have hfid : IsFid f := by
    show f < 4294967295
    omega
  refine ⟨hwalk, ?_⟩
  intro xs hxs
  exact h.tree.unique_path ((h.walk_entries hfid).mp hxs) ((h.walk_entries hfid).mp hwalk)

/-- The only entry that leads to the fid of the old path is its own. -/
theorem TreeShaped.child_once (h : TreeShaped db) (hf : namedFid db P = some f)
    (hk : namedFid db (P ++ [o]) = some k) {b : ℕ} {l : Text} (hb : child db b l = some k) :
    b = f ∧ l = o := by
  have hlt := namedFid_lt hk
  have hentry := h.entry_of_found hk hf
  obtain hb | ⟨-, hbig⟩ := h.child_eq.mp hb
  · exact h.tree.once hentry hb
  · omega

theorem TreeShaped.child_of_found (h : TreeShaped db) (hf : namedFid db P = some f)
    (hk : namedFid db (P ++ [o]) = some k) : child db f o = some k :=
  h.child_eq.mpr (.inl (h.entry_of_found hk hf))

/-! ### The graph after `rename` -/

theorem child_renamed (hd : db'.dirent = setEntry (dropEntry db.dirent f o) f n (k : ℤ))
    (hk : k < 2147483648) (b : ℕ) (l : Text) :
    child db' b l = if b = f ∧ l = n then some k else if b = f ∧ l = o then none
      else child db b l := by
  show ((db'.dirent b).lookup l).map u32 = _
  rw [hd, lookup_setEntry, lookup_dropEntry]
  by_cases hnew : b = f ∧ l = n
  · rw [if_pos hnew, if_pos hnew, Option.map_some, u32_natCast (by omega)]
  · rw [if_neg hnew, if_neg hnew]
    by_cases hold : b = f ∧ l = o
    · rw [if_pos hold, if_pos hold, Option.map_none]
    · rw [if_neg hold, if_neg hold]
      rfl

theorem agreeAway_renamed (hd : db'.dirent = setEntry (dropEntry db.dirent f o) f n (k : ℤ))
    (hk : k < 2147483648) : AgreeAway (child db) (child db') f := by
  intro b l hb
  rw [child_renamed hd hk, if_neg fun h => hb h.1, if_neg fun h => hb h.1]

/-- **Inside one directory** the node is moved, and nothing else. -/
theorem moved_of_renamed (h : TreeShaped db) (hP : ∀ c ∈ P ++ [o], IsEntry c)
    (hN : ∀ c ∈ P ++ [n], IsEntry c) (hf : namedFid db P = some f)
    (hk : namedFid db (P ++ [o]) = some k) (hfree : (db.dirent f).lookup n = none)
    (hd : db'.dirent = setEntry (dropEntry db.dirent f o) f n (k : ℤ)) :
    Moved db db' (absolute '/' (P ++ [o])) (absolute '/' (P ++ [n])) := by
  have hlt := namedFid_lt hk
  have hstation := h.station hf
  have haway := agreeAway_renamed hd hlt
  have hchild := h.child_of_found hf hk
  have hne : o ≠ n := by
    intro heq
    rw [heq] at hchild
    have hnone : child db f n = none := by
      show ((db.dirent f).lookup n).map u32 = none
      rw [hfree, Option.map_none]
    rw [hnone] at hchild
    exact absurd hchild (by simp)
  have hnew : child db' f n = some k := by
    rw [child_renamed hd hlt, if_pos ⟨rfl, rfl⟩]
  have hold : child db' f o = none := by
    rw [child_renamed hd hlt, if_neg fun h => hne h.2, if_pos ⟨rfl, rfl⟩]
  -- behind the node the walks are the same
  have hwalk : ∀ xs, walk (child db') 0 (P ++ n :: xs) = walk (child db) 0 (P ++ o :: xs) := by
    intro xs
    rw [hstation.through haway, hnew, Option.bind_some, hstation.behind haway hchild, walk_append,
      hstation.reached, Option.bind_some, walk_cons, hchild, Option.bind_some]
  have hbelow : ∀ xs, (∀ c ∈ xs, IsEntry c) → ResolvesAs db db'
      (absolute '/' (P ++ [o]) ++ render '/' xs) (absolute '/' (P ++ [n]) ++ render '/' xs) := by
    intro xs hxs j
    have hnames : ∀ {l : Text}, (∀ c ∈ P ++ [l], IsEntry c) → ∀ c ∈ P ++ l :: xs, IsEntry c := by
      intro l hl c hc
      rw [List.append_cons, List.mem_append] at hc
      exact hc.elim (hl c) (hxs c)
    have htext : ∀ l : Text, absolute '/' (P ++ [l]) ++ render '/' xs =
        absolute '/' (P ++ l :: xs) := by
      intro l
      have hcons : P ++ l :: xs = P ++ [l] ++ xs := List.append_cons ..
      have hne : P ++ [l] ++ xs ≠ [] := by simp
      rw [absolute_concat, ← render_append, hcons]
      exact (if_neg hne).symm
    rw [htext, htext, ask_absolute (hnames hN), ask_absolute (hnames hP), namedFid_eq_some,
      namedFid_eq_some, hwalk]
  refine ⟨?_, ?_, hbelow, ?_⟩
  · have hnil : ∀ c ∈ ([] : List Text), IsEntry c := fun c hc => absurd hc (by simp)
    have hroot := hbelow [] hnil
    rw [render_nil, List.append_nil, List.append_nil] at hroot
    exact hroot
  · intro _ j hj
    obtain ⟨hgone, -⟩ := namedFid_eq_some.mp ((ask_absolute hP).mp hj)
    rw [hstation.through haway, hold] at hgone
    exact absurd hgone (by simp)
  · rintro q ⟨ms, hms, rfl⟩ hnotold hnotnew j
    rw [ask_absolute hms, ask_absolute hms, namedFid_eq_some, namedFid_eq_some]
    have hsame : walk (child db') 0 ms = walk (child db) 0 ms := by
      by_cases hpass : ∃ l ys, ms = P ++ l :: ys
      · obtain ⟨l, ys, rfl⟩ := hpass
        have hlabel : ∀ m : Text, (∀ c ∈ P ++ [m], IsEntry c) →
            ¬ AtOrBelow (absolute '/' (P ++ [m])) (absolute '/' (P ++ l :: ys)) → l ≠ m := by
          intro m hm hnot heq
          subst heq
          refine hnot ?_
          cases ys with
          | nil => exact .inl rfl
          | cons y ys =>
              refine .inr ((below_iff_names hm hms (by simp)).mpr ⟨y :: ys, by simp, ?_⟩)
              rw [List.append_assoc]
              rfl
        have hlo := hlabel o hP hnotold
        have hln := hlabel n hN hnotnew
        have hedge : child db' f l = child db f l := by
          rw [child_renamed hd hlt, if_neg fun h => hln h.2, if_neg fun h => hlo h.2]
        rw [hstation.through haway, hedge, walk_append, hstation.reached, Option.bind_some,
          walk_cons]
        cases hc : child db f l with
        | none => rfl
        | some c =>
            rw [Option.bind_some, Option.bind_some]
            exact hstation.behind haway hc ys
      · refine hstation.aside haway ?_
        intro l ys heq
        exact hpass ⟨l, ys, heq⟩
    rw [hsame]

/-- Under another parent the node is not found. -/
theorem not_found_elsewhere (h : TreeShaped db) (hf : namedFid db P = some f)
    (hk : namedFid db (P ++ [o]) = some k)
    (hd : db'.dirent = setEntry (dropEntry db.dirent f o) f n (k : ℤ))
    (hne : N ≠ P) : namedFid db' (N ++ [n]) ≠ some k := by
  have hlt := namedFid_lt hk
  have hchild := h.child_of_found hf hk
  have hstation' : Station (child db') 0 P f := by
    refine (h.station hf).relink (agreeAway_renamed hd hlt) ?_
    intro l c hc
    rw [child_renamed hd hlt] at hc
    split_ifs at hc
    · rw [← hc]
      exact ⟨o, hchild⟩
    · exact ⟨l, hc⟩
  intro hfound
  obtain ⟨hwalk, -⟩ := namedFid_eq_some.mp hfound
  rw [walk_concat_eq_some] at hwalk
  obtain ⟨b, hb, hlast⟩ := hwalk
  -- all entries that lead to the node are in the old directory
  have hbf : b = f := by
    by_contra hbf
    rw [child_renamed hd hlt, if_neg fun h => hbf h.1, if_neg fun h => hbf h.1] at hlast
    exact hbf (h.child_once hf hk hlast).1
  rw [hbf] at hb
  exact hne (hstation'.only N hb)

/-! ### The statement -/

theorem lookupResult_append_ne_none {fid : ℤ} {xs ys : List Text} {v : ℤ}
    (hv : lookupResult db fid (xs ++ ys) = some v) : lookupResult db fid xs ≠ none := by
  induction xs generalizing fid with
  | nil => simp [lookupResult]
  | cons x xs ih =>
      rw [List.cons_append, lookupResult] at hv
      rw [lookupResult]
      split_ifs at hv ⊢
      cases hx : (db.dirent (u32 fid)).lookup x with
      | none => simp
      | some w =>
          rw [hx] at hv
          exact ih hv

/-- What `rename` of a found path does: it changes the directory of the old path, or answers -1
where the fid of that directory is negative as an `int`. -/
theorem rename_ends (hP : ∀ c ∈ P ++ [o], IsEntry c) (hN : ∀ c ∈ N ++ [n], IsEntry c)
    (hk : namedFid db (P ++ [o]) = some k) :
    (∃ f db', namedFid db P = some f ∧
      run serveRedis (rename (absolute '/' (P ++ [o])) (absolute '/' (N ++ [n]))) db = .done 0 db' ∧
      db'.dirent = setEntry (dropEntry db.dirent f o) f n (k : ℤ)) ∨
    ((∀ f, namedFid db P ≠ some f) ∧
      run serveRedis (rename (absolute '/' (P ++ [o])) (absolute '/' (N ++ [n]))) db =
        .done (-1) db) := by
  have ha := addresses_absolute hP
  rw [List.dropLast_concat, List.getLast?_concat] at ha
  have hk0 : ¬ ((k : ℤ) < 0) := by omega
  rw [run_rename ha (entryName_absolute hN), lookupResult_eq_natCast.mpr hk, onAnswer_some,
    if_neg hk0]
  obtain ⟨f, hf, hres⟩ | ⟨hnone, g, hg, hres⟩ | ⟨-, hloops⟩ := lookupResult_cases db P
  · have hf0 : ¬ ((f : ℤ) < 0) := by omega
    rw [hres, onAnswer_some, if_neg hf0]
    refine .inl ⟨f, _, hf, rfl, ?_⟩
    rw [renameWrites_dirent, u32_of_namedFid hf, Option.getD_some, u32_of_namedFid hk]
  · rw [hres, onAnswer_some, if_pos hg]
    refine .inr ⟨?_, rfl⟩
    intro f hf
    rw [hnone] at hf
    exact absurd hf (by simp)
  · exact absurd hloops (lookupResult_append_ne_none (lookupResult_eq_natCast.mpr hk))

/-- **`rename`** of an existing path to a free place, or to one without a parent, does what it
should exactly when both paths have the same parent, or the fid of the old parent is out of range. -/
theorem rename_right_iff {old new : Text} (h : TreeShaped db) (hold : Canonical old)
    (hnew : Canonical new) (hroot : old ≠ ['/']) (hroot' : new ≠ ['/'])
    (hfound : ∃ k : ℕ, ask (lookupFid old) db = some (k : ℤ))
    (hplace : FreePlace db old new ∨ NoParent db new) :
    RenameRight db old new ↔ parentPath new = parentPath old ∨ NoParent db old := by
  obtain ⟨ns, hns, rfl⟩ := hold
  obtain ⟨ms, hms, rfl⟩ := hnew
  obtain rfl | ⟨P, o, rfl⟩ := List.eq_nil_or_concat' ns
  · exact absurd rfl hroot
  obtain rfl | ⟨N, n, rfl⟩ := List.eq_nil_or_concat' ms
  · exact absurd rfl hroot'
  obtain ⟨k, hk⟩ := hfound
  rw [ask_absolute hns] at hk
  rw [parentPath_eq_iff hns hms]
  have hno : NoParent db (absolute '/' (P ++ [o])) ↔ ∀ f, namedFid db P ≠ some f :=
    forall_congr' fun f => not_congr (ask_parent hns)
  rw [hno]
  obtain ⟨f, db', hf, hrun, hd⟩ | ⟨hnone, hrun⟩ := rename_ends hns hms hk
  · have hlost : ¬ ∀ f, namedFid db P ≠ some f := fun hall => hall f hf
    rw [or_iff_left hlost]
    constructor
    · intro hright
      by_contra hne
      obtain hfree | hmissing := hplace
      · have hat := (hright.moved hfree db' hrun).at_new k
        rw [ask_absolute hns, ask_absolute hms] at hat
        exact not_found_elsewhere h hf hk hd hne (hat.mpr hk)
      · have hrefused := hright.refused hmissing
        rw [hrun, Outcome.done.injEq] at hrefused
        exact absurd hrefused.1 (by decide)
    · rintro rfl
      refine ⟨?_, ?_⟩
      · intro hfree db₁ hrun₁
        rw [hrun, Outcome.done.injEq] at hrun₁
        rw [← hrun₁.2]
        obtain ⟨g, hg, -, hlookup⟩ := hfree.directory
        rw [ask_parent hms, hf, Option.some.injEq] at hg
        rw [entryName_absolute hms, ← hg] at hlookup
        exact moved_of_renamed h hns hms hf hk hlookup hd
      · intro hmissing
        exact absurd ((ask_parent hms).mpr hf) (hmissing f)
  · refine iff_of_true ⟨?_, fun _ => hrun⟩ (.inr hnone)
    intro _ db₁ hrun₁
    rw [hrun, Outcome.done.injEq] at hrun₁
    exact absurd hrun₁.1 (by decide)

theorem freePlace_b : FreePlace withA "/a".toList "/b".toList :=
  ⟨⟨0, rfl, by decide, by decide⟩, by decide⟩

/-- `/a` to `/b`. -/
theorem rename_right_iff_ab :
    RenameRight withA "/a".toList "/b".toList ↔
      parentPath "/b".toList = parentPath "/a".toList ∨ NoParent withA "/a".toList :=
  rename_right_iff treeShaped_withA canonical_a ⟨[['b']], by decide, rfl⟩ (by decide) (by decide)
    ⟨1, rfl⟩ (.inl freePlace_b)

/-- **`/a/b` to `/c`**: the node becomes `/a/c`, and `/c` is not found. -/
theorem rename_stays_in_directory :
    ¬ ∀ db old new, TreeShaped db → Canonical old → Canonical new → old ≠ ['/'] → new ≠ ['/'] →
      (∃ k : ℕ, ask (lookupFid old) db = some (k : ℤ)) →
      FreePlace db old new ∨ NoParent db new → RenameRight db old new := by
  intro hall
  have hfree : FreePlace withAB "/a/b".toList "/c".toList :=
    ⟨⟨0, rfl, by decide, by decide⟩, by decide⟩
  have hright := hall _ _ _ treeShaped_withAB canonical_ab ⟨[['c']], by decide, rfl⟩ (by decide)
    (by decide) ⟨2, rfl⟩ (.inl hfree)
  have hat := (hright.moved hfree _ rfl).at_new 2
  have hfound := hat.mpr rfl
  exact absurd hfound (by decide)

end ClusterFtpd
