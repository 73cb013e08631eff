import ClusterFtpd.VfsCommands

/-!
# Tree-shaped file systems

`TreeShaped` says what the `dirent` and `stat` hashes of a proper file system look like: the
directories are the fids with a `dirent` hash, the entries name fids, every fid but the root is
named once, and there is one path to each.  In the terms of the library the entries form a rooted
tree on the fids with a `stat` hash (`treeShaped_iff`).

The transactions of `redis_vfs` change one entry each, so three lemmas say when they keep a tree:
`TreeShaped.create`, `TreeShaped.delete` and `TreeShaped.relabel`.
-/

namespace ClusterFtpd

open Interaction MachineInt NameGraph

/-- The `stat` hash says directory. -/
def IsDir (h : StatHash) : Prop := S_ISDIR h.toStat.st_mode = true

instance (h : StatHash) : Decidable (IsDir h) := inferInstanceAs (Decidable (_ = true))

/-- A 32-bit number other than the one `-1` is formatted to. -/
def IsFid (j : ℕ) : Prop := j < 4294967295

instance (j : ℕ) : Decidable (IsFid j) := inferInstanceAs (Decidable (j < 4294967295))

/-- The fid an entry's value stands for; `-1` is a placeholder. -/
def entryFid (v : ℤ) : Option ℕ := if 0 ≤ v then some v.toNat else none

/-- The graph of the entries that are no placeholders. -/
def entries (db : Redis) : NameGraph.Graph ℕ Text := fun k n => ((db.dirent k).lookup n).bind entryFid

/-- **A tree-shaped file system.** -/
structure TreeShaped (db : Redis) : Prop where
  root_dir : IsDir (db.stat 0)
  dirent_iff : ∀ f, db.dirent f ≠ ∅ ↔ IsDir (db.stat f)
  entry_fid : ∀ f n v, (db.dirent f).lookup n = some v →
    v = -1 ∨ ∃ j : ℕ, v = j ∧ IsFid j ∧ db.stat j ≠ .absent
  named_once : ∀ j : ℕ, j ≠ 0 → db.stat j ≠ .absent →
    ∃! e : ℕ × Text, (db.dirent e.1).lookup e.2 = some (j : ℤ)
  acyclic : ∀ f ns, ns ≠ [] → walk (entries db) f ns ≠ some f
  one_path : ∀ j, db.stat j ≠ .absent → ∃! ns, walk (entries db) 0 ns = some j

theorem entryFid_eq_some {v : ℤ} {j : ℕ} : entryFid v = some j ↔ v = j := by
  unfold entryFid
  split_ifs with h
  · rw [Option.some.injEq]
    omega
  · constructor
    · intro h0
      exact absurd h0 (by simp)
    · intro h0
      omega

theorem entries_eq_some {db : Redis} {k j : ℕ} {n : Text} :
    entries db k n = some j ↔ (db.dirent k).lookup n = some (j : ℤ) := by
  show ((db.dirent k).lookup n).bind entryFid = some j ↔ _
  rw [Option.bind_eq_some_iff]
  constructor
  · rintro ⟨v, hv, hj⟩
    rw [hv, entryFid_eq_some.mp hj]
  · intro h
    exact ⟨j, h, entryFid_eq_some.mpr rfl⟩

theorem not_isDir_absent : ¬ IsDir .absent := by decide

theorem IsDir.ne_absent {h : StatHash} (hd : IsDir h) : h ≠ .absent := by
  rintro rfl
  exact not_isDir_absent hd

theorem ne_empty_of_entries {db : Redis} {k j : ℕ} {n : Text} (h : entries db k n = some j) :
    db.dirent k ≠ ∅ := Dirent.ne_empty_of_lookup (entries_eq_some.mp h)

/-- A tree-shaped file system is a rooted tree of entries on the fids with a `stat` hash. -/
theorem treeShaped_iff {db : Redis} :
    TreeShaped db ↔ IsDir (db.stat 0) ∧ (∀ f, db.dirent f ≠ ∅ ↔ IsDir (db.stat f)) ∧
      (∀ f n v, (db.dirent f).lookup n = some v →
        v = -1 ∨ ∃ j : ℕ, v = j ∧ IsFid j ∧ db.stat j ≠ .absent) ∧
      RootedTree (entries db) 0 (fun j => db.stat j ≠ .absent) := by
  constructor
  · intro h
    have hsource : ∀ {a l b}, entries db a l = some b → db.stat a ≠ .absent := fun hab =>
      ((h.dirent_iff _).mp (ne_empty_of_entries hab)).ne_absent
    have htarget : ∀ {a l b}, entries db a l = some b → db.stat b ≠ .absent := by
      intro a l b hab
      rcases h.entry_fid a l _ (entries_eq_some.mp hab) with h0 | ⟨j, hj, -, hs⟩
      · omega
      · have hbj : b = j := by omega
        rw [hbj]
        exact hs
    have hroot : ∀ {a l}, entries db a l ≠ some 0 := by
      intro a l hal
      obtain ⟨ns, hns, -⟩ := h.one_path a (hsource hal)
      exact h.acyclic 0 (ns ++ [l]) (by simp) (walk_concat_eq_some.mpr ⟨a, hns, hal⟩)
    refine ⟨h.root_dir, h.dirent_iff, h.entry_fid, hsource, htarget, ?_, hroot,
      h.root_dir.ne_absent, ?_⟩
    · intro a l a' l' b hab hab'
      have hb0 : b ≠ 0 := by
        rintro rfl
        exact hroot hab
      obtain ⟨e, -, huniq⟩ := h.named_once b hb0 (htarget hab)
      have h₁ := huniq (a, l) (entries_eq_some.mp hab)
      have h₂ := huniq (a', l') (entries_eq_some.mp hab')
      rw [← h₁, Prod.mk.injEq] at h₂
      exact h₂
    · intro b hb
      obtain ⟨ns, hns, -⟩ := h.one_path b hb
      exact ⟨ns, hns⟩
  · rintro ⟨h0, hdir, hent, htree⟩
    refine ⟨h0, hdir, hent, ?_, fun f ns hns => htree.acyclic hns, ?_⟩
    · intro j hj hs
      obtain ⟨a, l, hal, huniq⟩ := htree.named_once hs hj
      refine ⟨(a, l), entries_eq_some.mp hal, ?_⟩
      rintro ⟨a', l'⟩ h'
      obtain ⟨rfl, rfl⟩ := huniq a' l' (entries_eq_some.mpr h')
      rfl
    · intro j hs
      obtain ⟨ns, hns⟩ := htree.reached hs
      exact ⟨ns, hns, fun ns' h' => htree.unique_path h' hns⟩

variable {db db' : Redis}

theorem TreeShaped.tree (h : TreeShaped db) :
    RootedTree (entries db) 0 (fun j => db.stat j ≠ .absent) := (treeShaped_iff.mp h).2.2.2

/-- No fid is the number that a placeholder is formatted to. -/
theorem TreeShaped.isFid_of_stat (h : TreeShaped db) {j : ℕ} (hj : db.stat j ≠ .absent) :
    IsFid j := by
  by_cases h0 : j = 0
  · subst h0
    show 0 < 4294967295
    omega
  · obtain ⟨e, he, -⟩ := h.named_once j h0 hj
    rcases h.entry_fid _ _ _ he with h1 | ⟨i, hi, hfid, -⟩
    · omega
    · have hij : j = i := by omega
      rw [hij]
      exact hfid

theorem TreeShaped.dirent_eq_empty (h : TreeShaped db) {k : ℕ} (hk : ¬ IsDir (db.stat k)) :
    db.dirent k = ∅ := by
  by_contra hne
  exact hk ((h.dirent_iff k).mp hne)

/-- What `lookup_fid` takes an entry for is the fid it names, unless it is a placeholder. -/
theorem TreeShaped.child_eq (h : TreeShaped db) {k j : ℕ} {n : Text} :
    child db k n = some j ↔
      entries db k n = some j ∨ ((db.dirent k).lookup n = some (-1) ∧ j = 4294967295) := by
  show ((db.dirent k).lookup n).map u32 = some j ↔ _
  rw [entries_eq_some, Option.map_eq_some_iff]
  constructor
  · rintro ⟨v, hv, hvj⟩
    rcases h.entry_fid k n v hv with rfl | ⟨i, rfl, hfid, -⟩
    · exact .inr ⟨hv, by rw [← hvj]; rfl⟩
    · have hi : i < 4294967295 := hfid
      rw [u32_natCast (by omega)] at hvj
      subst hvj
      exact .inl hv
  · rintro (h1 | ⟨h1, rfl⟩)
    · have hj : j < 4294967295 := by
        rcases h.entry_fid k n _ h1 with h0 | ⟨i, hi, hfid, -⟩
        · omega
        · have hi' : i < 4294967295 := hfid
          omega
      exact ⟨j, h1, u32_natCast (by omega)⟩
    · exact ⟨-1, h1, rfl⟩

/-- A walk of `lookup_fid` that arrives at a fid follows entries that are no placeholders. -/
theorem TreeShaped.walk_entries (h : TreeShaped db) {ns : List Text} {k j : ℕ} (hj : IsFid j) :
    walk (child db) k ns = some j ↔ walk (entries db) k ns = some j := by
  have hstop : ∀ ms, walk (child db) 4294967295 ms ≠ some j := by
    have hstat : db.stat 4294967295 = .absent := by
      by_contra hne
      have hfid : (4294967295 : ℕ) < 4294967295 := h.isFid_of_stat hne
      omega
    have hempty : db.dirent 4294967295 = ∅ := by
      apply h.dirent_eq_empty
      rw [hstat]
      exact not_isDir_absent
    intro ms hms
    cases ms with
    | nil =>
        rw [walk_nil, Option.some.injEq] at hms
        have hj' : j < 4294967295 := hj
        omega
    | cons m ms =>
        rw [walk_cons, child_eq_none_of_empty hempty] at hms
        exact absurd hms (by simp)
  induction ns generalizing k with
  | nil => rfl
  | cons n ns ih =>
      rw [walk_cons, walk_cons, Option.bind_eq_some_iff, Option.bind_eq_some_iff]
      constructor
      · rintro ⟨i, hi, hw⟩
        rcases h.child_eq.mp hi with h1 | ⟨-, rfl⟩
        · exact ⟨i, h1, ih.mp hw⟩
        · exact absurd hw (hstop ns)
      · rintro ⟨i, hi, hw⟩
        exact ⟨i, h.child_eq.mpr (.inl hi), ih.mpr hw⟩

/-- A found fid is found along entries. -/
theorem TreeShaped.namedFid_iff (h : TreeShaped db) {ns : List Text} {k : ℕ} :
    namedFid db ns = some k ↔ walk (entries db) 0 ns = some k ∧ k < 2147483648 := by
  rw [namedFid_eq_some]
  constructor
  · rintro ⟨hw, hk⟩
    have hfid : k < 4294967295 := by omega
    exact ⟨(h.walk_entries hfid).mp hw, hk⟩
  · rintro ⟨hw, hk⟩
    have hfid : k < 4294967295 := by omega
    exact ⟨(h.walk_entries hfid).mpr hw, hk⟩

/-- The entry through which a path is found. -/
theorem TreeShaped.entry_of_found (h : TreeShaped db) {ns : List Text} {n : Text} {k f : ℕ}
    (hk : namedFid db (ns ++ [n]) = some k) (hf : namedFid db ns = some f) :
    entries db f n = some k := by
  obtain ⟨hwk, -⟩ := h.namedFid_iff.mp hk
  obtain ⟨hwf, -⟩ := h.namedFid_iff.mp hf
  rw [walk_concat_eq_some] at hwk
  obtain ⟨b, hb, hbk⟩ := hwk
  rw [hwf, Option.some.injEq] at hb
  rw [hb]
  exact hbk

/-! ### What the transactions do to the entries -/

theorem entries_congr_of_lookup {k : ℕ} {n : Text}
    (h : (db'.dirent k).lookup n = (db.dirent k).lookup n) : entries db' k n = entries db k n := by
  show ((db'.dirent k).lookup n).bind entryFid = ((db.dirent k).lookup n).bind entryFid
  rw [h]

/-- A free name: absent or a placeholder. -/
def FreeName (db : Redis) (k : ℕ) (n : Text) : Prop :=
  (db.dirent k).lookup n = none ∨ (db.dirent k).lookup n = some (-1)

theorem FreeName.entries_eq_none {k : ℕ} {n : Text} (h : FreeName db k n) :
    entries db k n = none := by
  show ((db.dirent k).lookup n).bind entryFid = none
  rcases h with h | h
  · rw [h]
    rfl
  · rw [h]
    rfl

/-- **Creation.**  A new fid under a free name of a directory, with or without a `dirent` hash of
its own that holds placeholders only. -/
theorem TreeShaped.create (h : TreeShaped db) {f j : ℕ} {n : Text} (hf : IsDir (db.stat f))
    (hn : FreeName db f n) (hj : IsFid j) (hnew : db.stat j = .absent)
    (hstat : ∀ k, k ≠ j → db'.stat k = db.stat k) (hjstat : db'.stat j ≠ .absent)
    (hlook : ∀ k m, ¬ (k = f ∧ m = n) → k ≠ j →
      (db'.dirent k).lookup m = (db.dirent k).lookup m)
    (hentry : (db'.dirent f).lookup n = some (j : ℤ))
    (hjdir : db'.dirent j ≠ ∅ ↔ IsDir (db'.stat j))
    (hjhold : ∀ m v, (db'.dirent j).lookup m = some v → v = -1) : TreeShaped db' := by
  have hfj : f ≠ j := by
    rintro rfl
    exact hf.ne_absent hnew
  have hj0 : j ≠ 0 := by
    rintro rfl
    exact h.root_dir.ne_absent hnew
  have hold : db.dirent j = ∅ := by
    apply h.dirent_eq_empty
    rw [hnew]
    exact not_isDir_absent
  have hkeepStat : ∀ k, db.stat k ≠ .absent → db'.stat k ≠ .absent := by
    intro k hk
    have hkj : k ≠ j := by
      rintro rfl
      exact hk hnew
    rw [hstat k hkj]
    exact hk
  rw [treeShaped_iff]
  refine ⟨?_, ?_, ?_, ?_⟩
  · rw [hstat 0 hj0.symm]
    exact h.root_dir
  · intro k
    by_cases hkj : k = j
    · subst hkj
      exact hjdir
    · rw [hstat k hkj, ← h.dirent_iff k]
      by_cases hkf : k = f
      · subst hkf
        constructor
        · intro _
          exact (h.dirent_iff k).mpr hf
        · intro _
          exact Dirent.ne_empty_of_lookup hentry
      · have heq : db'.dirent k = db.dirent k :=
          Finmap.ext_lookup fun m => hlook k m (fun hc => hkf hc.1) hkj
        rw [heq]
  · intro k m v hv
    by_cases hkj : k = j
    · subst hkj
      exact .inl (hjhold m v hv)
    · by_cases hkm : k = f ∧ m = n
      · obtain ⟨rfl, rfl⟩ := hkm
        rw [hentry, Option.some.injEq] at hv
        exact .inr ⟨j, hv.symm, hj, hjstat⟩
      · rw [hlook k m hkm hkj] at hv
        rcases h.entry_fid k m v hv with h1 | ⟨i, hi, hfid, hs⟩
        · exact .inl h1
        · exact .inr ⟨i, hi, hfid, hkeepStat i hs⟩
  · have hoff : AgreeOff (entries db) (entries db') f n := by
      intro k m hkm
      by_cases hkj : k = j
      · subst hkj
        have h1 : entries db' k m = none := by
          cases he : entries db' k m with
          | none => rfl
          | some i =>
              have hv := hjhold m _ (entries_eq_some.mp he)
              omega
        have h2 : entries db k m = none := by
          show ((db.dirent k).lookup m).bind entryFid = none
          rw [hold, Finmap.lookup_empty]
          rfl
        rw [h1, h2]
      · exact entries_congr_of_lookup (hlook k m hkm hkj)
    have htree := h.tree.insert_leaf hoff (entries_eq_some.mpr hentry) hn.entries_eq_none
      hf.ne_absent (fun hc => hc hnew)
    have hnode : (fun b => db.stat b ≠ .absent ∨ b = j) = fun b => db'.stat b ≠ .absent := by
      funext b
      apply propext
      constructor
      · rintro (hb | rfl)
        · exact hkeepStat b hb
        · exact hjstat
      · intro hb
        by_cases hbj : b = j
        · exact .inr hbj
        · rw [hstat b hbj] at hb
          exact .inl hb
    rw [← hnode]
    exact htree

/-- **Deletion** of a fid without entries, from a hash that keeps another field. -/
theorem TreeShaped.delete (h : TreeShaped db) {f k : ℕ} {n : Text}
    (hentry : entries db f n = some k) (hk : ¬ IsDir (db.stat k))
    (hother : ∃ m, m ≠ n ∧ (db.dirent f).lookup m ≠ none)
    (hdirent : db'.dirent = dropEntry db.dirent f n)
    (hstat : db'.stat = Function.update db.stat k .absent) : TreeShaped db' := by
  have hk0 : k ≠ 0 := by
    rintro rfl
    exact hk h.root_dir
  have hstatk : db'.stat k = .absent := by
    rw [hstat, Function.update_self]
  have hstatne : ∀ i, i ≠ k → db'.stat i = db.stat i := by
    intro i hi
    rw [hstat, Function.update_of_ne hi]
  have hlook : ∀ i m, (db'.dirent i).lookup m =
      if i = f ∧ m = n then none else (db.dirent i).lookup m := by
    intro i m
    rw [hdirent]
    exact lookup_dropEntry db.dirent f n i m
  have hempty : db.dirent k = ∅ := h.dirent_eq_empty hk
  have hfdir : IsDir (db.stat f) := (h.dirent_iff f).mp (ne_empty_of_entries hentry)
  have hfk : f ≠ k := by
    rintro rfl
    exact hk hfdir
  rw [treeShaped_iff]
  refine ⟨?_, ?_, ?_, ?_⟩
  · rw [hstatne 0 hk0.symm]
    exact h.root_dir
  · intro i
    by_cases hif : i = f
    · subst hif
      rw [hstatne i hfk]
      constructor
      · intro _
        exact hfdir
      · intro _
        obtain ⟨m, hmn, hm⟩ := hother
        obtain ⟨v, hv⟩ := Option.ne_none_iff_exists'.mp hm
        refine Dirent.ne_empty_of_lookup (n := m) (v := v) ?_
        rw [hlook, if_neg fun hc => hmn hc.2]
        exact hv
    · have heq : db'.dirent i = db.dirent i := by
        rw [hdirent]
        exact dropEntry_of_ne hif n
      by_cases hik : i = k
      · subst hik
        rw [heq, hempty, hstatk]
        constructor
        · intro hc
          exact absurd rfl hc
        · intro hc
          exact absurd hc not_isDir_absent
      · rw [heq, hstatne i hik]
        exact h.dirent_iff i
  · intro i m v hv
    rw [hlook] at hv
    split_ifs at hv with him
    rcases h.entry_fid i m v hv with h1 | ⟨j, rfl, hfid, hs⟩
    · exact .inl h1
    · have hjk : j ≠ k := by
        rintro rfl
        obtain ⟨rfl, rfl⟩ := h.tree.once hentry (entries_eq_some.mpr hv)
        exact him ⟨rfl, rfl⟩
      exact .inr ⟨j, rfl, hfid, by rw [hstatne j hjk]; exact hs⟩
  · have hoff : AgreeOff (entries db) (entries db') f n := by
      intro i m him
      apply entries_congr_of_lookup
      rw [hlook, if_neg him]
    have hgone : entries db' f n = none := by
      show ((db'.dirent f).lookup n).bind entryFid = none
      rw [hlook, if_pos ⟨rfl, rfl⟩]
      rfl
    have hleaf : ∀ m, entries db k m = none := by
      intro m
      show ((db.dirent k).lookup m).bind entryFid = none
      rw [hempty, Finmap.lookup_empty]
      rfl
    have htree := h.tree.delete_leaf hoff hgone hentry hleaf
    have hnode : (fun b => db.stat b ≠ .absent ∧ b ≠ k) = fun b => db'.stat b ≠ .absent := by
      funext b
      apply propext
      constructor
      · rintro ⟨hb, hbk⟩
        rw [hstatne b hbk]
        exact hb
      · intro hb
        have hbk : b ≠ k := by
          rintro rfl
          exact hb hstatk
        rw [hstatne b hbk] at hb
        exact ⟨hb, hbk⟩
    rw [← hnode]
    exact htree

/-- **A new name** in the same directory, free or the old one. -/
theorem TreeShaped.relabel (h : TreeShaped db) {f k : ℕ} {n n' : Text}
    (hentry : entries db f n = some k) (hfree : n' ≠ n → FreeName db f n')
    (hdirent : db'.dirent = setEntry (dropEntry db.dirent f n) f n' (k : ℤ))
    (hstat : db'.stat = db.stat) : TreeShaped db' := by
  have hlook : ∀ i m, (db'.dirent i).lookup m =
      if i = f ∧ m = n' then some (k : ℤ)
      else if i = f ∧ m = n then none else (db.dirent i).lookup m := by
    intro i m
    rw [hdirent, lookup_setEntry, lookup_dropEntry]
  have hnew : (db'.dirent f).lookup n' = some (k : ℤ) := by
    rw [hlook, if_pos ⟨rfl, rfl⟩]
  rw [treeShaped_iff]
  refine ⟨?_, ?_, ?_, ?_⟩
  · rw [hstat]
    exact h.root_dir
  · intro i
    rw [hstat]
    by_cases hif : i = f
    · subst hif
      constructor
      · intro _
        exact (h.dirent_iff i).mp (ne_empty_of_entries hentry)
      · intro _
        exact Dirent.ne_empty_of_lookup hnew
    · have heq : db'.dirent i = db.dirent i := by
        rw [hdirent, setEntry_of_ne hif, dropEntry_of_ne hif]
      rw [heq]
      exact h.dirent_iff i
  · intro i m v hv
    rw [hstat]
    rw [hlook] at hv
    split_ifs at hv with h₁ h₂
    · rw [Option.some.injEq] at hv
      subst hv
      exact h.entry_fid f n _ (entries_eq_some.mp hentry)
    · exact h.entry_fid i m v hv
  · have hgone : n' ≠ n → entries db' f n = none := by
      intro hne
      show ((db'.dirent f).lookup n).bind entryFid = none
      rw [hlook, if_neg fun hc => hne hc.2.symm, if_pos ⟨rfl, rfl⟩]
      rfl
    have hoff : ∀ i m, ¬ (i = f ∧ (m = n ∨ m = n')) → entries db' i m = entries db i m := by
      intro i m him
      apply entries_congr_of_lookup
      rw [hlook, if_neg fun hc => him ⟨hc.1, .inr hc.2⟩, if_neg fun hc => him ⟨hc.1, .inl hc.2⟩]
    have htree := h.tree.relabel hentry (entries_eq_some.mpr hnew) hgone hoff
      fun hne => (hfree hne).entries_eq_none
    rw [hstat]
    exact htree

end ClusterFtpd
