import ClusterFtpd.VfsCommands

/-!
# Where `lookup_fid` ends

A path is resolved component by component, each in the `dirent` hash of the fid before it.  The
loop of `lookup_fid` takes a component off when its entry is there, and answers -1 when it is not;
when the hash has no fields at all it does neither, and asks again.

Main result: `resolution_right_iff`: `lookup_fid` ends with the right answer exactly when every fid
on the way that has a component behind it has a hash with fields.  A file, an emptied directory and
a placeholder in the middle of a path have none.
-/

namespace ClusterFtpd

open Interaction MachineInt PathComponents

/-- The components of a path: what stands between its slashes, without what stands before the first
one and without an empty text behind the last one. -/
def components (path : Text) : List Text :=
  if (pieces '/' path).tail.getLast? = some [] then (pieces '/' path).tail.dropLast
  else (pieces '/' path).tail

/-- The fid that components lead to: each is looked up in the hash of the fid before it. -/
def reach (db : Redis) (fid : ℤ) : List Text → Option ℤ
  | [] => some fid
  | c :: cs => ((db.dirent (u32 fid)).lookup c).bind fun v => reach db v cs

/-- The values of the `dirent` hashes are -1 or not negative as an `int`. -/
def IntEntries (db : Redis) : Prop :=
  ∀ k n v, (db.dirent k).lookup n = some v → -1 ≤ v ∧ v < 2147483648

/-- The queries a program makes. -/
def queries {α : Type} (p : RedisProg α) (db : Redis) : List RedisOp :=
  trace serveRedis (fun o _ => some o) p db

/-- `lookup_fid` ends, after at most one query for each component, with the fid the components lead
to, or with a negative number when they lead nowhere. -/
def ResolvesRight (db : Redis) (path : Text) : Prop :=
  ∃ fid, run serveRedis (lookupFid path) db = .done fid db ∧
    (queries (lookupFid path) db).length ≤ (components path).length ∧
    (∀ f, reach db 0 (components path) = some f → fid = f) ∧
    (reach db 0 (components path) = none → fid < 0)

/-- Every fid that has a component behind it has a `dirent` hash. -/
def HashesOnTheWay (db : Redis) (fid : ℤ) (cs : List Text) : Prop :=
  ∀ earlier c later f, cs = earlier ++ c :: later → reach db fid earlier = some f →
    db.dirent (u32 f) ≠ ∅

variable {db : Redis}

/-! ### The loop -/

theorem reach_cons {fid v : ℤ} {c : Text} (cs : List Text)
    (h : (db.dirent (u32 fid)).lookup c = some v) : reach db fid (c :: cs) = reach db v cs := by
  rw [reach, h, Option.bind_some]

/-- The loop makes at most one query for each component. -/
theorem atMost_lookupWalk (fid : ℤ) (cs : List Text) : AtMost (lookupWalk fid cs) cs.length := by
  induction cs generalizing fid with
  | nil => trivial
  | cons c cs ih =>
      refine ⟨cs.length, rfl, ?_⟩
      intro my_map
      dsimp only
      cases Finmap.lookup c my_map with
      | none => trivial
      | some v => exact ih (int32 v)

/-- With a hash at every component the loop answers what the components lead to. -/
theorem lookupResult_of_hashes (hint : IntEntries db) {fid : ℤ} {cs : List Text}
    (hway : HashesOnTheWay db fid cs) : ∃ f, lookupResult db fid cs = some f ∧
      (∀ g, reach db fid cs = some g → f = g) ∧ (reach db fid cs = none → f < 0) := by
  induction cs generalizing fid with
  | nil =>
      refine ⟨fid, rfl, ?_, ?_⟩
      · intro g hg
        rw [reach, Option.some.injEq] at hg
        exact hg
      · intro hnone
        exact absurd hnone (by simp [reach])
  | cons c cs ih =>
      have hfull : db.dirent (u32 fid) ≠ ∅ := hway [] c cs fid rfl rfl
      rw [lookupResult, if_neg hfull, reach]
      cases hv : (db.dirent (u32 fid)).lookup c with
      | none =>
          refine ⟨-1, rfl, ?_, fun _ => by omega⟩
          intro g hg
          exact absurd hg (by simp)
      | some v =>
          obtain ⟨hlow, hhigh⟩ := hint _ _ _ hv
          have hint32 : int32 v = v := int32_of_range (by omega) hhigh
          have hbehind : HashesOnTheWay db v cs := by
            intro earlier d later f hcs hf
            refine hway (c :: earlier) d later f ?_ ?_
            · rw [hcs, List.cons_append]
            · rw [reach_cons earlier hv]
              exact hf
          dsimp only
          rw [hint32, Option.bind_some]
          exact ih hbehind

/-- Where a hash is missing the loop does not end. -/
theorem lookupResult_of_missing (hint : IntEntries db) {earlier later : List Text} {c : Text}
    {fid f : ℤ} (hf : reach db fid earlier = some f) (hempty : db.dirent (u32 f) = ∅) :
    lookupResult db fid (earlier ++ c :: later) = none := by
  induction earlier generalizing fid with
  | nil =>
      rw [reach, Option.some.injEq] at hf
      rw [List.nil_append, lookupResult, hf, if_pos hempty]
  | cons d earlier ih =>
      rw [reach, Option.bind_eq_some_iff] at hf
      obtain ⟨v, hv, hrest⟩ := hf
      obtain ⟨hlow, hhigh⟩ := hint _ _ _ hv
      have hint32 : int32 v = v := int32_of_range (by omega) hhigh
      rw [List.cons_append, lookupResult, if_neg (Dirent.ne_empty_of_lookup hv), hv]
      dsimp only
      rw [hint32]
      exact ih hrest

/-- `lookup_fid` of an absolute path is the loop over its components. -/
theorem lookupFid_components (w : Text) :
    lookupFid ('/' :: w) = lookupWalk 0 (components ('/' :: w)) := by
  have hpieces : pieces '/' ('/' :: w) = [] :: pieces '/' w := pieces_cons_sep '/' w
  rw [lookupFid_of_pieces hpieces (pieces_ne_nil '/' w), components, hpieces, List.tail_cons]

/-- **Path resolution** ends with the right answer exactly when every fid on the way has a hash. -/
theorem resolution_right_iff (db : Redis) (w : Text) (hint : IntEntries db) :
    ResolvesRight db ('/' :: w) ↔ HashesOnTheWay db 0 (components ('/' :: w)) := by
  unfold ResolvesRight queries
  rw [lookupFid_components, run_lookupWalk]
  constructor
  · intro hright earlier c later f hcs hf hempty
    obtain ⟨fid, hrun, -⟩ := hright
    rw [hcs, lookupResult_of_missing hint hf hempty] at hrun
    exact absurd hrun (by simp [answer])
  · intro hway
    obtain ⟨f, hf, hfound, hnone⟩ := lookupResult_of_hashes hint hway
    refine ⟨f, ?_, ?_, hfound, hnone⟩
    · rw [hf]
      rfl
    · exact (atMost_lookupWalk 0 _).length_trace _ _ db

/-- A root directory with the file `a` in it. -/
def oneFile : Redis where
  fid_counter := 1
  transaction_counter := 0
  dirent := setEntry (fun _ => ∅) 0 ['a'] 1
  stat := fun _ => .absent
  username := fun _ => none

theorem intEntries_oneFile : IntEntries oneFile := by
  intro k n v hv
  have hentry : (setEntry (fun _ => ∅) 0 ['a'] 1 k).lookup n = some v := hv
  rw [lookup_setEntry] at hentry
  split_ifs at hentry
  · rw [Option.some.injEq] at hentry
    omega
  · rw [Finmap.lookup_empty] at hentry
    exact absurd hentry (by simp)

/-- `/a` is found. -/
theorem resolution_right_a : ResolvesRight oneFile ['/', 'a'] := by
  refine (resolution_right_iff oneFile ['a'] intEntries_oneFile).mpr ?_
  have hcs : components ['/', 'a'] = [['a']] := rfl
  intro earlier c later f heq hf
  rw [hcs, List.singleton_eq_append_iff] at heq
  obtain ⟨rfl, -⟩ | ⟨-, hnil⟩ := heq
  · rw [reach, Option.some.injEq] at hf
    rw [← hf]
    exact setEntry_ne_empty (fun _ => ∅) 0 ['a'] 1
  · exact absurd hnil (by simp)

/-- **A file in the middle of a path**: the resolution of `/a/b` does not end. -/
theorem resolution_below_file :
    ¬ ∀ db w, IntEntries db → ResolvesRight db ('/' :: w) := by
  intro hall
  obtain ⟨fid, hrun, -⟩ := hall oneFile "a/b".toList intEntries_oneFile
  have hloops : run serveRedis (lookupFid ('/' :: "a/b".toList)) oneFile =
      .stopped .loops oneFile := rfl
  rw [hloops] at hrun
  exact absurd hrun (by simp)

end ClusterFtpd
