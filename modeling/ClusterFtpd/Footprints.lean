import ClusterFtpd.Lib.Serial
import ClusterFtpd.VfsRuns

/-!
# What the commands read and write

The database is cut into cells: the two counters, the entries of the `dirent` hashes, whether such a
hash is there at all, and the `stat` hashes.  An operation writes the cells of its queued commands
and reads the cells its program looks at; a program that walks a path asks a `dirent` hash only for
the names of that path and whether it has any field.

Main results:

* `VfsCmd.uses_prog`: a command does not tell apart answers with the same entries for its names;
* `exchangeable_of_not_conflict`: two operations of which neither writes what the other reads or
  writes can be exchanged.
-/

namespace ClusterFtpd

open Interaction MachineInt

/-- A part of the database; `listed` is whether `dirent:<key>` has a field. -/
inductive Cell where
  | fid_counter
  | transaction_counter
  | entry (key : ℕ) (name : Text)
  | listed (key : ℕ)
  | stat (key : ℕ)
  deriving DecidableEq

/-- The cell a queued command writes. -/
def Write.cell : Write → Option Cell
  | .hsetDirent key entry _ => some (.entry key entry)
  | .hdelDirent key entry => some (.entry key entry)
  | .hsetStat key _ => some (.stat key)
  | .delStat key => some (.stat key)
  | .delDiren _ => none

/-- The cells an operation writes. -/
def RedisOp.writes : RedisOp → List Cell
  | .incrFidCounter => [.fid_counter]
  | .incrTransactionCounter => [.transaction_counter]
  | .multiExec queued => queued.filterMap Write.cell
  | _ => []

/-- The entry a queued command deletes. -/
def Write.deletes : Write → Option Cell
  | .hdelDirent key entry => some (.entry key entry)
  | _ => none

/-- The entries an operation deletes. -/
def RedisOp.deletes : RedisOp → List Cell
  | .multiExec queued => queued.filterMap Write.deletes
  | _ => []

/-- The cells an operation reads for a program that asks for `names` only. -/
def RedisOp.reads (names : List Text) : RedisOp → List Cell
  | .hgetallDirent key => .listed key :: names.map (.entry key)
  | .hlenDirent key => [.listed key]
  | .hgetallStat key => [.stat key]
  | .incrFidCounter => [.fid_counter]
  | .incrTransactionCounter => [.transaction_counter]
  | .hgetallUsername _ => []
  | .multiExec _ => []

/-- The `dirent` hash an entry is in. -/
def Cell.hash : Cell → Option ℕ
  | .entry key _ => some key
  | _ => none

/-- A write of `c` can be seen in `d`.  An entry that comes or goes can be the only one of its hash,
unless the hash is among those that keep one. -/
def SeenIn (kept : ℕ → Prop) (c d : Cell) : Prop :=
  c = d ∨ ∃ key ∈ c.hash, d = .listed key ∧ ¬ kept key

instance (kept : ℕ → Prop) [DecidablePred kept] (c d : Cell) : Decidable (SeenIn kept c d) :=
  inferInstanceAs (Decidable (c = d ∨ ∃ key ∈ c.hash, d = .listed key ∧ ¬ kept key))

/-- One of the operations writes what the other reads or writes. -/
def Conflict (kept : ℕ → Prop) (names : List Text) (o : RedisOp) (names' : List Text)
    (o' : RedisOp) : Prop :=
  (∃ c ∈ o.writes, ∃ d ∈ o'.reads names', SeenIn kept c d) ∨
    (∃ c ∈ o'.writes, ∃ d ∈ o.reads names, SeenIn kept c d) ∨ ∃ c ∈ o.writes, c ∈ o'.writes

instance (kept : ℕ → Prop) [DecidablePred kept] (names : List Text) (o : RedisOp)
    (names' : List Text) (o' : RedisOp) : Decidable (Conflict kept names o names' o') :=
  inferInstanceAs (Decidable (_ ∨ _ ∨ _))

/-- The more hashes keep an entry, the fewer operations conflict. -/
theorem Conflict.mono {kept kept' : ℕ → Prop} {names names' : List Text} {o o' : RedisOp}
    (hsub : ∀ k, kept' k → kept k) (h : Conflict kept names o names' o') :
    Conflict kept' names o names' o' := by
  have hseen : ∀ c d, SeenIn kept c d → SeenIn kept' c d := by
    rintro c d (heq | ⟨key, hkey, hd, hkept⟩)
    · exact .inl heq
    · exact .inr ⟨key, hkey, hd, fun h' => hkept (hsub key h')⟩
  rcases h with ⟨c, hc, d, hd, hcd⟩ | ⟨c, hc, d, hd, hcd⟩ | hww
  · exact .inl ⟨c, hc, d, hd, hseen c d hcd⟩
  · exact .inr (.inl ⟨c, hc, d, hd, hseen c d hcd⟩)
  · exact .inr (.inr hww)

/-- Answers that are the same to a program that asks for `names` only. -/
def SameAnswer (names : List Text) : (o : RedisOp) → o.Res → o.Res → Prop
  | .hgetallDirent _, r, r' => (r = ∅ ↔ r' = ∅) ∧ ∀ n ∈ names, r.lookup n = r'.lookup n
  | .hlenDirent _, r, r' => r = 0 ↔ r' = 0
  | .hgetallStat _, r, r' => r = r'
  | .incrFidCounter, r, r' => r = r'
  | .incrTransactionCounter, r, r' => r = r'
  | .hgetallUsername _, r, r' => r = r'
  | .multiExec _, _, _ => True

theorem SameAnswer.refl (names : List Text) (o : RedisOp) (r : o.Res) : SameAnswer names o r r := by
  cases o with
  | hgetallDirent key => exact ⟨Iff.rfl, fun _ _ => rfl⟩
  | hlenDirent key => exact Iff.rfl
  | multiExec queued => trivial
  | _ => rfl

theorem SameAnswer.symm {names : List Text} (o : RedisOp) (r r' : o.Res)
    (h : SameAnswer names o r r') : SameAnswer names o r' r := by
  cases o with
  | hgetallDirent key => exact ⟨h.1.symm, fun n hn => (h.2 n hn).symm⟩
  | hlenDirent key => exact Iff.symm h
  | multiExec queued => trivial
  | _ => exact Eq.symm h

/-! ### The queued commands -/

/-- What a queued command does to an entry: nothing, or its value from then on. -/
def Write.sets : Write → ℕ → Text → Option (Option ℤ)
  | .hsetDirent key entry v, k, n => if k = key ∧ n = entry then some (some v) else none
  | .hdelDirent key entry, k, n => if k = key ∧ n = entry then some none else none
  | _, _, _ => none

/-- What a queued command does to a `stat` hash. -/
def Write.onStat : Write → ℕ → StatHash → StatHash
  | .hsetStat key f, k, h => if k = key then h.hset f else h
  | .delStat key, k, h => if k = key then .absent else h
  | _, _, h => h

theorem Write.lookup_apply (w : Write) (db : Redis) (k : ℕ) (n : Text) :
    ((w.apply db).dirent k).lookup n = (w.sets k n).getD ((db.dirent k).lookup n) := by
  cases w with
  | hsetDirent key entry v =>
      have hset := lookup_setEntry db.dirent key entry v k n
      rw [Write.sets]
      by_cases h : k = key ∧ n = entry
      · rw [if_pos h] at hset ⊢
        exact hset
      · rw [if_neg h] at hset ⊢
        exact hset
  | hdelDirent key entry =>
      have hdrop := lookup_dropEntry db.dirent key entry k n
      rw [Write.sets]
      by_cases h : k = key ∧ n = entry
      · rw [if_pos h] at hdrop ⊢
        exact hdrop
      · rw [if_neg h] at hdrop ⊢
        exact hdrop
  | _ => rfl

theorem Write.stat_apply (w : Write) (db : Redis) (k : ℕ) :
    (w.apply db).stat k = w.onStat k (db.stat k) := by
  cases w with
  | hsetStat key f =>
      show Function.update db.stat key _ k = if k = key then _ else _
      by_cases h : k = key
      · subst h
        rw [Function.update_self, if_pos rfl]
      · rw [Function.update_of_ne h, if_neg h]
  | delStat key =>
      show Function.update db.stat key _ k = if k = key then _ else _
      by_cases h : k = key
      · subst h
        rw [Function.update_self, if_pos rfl]
      · rw [Function.update_of_ne h, if_neg h]
  | _ => rfl

theorem Write.sets_of_cell {w : Write} {k : ℕ} {n : Text} (h : w.cell ≠ some (.entry k n)) :
    w.sets k n = none := by
  cases w with
  | hsetDirent key entry v =>
      apply if_neg
      rintro ⟨rfl, rfl⟩
      exact h rfl
  | hdelDirent key entry =>
      apply if_neg
      rintro ⟨rfl, rfl⟩
      exact h rfl
  | _ => rfl

theorem Write.onStat_of_cell {w : Write} {k : ℕ} (h : w.cell ≠ some (.stat k)) (s : StatHash) :
    w.onStat k s = s := by
  cases w with
  | hsetStat key f =>
      apply if_neg
      rintro rfl
      exact h rfl
  | delStat key =>
      apply if_neg
      rintro rfl
      exact h rfl
  | _ => rfl

/-- Two queued commands for different cells commute. -/
theorem Write.apply_comm {w v : Write} (h : ∀ c, w.cell = some c → v.cell ≠ some c) (db : Redis) :
    w.apply (v.apply db) = v.apply (w.apply db) := by
  have hor : ∀ c, w.cell ≠ some c ∨ v.cell ≠ some c := by
    intro c
    by_cases hw : w.cell = some c
    · exact .inr (h c hw)
    · exact .inl hw
  apply Redis.ext
  · simp
  · simp
  · funext k
    apply Finmap.ext_lookup
    intro n
    rw [lookup_apply, lookup_apply, lookup_apply, lookup_apply]
    rcases hor (.entry k n) with hw | hv
    · rw [sets_of_cell hw]
      rfl
    · rw [sets_of_cell hv]
      rfl
  · funext k
    rw [stat_apply, stat_apply, stat_apply, stat_apply]
    rcases hor (.stat k) with hw | hv
    · rw [onStat_of_cell hw, onStat_of_cell hw]
    · rw [onStat_of_cell hv, onStat_of_cell hv]
  · simp

theorem Write.apply_applyAll {w : Write} {vs : List Write}
    (h : ∀ v ∈ vs, ∀ c, w.cell = some c → v.cell ≠ some c) (db : Redis) :
    w.apply (applyAll vs db) = applyAll vs (w.apply db) := by
  induction vs generalizing db with
  | nil => rfl
  | cons v vs ih =>
      rw [applyAll_cons, applyAll_cons, ih fun v' hv' => h v' (List.mem_cons_of_mem _ hv'),
        Write.apply_comm (h v List.mem_cons_self)]

/-- Two transactions without a common cell commute. -/
theorem applyAll_comm {ws vs : List Write}
    (h : ∀ w ∈ ws, ∀ v ∈ vs, ∀ c, w.cell = some c → v.cell ≠ some c) (db : Redis) :
    applyAll ws (applyAll vs db) = applyAll vs (applyAll ws db) := by
  induction ws generalizing db with
  | nil => rfl
  | cons w ws ih =>
      rw [applyAll_cons, applyAll_cons, Write.apply_applyAll (h w List.mem_cons_self),
        ih fun w' hw' => h w' (List.mem_cons_of_mem _ hw')]

theorem applyAll_transaction_counter (ws : List Write) (db : Redis) :
    (applyAll ws db).transaction_counter = db.transaction_counter := by
  induction ws generalizing db with
  | nil => rfl
  | cons w ws ih => rw [applyAll_cons, ih, Write.apply_transaction_counter]

theorem applyAll_incrFid (ws : List Write) (db : Redis) :
    applyAll ws { db with fid_counter := db.fid_counter + 1 } =
      { applyAll ws db with fid_counter := (applyAll ws db).fid_counter + 1 } := by
  induction ws generalizing db with
  | nil => rfl
  | cons w ws ih =>
      have hw : w.apply { db with fid_counter := db.fid_counter + 1 } =
          { w.apply db with fid_counter := (w.apply db).fid_counter + 1 } := by
        cases w <;> rfl
      rw [applyAll_cons, applyAll_cons, hw, ih]

theorem applyAll_incrTransaction (ws : List Write) (db : Redis) :
    applyAll ws { db with transaction_counter := db.transaction_counter + 1 } =
      { applyAll ws db with transaction_counter := (applyAll ws db).transaction_counter + 1 } := by
  induction ws generalizing db with
  | nil => rfl
  | cons w ws ih =>
      have hw : w.apply { db with transaction_counter := db.transaction_counter + 1 } =
          { w.apply db with transaction_counter := (w.apply db).transaction_counter + 1 } := by
        cases w <;> rfl
      rw [applyAll_cons, applyAll_cons, hw, ih]

section Frame

variable {ws : List Write} {db : Redis} {k : ℕ}

theorem applyAll_lookup_of_cell {n : Text} (h : ∀ w ∈ ws, w.cell ≠ some (.entry k n)) :
    ((applyAll ws db).dirent k).lookup n = (db.dirent k).lookup n := by
  induction ws generalizing db with
  | nil => rfl
  | cons w ws ih =>
      rw [applyAll_cons, ih fun w' hw' => h w' (List.mem_cons_of_mem _ hw'), Write.lookup_apply,
        Write.sets_of_cell (h w List.mem_cons_self)]
      rfl

theorem applyAll_dirent_of_cell (h : ∀ w ∈ ws, ∀ n, w.cell ≠ some (.entry k n)) :
    (applyAll ws db).dirent k = db.dirent k := by
  apply Finmap.ext_lookup
  intro n
  exact applyAll_lookup_of_cell fun w hw => h w hw n

theorem applyAll_stat_of_cell (h : ∀ w ∈ ws, w.cell ≠ some (.stat k)) :
    (applyAll ws db).stat k = db.stat k := by
  induction ws generalizing db with
  | nil => rfl
  | cons w ws ih =>
      rw [applyAll_cons, ih fun w' hw' => h w' (List.mem_cons_of_mem _ hw'), Write.stat_apply,
        Write.onStat_of_cell (h w List.mem_cons_self)]

theorem mem_apply {w : Write} {n : Text} (hmem : n ∈ db.dirent k)
    (h : w.deletes ≠ some (.entry k n)) : n ∈ (w.apply db).dirent k := by
  rw [← Finmap.lookup_isSome] at hmem ⊢
  rw [Write.lookup_apply]
  cases w with
  | hsetDirent key entry v =>
      rw [Write.sets]
      split_ifs
      · rfl
      · exact hmem
  | hdelDirent key entry =>
      have hne : ¬ (k = key ∧ n = entry) := by
        rintro ⟨rfl, rfl⟩
        exact h rfl
      rw [Write.sets, if_neg hne]
      exact hmem
  | _ => exact hmem

/-- An entry stays as long as no command deletes it. -/
theorem mem_applyAll {n : Text} (hmem : n ∈ db.dirent k)
    (h : Cell.entry k n ∉ (RedisOp.multiExec ws).deletes) : n ∈ (applyAll ws db).dirent k := by
  induction ws generalizing db with
  | nil => exact hmem
  | cons w ws ih =>
      have hdel : ∀ v ∈ w :: ws, v.deletes ≠ some (.entry k n) :=
        fun v hv hc => h (List.mem_filterMap.mpr ⟨v, hv, hc⟩)
      apply ih (mem_apply hmem (hdel w List.mem_cons_self))
      intro hin
      obtain ⟨v, hv, hc⟩ := List.mem_filterMap.mp hin
      exact hdel v (List.mem_cons_of_mem _ hv) hc

end Frame

/-! ### Exchanging two operations -/

theorem mem_writes_multiExec {ws : List Write} {w : Write} {c : Cell} (hw : w ∈ ws)
    (hc : w.cell = some c) : c ∈ (RedisOp.multiExec ws).writes :=
  List.mem_filterMap.mpr ⟨w, hw, hc⟩

/-- A transaction that writes nothing an operation reads does not move its answer. -/
theorem sameAnswer_applyAll {kept : ℕ → Prop} {names : List Text} {o : RedisOp} {ws : List Write}
    {db : Redis} (hno : ¬ ∃ c ∈ (RedisOp.multiExec ws).writes, ∃ d ∈ o.reads names, SeenIn kept c d)
    (hdb : ∀ k, kept k → db.dirent k ≠ ∅) (hdb' : ∀ k, kept k → (applyAll ws db).dirent k ≠ ∅) :
    SameAnswer names o (serveRedis o db).1 (serveRedis o (applyAll ws db)).1 := by
  have hread : ∀ d ∈ o.reads names, ∀ w ∈ ws, w.cell ≠ some d := by
    intro d hd w hw hc
    exact hno ⟨d, mem_writes_multiExec hw hc, d, hd, .inl rfl⟩
  have hlisted : ∀ k, .listed k ∈ o.reads names →
      (db.dirent k = ∅ ↔ (applyAll ws db).dirent k = ∅) := by
    intro k hk
    by_cases hw : ∃ w ∈ ws, ∃ n, w.cell = some (.entry k n)
    · obtain ⟨w, hw, n, hc⟩ := hw
      have hkept : kept k := by
        by_contra hkept
        exact hno ⟨_, mem_writes_multiExec hw hc, _, hk, .inr ⟨k, rfl, rfl, hkept⟩⟩
      exact ⟨fun h => absurd h (hdb k hkept), fun h => absurd h (hdb' k hkept)⟩
    · rw [applyAll_dirent_of_cell fun w hmem n hc => hw ⟨w, hmem, n, hc⟩]
  cases o with
  | hgetallDirent key =>
      refine ⟨hlisted key List.mem_cons_self, ?_⟩
      intro n hn
      have hmem : Cell.entry key n ∈ (RedisOp.hgetallDirent key).reads names :=
        List.mem_cons_of_mem _ (List.mem_map_of_mem hn)
      exact (applyAll_lookup_of_cell (hread _ hmem)).symm
  | hlenDirent key =>
      show (db.dirent key).keys.card = 0 ↔ ((applyAll ws db).dirent key).keys.card = 0
      rw [Dirent.card_keys_eq_zero, Dirent.card_keys_eq_zero]
      exact hlisted key List.mem_cons_self
  | hgetallStat key => exact (applyAll_stat_of_cell (hread _ List.mem_cons_self)).symm
  | incrFidCounter =>
      show db.fid_counter + 1 = (applyAll ws db).fid_counter + 1
      rw [applyAll_fid_counter]
  | incrTransactionCounter =>
      show db.transaction_counter + 1 = (applyAll ws db).transaction_counter + 1
      rw [applyAll_transaction_counter]
  | hgetallUsername login =>
      show db.username login = (applyAll ws db).username login
      rw [applyAll_username]
  | multiExec queued => trivial

/-- An operation that writes nothing another one reads does not move its answer. -/
theorem unmoved_of_not_seen {kept : ℕ → Prop} {Inv : Redis → Prop} {names : List Text}
    {e d : Event RedisI} (hkept : ∀ s, Inv s → ∀ k, kept k → s.dirent k ≠ ∅)
    (hkeep : d.Keeps serveRedis Inv)
    (hno : ¬ ∃ c ∈ RedisOp.writes d.op, ∃ c' ∈ RedisOp.reads names e.op, SeenIn kept c c') :
    Unmoved serveRedis Inv (SameAnswer names) e d := by
  intro s hs
  have hs' := hkeep s hs
  obtain ⟨o, saw⟩ := e
  obtain ⟨o', saw'⟩ := d
  show SameAnswer names o (serveRedis o s).1 (serveRedis o (serveRedis o' s).2).1
  cases o' with
  | incrFidCounter =>
      cases o with
      | incrFidCounter =>
          exact absurd ⟨.fid_counter, List.mem_cons_self, .fid_counter, List.mem_cons_self,
            .inl rfl⟩ hno
      | _ => exact SameAnswer.refl names _ _
  | incrTransactionCounter =>
      cases o with
      | incrTransactionCounter =>
          exact absurd ⟨.transaction_counter, List.mem_cons_self, .transaction_counter,
            List.mem_cons_self, .inl rfl⟩ hno
      | _ => exact SameAnswer.refl names _ _
  | multiExec ws => exact sameAnswer_applyAll hno (hkept s hs) (hkept _ hs')
  | _ => exact SameAnswer.refl names o _

theorem effects_comm {o o' : RedisOp} (hno : ¬ ∃ c ∈ o.writes, c ∈ o'.writes) (db : Redis) :
    (serveRedis o (serveRedis o' db).2).2 = (serveRedis o' (serveRedis o db).2).2 := by
  cases o with
  | multiExec ws =>
      cases o' with
      | multiExec vs =>
          apply applyAll_comm
          intro w hw v hv c hwc hvc
          exact hno ⟨c, mem_writes_multiExec hw hwc, mem_writes_multiExec hv hvc⟩
      | incrFidCounter => exact applyAll_incrFid ws db
      | incrTransactionCounter => exact applyAll_incrTransaction ws db
      | _ => rfl
  | incrFidCounter =>
      cases o' with
      | multiExec vs => exact (applyAll_incrFid vs db).symm
      | _ => rfl
  | incrTransactionCounter =>
      cases o' with
      | multiExec vs => exact (applyAll_incrTransaction vs db).symm
      | _ => rfl
  | _ => cases o' <;> rfl

/-- **Operations without a conflict can be exchanged**: neither writes what the other reads or
writes, in the states where the kept hashes have a field. -/
theorem exchangeable_of_not_conflict {kept : ℕ → Prop} {Inv : Redis → Prop}
    {names names' : List Text} {e d : Event RedisI}
    (hkept : ∀ s, Inv s → ∀ k, kept k → s.dirent k ≠ ∅)
    (he : e.Respects (SameAnswer names)) (hd : d.Respects (SameAnswer names'))
    (hek : e.Keeps serveRedis Inv) (hdk : d.Keeps serveRedis Inv)
    (hno : ¬ Conflict kept names e.op names' d.op) : Exchangeable serveRedis Inv e d := by
  rw [Conflict, not_or, not_or] at hno
  obtain ⟨hed, hde, hww⟩ := hno
  exact .of_unmoved he hd SameAnswer.symm (unmoved_of_not_seen hkept hdk hde)
    (unmoved_of_not_seen hkept hek hed) (effects_comm hww)

/-! ### The names a command asks for -/

/-- The names a lookup of the path asks for. -/
def pathNames (path : Text) : List Text := (lookupTokens path).getD []

/-- The names asked for along a path and along that of its directory. -/
def lookupNames (path : Text) : List Text := pathNames path ++ pathNames (parentPath path)

/-- The names a command asks for. -/
def VfsCmd.names : VfsCmd → Text → List Text
  | .mkd path _ _ _, _ => (path.1.map lookupNames).getD []
  | .rmd path, _ => (path.1.map lookupNames).getD []
  | .dele path, _ => (path.1.map lookupNames).getD []
  | .rnfr path, _ => (path.1.map lookupNames).getD []
  | .rnto _, szFrom => lookupNames szFrom
  | .store _ _ path _ _ _ _, _ => (path.1.map lookupNames).getD []

variable {names : List Text}

theorem uses_lookupWalk {ts : List Text} (hts : ∀ t ∈ ts, t ∈ names) (fid : ℤ) :
    Uses (SameAnswer names) (lookupWalk fid ts) := by
  induction ts generalizing fid with
  | nil => trivial
  | cons t ts ih =>
      refine ⟨?_, ?_⟩
      · intro r r' hr
        have hempty : r = ∅ ↔ r' = ∅ := hr.1
        have hlook : r.lookup t = r'.lookup t := hr.2 t (hts t List.mem_cons_self)
        refine ⟨decide_eq_decide.mpr hempty, ?_⟩
        simp only [hlook]
      · intro r
        cases hlook : r.lookup t with
        | none =>
            simp only [hlook]
            trivial
        | some v =>
            simp only [hlook]
            exact ih (fun t' ht' => hts t' (List.mem_cons_of_mem _ ht')) _

theorem uses_lookupFid {path : Text} (h : ∀ t ∈ pathNames path, t ∈ names) :
    Uses (SameAnswer names) (lookupFid path) := by
  unfold lookupFid
  split_ifs
  · trivial
  · cases ht : lookupTokens path with
    | none => trivial
    | some ts =>
        apply uses_lookupWalk
        intro t hmem
        apply h
        rw [pathNames, ht]
        exact hmem

/-- A single operation whose answer is used as it is. -/
theorem uses_op {o : RedisOp} (h : ∀ r r', SameAnswer names o r r' → r = r') :
    Uses (SameAnswer names) (Prog.op (I := RedisI) o) := by
  refine ⟨?_, fun _ => trivial⟩
  intro r r' hr
  rw [h r r' hr]

theorem uses_multiExec (queued : List Write) :
    Uses (SameAnswer names) (Prog.op (I := RedisI) (.multiExec queued)) :=
  uses_op fun _ _ _ => rfl

theorem uses_getNewFid : Uses (SameAnswer names) getNewFid :=
  (uses_op (o := .incrFidCounter) fun _ _ h => h).bind fun _ => trivial

theorem uses_getNewTransactionId : Uses (SameAnswer names) getNewTransactionId :=
  (uses_op (o := .incrTransactionCounter) fun _ _ h => h).bind fun _ => trivial

theorem uses_stat {path : Text} (h : ∀ t ∈ pathNames path, t ∈ names) :
    Uses (SameAnswer names) (stat path) := by
  refine (uses_lookupFid h).bind fun fid => Uses.ite trivial ?_
  exact Uses.bind (uses_op fun _ _ h => h) fun _ => Uses.ite trivial trivial

section Commands

variable {path : Text} (h : ∀ t ∈ lookupNames path, t ∈ names)

include h

theorem names_path : ∀ t ∈ pathNames path, t ∈ names :=
  fun t ht => h t (List.mem_append_left _ ht)

theorem names_parent : ∀ t ∈ pathNames (parentPath path), t ∈ names :=
  fun t ht => h t (List.mem_append_right _ ht)

theorem uses_mkdir (now : ℤ) (uid gid : ℕ) : Uses (SameAnswer names) (mkdir now path uid gid) := by
  refine uses_getNewFid.bind fun new_fid => ?_
  refine (uses_lookupFid (names_parent h)).bind fun parent_fid => Uses.ite trivial ?_
  exact (uses_multiExec _).bind fun _ => trivial

theorem uses_rmdir : Uses (SameAnswer names) (rmdir path) := by
  refine (uses_lookupFid (names_path h)).bind fun fid => Uses.ite trivial ?_
  refine ⟨?_, ?_⟩
  · intro r r' hr
    have hzero : r = 0 ↔ r' = 0 := hr
    show (if r = 0 then _ else _) = if r' = 0 then _ else _
    rw [if_congr hzero rfl rfl]
  · intro r
    refine Uses.ite ?_ trivial
    refine (uses_lookupFid (names_parent h)).bind fun parent_fid => Uses.ite trivial ?_
    exact (uses_multiExec _).bind fun _ => trivial

theorem uses_rename (newpath : Text) : Uses (SameAnswer names) (rename path newpath) := by
  refine (uses_lookupFid (names_path h)).bind fun fid => Uses.ite trivial ?_
  refine (uses_lookupFid (names_parent h)).bind fun oldparent_fid => Uses.ite trivial ?_
  refine (uses_lookupFid (names_parent h)).bind fun newparent_fid => Uses.ite trivial ?_
  exact (uses_multiExec _).bind fun _ => trivial

theorem uses_remove : Uses (SameAnswer names) (remove path) := by
  refine (uses_lookupFid (names_path h)).bind fun fid => Uses.ite trivial ?_
  refine (uses_lookupFid (names_parent h)).bind fun parent_fid => Uses.ite trivial ?_
  exact (uses_multiExec _).bind fun _ => trivial

theorem uses_saveNewFile (now : ℤ) (f : FileRecord) :
    Uses (SameAnswer names) (saveNewFile now path f) := by
  refine (uses_lookupFid (names_parent h)).bind fun parent_fid => Uses.ite trivial ?_
  exact (uses_multiExec _).bind fun _ => trivial

theorem uses_storeThread (newTransaction : Bool) (now : ℤ) (uid gid : ℕ)
    (transfer : ℤ → TransferResult) :
    Uses (SameAnswer names) (storeThread newTransaction now path uid gid transfer) := by
  refine uses_getNewFid.bind fun fid => ?_
  have hrecord : Uses (SameAnswer names) (recordFile now path uid gid fid (transfer fid)) := by
    cases transfer fid with
    | none => trivial
    | some res => exact Uses.ite ((uses_saveNewFile h now _).bind fun _ => trivial) trivial
  cases newTransaction with
  | false => exact hrecord
  | true => exact uses_getNewTransactionId.bind fun _ => hrecord

theorem uses_cmdMkd (now : ℤ) (uid gid : ℕ) :
    Uses (SameAnswer names) (cmdMkd now (some path) uid gid) := by
  refine (uses_stat (names_path h)).bind fun st => Uses.ite trivial ?_
  exact (uses_mkdir h now uid gid).bind fun r => Uses.ite trivial trivial

theorem uses_cmdRmd : Uses (SameAnswer names) (cmdRmd (some path)) := by
  refine (uses_stat (names_path h)).bind fun st => Uses.ite ?_ trivial
  exact (uses_rmdir h).bind fun r => Uses.ite trivial trivial

theorem uses_cmdDele : Uses (SameAnswer names) (cmdDele (some path)) := by
  refine (uses_stat (names_path h)).bind fun st => ?_
  cases st with
  | none => trivial
  | some st =>
      refine Uses.ite ?_ trivial
      exact (uses_remove h).bind fun r => Uses.ite trivial trivial

theorem uses_cmdRnfr (szFrom : Text) : Uses (SameAnswer names) (cmdRnfr (some path) szFrom) :=
  (uses_stat (names_path h)).bind fun _ => Uses.ite trivial trivial

theorem uses_cmdRnto (newpath : Text) :
    Uses (SameAnswer names) (cmdRnto (some newpath) path) :=
  (uses_rename h newpath).bind fun _ => Uses.ite trivial trivial

theorem uses_storeFile (cmd : UploadCmd) (newTransaction : Bool) (now : ℤ) (uid gid : ℕ)
    (transfer : ℤ → TransferResult) :
    Uses (SameAnswer names) (storeFile cmd newTransaction now path uid gid transfer) := by
  have hthread := uses_storeThread h newTransaction now uid gid transfer
  cases cmd with
  | stor => exact hthread
  | appe => exact (uses_stat (names_path h)).bind fun _ => hthread
  | stou => exact (uses_stat (names_path h)).bind fun st => Uses.ite trivial hthread

end Commands

/-- **A command asks only for its names**: it goes on in the same way after answers with the same
entries for them. -/
theorem VfsCmd.uses_prog (c : VfsCmd) (szFrom : Text) :
    Uses (SameAnswer (c.names szFrom)) (c.prog szFrom) := by
  have hall : ∀ p : Text, ∀ t ∈ lookupNames p, t ∈ lookupNames p := fun _ _ ht => ht
  cases c with
  | mkd path uid gid now =>
      obtain ⟨p, hp⟩ := path
      cases p with
      | none => trivial
      | some p => exact (uses_cmdMkd (hall p) now uid gid).bind fun _ => trivial
  | rmd path =>
      obtain ⟨p, hp⟩ := path
      cases p with
      | none => trivial
      | some p => exact (uses_cmdRmd (hall p)).bind fun _ => trivial
  | dele path =>
      obtain ⟨p, hp⟩ := path
      cases p with
      | none => trivial
      | some p => exact (uses_cmdDele (hall p)).bind fun _ => trivial
  | rnfr path =>
      obtain ⟨p, hp⟩ := path
      cases p with
      | none => trivial
      | some p => exact (uses_cmdRnfr (hall p) szFrom).bind fun _ => trivial
  | rnto path =>
      obtain ⟨p, hp⟩ := path
      cases p with
      | none => trivial
      | some p => exact (uses_cmdRnto (hall szFrom) p).bind fun _ => trivial
  | store cmd newTransaction path uid gid now transfer =>
      obtain ⟨p, hp⟩ := path
      cases p with
      | none => trivial
      | some p =>
          exact (uses_storeFile (hall p) cmd newTransaction now uid gid transfer).bind
            fun _ => trivial

end ClusterFtpd
