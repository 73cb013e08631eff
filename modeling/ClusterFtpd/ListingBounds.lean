import ClusterFtpd.Listing
import ClusterFtpd.VfsRuns
import Mathlib.Data.List.TakeWhile

/-!
# The arrays of a listing

`FindFirst` copies the path of the directory into `szDirPath` and, with a slash, into `pszTempPath`;
`readdir` copies every name into `d_name`, which has 256 characters, before `FindNext` tests its
length.  `BuildPath` lets paths of `MAX_PATH` characters through, and with them names of more than
255.

`listing_in_bounds`: every listing stays in its arrays in every state of a run whose commands enter
names of at most 255 characters, for a directory whose path leaves room for the slash.
`dirSent_in_bounds_iff` says exactly when the listing of a directory does, and `long_name_overflows`
is a directory that is made with a longer name.
-/

namespace ClusterFtpd

open Interaction MachineInt NameGraph PathComponents

/-! ### The names of a file system -/

variable {Q : Text → Prop} {db db' : Redis} {s t : VfsState}

/-- A command that enters a name with `Q` leaves such names only. -/
theorem AllNames.step {c : VfsCmd} {szFrom szFrom' : Text} (h : AllNames Q db)
    (hplaceholder : Q placeholder) (hentered : ∀ name ∈ c.entered, Q name)
    (hends : CmdEnds db db' szFrom c szFrom') : AllNames Q db' := by
  apply hends.entries h
  · intro ns f name hname _ _
    exact hentered name hname
  · intro _
    exact hplaceholder
  · intro ns ms f k name hname _ _
    exact hentered name hname

theorem allNames_initRedis (now : ℤ) (hfoo : Q ".foo".toList) : AllNames Q (initRedis now) := by
  have hempty : ∀ (k : ℕ) (name : Text) v, ((∅ : Dirent)).lookup name = some v → Q name := by
    intro k name v hv
    rw [Finmap.lookup_empty] at hv
    cases hv
  exact forall_setEntry (Q := fun _ name _ => Q name) (d := fun _ => ∅) hempty hfoo

/-- **The names of a run**: those that its commands enter and two that the server makes. -/
theorem VfsRun.allNames {now : ℤ}
    (hrun : VfsRun (fun _ _ c => ∀ name ∈ c.entered, Q name) (.init now) s)
    (hfoo : Q ".foo".toList) (hplaceholder : Q placeholder) :
    AllNames Q s.db ∧ ∀ i, PendingPath (s.szRenameFromPath i) := by
  induction hrun with
  | refl => exact ⟨allNames_initRedis now hfoo, fun _ => pendingPath_nil⟩
  | step hrun hok hstep ih =>
      obtain ⟨hnames, hpend⟩ := ih
      cases hstep with
      | ends hdone =>
          have hends := VfsCmd.ends (hpend _) hdone
          exact ⟨hnames.step hplaceholder hok hends,
            fun i => PendingPath.update hpend (hends.pending (hpend _)) i _⟩

/-- A name begins behind the last slash. -/
theorem notMem_entryName (path : Text) : '/' ∉ entryName path := by
  have hcut : path = (path.reverse.dropWhile fun c => !isSlash c).reverse ++
      (path.reverse.takeWhile fun c => !isSlash c).reverse := by
    rw [← List.reverse_append, List.takeWhile_append_dropWhile, List.reverse_reverse]
  have hlength : (path.reverse.dropWhile fun c => !isSlash c).reverse.length =
      parentLength path := by
    have hsum := congrArg List.length hcut
    rw [List.length_append, List.length_reverse, List.length_reverse] at hsum
    rw [List.length_reverse, parentLength]
    omega
  have hname : entryName path = (path.reverse.takeWhile fun c => !isSlash c).reverse := by
    rw [entryName, ← hlength]
    exact (congrArg (List.drop _) hcut).trans List.drop_left
  intro hslash
  rw [hname, List.mem_reverse] at hslash
  have hpred : (!isSlash '/') = true :=
    List.mem_takeWhile_imp (p := fun c => !isSlash c) hslash
  exact absurd hpred (by decide)

theorem VfsRun.imp {ok ok' : VfsState → ℕ → VfsCmd → Prop} (hrun : VfsRun ok s t)
    (h : ∀ s i c, ok s i c → ok' s i c) : VfsRun ok' s t := by
  induction hrun with
  | refl => exact .refl _
  | step hrun hok hstep ih => exact .step ih (h _ _ _ hok) hstep

/-- Every file system that commands make has proper names. -/
theorem VfsRun.properNames {now : ℤ} {ok : VfsState → ℕ → VfsCmd → Prop}
    (hrun : VfsRun ok (.init now) s) : ProperNames s.db := by
  have hentered : ∀ c : VfsCmd, ∀ name ∈ c.entered, '/' ∉ name := by
    have hmap : ∀ path : BuiltPath, ∀ name ∈ path.1.map entryName, '/' ∉ name := by
      intro path name hname
      obtain ⟨p, -, hp⟩ := Option.map_eq_some_iff.1 hname
      rw [← hp]
      exact notMem_entryName p
    intro c name hname
    cases c with
    | mkd path uid gid now => exact hmap path name hname
    | rnto path => exact hmap path name hname
    | store cmd newTransaction path uid gid now transfer => exact hmap path name hname
    | rmd path => cases hname
    | dele path => cases hname
    | rnfr path => cases hname
  exact ((hrun.imp fun _ _ c _ => hentered c).allNames (by decide) (by decide)).1

/-! ### Copies along a listing -/

/-- A copy is no longer than its array. -/
def InArray : ListOp → ListingState → Prop
  | .copy size text, _ => text.length < size
  | .redis _, _ => True
  | .time, _ => True
  | .send _, _ => True

variable {env : ListEnv} {α : Type}

/-- The programs that keep the database and stay in the arrays, for any answers. -/
abbrev Safe (env : ListEnv) (db : Redis) (p : ListProg α) (R : α → Prop) : Prop :=
  Sound (serveList env) InArray (fun u => u.db = db) p fun a u => R a ∧ u.db = db

variable {β : Type} {R : α → Prop} {R' : β → Prop}

theorem Safe.bind {p : ListProg α} {f : α → ListProg β} (hp : Safe env db p R)
    (hf : ∀ a, R a → Safe env db (f a) R') : Safe env db (p >>= f) R' := hp.bind_inv hf

theorem safe_ret {a : α} (h : R a) : Safe env db (.ret a) R := Sound.ret fun _ hdb => ⟨h, hdb⟩

theorem safe_copyText {size : ℕ} {text : Text} (h : text.length < size) :
    Safe env db (copyText size text) fun _ => True :=
  Sound.op (fun _ _ => h) fun _ hdb => ⟨trivial, hdb⟩

theorem safe_sendText (text : Text) : Safe env db (sendText text) fun _ => True :=
  Sound.op (fun _ _ => trivial) fun _ hdb => ⟨trivial, hdb⟩

theorem reads_keeps {o : RedisOp} (h : o.Reads) (d : Redis) : (serveRedis o d).2 = d := by
  cases o with
  | hgetallDirent key => rfl
  | hlenDirent key => rfl
  | hgetallStat key => rfl
  | hgetallUsername login => rfl
  | incrFidCounter => cases h
  | incrTransactionCounter => cases h
  | multiExec queued => cases h

/-- A program that only reads from Redis answers what it answers on the database. -/
theorem safe_listRedis {p : RedisProg α} (hp : Every RedisOp.Reads p) :
    Safe env db (listRedis p) fun a => ask p db = some a := by
  have hredis : Every (fun o => ∃ o', o = ListOp.redis o') (listRedis p) :=
    hp.translate fun o _ => ⟨o, rfl⟩
  have hkeeps : (run serveRedis p db).state = db :=
    Every.run_keeps serveRedis id (fun _ ho d => reads_keeps ho d) hp db
  constructor
  · intro u _
    apply hredis.along
    intro o v ho
    obtain ⟨o', heq⟩ := ho
    rw [heq]
    trivial
  · intro u hdb a v hrun
    rw [run_listRedis, hdb] at hrun
    cases hends : run serveRedis p db with
    | stopped why d =>
        rw [hends] at hrun
        cases hrun
    | done b d =>
        rw [hends] at hrun hkeeps
        have hd : d = db := hkeeps
        cases hrun
        refine ⟨?_, hd⟩
        unfold ask
        rw [hends]
        rfl

theorem safe_memcpy (b : List Char) (p : ℕ) (text : Text) :
    Safe env db (memcpy b p text) fun _ => True := by
  unfold memcpy
  cases CString.copy b p text with
  | none => exact Sound.stop
  | some b => exact safe_ret trivial

/-- `AddToListBuffer` copies into `pBuffer` only. -/
theorem safe_addToListBuffer (n : ℕ) (line : Text) (b : ListBuffer) :
    Safe env db (addToListBuffer n line b) fun _ => True := by
  unfold addToListBuffer
  dsimp only
  generalize (if (line.length : ℤ) ≤ int32 (n - b.nBufferPos) then (line.length : ℤ)
    else int32 (n - b.nBufferPos)) = iCanCopyLen
  split
  · exact Sound.stop
  · apply (safe_memcpy _ _ _).bind
    intro pBuffer _
    split
    · apply (safe_sendText _).bind
      intro res _
      split
      · exact safe_ret trivial
      · split
        · apply (safe_memcpy _ _ _).bind
          intro pBuffer _
          exact safe_ret trivial
        · exact safe_ret trivial
    · exact safe_ret trivial

/-- What the fields of an entry must be for its line. -/
structure FileInfo.Fits (fi : FileInfo) : Prop where
  size : -2147483648 ≤ fi.size ∧ fi.size < 2147483648
  mtime : -2147483648 ≤ fi.mtime ∧ fi.mtime < 2147483648
  name : fi.pszName.length ≤ MAX_PATH

theorem safe_getFileListLine (mode : ℕ) {size mtime : ℤ} {pszName : Text} (opt_F : Bool)
    (hsize : -2147483648 ≤ size ∧ size < 2147483648)
    (hmtime : -2147483648 ≤ mtime ∧ mtime < 2147483648) (hname : pszName.length ≤ MAX_PATH) :
    Safe env db (getFileListLine mode size mtime pszName opt_F) fun _ => True := by
  have htime : Safe env db (Prog.op (I := ListI) .time) fun _ => True :=
    Sound.op (fun _ _ => trivial) fun _ hdb => ⟨trivial, hdb⟩
  apply htime.bind
  intro now _
  have hyear : (szYearOrHour now mtime).length = 5 :=
    length_szYearOrHour (gmtime_proper hmtime.1 hmtime.2)
  have hline := length_listLine_le now mode pszName opt_F hsize hmtime
  have hfits : (listLine now mode size mtime pszName opt_F).length < LIST_MAX_LINE_LEN := by
    show _ < MAX_PATH + 57
    omega
  apply (safe_copyText (by omega)).bind
  intro _ _
  apply (safe_copyText hfits).bind
  intro _ _
  exact safe_ret trivial

theorem safe_findNext {szDirPath name : Text} (hname : name.length < 256) :
    Safe env db (FileInfo.findNext szDirPath name) fun found => ∀ fi ∈ found, fi.Fits := by
  apply (safe_copyText hname).bind
  intro _ _
  split
  · apply safe_ret
    intro fi hfi
    cases hfi
  · next hshort =>
      have hlt : ¬ MAX_PATH ≤ szDirPath.length + name.length := hshort
      have hfull : (fullPath szDirPath name).length < MAX_PATH + 1 := by
        have hle := length_fullPath_le szDirPath name
        omega
      apply (safe_copyText hfull).bind
      intro _ _
      apply (safe_listRedis (reads_stat _)).bind
      intro st hst
      apply safe_ret
      intro fi hfi
      rw [← Option.some.inj hfi]
      have hint := entryInfo_int db szDirPath name
      have hentry : entryStat db szDirPath name = st := by
        rw [entryStat, hst]
        rfl
      rw [entryInfo, hentry] at hint
      have hpsz : (FileInfo.ofStat name st).pszName = name := by cases st <;> rfl
      exact ⟨hint.1, hint.2, by rw [hpsz]; omega⟩

theorem safe_listEntry (n : ℕ) (t : DataTransfer) {fi : FileInfo} (hfi : fi.Fits) (b : ListBuffer) :
    Safe env db (listEntry n t fi b) fun _ => True := by
  unfold listEntry
  split
  · split
    · exact safe_addToListBuffer n _ b
    · apply (safe_getFileListLine fi.mode t.options.opt_F hfi.size hfi.mtime hfi.name).bind
      intro line _
      exact safe_addToListBuffer n line b
  · exact safe_ret trivial

theorem safe_listEntries (n : ℕ) (t : DataTransfer) {vdp : List Text}
    (hvdp : ∀ name ∈ vdp, name.length < 256) {fi : FileInfo} (hfi : fi.Fits) (b : ListBuffer) :
    Safe env db (listEntries n t vdp fi b) fun _ => True := by
  induction vdp generalizing fi b with
  | nil =>
      apply (safe_listEntry n t hfi b).bind
      intro r _
      exact safe_ret trivial
  | cons name vdp ih =>
      apply (safe_listEntry n t hfi b).bind
      intro r _
      split
      · apply (safe_findNext (hvdp name List.mem_cons_self)).bind
        intro found hfound
        cases found with
        | none => exact safe_ret trivial
        | some next =>
            exact ih (fun m hm => hvdp m (List.mem_cons_of_mem name hm)) (hfound next rfl) r.2
      · exact safe_ret trivial

/-- The path of the directory leaves room for the slash behind it, or has one. -/
def PathFits (szDirPath : Text) : Prop :=
  szDirPath.length < MAX_PATH ∨ (szDirPath.length = MAX_PATH ∧ szDirPath.getLast? = some '/')

/-- **The arrays for the path of the directory.** -/
theorem pathFits_iff (szDirPath : Text) :
    PathFits szDirPath ↔ ∀ c ∈ openCopies szDirPath, c.InBounds := by
  have hboth : (∀ c ∈ openCopies szDirPath, c.InBounds) ↔
      szDirPath.length < MAX_PATH + 1 ∧ (fullPath szDirPath []).length < MAX_PATH + 1 := by
    simp only [openCopies, List.forall_mem_cons, StrCopy.InBounds]
    exact ⟨fun h => ⟨h.1, h.2.1⟩, fun h => ⟨h.1, h.2, fun c hc => nomatch hc⟩⟩
  rw [hboth]
  unfold PathFits
  by_cases hlast : szDirPath.getLast? = some '/'
  · have hlength : (fullPath szDirPath []).length = szDirPath.length := by
      rw [fullPath_slash hlast, List.append_nil]
    rw [hlength]
    constructor
    · intro h
      omega
    · intro h
      by_cases hlt : szDirPath.length < MAX_PATH
      · exact .inl hlt
      · exact .inr ⟨by omega, hlast⟩
  · have hlength : (fullPath szDirPath []).length = szDirPath.length + 1 := by
      rw [fullPath_of_ne hlast, List.length_append]
      rfl
    rw [hlength]
    constructor
    · intro h
      rcases h with hlt | hend
      · omega
      · exact absurd hend.2 hlast
    · intro h
      exact .inl (by omega)

theorem safe_openDir {szPath : Text} (hroom : PathFits szPath) :
    Safe env db (openDir szPath) fun vdp =>
      ∀ name ∈ vdp, ∃ k v, (db.dirent k).lookup name = some v := by
  have hcopies := (pathFits_iff szPath).1 hroom
  apply (safe_copyText (hcopies _ List.mem_cons_self)).bind
  intro _ _
  apply (safe_copyText (hcopies _ (List.mem_cons_of_mem _ List.mem_cons_self))).bind
  intro _ _
  apply (safe_listRedis (reads_lookupFid _)).bind
  intro fid _
  split
  · apply safe_ret
    intro name hname
    cases hname
  · have hreads : Every RedisOp.Reads (Prog.op (I := RedisI) (.hgetallDirent (u32 fid))) :=
      ⟨rfl, fun _ => trivial⟩
    apply (safe_listRedis hreads).bind
    intro reply hreply
    have heq : db.dirent (u32 fid) = reply := Option.some.inj hreply
    apply safe_ret
    intro name hname
    have hkey : name ∈ reply.keys := (Finset.mem_sort _).1 hname
    rw [← heq] at hkey
    exact ⟨_, exists_lookup_of_mem_keys hkey⟩

theorem safe_sendDirectory (n : ℕ) {t : DataTransfer} (hroom : PathFits t.szPath)
    (hnames : AllNames (fun name => name.length < 256) db) :
    Safe env db (sendDirectory n t) fun _ => True := by
  apply (safe_openDir hroom).bind
  intro vdp hvdp
  have hshort : ∀ name ∈ vdp, name.length < 256 := by
    intro name hname
    obtain ⟨k, v, hv⟩ := hvdp name hname
    exact hnames k name v hv
  cases vdp with
  | nil => exact safe_ret trivial
  | cons name vdp =>
      apply (safe_findNext (hshort name List.mem_cons_self)).bind
      intro found hfound
      cases found with
      | none => exact safe_ret trivial
      | some fi =>
          apply (safe_listEntries n t (fun m hm => hshort m (List.mem_cons_of_mem name hm))
            (hfound fi rfl) _).bind
          intro b _
          apply (safe_sendText _).bind
          intro _ _
          exact safe_ret trivial

/-- The transfer that `LIST`, `NLST` or `STAT` of a path begins. -/
def listingOf (nCmd : Cmd) (szPath : Text) (st : Stat) (options : ListOptions) : DataTransfer :=
  { szPath, st := some st, nCmd := some nCmd, options }

theorem length_lastName_le {szPath : Text} (h : szPath.length ≤ MAX_PATH) :
    (lastName szPath).length ≤ MAX_PATH := by
  unfold lastName
  split
  · have hle := (List.takeWhile_sublist (l := szPath.reverse) fun c => c ≠ '/').length_le
    rw [List.length_reverse] at hle ⊢
    omega
  · show 1 ≤ MAX_PATH
    decide

/-- Every copy of a listing stays in its array, wherever the listing ends. -/
def ListingInBounds (uiBufferSize : ℕ) (t : DataTransfer) (db : Redis) : Prop :=
  ∀ env : ListEnv, ∀ c ∈ (run (serveList env) (sendList uiBufferSize t) { db }).state.copies,
    c.InBounds

theorem listingInBounds_of_safe {n : ℕ} {t : DataTransfer}
    (h : ∀ env, Safe env db (sendList n t) fun _ => True) : ListingInBounds n t db := by
  intro env
  have hstart : ∀ c ∈ ({ db } : ListingState).copies, c.InBounds := by
    intro c hc
    cases hc
  have hstep : ∀ (o : ListOp) (u : ListingState), InArray o u → (∀ c ∈ u.copies, c.InBounds) →
      ∀ c ∈ (serveList env o u).2.copies, c.InBounds := by
    intro o u ho hu
    cases o with
    | redis o => exact hu
    | time => exact hu
    | send text => exact hu
    | copy size text =>
        intro c hc
        rcases List.mem_append.1 hc with hc | hc
        · exact hu c hc
        · rw [List.mem_singleton.1 hc]
          exact ho
  exact Along.run_state _ hstep ((h env).along { db } rfl) hstart

/-- **Every listing stays in its arrays** if the commands before enter names of at most 255
characters and the path of the directory leaves room for a slash. -/
theorem listing_in_bounds {now : ℤ} {s : VfsState} {p : Text} {db₀ : Redis} {st : Stat} (n : ℕ)
    (nCmd : Cmd) (options : ListOptions)
    (hrun : VfsRun (fun _ _ c => ∀ name ∈ c.entered, name.length < 256) (.init now) s)
    (hroom : PathFits p) (hst : ask (stat p) db₀ = some (some st)) :
    ListingInBounds n (listingOf nCmd p st options) s.db := by
  apply listingInBounds_of_safe
  intro env
  have hnames := (hrun.allNames (by decide) (by decide)).1
  have hint : (-2147483648 ≤ st.st_size ∧ st.st_size < 2147483648) ∧
      -2147483648 ≤ st.st_mtime ∧ st.st_mtime < 2147483648 := by
    unfold ask at hst
    cases hends : run serveRedis (stat p) db₀ with
    | stopped why d =>
        rw [hends] at hst
        cases hst
    | done a d =>
        rw [hends] at hst
        cases hst
        exact stat_int hends
  unfold sendList
  dsimp only
  split
  · have hlength : p.length ≤ MAX_PATH := by
      rcases hroom with hlt | hend
      · omega
      · omega
    have hname : (lastName p).length ≤ MAX_PATH := length_lastName_le hlength
    apply (safe_getFileListLine _ _ hint.1 hint.2 hname).bind
    intro line _
    apply (safe_sendText _).bind
    intro _ _
    exact safe_ret trivial
  · exact safe_sendDirectory n hroom hnames

/-- **The listing of a directory stays in its arrays exactly when** its path leaves room and every
name that is read, up to the first whose path is too long, has at most 255 characters. -/
theorem dirSent_in_bounds_iff {t : DataTransfer} {names : List Text} {u u' : ListingState}
    (h : DirSent t names u u') (hu : u.copies = []) : (∀ c ∈ u'.copies, c.InBounds) ↔
      PathFits t.szPath ∧ ∀ name ∈ readNames t.szPath names, name.length < 256 := by
  obtain ⟨cs, hcs, hin, hread⟩ := h.copies
  rw [hu, List.nil_append] at hcs
  rw [pathFits_iff, hcs]
  constructor
  · intro hall
    refine ⟨fun c hc => hall c (List.mem_append_left _ hc), ?_⟩
    intro name hname
    exact hall _ (List.mem_append_right _ (hread name hname))
  · intro hboth c hc
    rcases List.mem_append.1 hc with hc | hc
    · exact hboth.1 c hc
    · rcases hin c hc with hbounds | ⟨name, hname, heq⟩
      · exact hbounds
      · rw [heq]
        exact hboth.2 name hname

/-- A name is read if no path is too long. -/
theorem mem_readNames {szDirPath : Text} {vdp : List Text} {name : Text} (hname : name ∈ vdp)
    (hshort : ∀ m ∈ vdp, ¬ TooLong szDirPath m) : name ∈ readNames szDirPath vdp := by
  induction vdp with
  | nil => cases hname
  | cons m vdp ih =>
      rw [readNames, if_neg (hshort m List.mem_cons_self)]
      rcases List.mem_cons.1 hname with heq | hrest
      · rw [heq]
        exact List.mem_cons_self
      · exact List.mem_cons_of_mem m (ih hrest fun k hk => hshort k (List.mem_cons_of_mem m hk))

/-! ### Listings of the root directory -/

/-- `stat` of the root directory. -/
def rootStat : Stat := (initRedis 0).stat 0 |>.toStat

/-- Everything that is sent is transmitted, at the beginning of 1970. -/
def sendingEnv : ListEnv := ⟨fun _ => 0, fun _ text => text.length⟩

/-- The listing of the root directory reads every name in it. -/
theorem run_listRoot {name : Text} {v : ℤ}
    (hrun : VfsRun (fun _ _ c => ∀ name ∈ c.entered, name.length < 300) (.init 0) s)
    (hfound : ask (lookupFid ['/']) s.db = some ((0 : ℕ) : ℤ))
    (hlookup : (s.db.dirent 0).lookup name = some v) :
    ∃ u, run (serveList sendingEnv) (sendList 32768 (listingOf .list ['/'] rootStat {}))
      { db := s.db } = .done () u ∧ ⟨256, name⟩ ∈ u.copies := by
  have hbuilt : buildPath ['/'] ['/'] (some ['/']) = some ['/'] :=
    buildPath_root workingDir_root.canonical (by decide) ['/']
  have hdir : DirAt s.db ['/'] ((s.db.dirent 0).keys.sort (· ≤ ·)) :=
    dirAt_of_built hbuilt hrun.properNames hfound
  have hnames := (hrun.allNames (by decide) (by decide)).1
  have hshort : ∀ m ∈ (s.db.dirent 0).keys.sort (· ≤ ·), ¬ TooLong ['/'] m := by
    intro m hm hlong
    obtain ⟨v, hv⟩ := exists_lookup_of_mem_keys ((Finset.mem_sort _).1 hm)
    have hlt := hnames 0 m v hv
    have hle : 4096 ≤ 1 + m.length := hlong
    omega
  have hmem : name ∈ (s.db.dirent 0).keys.sort (· ≤ ·) := by
    rw [Finset.mem_sort, Finmap.mem_keys]
    exact Finmap.mem_of_lookup_eq_some hlookup
  have htransmits : sendingEnv.Transmits := fun _ _ => rfl
  obtain ⟨u, hsent, hu⟩ := run_sendDirectory (n := 32768)
    (t := listingOf .list ['/'] rootStat {}) (s := { db := s.db }) htransmits (by decide)
    (fun _ _ _ => by decide) hdir
  obtain ⟨cs, hcopies, -, hread⟩ := hu.copies
  refine ⟨u, ?_, ?_⟩
  · unfold sendList
    dsimp only
    rw [if_neg]
    · exact hsent
    · decide
  · rw [hcopies]
    exact List.mem_append_right _ (hread name (mem_readNames hmem hshort))

/-- After `MKD /a` in a new file system. -/
def withDirectory : VfsState :=
  ⟨applyAll (mkdirWrites 0 0 ['a'] 1 1 1) (initRedis 0).incrFid, Function.update (fun _ => []) 0 []⟩

/-- The root directory is listed after `MKD /a`: the name is copied, and every copy stays in its
array. -/
theorem listing_in_bounds_mkd : ∃ u,
    run (serveList sendingEnv) (sendList 32768 (listingOf .list ['/'] rootStat {}))
      { db := withDirectory.db } = .done () u ∧ ⟨256, ['a']⟩ ∈ u.copies ∧
      ∀ c ∈ u.copies, c.InBounds := by
  have hmkd : VfsStep (.init 0) 0 (.mkd pathA 1 1 0) withDirectory := .ends rfl
  have hentered : ∀ name ∈ (VfsCmd.mkd pathA 1 1 0).entered, name.length < 256 := by
    intro name hname
    have heq : entryName "/a".toList = name := Option.some.inj hname
    rw [← heq]
    decide
  have hrun : VfsRun (fun _ _ c => ∀ name ∈ c.entered, name.length < 256) (.init 0)
      withDirectory := .step (.refl _) hentered hmkd
  have hstat : ask (stat ['/']) withDirectory.db = some (some rootStat) := rfl
  have hin := listing_in_bounds 32768 .list {} hrun (.inl (by decide)) hstat sendingEnv
  have hlookup : (withDirectory.db.dirent 0).lookup ['a'] = some 1 := by
    show ((applyAll (mkdirWrites 0 0 ['a'] 1 1 1) (initRedis 0).incrFid).dirent 0).lookup _ = _
    rw [mkdirWrites_dirent, lookup_setEntry, if_neg (by decide), lookup_setEntry, if_pos ⟨rfl, rfl⟩]
    rfl
  obtain ⟨u, hlist, hcopied⟩ := run_listRoot (hrun.imp fun _ _ _ h name hname =>
    (h name hname).trans (by decide)) rfl hlookup
  rw [hlist] at hin
  exact ⟨u, hlist, hcopied, hin⟩

/-! ### A long name -/

/-- A name of 256 characters. -/
def nameOf256 : Text := List.replicate 256 'a'

theorem length_nameOf256 : nameOf256.length = 256 := List.length_replicate

theorem isEntry_nameOf256 : IsEntry nameOf256 := by
  have hmem : ∀ c ∈ nameOf256, c = 'a' := fun c hc => List.eq_of_mem_replicate hc
  have hlength : ∀ text : Text, text.length ≠ 256 → nameOf256 ≠ text := by
    intro text htext heq
    rw [← heq, length_nameOf256] at htext
    exact htext rfl
  refine ⟨⟨hlength _ (by decide), hlength _ (by decide), hlength _ (by decide), ?_⟩, ?_⟩
  · intro hslash
    exact absurd (hmem _ hslash) (by decide)
  · intro hslash
    exact absurd (hmem _ hslash) (by decide)

theorem canonical_nameOf256 : Canonical (absolute '/' [nameOf256]) :=
  ⟨[nameOf256], fun _ hc => List.mem_singleton.1 hc ▸ isEntry_nameOf256, rfl⟩

theorem addresses_nameOf256 : Addresses (absolute '/' [nameOf256]) [nameOf256] [] nameOf256 :=
  addresses_absolute fun _ hc => List.mem_singleton.1 hc ▸ isEntry_nameOf256

theorem length_absolute_nameOf256 : (absolute '/' [nameOf256]).length = 257 := by
  rw [absolute_cons_eq, render_nil, List.append_nil, List.length_cons, length_nameOf256]

/-- The path `/aaa..` of a directory with a long name. -/
def pathOf256 : BuiltPath :=
  .ofCanonical canonical_nameOf256 (by rw [length_absolute_nameOf256]; decide)

/-- The state after `MKD` of the long name. -/
def withLongName : VfsState :=
  ⟨applyAll (mkdirWrites 0 0 nameOf256 1 1 1) (initRedis 0).incrFid,
    Function.update (fun _ => []) 0 []⟩

theorem lookup_withLongName : (withLongName.db.dirent 0).lookup nameOf256 = some 1 := by
  show ((applyAll (mkdirWrites 0 0 nameOf256 1 1 1) (initRedis 0).incrFid).dirent 0).lookup _ = _
  rw [mkdirWrites_dirent, lookup_setEntry, if_neg (by decide), lookup_setEntry, if_pos ⟨rfl, rfl⟩]
  rfl

/-- `MKD` of the long name in a new file system. -/
theorem mkd_longName : VfsStep (.init 0) 0 (.mkd pathOf256 1 1 0) withLongName := by
  have hnew : ((initRedis 0).dirent 0).lookup nameOf256 = none := by
    show (setEntry (fun _ => ∅) 0 ".foo".toList (-1) 0).lookup nameOf256 = none
    rw [lookup_setEntry, if_neg, Finmap.lookup_empty]
    intro h
    have hlength := congrArg List.length h.2
    rw [length_nameOf256] at hlength
    exact absurd hlength (by decide)
  have hfull : (initRedis 0).dirent 0 ≠ ∅ := setEntry_ne_empty (fun _ => ∅) 0 ".foo".toList (-1)
  have hlookup : lookupResult (initRedis 0) 0 [nameOf256] = some (-1) := by
    rw [lookupResult, u32_zero, if_neg hfull, hnew]
  have hinit : (VfsState.init 0).db = initRedis 0 := rfl
  have hrun : run serveRedis ((VfsCmd.mkd pathOf256 1 1 0).prog []) (VfsState.init 0).db =
      .done (some (.line 250 "MKD command successful."), []) withLongName.db := by
    show run serveRedis (cmdMkd 0 (some (absolute '/' [nameOf256])) 1 1 >>= _) _ = _
    rw [run_bind, run_cmdMkd addresses_nameOf256, hinit, hlookup]
    rfl
  exact .ends hrun

/-- **A listing overruns `d_name`** after `MKD` of a name of 256 characters. -/
theorem long_name_overflows : ¬ ∀ s, VfsRun (fun _ _ _ => True) (.init 0) s →
    ∀ p arg st, buildPath ['/'] ['/'] arg = some p → ask (stat p) s.db = some (some st) →
      ListingInBounds 32768 (listingOf .list p st {}) s.db := by
  intro hall
  have hrun : VfsRun (fun _ _ c => ∀ name ∈ c.entered, name.length < 300) (.init 0)
      withLongName := by
    apply VfsRun.step (.refl _) _ mkd_longName
    intro name hname
    have heq : entryName (absolute '/' [nameOf256]) = name := Option.some.inj hname
    have hentry := addresses_nameOf256.entry_eq
    rw [← heq, hentry]
    show nameOf256.length < 300
    rw [length_nameOf256]
    decide
  have hbuilt : buildPath ['/'] ['/'] (some ['/']) = some ['/'] :=
    buildPath_root workingDir_root.canonical (by decide) ['/']
  have hstat : ask (stat ['/']) withLongName.db = some (some rootStat) := rfl
  obtain ⟨u, hlist, hcopied⟩ := run_listRoot hrun rfl lookup_withLongName
  have hin := hall withLongName (hrun.imp fun _ _ _ _ => trivial) ['/'] (some ['/']) rootStat hbuilt
    hstat sendingEnv
  rw [hlist] at hin
  have hlong : nameOf256.length < 256 := hin _ hcopied
  rw [length_nameOf256] at hlong
  omega

end ClusterFtpd
