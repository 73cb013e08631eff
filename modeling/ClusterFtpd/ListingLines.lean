import ClusterFtpd.ListingBounds
import ClusterFtpd.VfsFrame
import ClusterFtpd.Lib.Lines

/-!
# What a client reads in a listing

A client cuts the stream at `\r\n`.  `LIST` ends every line so, but `NLST` sends the names one
behind the other, with nothing between them; both stop at the first entry whose path would be too
long, and a buffer of `2 ^ 31` characters or more has a negative length for `AddToListBuffer`.

* `list_reads_back_iff`: the lines of `LIST` name the entries unless a shown entry stands behind one
  that is too long;
* `nlst_reads_back_iff`: the names of `NLST` are read back where there is one at most;
* `reads_back_iff`: both together, for every directory.
-/

namespace ClusterFtpd

open Interaction MachineInt Lines

/-! ### A buffer that is too large -/

variable {env : ListEnv} {n : ℕ} {b : ListBuffer} {t : DataTransfer} {s : ListingState}
  {name p : Text} {names vdp : List Text} {db : Redis}

theorem addToListBuffer_overflows (line : Text) (hpos : b.nBufferPos = 0) (hn : 2147483648 ≤ n)
    (hmax : n < 4294967296) :
    run (serveList env) (addToListBuffer n line b) s = .stopped .undefinedBehaviour s := by
  have havailable : int32 (n - b.nBufferPos) = (n : ℤ) - 4294967296 := by
    rw [hpos]
    unfold int32
    omega
  have hnegative : ¬ (line.length : ℤ) ≤ (n : ℤ) - 4294967296 := by omega
  unfold addToListBuffer
  simp only [havailable, if_neg hnegative]
  rw [if_pos (by omega)]
  rfl

theorem listEntry_overflows (hvisible : Visible t.options.opt_a name) (hpos : b.nBufferPos = 0)
    (hn : 2147483648 ≤ n) (hmax : n < 4294967296) :
    ∃ s', run (serveList env) (listEntry n t (entryInfo s.db t.szPath name) b) s =
      .stopped .undefinedBehaviour s' := by
  have hpsz : (entryInfo s.db t.szPath name).pszName = name := entryInfo_pszName
  unfold listEntry
  rw [hpsz, if_pos hvisible]
  by_cases hnlst : t.nCmd = some .nlst
  · rw [if_pos hnlst]
    exact ⟨s, addToListBuffer_overflows name hpos hn hmax⟩
  · rw [if_neg hnlst, run_bind]
    exact ⟨_, addToListBuffer_overflows _ hpos hn hmax⟩

theorem listEntries_overflows (hpos : b.nBufferPos = 0) (hb : b.Ready n) (hn : 2147483648 ≤ n)
    (hmax : n < 4294967296) (hstats : ∀ m ∈ vdp, StatEnds s.db t.szPath m)
    (hshown : ∃ m ∈ name :: foundNames t.szPath vdp, Visible t.options.opt_a m) :
    ∃ s', run (serveList env) (listEntries n t vdp (entryInfo s.db t.szPath name) b) s =
      .stopped .undefinedBehaviour s' := by
  induction vdp generalizing name s with
  | nil =>
      obtain ⟨m, hm, hvisible⟩ := hshown
      rw [List.mem_singleton.1 hm] at hvisible
      obtain ⟨s', hrun⟩ := listEntry_overflows hvisible hpos hn hmax
      refine ⟨s', ?_⟩
      rw [listEntries, run_bind, hrun]
      rfl
  | cons next vdp ih =>
      by_cases hvisible : Visible t.options.opt_a name
      · obtain ⟨s', hrun⟩ := listEntry_overflows hvisible hpos hn hmax
        refine ⟨s', ?_⟩
        rw [listEntries, run_bind, hrun]
        rfl
      · have hhidden : run (serveList env) (listEntry n t (entryInfo s.db t.szPath name) b) s =
            .done (true, b) s := by
          have hpsz : (entryInfo s.db t.szPath name).pszName = name := entryInfo_pszName
          unfold listEntry
          rw [hpsz, if_neg hvisible]
          rfl
        obtain ⟨s₂, hrun₂, hemits₂⟩ := findNext_emits env hb (hstats next List.mem_cons_self)
        rw [listEntries, run_bind, hhidden, Outcome.done_andThen, if_pos rfl, run_bind, hrun₂,
          Outcome.done_andThen]
        have hrest : ∃ m ∈ foundNames t.szPath (next :: vdp), Visible t.options.opt_a m := by
          obtain ⟨m, hm, hm'⟩ := hshown
          rcases List.mem_cons.1 hm with heq | hmem
          · rw [heq] at hm'
            exact absurd hm' hvisible
          · exact ⟨m, hmem, hm'⟩
        by_cases hlong : TooLong t.szPath next
        · rw [foundNames_long hlong] at hrest
          obtain ⟨m, hm, -⟩ := hrest
          cases hm
        · rw [foundNames_short hlong] at hrest
          have hstats' : ∀ m ∈ vdp, StatEnds s₂.db t.szPath m := by
            rw [hemits₂.db]
            exact fun m hm => hstats m (List.mem_cons_of_mem next hm)
          rw [if_neg hlong, ← hemits₂.db]
          exact ih hstats' hrest

/-- A buffer of `2 ^ 31` characters does not take the first name that is shown. -/
theorem sendDirectory_overflows (h : DirAt s.db t.szPath names) (hn : 2147483648 ≤ n)
    (hmax : n < 4294967296)
    (hshown : ∃ m ∈ foundNames t.szPath names, Visible t.options.opt_a m) :
    ∃ s', run (serveList env) (sendDirectory n t) s = .stopped .undefinedBehaviour s' := by
  unfold sendDirectory
  rw [run_bind, run_openDir h, Outcome.done_andThen]
  cases names with
  | nil =>
      obtain ⟨m, hm, -⟩ := hshown
      cases hm
  | cons name vdp =>
      have hpos : 0 < n := by omega
      have hready : (⟨List.replicate n '\x00', 0⟩ : ListBuffer).Ready n :=
        ⟨List.length_replicate, hpos⟩
      obtain ⟨s₂, hrun₂, hemits₂⟩ := findNext_emits env
        (s := { s with copies := s.copies ++ openCopies t.szPath }) hready
        (h.stats name List.mem_cons_self)
      dsimp only
      rw [run_bind, hrun₂, Outcome.done_andThen]
      by_cases hlong : TooLong t.szPath name
      · rw [foundNames_long hlong] at hshown
        obtain ⟨m, hm, -⟩ := hshown
        cases hm
      · rw [foundNames_short hlong] at hshown
        have hdb : s₂.db = s.db := hemits₂.db
        have hstats : ∀ m ∈ vdp, StatEnds s₂.db t.szPath m := by
          rw [hdb]
          exact fun m hm => h.stats m (List.mem_cons_of_mem name hm)
        obtain ⟨s', hrun⟩ := listEntries_overflows (t := t) rfl hemits₂.ready hn hmax hstats hshown
        rw [hdb] at hrun
        rw [if_neg hlong]
        dsimp only
        refine ⟨s', ?_⟩
        rw [run_bind, hrun]
        rfl

/-! ### The names that are shown -/

/-- The names of the entries that are to be shown. -/
def shownNames (opt_a : Bool) (names : List Text) : List Text :=
  names.filter fun name => Visible opt_a name

/-- Every name that is to be shown stands before the first whose path is too long. -/
def NoneCut (szDirPath : Text) (opt_a : Bool) (names : List Text) : Prop :=
  ∀ name ∈ names, Visible opt_a name → ∀ m ∈ names, m ≤ name → ¬ TooLong szDirPath m

theorem shownNames_cons (opt_a : Bool) (name : Text) (vdp : List Text) :
    shownNames opt_a (name :: vdp) =
      if Visible opt_a name then name :: shownNames opt_a vdp else shownNames opt_a vdp := by
  unfold shownNames
  by_cases hvisible : Visible opt_a name
  · rw [if_pos hvisible]
    exact List.filter_cons_of_pos (decide_eq_true hvisible)
  · rw [if_neg hvisible]
    exact List.filter_cons_of_neg fun h => hvisible (of_decide_eq_true h)

theorem mem_shownNames {opt_a : Bool} :
    name ∈ shownNames opt_a names ↔ name ∈ names ∧ Visible opt_a name := by
  rw [shownNames, List.mem_filter, decide_eq_true_iff]

/-- What is found of the shown names comes in their order. -/
theorem shown_found_sublist (opt_a : Bool) (p : Text) (names : List Text) :
    (shownNames opt_a (foundNames p names)).Sublist (shownNames opt_a names) :=
  List.Sublist.filter _ (List.takeWhile_sublist _)

/-- **Every shown name is found** exactly when none stands behind a path that is too long. -/
theorem shown_found_iff (opt_a : Bool) (p : Text) (hsorted : names.Pairwise (· < ·)) :
    shownNames opt_a (foundNames p names) = shownNames opt_a names ↔ NoneCut p opt_a names := by
  induction names with
  | nil =>
      constructor
      · intro _ name hname
        cases hname
      · intro _
        rfl
  | cons name vdp ih =>
      obtain ⟨hbelow, hsorted⟩ := List.pairwise_cons.1 hsorted
      by_cases hlong : TooLong p name
      · rw [foundNames_long hlong]
        constructor
        · intro heq m hm hvisible
          have hshown : m ∈ shownNames opt_a (name :: vdp) := mem_shownNames.2 ⟨hm, hvisible⟩
          rw [← heq] at hshown
          cases hshown
        · intro hnone
          symm
          apply List.eq_nil_iff_forall_not_mem.2
          intro m hshown
          obtain ⟨hm, hvisible⟩ := mem_shownNames.1 hshown
          have hle : name ≤ m := by
            rcases List.mem_cons.1 hm with heq | hrest
            · exact le_of_eq heq.symm
            · exact le_of_lt (hbelow m hrest)
          exact hnone m hm hvisible name List.mem_cons_self hle hlong
      · have htail : NoneCut p opt_a (name :: vdp) ↔ NoneCut p opt_a vdp := by
          constructor
          · intro hnone m hm hvisible k hk
            exact hnone m (List.mem_cons_of_mem name hm) hvisible k (List.mem_cons_of_mem name hk)
          · intro hnone m hm hvisible k hk hle
            rcases List.mem_cons.1 hk with hfirst | hrest
            · rw [hfirst]
              exact hlong
            · rcases List.mem_cons.1 hm with heq | hm
              · rw [heq] at hle
                exact absurd hle (not_le_of_gt (hbelow k hrest))
              · exact hnone m hm hvisible k hrest hle
        rw [htail, ← ih hsorted, foundNames_short hlong, shownNames_cons, shownNames_cons]
        by_cases hvisible : Visible opt_a name
        · rw [if_pos hvisible, if_pos hvisible, List.cons_inj_right]
        · rw [if_neg hvisible, if_neg hvisible]

/-! ### What is sent -/

/-- The listing comes to its end, and `P` holds of what it sends if `send` transmits all of it. -/
def ListStreams (n : ℕ) (t : DataTransfer) (db : Redis) (P : Text → Prop) : Prop :=
  ∀ env : ListEnv, env.Transmits →
    ∃ u, run (serveList env) (sendList n t) { db } = .done () u ∧ P u.sent.flatten

/-- The entry is a directory for `stat`. -/
def isDirectory (db : Redis) (szDirPath name : Text) : Bool :=
  (entryStat db szDirPath name).any fun st => S_ISDIR st.st_mode

/-- The stream of `NLST`, cut at the line ends, is the list of the names. -/
def NlstReadsBack (n : ℕ) (p : Text) (st : Stat) (options : ListOptions) (db : Redis)
    (names : List Text) : Prop :=
  ListStreams n (listingOf .nlst p st options) db fun stream =>
    cutLines '\r' '\n' stream = shownNames options.opt_a names

/-- The stream of `LIST` has one line for each name, and the line ends with it. -/
def ListReadsBack (n : ℕ) (p : Text) (st : Stat) (options : ListOptions) (db : Redis)
    (names : List Text) : Prop :=
  ListStreams n (listingOf .list p st options) db fun stream =>
    ∃ ls, stream = terminated '\r' '\n' ls ∧ cutLines '\r' '\n' stream = ls ∧
      List.Forall₂ (fun name l => (name ++ slashOf options.opt_F (isDirectory db p name)) <:+ l)
        (shownNames options.opt_a names) ls

variable {st : Stat} {options : ListOptions}

theorem sendList_directory {nCmd : Cmd} (hdir : S_ISDIR st.st_mode = true)
    (hd : options.opt_d = false) :
    sendList n (listingOf nCmd p st options) = sendDirectory n (listingOf nCmd p st options) := by
  have hneg : ¬ (options.opt_d = true ∨ ¬ S_ISDIR st.st_mode = true) := by
    intro h
    rcases h with htrue | hfile
    · rw [hd] at htrue
      cases htrue
    · exact hfile hdir
  exact if_neg hneg

/-- **The stream of a listing**, for a buffer that is not too large or where nothing is shown. -/
theorem run_sendList (nCmd : Cmd) (hsend : env.Transmits) (hdir : S_ISDIR st.st_mode = true)
    (hd : options.opt_d = false) (hmin : MAX_PATH + 57 ≤ n)
    (hn : shownNames options.opt_a (foundNames p names) = [] ∨ n < 2147483648)
    (h : DirAt db p names) :
    ∃ u ls, run (serveList env) (sendList n (listingOf nCmd p st options)) { db } = .done () u ∧
      u.sent.flatten = ls.flatten ∧
      List.Forall₂ (PrintedFor db (listingOf nCmd p st options))
        (shownNames options.opt_a (foundNames p names)) ls := by
  have hsmall : ∀ m ∈ foundNames p names, Visible options.opt_a m → n < 2147483648 := by
    intro m hm hvisible
    rcases hn with hnone | hn
    · have hshown : m ∈ shownNames options.opt_a (foundNames p names) :=
        mem_shownNames.2 ⟨hm, hvisible⟩
      rw [hnone] at hshown
      cases hshown
    · exact hn
  obtain ⟨u, hrun, hsent⟩ := run_sendDirectory (t := listingOf nCmd p st options) (s := { db })
    hsend hmin hsmall h
  obtain ⟨ls, hstream, hprinted⟩ := hsent.sent
  rw [sendList_directory hdir hd]
  exact ⟨u, ls, hrun, hstream, hprinted⟩

/-- A listing that comes to its end showed nothing or had a buffer that is not too large. -/
theorem small_of_streams {nCmd : Cmd} {P : Text → Prop} (hdir : S_ISDIR st.st_mode = true)
    (hd : options.opt_d = false) (hmax : n < 4294967296) (h : DirAt db p names)
    (hstreams : ListStreams n (listingOf nCmd p st options) db P) :
    shownNames options.opt_a (foundNames p names) = [] ∨ n < 2147483648 := by
  by_cases hn : n < 2147483648
  · exact .inr hn
  · left
    apply List.eq_nil_iff_forall_not_mem.2
    intro m hm
    obtain ⟨u, hrun, -⟩ := hstreams sendingEnv fun _ _ => rfl
    obtain ⟨u', hover⟩ := sendDirectory_overflows
      (t := listingOf nCmd p st options) (s := { db }) h (by omega) hmax ⟨m, mem_shownNames.1 hm⟩
    rw [sendList_directory hdir hd, hover] at hrun
    cases hrun

/-- The stream of a listing that is read back. -/
theorem ListStreams.ends {nCmd : Cmd} {P : Text → Prop} (hdir : S_ISDIR st.st_mode = true)
    (hd : options.opt_d = false) (hmin : MAX_PATH + 57 ≤ n) (hmax : n < 4294967296)
    (h : DirAt db p names) (hstreams : ListStreams n (listingOf nCmd p st options) db P) :
    ∃ ls, P ls.flatten ∧ List.Forall₂ (PrintedFor db (listingOf nCmd p st options))
      (shownNames options.opt_a (foundNames p names)) ls := by
  have hn := small_of_streams hdir hd hmax h hstreams
  have htransmits : sendingEnv.Transmits := fun _ _ => rfl
  obtain ⟨u, ls, hrun, hstream, hprinted⟩ := run_sendList nCmd htransmits hdir hd hmin hn h
  obtain ⟨u', hrun', hP⟩ := hstreams sendingEnv htransmits
  rw [hrun] at hrun'
  cases hrun'
  rw [hstream] at hP
  exact ⟨ls, hP, hprinted⟩

theorem listStreams_of_printed {nCmd : Cmd} {P : Text → Prop} (hdir : S_ISDIR st.st_mode = true)
    (hd : options.opt_d = false) (hmin : MAX_PATH + 57 ≤ n)
    (hn : shownNames options.opt_a (foundNames p names) = [] ∨ n < 2147483648)
    (h : DirAt db p names)
    (hP : ∀ ls, List.Forall₂ (PrintedFor db (listingOf nCmd p st options))
      (shownNames options.opt_a (foundNames p names)) ls → P ls.flatten) :
    ListStreams n (listingOf nCmd p st options) db P := by
  intro env hsend
  obtain ⟨u, ls, hrun, hstream, hprinted⟩ := run_sendList nCmd hsend hdir hd hmin hn h
  refine ⟨u, hrun, ?_⟩
  rw [hstream]
  exact hP ls hprinted

/-! ### `NLST` -/

/-- `NLST` sends the names one behind the other. -/
theorem printed_nlst {ls : List Text} {shown : List Text}
    (h : List.Forall₂ (PrintedFor db (listingOf .nlst p st options)) shown ls) : ls = shown := by
  have heq : List.Forall₂ (fun name l : Text => name = l) shown ls :=
    h.imp fun _ _ hprinted => Eq.symm hprinted
  exact (List.forall₂_eq_eq_eq ▸ heq : shown = ls).symm

/-- The condition under which `NLST` can be read: there is one name at most. -/
def OneNameAtMost (n : ℕ) (p : Text) (opt_a : Bool) (names : List Text) : Prop :=
  shownNames opt_a names = [] ∨ ∃ name, shownNames opt_a names = [name] ∧ name ≠ [] ∧
    ¬ crlf <:+: name ∧ NoneCut p opt_a names ∧ n < 2147483648

theorem cutLines_of_infix {x : Text} (h : ¬ crlf <:+: x) (hne : x ≠ []) :
    cutLines '\r' '\n' x = [x] := by
  rw [cutLines_of_notMem h, if_neg hne]

/-- **The stream of `NLST` is read back exactly when** it has one name at most. -/
theorem nlst_reads_back_iff (hdir : S_ISDIR st.st_mode = true) (hd : options.opt_d = false)
    (hmin : MAX_PATH + 57 ≤ n) (hmax : n < 4294967296) (h : DirAt db p names)
    (hsorted : names.Pairwise (· < ·)) :
    NlstReadsBack n p st options db names ↔ OneNameAtMost n p options.opt_a names := by
  have hsublist := shown_found_sublist options.opt_a p names
  constructor
  · intro hreads
    obtain ⟨ls, hlines, hprinted⟩ := ListStreams.ends hdir hd hmin hmax h hreads
    rw [printed_nlst hprinted] at hlines
    -- As many characters are read as were sent, so nothing was cut.
    have hlength : (shownNames options.opt_a (foundNames p names)).flatten.length ≤
        (cutLines '\r' '\n'
          (shownNames options.opt_a (foundNames p names)).flatten).flatten.length := by
      rw [hlines]
      exact hsublist.flatten.length_le
    have hcut := cutLines_of_length hlength
    rw [hlines] at hcut
    by_cases hnone : (shownNames options.opt_a (foundNames p names)).flatten = []
    · rw [if_pos hnone] at hcut
      exact .inl hcut
    · rw [if_neg hnone] at hcut
      have hfound : shownNames options.opt_a (foundNames p names) =
          shownNames options.opt_a names := by
        rw [hcut] at hsublist ⊢
        apply hsublist.eq_of_length_le
        rw [List.length_singleton]
        apply Nat.one_le_iff_ne_zero.2
        intro hzero
        rw [List.length_eq_zero_iff.1 hzero] at hnone
        exact hnone rfl
      refine .inr ⟨_, hcut, hnone, ?_, (shown_found_iff _ _ hsorted).1 hfound, ?_⟩
      · apply notMem_of_cutLines (s := (shownNames options.opt_a (foundNames p names)).flatten)
        rw [hlines, hcut]
        exact List.mem_singleton_self _
      · rcases small_of_streams hdir hd hmax h hreads with hnil | hn
        · rw [hnil] at hnone
          exact absurd rfl hnone
        · exact hn
  · intro hone
    rcases hone with hnone | ⟨name, hshown, hne, hcrlf, hcut, hn⟩
    · have hfound : shownNames options.opt_a (foundNames p names) = [] := by
        rw [hnone] at hsublist
        exact List.sublist_nil.1 hsublist
      apply listStreams_of_printed hdir hd hmin (.inl hfound) h
      intro ls hprinted
      rw [printed_nlst hprinted, hfound, hnone]
      rfl
    · have hfound := (shown_found_iff _ _ hsorted).2 hcut
      apply listStreams_of_printed hdir hd hmin (.inr hn) h
      intro ls hprinted
      rw [printed_nlst hprinted, hfound, hshown, List.flatten_singleton]
      exact cutLines_of_infix hcrlf hne

/-! ### `LIST` -/

/-- The file type bits lie among the lower sixteen. -/
theorem S_ISDIR_mod (m : ℕ) : S_ISDIR (m % 65536) = S_ISDIR m := by
  have hmask : m % 65536 &&& 0o170000 = m &&& 0o170000 := by
    have hlow : m % 65536 = m &&& (2 ^ 16 - 1) := (Nat.and_two_pow_sub_one_eq_mod m 16).symm
    rw [hlow, Nat.and_assoc]
    rfl
  unfold S_ISDIR
  rw [hmask]

/-- The line that `LIST` prints for an entry, without its end. -/
def lineOf (db : Redis) (p : Text) (opt_F : Bool) (now : ℤ) (name : Text) : Text :=
  listPrefix now (entryInfo db p name).mode (entryInfo db p name).size
      (entryInfo db p name).mtime ++
    (name ++ slashOf opt_F (isDirectory db p name))

theorem S_ISDIR_entryInfo : S_ISDIR (entryInfo db p name).mode = isDirectory db p name := by
  unfold entryInfo isDirectory
  cases entryStat db p name with
  | none =>
      show S_ISDIR 0 = false
      decide
  | some st => exact S_ISDIR_mod st.st_mode

theorem line_entryInfo (now : ℤ) (opt_F : Bool) :
    (entryInfo db p name).line now opt_F = lineOf db p opt_F now name ++ ['\r', '\n'] := by
  rw [FileInfo.line, listLine, S_ISDIR_entryInfo, entryInfo_pszName, lineOf, List.append_assoc,
    List.append_assoc]
  rfl

/-- `LIST` sends a line for each name. -/
theorem printed_list {ls : List Text} {shown : List Text}
    (h : List.Forall₂ (PrintedFor db (listingOf .list p st options)) shown ls) :
    ∃ xs, ls.flatten = terminated '\r' '\n' xs ∧
      List.Forall₂ (fun name x => ∃ now, x = lineOf db p options.opt_F now name) shown xs := by
  induction h with
  | nil => exact ⟨[], rfl, .nil⟩
  | cons hline _ ih =>
      obtain ⟨now, hline⟩ := hline
      obtain ⟨xs, hstream, hlines⟩ := ih
      refine ⟨lineOf db p options.opt_F now _ :: xs, ?_, .cons ⟨now, rfl⟩ hlines⟩
      rw [List.flatten_cons, hstream, hline, line_entryInfo]
      rfl

/-- What stands in one of two lists has its partner in the other. -/
theorem exists_of_forall₂ {α β : Type} {R : α → β → Prop} {xs : List α} {ys : List β} {a : α}
    (h : List.Forall₂ R xs ys) (ha : a ∈ xs) : ∃ b ∈ ys, R a b := by
  induction h with
  | nil => cases ha
  | cons hab _ ih =>
      rcases List.mem_cons.1 ha with heq | hrest
      · rw [heq]
        exact ⟨_, List.mem_cons_self, hab⟩
      · obtain ⟨b, hb, hR⟩ := ih hrest
        exact ⟨b, List.mem_cons_of_mem _ hb, hR⟩

theorem slash_suffix {opt_F : Bool} {now : ℤ} {x : Text} (h : x = lineOf db p opt_F now name) :
    (name ++ slashOf opt_F (isDirectory db p name)) <:+ x := by
  rw [h]
  exact List.suffix_append _ _

/-- No line has a line end in it, for a name that has none. -/
theorem oneLine_lineOf {opt_F : Bool} {now : ℤ} (h : ¬ crlf <:+: name) :
    ¬ crlf <:+: lineOf db p opt_F now name := by
  intro hinfix
  have hprefix : '\r' ∉ listPrefix now (entryInfo db p name).mode (entryInfo db p name).size
      (entryInfo db p name).mtime := fun hmem => (oneLine_listPrefix _ _ _ _ _ hmem).1 rfl
  have hslash : '\n' ∉ slashOf opt_F (isDirectory db p name) := by
    unfold slashOf
    split <;> decide
  exact h (infix_of_append_right hslash (infix_of_append_left hprefix hinfix))

/-- **The stream of `LIST` is read back exactly when** no shown name has a line end in it and none
stands behind a path that is too long. -/
theorem list_reads_back_iff (hdir : S_ISDIR st.st_mode = true) (hd : options.opt_d = false)
    (hmin : MAX_PATH + 57 ≤ n) (hmax : n < 4294967296) (h : DirAt db p names)
    (hsorted : names.Pairwise (· < ·)) :
    ListReadsBack n p st options db names ↔
      (∀ name ∈ shownNames options.opt_a names, ¬ crlf <:+: name) ∧
        NoneCut p options.opt_a names ∧
        (shownNames options.opt_a names = [] ∨ n < 2147483648) := by
  have hne : '\r' ≠ '\n' := by decide
  have hplain : ∀ {shown xs : List Text},
      List.Forall₂ (fun name x => ∃ now, x = lineOf db p options.opt_F now name) shown xs →
      (∀ name ∈ shown, ¬ crlf <:+: name) → ∀ x ∈ xs, ¬ crlf <:+: x := by
    intro shown xs hlines hnames x hx
    obtain ⟨name, hname, now, hline⟩ := exists_of_forall₂ hlines.flip hx
    rw [hline]
    exact oneLine_lineOf (hnames name hname)
  constructor
  · intro hreads
    obtain ⟨ls, ⟨lines, hstream, hcut, hends⟩, hprinted⟩ :=
      ListStreams.ends hdir hd hmin hmax h hreads
    obtain ⟨xs, hxs, hlines⟩ := printed_list hprinted
    have hnames : ∀ name ∈ shownNames options.opt_a names, ¬ crlf <:+: name := by
      intro name hname hinfix
      obtain ⟨l, hl, hsuffix⟩ := exists_of_forall₂ hends hname
      rw [← hcut] at hl
      apply notMem_of_cutLines l hl
      exact hinfix.trans ((List.prefix_append name _).isInfix.trans hsuffix.isInfix)
    have hread : xs = lines := by
      rw [← hcut, hxs, cutLines_terminated hne]
      apply hplain hlines
      intro name hname
      exact hnames name ((shown_found_sublist _ _ _).subset hname)
    have hfound : shownNames options.opt_a (foundNames p names) =
        shownNames options.opt_a names := by
      apply (shown_found_sublist options.opt_a p names).eq_of_length
      rw [hlines.length_eq, hread, hends.length_eq]
    refine ⟨hnames, (shown_found_iff _ _ hsorted).1 hfound, ?_⟩
    rw [← hfound]
    exact small_of_streams hdir hd hmax h hreads
  · intro hcond
    obtain ⟨hnames, hnone, hsmall⟩ := hcond
    have hfound := (shown_found_iff options.opt_a p hsorted).2 hnone
    rw [← hfound] at hsmall
    apply listStreams_of_printed hdir hd hmin hsmall h
    intro ls hprinted
    obtain ⟨xs, hxs, hlines⟩ := printed_list hprinted
    rw [hfound] at hlines
    refine ⟨xs, hxs, ?_, ?_⟩
    · rw [hxs]
      exact cutLines_terminated hne (hplain hlines hnames)
    · apply hlines.imp
      intro name x hline
      obtain ⟨now, hline⟩ := hline
      exact slash_suffix hline

/-! ### Both -/

/-- The names of a directory's entries, in the order of the keys. -/
def entryNames (db : Redis) (k : ℕ) : List Text := sortedKeys (db.dirent k).keys

theorem mem_entryNames {k : ℕ} :
    name ∈ entryNames db k ↔ ∃ v, (db.dirent k).lookup name = some v := by
  rw [entryNames, sortedKeys, Finset.mem_sort]
  constructor
  · exact exists_lookup_of_mem_keys
  · intro hv
    obtain ⟨v, hv⟩ := hv
    exact Finmap.mem_keys.2 (Finmap.mem_of_lookup_eq_some hv)

/-- Names come once and in order. -/
theorem entryNames_sorted (db : Redis) (k : ℕ) : (entryNames db k).Pairwise (· < ·) :=
  (Finset.sortedLT_sort (db.dirent k).keys).pairwise

/-- A listing can be read back: by `NLST` and by `LIST`. -/
def ReadsBack (n : ℕ) (p : Text) (st : Stat) (options : ListOptions) (db : Redis)
    (names : List Text) : Prop :=
  NlstReadsBack n p st options db names ∧ ListReadsBack n p st options db names

/-- **The listings of a directory are read back exactly when** one name is shown at most, and that
name is not empty, has no line end in it, stands behind no path that is too long, and the buffer has
less than `2 ^ 31` characters. -/
theorem reads_back_iff {start wd : Text} {arg : Option Text} {k : ℕ}
    (hpath : buildPath start wd arg = some p) (hproper : ProperNames db)
    (hfound : ask (lookupFid p) db = some (k : ℤ)) (hdir : S_ISDIR st.st_mode = true)
    (hd : options.opt_d = false) (hmin : MAX_PATH + 57 ≤ n) (hmax : n < 4294967296) :
    ReadsBack n p st options db (entryNames db k) ↔
      OneNameAtMost n p options.opt_a (entryNames db k) := by
  have hat : DirAt db p (entryNames db k) := dirAt_of_built hpath hproper hfound
  have hsorted := entryNames_sorted db k
  have hnlst := nlst_reads_back_iff hdir hd hmin hmax hat hsorted
  have hlist := list_reads_back_iff hdir hd hmin hmax hat hsorted
  constructor
  · intro hboth
    exact hnlst.1 hboth.1
  · intro hone
    refine ⟨hnlst.2 hone, hlist.2 ?_⟩
    rcases hone with hnone | ⟨name, hshown, -, hcrlf, hcut, hn⟩
    · refine ⟨?_, ?_, .inl hnone⟩
      · rw [hnone]
        intro m hm
        cases hm
      · intro m hm hvisible
        have hshown : m ∈ shownNames options.opt_a (entryNames db k) :=
          mem_shownNames.2 ⟨hm, hvisible⟩
        rw [hnone] at hshown
        cases hshown
    · refine ⟨?_, hcut, .inr hn⟩
      rw [hshown]
      intro m hm
      rw [List.mem_singleton.1 hm]
      exact hcrlf

theorem properNames_initRedis (now : ℤ) : ProperNames (initRedis now) := by
  have hrun : VfsRun (fun _ _ _ => True) (.init now) (.init now) := .refl _
  exact hrun.properNames

/-- `-a` on the root directory of a new file system, which has one entry. -/
theorem reads_back_iff_root :
    ReadsBack 32768 ['/'] rootStat { opt_a := true } (initRedis 0) (entryNames (initRedis 0) 0) ↔
      OneNameAtMost 32768 ['/'] true (entryNames (initRedis 0) 0) :=
  reads_back_iff (buildPath_root workingDir_root.canonical (by decide) ['/'])
    (properNames_initRedis 0) rfl (by decide) rfl (by decide) (by decide)

/-- **`NLST` runs two names together**: the root directory after `MKD /a`, with `-a`. -/
theorem nlst_joins_names : ¬ ∀ s, VfsRun (fun _ _ _ => True) (.init 0) s →
    ∀ (p : Text) (arg : Option Text) (k n : ℕ) (st : Stat) (options : ListOptions),
      buildPath ['/'] ['/'] arg = some p → ask (lookupFid p) s.db = some (k : ℤ) →
      ask (stat p) s.db = some (some st) → S_ISDIR st.st_mode = true → options.opt_d = false →
      MAX_PATH + 57 ≤ n → n < 4294967296 → ReadsBack n p st options s.db (entryNames s.db k) := by
  intro hall
  have hbuilt : buildPath ['/'] ['/'] (some ['/']) = some ['/'] :=
    buildPath_root workingDir_root.canonical (by decide) ['/']
  have hstep : VfsStep (.init 0) 0 (.mkd pathA 1 1 0) ⟨withA, Function.update (fun _ => []) 0 []⟩ :=
    .ends rfl
  have hrun : VfsRun (fun _ _ _ => True) (.init 0) ⟨withA, Function.update (fun _ => []) 0 []⟩ :=
    .step (.refl _) trivial hstep
  have hdir : DirAt withA ['/'] (entryNames withA 0) :=
    dirAt_of_built hbuilt hrun.properNames
      (show ask (lookupFid ['/']) withA = some ((0 : ℕ) : ℤ) from rfl)
  have hreads : ReadsBack 32768 ['/'] rootStat { opt_a := true } withA (entryNames withA 0) :=
    hall _ hrun ['/'] (some ['/']) 0 32768 rootStat { opt_a := true } hbuilt rfl rfl (by decide) rfl
      (by decide) (by decide)
  have hone : OneNameAtMost 32768 ['/'] true (entryNames withA 0) :=
    (nlst_reads_back_iff (by decide) rfl (by decide) (by decide) hdir
      (entryNames_sorted withA 0)).1 hreads.1
  have hfoo : ".foo".toList ∈ shownNames true (entryNames withA 0) :=
    mem_shownNames.2 ⟨mem_entryNames.2 ⟨-1, rfl⟩, .inr rfl⟩
  have ha : ['a'] ∈ shownNames true (entryNames withA 0) :=
    mem_shownNames.2 ⟨mem_entryNames.2 ⟨1, rfl⟩, .inr rfl⟩
  rcases hone with hnone | ⟨name, hshown, -⟩
  · rw [hnone] at ha
    cases ha
  · rw [hshown] at hfoo ha
    have heq := (List.mem_singleton.1 hfoo).trans (List.mem_singleton.1 ha).symm
    exact absurd heq (by decide)

end ClusterFtpd
