import ClusterFtpd.Sessions

/-!
# The start directory of a session

A session keeps a canonical working directory of at most `MAX_PATH` characters, whatever it is
sent.  With that, every path `BuildPath` returns is canonical and fits, and it lies inside the
user's start directory except where `snprintf` cuts a name down to `..`.

Main results:

* `SessionRun.workingDir`: the working directory of every session, at every moment;
* `session_jail`: what `BuildPath` returns in a session, and exactly when it lies inside;
* `session_leaves_jail`: a user whose start directory has `MAX_PATH - 1` characters leaves it.
-/

namespace ClusterFtpd

open Interaction MachineInt PathComponents

/-! ### The working directory -/

theorem length_absolute_dropLast (ns : List Text) :
    (absolute '/' ns.dropLast).length ≤ (absolute '/' ns).length := by
  obtain ⟨u, hu⟩ := slash_head_absolute ns
  by_cases h0 : ns.dropLast = []
  · rw [h0, hu]
    show 1 ≤ ('/' :: u).length
    rw [List.length_cons]
    omega
  · have hne : ns ≠ [] := by
      intro hns
      rw [hns] at h0
      exact h0 rfl
    have hlast := List.dropLast_append_getLast hne
    have hrender : render '/' ns = render '/' ns.dropLast ++ render '/' [ns.getLast hne] := by
      rw [← render_append, hlast]
    rw [absolute, absolute, if_neg h0, if_neg hne, hrender, List.length_append]
    omega

/-- `CDUP` drops the last name. -/
theorem cdup_absolute {ns : List Text} (hns : ∀ c ∈ ns, IsEntry c) :
    cdup (absolute '/' ns) = absolute '/' ns.dropLast := by
  obtain ⟨u, hu⟩ := slash_head_absolute ns
  have hslash : absolute '/' ns ++ '/' :: ['.', '.'] = '/' :: (u ++ '/' :: ['.', '.']) := by
    rw [hu, List.cons_append]
  have hdots : slashes ('/' :: ['.', '.']) = '/' :: ['.', '.'] := slashes_of_notMem (by decide)
  show simplifyPath (absolute '/' ns ++ '/' :: ['.', '.']) = _
  rw [simplifyPath_of_slash hslash, slashes_append, slashes_of_notMem (absolute_notMem hns), hdots,
    below_append, below_absolute hns, pieces_of_notMem '/' (by decide), resolve_cons, resolve_nil,
    resolveStep_dotdot]

/-- `CDUP` of a canonical directory is canonical and not longer. -/
theorem workingDir_cdup {wd : Text} (h : WorkingDir wd) : WorkingDir (cdup wd) := by
  obtain ⟨⟨ns, hns, rfl⟩, hlen⟩ := h
  rw [cdup_absolute hns]
  refine ⟨⟨ns.dropLast, fun c hc => hns c (List.mem_of_mem_dropLast hc), rfl⟩, ?_⟩
  exact (length_absolute_dropLast ns).trans hlen

theorem buildVirtualPath_of_build {start wd p v : Text} {arg : Option Text}
    (h : buildPathVirtual start wd arg = some (p, v)) : buildVirtualPath wd arg = some v := by
  unfold buildPathVirtual at h
  cases hv : buildVirtualPath wd arg with
  | none => simp [hv] at h
  | some v' =>
      simp only [hv] at h
      split_ifs at h
      simp only [Option.some.injEq, Prod.mk.injEq] at h
      rw [h.2]

variable {cfg : Config} {w w' : World}

/-- One turn keeps the working directory canonical. -/
theorem Turn.workingDir {nCmd : Option Cmd} {pszCmdArg : Option Text} {next : Next}
    (hturn : Turn cfg w w' nCmd pszCmdArg next) (h : WorkingDir w.client.szWorkingDir) :
    WorkingDir w'.client.szWorkingDir := by
  cases hturn with
  | idle _ _ _ hlogin =>
      rw [hlogin]
      exact h
  | cwd _ _ hbuild hlogin =>
      rw [hlogin]
      unfold Client.buildPathVirtual at hbuild
      cases hu : w.client.pUser with
      | none => simp [hu] at hbuild
      | some u =>
          rw [hu] at hbuild
          exact buildVirtualPath_canonical h.canonical (buildVirtualPath_of_build hbuild)
  | cdup _ _ hlogin =>
      rw [hlogin]
      exact workingDir_cdup h
  | logout hlogin =>
      rw [hlogin]
      split_ifs
      · exact workingDir_root
      · exact h
  | user pUser _ hlogin =>
      rw [hlogin]
      show WorkingDir (if w.client.bIsLogged then ['/'] else w.client.szWorkingDir)
      split_ifs
      · exact workingDir_root
      · exact h
  | passIn _ hlogin =>
      rw [hlogin]
      exact h
  | passOut _ hlogin =>
      rw [hlogin]
      exact h

/-- **The working directory** of a session is canonical and fits, at every moment. -/
theorem SessionRun.workingDir {ok : World → Option Cmd → Option Text → Prop}
    {hist : List Received} (hrun : SessionRun cfg ok hist w) :
    WorkingDir w.client.szWorkingDir := by
  induction hrun with
  | connect hlogin _ =>
      rw [hlogin]
      exact workingDir_root
  | turn env line _ _ hturn ih => exact (turn_of_run hturn).workingDir ih
  | others _ hlogin ih =>
      rw [hlogin]
      exact ih

/-! ### The cut, in terms of what was asked -/

/-- The text a path is asked with: the argument, behind the working directory unless it is
absolute. -/
def askedText (szWorkingDir : Text) : Option Text → Text
  | some asked => if asked.head? = some '/' then asked else printPath szWorkingDir asked
  | none => szWorkingDir

/-- The names that are asked for. -/
def askedNames (szWorkingDir : Text) (pszAskedPath : Option Text) : List Text :=
  below '/' '.' (slashes (askedText szWorkingDir pszAskedPath))

theorem askedText_slash {wd : Text} (hwd : Canonical wd) (arg : Option Text) :
    ∃ u, askedText wd arg = '/' :: u := by
  obtain ⟨v, hv⟩ := hwd.slash_head
  cases arg with
  | none => exact ⟨v, hv⟩
  | some asked =>
      show ∃ u, (if asked.head? = some '/' then asked else printPath wd asked) = '/' :: u
      by_cases ha : asked.head? = some '/'
      · rw [if_pos ha]
        cases asked with
        | nil => simp at ha
        | cons c u =>
            rw [List.head?_cons, Option.some.injEq] at ha
            exact ⟨u, by rw [ha]⟩
      · rw [if_neg ha]
        exact printPath_of_slash hv asked

/-- The virtual path is the absolute path of the names asked for. -/
theorem buildVirtualPath_names {wd v : Text} {arg : Option Text} (hwd : Canonical wd)
    (h : buildVirtualPath wd arg = some v) : v = absolute '/' (askedNames wd arg) := by
  simp only [buildVirtualPath] at h
  split_ifs at h
  rw [Option.some.injEq] at h
  subst h
  obtain ⟨u, hu⟩ := askedText_slash hwd arg
  rw [askedNames, ← simplifyPath_of_slash hu]
  cases arg with
  | none =>
      obtain ⟨ns, hns, rfl⟩ := hwd
      rw [simplifyPath_of_slash hu]
      show absolute '/' ns = absolute '/' (below '/' '.' (slashes (absolute '/' ns)))
      rw [slashes_of_notMem (absolute_notMem hns), below_absolute hns]
  | some asked =>
      show (if asked.head? = some '/' then simplifyPath asked
        else simplifyPath (printPath wd asked)) =
          simplifyPath (if asked.head? = some '/' then asked else printPath wd asked)
      split_ifs <;> rfl

/-- A canonical path starts with `/..` when its first name starts with `..`. -/
theorem dotdot_absolute_iff {ns : List Text} (hns : ∀ c ∈ ns, IsEntry c) :
    ['/', '.', '.'] <+: absolute '/' ns ↔ ∃ c cs, ns = c :: cs ∧ ['.', '.'] <+: c := by
  cases ns with
  | nil =>
      constructor
      · intro h
        have hlen := h.length_le
        simp [absolute] at hlen
      · rintro ⟨c, cs, h, -⟩
        exact absurd h (by simp)
  | cons c cs =>
      rw [absolute_cons_eq, List.cons_append, List.prefix_cons_inj]
      have hc := (hns c (by simp)).1
      constructor
      · intro h
        refine ⟨c, cs, rfl, ?_⟩
        by_cases hlen : 2 ≤ c.length
        · exact List.prefix_of_prefix_length_le h (List.prefix_append c _) (by simpa using hlen)
        -- a shorter first name would be empty or `.`
        · exfalso
          cases c with
          | nil => exact hc.ne_nil rfl
          | cons d ds =>
              have hds : ds = [] := by
                rw [List.length_cons] at hlen
                exact List.length_eq_zero_iff.mp (by omega)
              subst hds
              obtain ⟨r, hr⟩ := h
              have hd : '.' = d := (List.cons.inj hr).1
              exact hc.ne_dot (by rw [hd])
      · rintro ⟨d, ds, heq, h⟩
        rw [List.cons.injEq] at heq
        rw [heq.1]
        exact h.trans (List.prefix_append d _)

/-- The cut leaves `..`: the start directory fills the buffer but for one character, it is not the
root, and the first name asked for begins with two dots. -/
def CutToDotdot (startDirectory szWorkingDir : Text) (pszAskedPath : Option Text) : Prop :=
  startDirectory.length + 1 = MAX_PATH ∧ below '/' '.' (slashes startDirectory) ≠ [] ∧
    ∃ c cs, askedNames szWorkingDir pszAskedPath = c :: cs ∧ ['.', '.'] <+: c

/-- **The jail, in terms of what was asked.** -/
theorem inside_iff_not_cut {start wd p v : Text} {arg : Option Text}
    (hstart : start.head? = some '/') (hlen : start.length ≤ MAX_PATH) (hwd : Canonical wd)
    (h : buildPathVirtual start wd arg = some (p, v)) :
    WorkingDir p ∧ (Inside start p ↔ ¬ CutToDotdot start wd arg) := by
  obtain ⟨hp, hinside⟩ := inside_buildPath_iff hstart hlen hwd h
  refine ⟨hp, ?_⟩
  have hv := buildVirtualPath_names hwd (buildVirtualPath_of_build h)
  have hroot : simplifyPath start ≠ ['/'] ↔ below '/' '.' (slashes start) ≠ [] := by
    cases start with
    | nil => simp at hstart
    | cons c w =>
        rw [List.head?_cons, Option.some.injEq] at hstart
        subst hstart
        rw [simplifyPath_of_slash rfl]
        exact not_congr (absolute_eq_root_iff (isEntry_of_mem_below _))
  have hdots : ['/', '.', '.'] <+: v ↔
      ∃ c cs, askedNames wd arg = c :: cs ∧ ['.', '.'] <+: c := by
    rw [hv]
    exact dotdot_absolute_iff (isEntry_of_mem_below _)
  rw [hinside, hroot, hdots, CutToDotdot]
  constructor
  · rintro hno ⟨h₁, h₂, h₃⟩
    exact hno ⟨h₁, h₃, h₂⟩
  · rintro hno ⟨h₁, h₂, h₃⟩
    exact hno ⟨h₁, h₃, h₂⟩

/-! ### The session -/

/-- What `BuildPath` returns for a user whose start directory is absolute and fits. -/
def Built (w : World) (u : UserEntry) (pszAskedPath : Option Text) (p : Text) : Prop :=
  w.client.pUser = some u ∧ u.szStartDirectory.head? = some '/' ∧
    u.szStartDirectory.length ≤ MAX_PATH ∧ w.client.buildPath pszAskedPath = some p

/-- **The jail of a session.**  At every moment the working directory is canonical, every path that
`BuildPath` can return is canonical, and it lies inside the start directory unless the cut leaves
`..` of the first name asked for. -/
theorem session_jail {ok : World → Option Cmd → Option Text → Prop} {hist : List Received}
    (hrun : SessionRun cfg ok hist w) :
    WorkingDir w.client.szWorkingDir ∧ ∀ u arg p, Built w u arg p → WorkingDir p ∧
      (Inside u.szStartDirectory p ↔
        ¬ CutToDotdot u.szStartDirectory w.client.szWorkingDir arg) := by
  have hwd := hrun.workingDir
  refine ⟨hwd, ?_⟩
  rintro u arg p ⟨hu, hstart, hlen, hbuild⟩
  unfold Client.buildPath Client.buildPathVirtual at hbuild
  rw [hu, Option.map_eq_some_iff] at hbuild
  obtain ⟨⟨p', v⟩, hpv, rfl⟩ := hbuild
  exact inside_iff_not_cut hstart hlen hwd.canonical hpv

/-! ### A guest with a start directory -/

/-- The record of an account without a password. -/
def guestRecord (start_directory : Text) : UserHash :=
  { adminRecord with password := [], start_directory }

/-- A database with one guest. -/
def guestDb (start_directory : Text) : Redis :=
  { initRedis 0 with username := fun _ => some (guestRecord start_directory) }

/-- The guest, with the root as start directory. -/
def guestUser : UserEntry := ((guestRecord ['/']).toEntry "guest".toList '?').counted

/-- The session of the guest after `USER guest`. -/
def guestWorld (db : Redis) : World where
  db := db
  client := { pUser := some guestUser, bIsLogged := true }
  replies := [.line 230 "User Logged In."]
  clock := 1

theorem guest_buildPath {c : Client} {p : Text} (hu : c.pUser = some guestUser) (hp : Canonical p)
    (hlen : p.length ≤ MAX_PATH) : c.buildPath (some p) = some p := by
  unfold Client.buildPath Client.buildPathVirtual
  rw [hu]
  exact buildPath_root hp hlen _

/-- After `USER guest` the session is that of the guest. -/
theorem sessionRun_guest (ok : World → Option Cmd → Option Text → Prop) (cfg : Config)
    (start : Text) (hlen : start.length ≤ MAX_PATH) (hok : ∀ w nCmd arg, ok w nCmd arg) :
    ∃ hist w u, SessionRun cfg ok hist w ∧ w.client.pUser = some u ∧
      u.szStartDirectory = start ∧ w.client.szWorkingDir = ['/'] := by
  obtain ⟨w₀, hw₀⟩ : ∃ w₀ : World, w₀ = ⟨guestDb start, {}, [], 0⟩ := ⟨_, rfl⟩
  have hconnect : SessionRun cfg ok [] w₀ := by
    rw [hw₀]
    exact .connect rfl rfl
  have hconn : Env.calm w₀.clock .redisConnect = true := rfl
  have hrec : w₀.db.username "guest".toList = some (guestRecord start) := by rw [hw₀]; rfl
  have hfits : (guestRecord start).Fits "guest".toList := ⟨by decide, Nat.zero_le _, hlen⟩
  obtain ⟨w, hrun, -, -, hlogin⟩ := run_user (c := '?') cfg hconn hrec hfits rfl
  have hline : parseLine "USER guest".toList = (some .user, some "guest".toList) := by decide
  have hturn := hconnect.turn .calm "USER guest".toList (hok _ _ _) (by rw [hline]; exact hrun)
  have hopens : ((guestRecord start).toEntry "guest".toList '?').opens = true := rfl
  rw [chosenUser_some, hopens, if_pos rfl] at hlogin
  refine ⟨_, w, _, hturn, congrArg LoginState.pUser hlogin, rfl, ?_⟩
  rw [hlogin, hw₀]
  rfl

/-- A guest whose start directory is the root asks for `/pub`. -/
theorem session_jail_pub : ∃ w u, Built w u (some "/pub".toList) "/pub".toList ∧
    WorkingDir w.client.szWorkingDir ∧ Inside u.szStartDirectory "/pub".toList := by
  obtain ⟨hist, w, u, hrun, hu, hstart, hwd⟩ := sessionRun_guest (fun _ _ _ => True) {} ['/']
    (by decide) (fun _ _ _ => trivial)
  have hbuilt : Built w u (some "/pub".toList) "/pub".toList := by
    refine ⟨hu, by rw [hstart]; rfl, by rw [hstart]; decide, ?_⟩
    have hpath := buildPath_root (p := "/pub".toList) ⟨["pub".toList], by decide, rfl⟩
      (by decide) w.client.szWorkingDir
    unfold Client.buildPath Client.buildPathVirtual
    rw [hu]
    show ClusterFtpd.buildPath u.szStartDirectory w.client.szWorkingDir _ = _
    rw [hstart]
    exact hpath
  obtain ⟨hdir, hjail⟩ := session_jail hrun
  refine ⟨w, u, hbuilt, hdir, (hjail u _ _ hbuilt).2.mpr ?_⟩
  rintro ⟨hcut, -⟩
  rw [hstart] at hcut
  exact absurd hcut (by decide)

/-- The longest name that a start directory of one name can have before the cut bites. -/
def longName : Text := List.replicate (MAX_PATH - 2) 'a'

theorem entries_longName : ∀ c ∈ [longName], IsEntry c := by
  intro c hc
  rw [List.mem_singleton] at hc
  subst hc
  have hlen : longName.length = MAX_PATH - 2 := List.length_replicate
  have hmem : ∀ c ∈ longName, c = 'a' := fun c hc => List.eq_of_mem_replicate hc
  refine ⟨⟨?_, ?_, ?_, ?_⟩, ?_⟩
  · intro h
    rw [h] at hlen
    exact absurd hlen (by decide)
  · intro h
    rw [h] at hlen
    exact absurd hlen (by decide)
  · intro h
    rw [h] at hlen
    exact absurd hlen (by decide)
  · intro h
    exact absurd (hmem _ h) (by decide)
  · intro h
    exact absurd (hmem _ h) (by decide)

theorem absolute_longName : '/' :: longName = absolute '/' [longName] := by
  rw [absolute_cons_eq, render_nil, List.append_nil]

theorem length_slash_longName : ('/' :: longName).length = MAX_PATH - 1 := by
  rw [List.length_cons, longName, List.length_replicate]
  rfl

/-- The start directory is its one name. -/
theorem below_longName : below '/' '.' (slashes ('/' :: longName)) = [longName] := by
  rw [absolute_longName, slashes_of_notMem (absolute_notMem entries_longName),
    below_absolute entries_longName]

/-- A start directory of `MAX_PATH - 1` characters, and a name that begins with two dots: `BuildPath`
returns the root. -/
theorem buildPathVirtual_longName (wd : Text) :
    buildPathVirtual ('/' :: longName) wd (some "/..x".toList) = some (['/'], "/..x".toList) := by
  have hcanon : Canonical ('/' :: "..x".toList) := ⟨["..x".toList], by decide, rfl⟩
  have hvirtual : buildVirtualPath wd (some "/..x".toList) = some "/..x".toList := by
    have hsimp : simplifyPath "/..x".toList = "/..x".toList := by
      have hslash : "/..x".toList = '/' :: "..x".toList := by decide
      rw [simplifyPath_of_slash hslash]
      decide
    show (if (simplifyPath "/..x".toList).length ≤ MAX_PATH then
      some (simplifyPath "/..x".toList) else none) = _
    rw [hsimp]
    rfl
  have hcut : "..x".toList.take (MAX_PATH + 1 - (MAX_PATH - 1)) = ['.', '.'] := rfl
  have hnames := buildPath_names ⟨longName, rfl⟩ (by rw [length_slash_longName]; decide) hcanon
  rw [below_longName, length_slash_longName, hcut, pieces_of_notMem '/' (by decide), resolve_cons,
    resolve_nil, resolveStep_dotdot] at hnames
  have hbuffer : simplifyPath (printPath ('/' :: longName) "/..x".toList) = ['/'] := hnames
  simp only [buildPathVirtual, hvirtual, hbuffer]
  rfl

/-- **A session leaves its start directory**: a guest whose start directory has `MAX_PATH - 1`
characters asks for `/..x` and is given the root. -/
theorem session_leaves_jail : ¬ ∀ cfg hist w, SessionRun cfg (fun _ _ _ => True) hist w →
    ∀ u arg p, Built w u arg p → Inside u.szStartDirectory p := by
  intro hall
  have hlen : ('/' :: longName).length ≤ MAX_PATH := by
    rw [length_slash_longName]
    decide
  obtain ⟨hist, w, u, hrun, hu, hstart, hwd⟩ := sessionRun_guest (fun _ _ _ => True) {}
    ('/' :: longName) hlen (fun _ _ _ => trivial)
  have hbuilt : Built w u (some "/..x".toList) ['/'] := by
    refine ⟨hu, by rw [hstart]; rfl, by rw [hstart]; exact hlen, ?_⟩
    unfold Client.buildPath Client.buildPathVirtual
    rw [hu]
    show (ClusterFtpd.buildPathVirtual u.szStartDirectory w.client.szWorkingDir _).map _ = _
    rw [hstart, buildPathVirtual_longName]
    rfl
  have hinside := hall _ _ _ hrun u _ _ hbuilt
  have hnil : ∀ c ∈ ([] : List Text), IsEntry c := by simp
  have hroot : (['/'] : Text) = absolute '/' [] := rfl
  rw [hstart, hroot, inside_iff_names rfl hnil, below_longName] at hinside
  exact absurd hinside.length_le (by decide)

end ClusterFtpd
