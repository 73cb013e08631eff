import ClusterFtpd.Effects
import ClusterFtpd.Sessions

/-!
# What `RNTO` renames

`szRenameFromPath` is a buffer: `RNFR` writes it, `RNTO` and `LogOut` empty it.  `RNTO` tests the
address of the buffer where it means its content, so it calls `rename` in any case, and with an
empty buffer it looks up an empty path.

Main results:

* `CommandRun.selected`: after a successful `RNFR` the buffer holds its path until the next `USER`
  or `RNTO`;
* `rntoRight_iff`: a `RNTO` does what it should exactly when there is such an `RNFR`.
-/

namespace ClusterFtpd

open Interaction MachineInt

/-- A live session.  Between two lines the database changes, and the transfer threads change the
client entry; neither touches the login or the path of `RNFR`. -/
inductive CommandRun (cfg : Config) : List Received → World → Prop where
  | connect {w : World} : w.client.toLoginState = {} → w.client.toCommandState = {} →
      CommandRun cfg [] w
  | turn {hist w w'} (env : Env) (line : Text) : CommandRun cfg hist w →
      run (serveShell env) (dispatch cfg (parseLine line).1 (parseLine line).2) w =
        .done .continue w' →
      CommandRun cfg (hist ++ [⟨line, w⟩]) w'
  | others {hist w w'} : CommandRun cfg hist w →
      w'.client.toLoginState = w.client.toLoginState →
      w'.client.szRenameFromPath = w.client.szRenameFromPath → CommandRun cfg hist w'

/-! ### The last `RNFR` -/

/-- The code of the last reply to a line; the commands it is used for do not ask the system. -/
def Received.answer (cfg : Config) (r : Received) : Option ℕ :=
  (run (serveShell .calm) (dispatch cfg r.cmd r.arg) r.before).state.replies.getLast?.bind Reply.code

/-- The path that a successful `RNFR` names. -/
def Received.selects (cfg : Config) (r : Received) : Option Text :=
  if r.cmd = some .rnfr ∧ r.answer cfg = some 350 then
    r.arg.bind fun arg => r.before.client.buildPath (some arg)
  else none

/-- The line ends what a `RNFR` has selected. -/
def Received.forgets (r : Received) : Prop := r.cmd = some .user ∨ r.cmd = some .rnto

/-- The last successful `RNFR` of the history since the last login and the last `RNTO`, its path,
and the lines after it. -/
def LastSelected (cfg : Config) (hist : List Received) (r : Received) (path : Text)
    (later : List Received) : Prop :=
  (∃ earlier, hist = earlier ++ r :: later) ∧ r.selects cfg = some path ∧
    ∀ t ∈ later, ¬ t.forgets ∧ t.selects cfg = none

variable {cfg : Config} {w w' : World} {hist later : List Received} {r r' : Received} {path : Text}

/-- The last selection of a longer history is the last line, or that of the shorter one. -/
theorem lastSelected_append (h : LastSelected cfg (hist ++ [r]) r' path later) :
    (r' = r ∧ r.selects cfg = some path) ∨
      (¬ r.forgets ∧ r.selects cfg = none ∧ ∃ later', LastSelected cfg hist r' path later') := by
  obtain ⟨⟨earlier, heq⟩, hsel, hlater⟩ := h
  rcases List.eq_nil_or_concat later with rfl | ⟨later', t, rfl⟩
  · left
    have hlast : hist ++ [r] = earlier ++ [r'] := heq
    have hr := (List.append_inj' hlast rfl).2
    rw [List.cons.injEq] at hr
    rw [hr.1]
    exact ⟨rfl, hsel⟩
  · right
    have hlast : hist ++ [r] = (earlier ++ r' :: later') ++ [t] := by
      rw [heq, List.concat_eq_append, List.append_assoc, List.cons_append]
    obtain ⟨hhist, hr⟩ := List.append_inj' hlast rfl
    rw [List.cons.injEq] at hr
    obtain ⟨rfl, -⟩ := hr
    obtain ⟨hforget, hnone⟩ := hlater r (by simp)
    refine ⟨hforget, hnone, later', ⟨earlier, hhist⟩, hsel, ?_⟩
    intro t ht
    exact hlater t (by simp [ht])

/-! ### The turns of `RNFR` and `RNTO` -/

/-- `RNFR` asks the database and nothing else. -/
theorem run_rnfr (hlogged : w.client.bIsLogged = true) (env : Env) (arg : Text) :
    run (serveShell env) (dispatch cfg (some .rnfr) (some arg)) w =
      if w.client.checkPrivileges DELETEFILE then
        ((run serveRedis (cmdRnfr (w.client.buildPath (some arg)) w.client.szRenameFromPath)
          w.db).mapState fun db => { w with db := db }).andThen fun a w => .done .continue
            { w with
              client := { w.client with szRenameFromPath := a.2 }
              replies := w.replies ++ [a.1] }
      else .done .continue { w with replies := w.replies ++ [.line 550 "Permission denied."] } := by
  rw [dispatch_logged (by simp) (by simp) (by simp) (by simp) (by simp) hlogged]
  show (run (serveCommand env) (withPrivilege DELETEFILE (shellRnfr arg)) w).andThen _ = _
  unfold withPrivilege
  rw [run_client_bind]
  by_cases hpriv : w.client.checkPrivileges DELETEFILE = true
  · rw [if_pos hpriv, if_pos hpriv]
    unfold shellRnfr
    rw [run_client_bind, run_bind, run_redis]
    cases run serveRedis (cmdRnfr (w.client.buildPath (some arg)) w.client.szRenameFromPath) w.db <;>
      rfl
  · rw [if_neg hpriv, if_neg hpriv]
    rfl

theorem stat_empty : stat [] = .stop .undefinedBehaviour := rfl

/-- `RNFR` selects a path that is not empty, or nothing. -/
theorem cmdRnfr_ends {pszPath : Option Text} {szFrom szFrom' : Text} {reply : Reply}
    {db db' : Redis} (hrun : run serveRedis (cmdRnfr pszPath szFrom) db = .done (reply, szFrom') db') :
    (reply.code = some 350 ∧ pszPath = some szFrom' ∧ szFrom' ≠ []) ∨
      (reply.code ≠ some 350 ∧ szFrom' = szFrom) := by
  cases pszPath with
  | none =>
      simp only [cmdRnfr, run_ret, Outcome.done.injEq, Prod.mk.injEq] at hrun
      obtain ⟨⟨rfl, rfl⟩, -⟩ := hrun
      exact .inr ⟨by decide, rfl⟩
  | some path =>
      obtain ⟨st, db₁, hstat, hrest⟩ := (run_bind_done _).mp hrun
      have hne : path ≠ [] := by
        intro hempty
        rw [hempty, stat_empty, run_stop] at hstat
        exact absurd hstat (by simp)
      by_cases hst : st.isSome = true
      · rw [if_pos hst] at hrest
        simp only [Prog.pure_eq, run_ret, Outcome.done.injEq, Prod.mk.injEq] at hrest
        obtain ⟨⟨rfl, rfl⟩, -⟩ := hrest
        exact .inl ⟨rfl, rfl, hne⟩
      · rw [if_neg hst] at hrest
        simp only [Prog.pure_eq, run_ret, Outcome.done.injEq, Prod.mk.injEq] at hrest
        obtain ⟨⟨rfl, rfl⟩, -⟩ := hrest
        exact .inr ⟨by decide, rfl⟩

/-- A successful `RNFR` leaves its path in the buffer, under the privilege it needs. -/
theorem selects_turn {env : Env} {line : Text} {next : Next}
    (hrun : run (serveShell env) (dispatch cfg (parseLine line).1 (parseLine line).2) w =
      .done next w') (hsel : Received.selects cfg ⟨line, w⟩ = some path) :
    w'.client.szRenameFromPath = path ∧ path ≠ [] ∧
      w.client.checkPrivileges DELETEFILE = true := by
  rw [Received.selects] at hsel
  split_ifs at hsel with hrnfr
  obtain ⟨hcmd, hanswer⟩ := hrnfr
  obtain ⟨arg, harg, hpath⟩ := Option.bind_eq_some_iff.mp hsel
  have hcmd' : (parseLine line).1 = some .rnfr := hcmd
  have harg' : (parseLine line).2 = some arg := harg
  rw [Received.answer, hcmd, harg] at hanswer
  rw [hcmd', harg'] at hrun
  cases hlogged : w.client.bIsLogged with
  | false =>
      rw [dispatch_gate (by simp) (by simp) (by simp), run_command_client_bind] at hanswer
      simp [hlogged, run_command_bind, Reply.code] at hanswer
  | true =>
      rw [run_rnfr hlogged] at hanswer hrun
      by_cases hpriv : w.client.checkPrivileges DELETEFILE = true
      · rw [if_pos hpriv] at hanswer hrun
        cases hr : run serveRedis (cmdRnfr (w.client.buildPath (some arg))
            w.client.szRenameFromPath) w.db with
        | stopped why db => rw [hr] at hrun; exact absurd hrun (by simp)
        | done a db =>
            obtain ⟨reply, szFrom'⟩ := a
            rw [hr] at hanswer hrun
            simp only [Outcome.mapState_done, Outcome.done_andThen, Outcome.done.injEq] at hrun
            obtain ⟨-, rfl⟩ := hrun
            have hcode : reply.code = some 350 := by simpa using hanswer
            obtain ⟨-, hbuild, hne⟩ | ⟨hcode', -⟩ := cmdRnfr_ends hr
            · rw [hbuild, Option.some.injEq] at hpath
              rw [← hpath]
              exact ⟨rfl, hne, hpriv⟩
            · exact absurd hcode hcode'
      · rw [if_neg hpriv] at hanswer
        simp [Reply.code] at hanswer

/-- A `RNFR` that selects nothing leaves the buffer alone. -/
theorem rnfr_turn {env : Env} {line : Text} {next : Next}
    (hrun : run (serveShell env) (dispatch cfg (parseLine line).1 (parseLine line).2) w =
      .done next w') (hcmd : (parseLine line).1 = some .rnfr)
    (hnone : Received.selects cfg ⟨line, w⟩ = none) :
    w'.client.szRenameFromPath = w.client.szRenameFromPath := by
  have hcmd' : Received.cmd ⟨line, w⟩ = some .rnfr := hcmd
  rw [hcmd] at hrun
  cases hlogged : w.client.bIsLogged with
  | false => rw [(turn_gated (by simp) (by simp) (by simp) hlogged hrun).1]
  | true =>
      cases harg : (parseLine line).2 with
      | none =>
          rw [harg, dispatch_logged (by simp) (by simp) (by simp) (by simp) (by simp) hlogged] at hrun
          have hwithin : Every (Within []) (shellCmd cfg .rnfr none) :=
            within_withPrivilege _ (within_sendReply _)
          have hsame : Part.rename.Same _ _ := run_same hwithin (by simp) env w
          cases hr : run (serveCommand env) (shellCmd cfg .rnfr none) w with
          | stopped why w₁ => rw [hr] at hrun; exact absurd hrun (by simp)
          | done u w₁ =>
              rw [hr] at hrun hsame
              simp only [Outcome.done_andThen, Outcome.done.injEq] at hrun
              obtain ⟨-, rfl⟩ := hrun
              exact hsame
      | some arg =>
          have harg' : Received.arg ⟨line, w⟩ = some arg := harg
          rw [harg, run_rnfr hlogged] at hrun
          by_cases hpriv : w.client.checkPrivileges DELETEFILE = true
          · rw [if_pos hpriv] at hrun
            cases hr : run serveRedis (cmdRnfr (w.client.buildPath (some arg))
                w.client.szRenameFromPath) w.db with
            | stopped why db => rw [hr] at hrun; exact absurd hrun (by simp)
            | done a db =>
                obtain ⟨reply, szFrom'⟩ := a
                rw [hr] at hrun
                simp only [Outcome.mapState_done, Outcome.done_andThen, Outcome.done.injEq] at hrun
                obtain ⟨-, rfl⟩ := hrun
                obtain ⟨hcode, hbuild, -⟩ | ⟨-, hsame⟩ := cmdRnfr_ends hr
                · have hanswer : Received.answer cfg ⟨line, w⟩ = some 350 := by
                    rw [Received.answer, hcmd', harg', run_rnfr hlogged, if_pos hpriv, hr]
                    simpa using hcode
                  rw [Received.selects, if_pos ⟨hcmd', hanswer⟩, harg', Option.bind_some,
                    hbuild] at hnone
                  exact absurd hnone (by simp)
                · exact hsame
          · rw [if_neg hpriv, Outcome.done.injEq] at hrun
            obtain ⟨-, rfl⟩ := hrun
            rfl

/-- A line that neither selects a path nor forgets one leaves the buffer alone. -/
theorem keeps_turn {env : Env} {line : Text} {next : Next}
    (hrun : run (serveShell env) (dispatch cfg (parseLine line).1 (parseLine line).2) w =
      .done next w') (hforget : ¬ Received.forgets ⟨line, w⟩)
    (hnone : Received.selects cfg ⟨line, w⟩ = none) :
    w'.client.szRenameFromPath = w.client.szRenameFromPath := by
  by_cases hcmd : (parseLine line).1 = some .rnfr
  · exact rnfr_turn hrun hcmd hnone
  · have hparts : Part.rename ∉ partsOf (parseLine line).1 := by
      have huser : (parseLine line).1 ≠ some .user := fun h => hforget (.inl h)
      have hrnto : (parseLine line).1 ≠ some .rnto := fun h => hforget (.inr h)
      generalize (parseLine line).1 = nCmd at hcmd huser hrnto
      cases nCmd with
      | none => decide
      | some nCmd => cases nCmd <;> first | decide | contradiction
    have hsame := run_shell_same (dispatch_within cfg (parseLine line).1 (parseLine line).2) hparts
      env w
    rw [hrun] at hsame
    exact hsame

/-- **The buffer** holds the path of the last successful `RNFR` since the last login and the last
`RNTO`. -/
theorem CommandRun.selected (hrun : CommandRun cfg hist w)
    (hlast : LastSelected cfg hist r path later) :
    w.client.szRenameFromPath = path ∧ path ≠ [] ∧
      r.before.client.checkPrivileges DELETEFILE = true := by
  induction hrun generalizing later with
  | connect =>
      obtain ⟨⟨earlier, heq⟩, -⟩ := hlast
      exact absurd heq (by simp)
  | turn env line _ hturn ih =>
      obtain ⟨rfl, hsel⟩ | ⟨hforget, hnone, later', hlast'⟩ := lastSelected_append hlast
      · exact selects_turn hturn hsel
      · obtain ⟨hpath, hne, hpriv⟩ := ih hlast'
        exact ⟨(keeps_turn hturn hforget hnone).trans hpath, hne, hpriv⟩
  | others _ _ hsame ih =>
      obtain ⟨hpath, hne, hpriv⟩ := ih hlast
      exact ⟨hsame.trans hpath, hne, hpriv⟩

/-! ### `RNTO` -/

/-- `RNTO` when it may rename `path`: the call of `rename`, its answer, and the buffer emptied. -/
def renameFrom (path arg : Text) : CommandProg Unit := do
  let c ← client
  let reply ← redis (cmdRnto (c.buildPath (some arg)) path)
  sendReply reply
  modify fun c => { c with szRenameFromPath := [] }

/-- What a `RNTO` with an argument should do: rename what the last `RNFR` selected, under a login
with the privilege, or refuse without asking the database. -/
structure RntoRight (cfg : Config) (env : Env) (hist : List Received) (w : World) (arg : Text) :
    Prop where
  selected : ∀ r path later, LastSelected cfg hist r path later →
    path ≠ [] ∧ r.before.client.checkPrivileges DELETEFILE = true ∧
      run (serveShell env) (dispatch cfg (some .rnto) (some arg)) w =
        (run (serveCommand env) (renameFrom path arg) w).andThen fun _ w => .done .continue w
  refused : (¬ ∃ r path later, LastSelected cfg hist r path later) →
    run (serveShell env) (dispatch cfg (some .rnto) (some arg)) w = .done .continue
      { w with replies := w.replies ++ [.line 503 "Bad sequence of commands"] }

theorem run_rnto (hlogged : w.client.bIsLogged = true) (env : Env) (arg : Text) :
    run (serveShell env) (dispatch cfg (some .rnto) (some arg)) w =
      (run (serveCommand env) (renameFrom w.client.szRenameFromPath arg) w).andThen fun _ w =>
        .done .continue w :=
  dispatch_logged (by simp) (by simp) (by simp) (by simp) (by simp) hlogged env (some arg)

/-- The answer of `RNTO` is 250 or 550. -/
theorem cmdRnto_code {pszPath : Option Text} {szFrom : Text} {reply : Reply} {db db' : Redis}
    (hrun : run serveRedis (cmdRnto pszPath szFrom) db = .done reply db') :
    reply.code = some 250 ∨ reply.code = some 550 := by
  cases pszPath with
  | none =>
      simp only [cmdRnto, run_ret, Outcome.done.injEq] at hrun
      rw [← hrun.1]
      exact .inr rfl
  | some path =>
      obtain ⟨x, db₁, -, hrest⟩ := (run_bind_done _).mp hrun
      by_cases hx : x = 0
      · rw [if_pos hx] at hrest
        simp only [Prog.pure_eq, run_ret, Outcome.done.injEq] at hrest
        rw [← hrest.1]
        exact .inl rfl
      · rw [if_neg hx] at hrest
        simp only [Prog.pure_eq, run_ret, Outcome.done.injEq] at hrest
        rw [← hrest.1]
        exact .inr rfl

/-- `RNTO` never answers 503. -/
theorem rnto_never_refuses (hlogged : w.client.bIsLogged = true) (env : Env) (arg : Text) :
    run (serveShell env) (dispatch cfg (some .rnto) (some arg)) w ≠ .done .continue
      { w with replies := w.replies ++ [.line 503 "Bad sequence of commands"] } := by
  intro hrun
  rw [run_rnto hlogged] at hrun
  unfold renameFrom at hrun
  rw [run_client_bind, run_bind, run_redis] at hrun
  cases hr : run serveRedis (cmdRnto (w.client.buildPath (some arg)) w.client.szRenameFromPath)
      w.db with
  | stopped why db => rw [hr] at hrun; exact absurd hrun (by simp)
  | done reply db =>
      rw [hr] at hrun
      have hreplies := congrArg (fun o => o.state.replies) hrun
      have hlast : w.replies ++ [reply] = w.replies ++ [.line 503 "Bad sequence of commands"] :=
        hreplies
      rw [List.append_cancel_left_eq, List.cons.injEq] at hlast
      obtain hcode | hcode := cmdRnto_code hr
      · rw [hlast.1] at hcode
        exact absurd hcode (by decide)
      · rw [hlast.1] at hcode
        exact absurd hcode (by decide)

/-- **`RNTO` does what it should** exactly when a `RNFR` has succeeded since the last login and the
last `RNTO`. -/
theorem rntoRight_iff (hrun : CommandRun cfg hist w) (hlogged : w.client.bIsLogged = true)
    (env : Env) (arg : Text) : RntoRight cfg env hist w arg ↔
      ∃ r path later, LastSelected cfg hist r path later := by
  constructor
  · intro hright
    by_contra hno
    exact rnto_never_refuses hlogged env arg (hright.refused hno)
  · intro hsel
    refine ⟨?_, fun hno => absurd hsel hno⟩
    intro r path later hlast
    obtain ⟨hpath, hne, hpriv⟩ := hrun.selected hlast
    refine ⟨hne, hpriv, ?_⟩
    rw [run_rnto hlogged, hpath]

/-- The administrator logs in and sends no `RNFR`. -/
theorem commandRun_login : ∃ hist w, CommandRun {} hist w ∧ w.client.bIsLogged = true ∧
    ∀ r ∈ hist, r.selects {} = none := by
  have hconnect : CommandRun {} [] ⟨initRedis 0, {}, [], 0⟩ := .connect rfl rfl
  obtain ⟨w₁, hrun₁, -, -, hpasses⟩ :=
    run_user_admin (w := ⟨initRedis 0, {}, [], 0⟩) {} rfl
  have hpasses₁ : w₁.client.passes (some "admin".toList) = true := by simp [hpasses]
  obtain ⟨w₂, hrun₂, -, hclient⟩ := run_pass .calm {} hpasses₁
  have huser : parseLine "USER admin".toList = (some .user, some "admin".toList) := by decide
  have hpass : parseLine "PASS admin".toList = (some .pass, some "admin".toList) := by decide
  have hturn₁ := hconnect.turn .calm "USER admin".toList (by rw [huser]; exact hrun₁)
  have hturn₂ := hturn₁.turn .calm "PASS admin".toList (by rw [hpass]; exact hrun₂)
  refine ⟨_, w₂, hturn₂, by rw [hclient]; rfl, ?_⟩
  intro r hr
  have hcmd : r.cmd ≠ some .rnfr := by
    rw [List.nil_append, List.cons_append, List.nil_append, List.mem_cons,
      List.mem_singleton] at hr
    obtain rfl | rfl := hr
    · rw [Received.cmd, huser]
      decide
    · rw [Received.cmd, hpass]
      decide
  rw [Received.selects, if_neg fun h => hcmd h.1]

/-- The two sides agree in the administrator's session. -/
theorem rntoRight_iff_login : ∃ hist w, RntoRight {} .calm hist w "b".toList ↔
    ∃ r path later, LastSelected {} hist r path later := by
  obtain ⟨hist, w, hrun, hlogged, -⟩ := commandRun_login
  exact ⟨hist, w, rntoRight_iff hrun hlogged .calm "b".toList⟩

/-- **`RNTO` without `RNFR`** is not refused. -/
theorem rnto_without_rnfr : ¬ ∀ cfg hist w env arg, CommandRun cfg hist w →
    w.client.bIsLogged = true → RntoRight cfg env hist w arg := by
  intro hall
  obtain ⟨hist, w, hrun, hlogged, hnone⟩ := commandRun_login
  refine rnto_never_refuses hlogged .calm "b".toList
    ((hall {} hist w .calm "b".toList hrun hlogged).refused ?_)
  rintro ⟨r, path, later, ⟨earlier, heq⟩, hsel, -⟩
  rw [hnone r (by simp [heq])] at hsel
  exact absurd hsel (by simp)

end ClusterFtpd
