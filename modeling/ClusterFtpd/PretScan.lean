import ClusterFtpd.Calls
import ClusterFtpd.Lib.CString
import ClusterFtpd.VfsRuns
import Mathlib.Data.List.TakeWhile

/-!
# How `PRET` reads its argument

`RETR` takes the rest of its line for the name of a file.  `PRET RETR` reads two words with
`sscanf("%s %s")` into `char cmd[4]` and `char file[MAX_PATH + 1]`, which `scanBuffers` does over
bounded buffers.

`pret_alike_iff`: no line that names a file for `RETR` or `APPE`, with whatever white space, stays
inside `cmd`, and a missing file name is an error only where there is no argument at all.
`pret_fid`: apart from the byte behind `cmd`, the fid that is recorded is the one `RETR a` finds,
for a name without white space.
-/

namespace ClusterFtpd

open Interaction MachineInt

/-- `sscanf(pszCmdArg, "%s %s", cmd, file)`: the number of words read, with the two buffers, and
`none` for a word that is written past the end of its buffer. -/
def scanBuffers (cmd file : List Char) (pszCmdArg : Text) :
    Option (ℕ × List Char × List Char) :=
  let first := scanWord pszCmdArg
  if first.1 = [] then some (0, cmd, file)
  else
    (CString.copy cmd 0 (first.1 ++ ['\x00'])).bind fun cmd =>
      let second := scanWord first.2
      if second.1 = [] then some (1, cmd, file)
      else
        (CString.copy file 0 (second.1 ++ ['\x00'])).map fun file => (2, cmd, file)

/-- `PRET`, as the shell runs it. -/
def pretCommand (pszCmdArg : Option Text) : CommandProg Unit :=
  withArg pszCmdArg "Invalid number of arguments." cmdPret

/-- The line is `PRET RETR a` or `PRET APPE a`, with any white space before the command and between
it and the name, which is the rest of the line. -/
def NamesFile (pszCmdArg : Option Text) (a : Text) : Prop :=
  a ≠ [] ∧ ∃ arg, pszCmdArg = some arg ∧
    ((scanWord arg).1 = "RETR".toList ∨ (scanWord arg).1 = "APPE".toList) ∧
    (scanWord arg).2.dropWhile isspace = a

/-- The line has no second word behind `PRET`. -/
def NamesNoFile (pszCmdArg : Option Text) : Prop :=
  ∀ arg, pszCmdArg = some arg → (scanWord (scanWord arg).2).1 = []

/-- The fid that `RETR a` finds: that of the path, if it is one of a file. -/
def retrFid (a : Text) : CommandProg (Option ℤ) := do
  let c ← client
  match ← statPath (c.buildPath (some a)) with
  | some (path, st) =>
      if S_ISREG st.st_mode then do
        let fid ← redis (lookupFid path)
        return some fid
      else return none
  | none => return none

/-- `PRET` reads its argument as `RETR` does, from memory it has written and inside its arrays, and
asks for a file name. -/
structure PretAlike (pszCmdArg : Option Text) (w : World) : Prop where
  inside : ∀ a arg, NamesFile pszCmdArg a → pszCmdArg = some arg → ∀ cmd file : List Char,
    cmd.length = 4 → file.length = MAX_PATH + 1 →
    ∃ cmd' file', scanBuffers cmd file arg = some (2, cmd', file')
  fid : ∀ a fid env, NamesFile pszCmdArg a →
    (run (serveCommand env) (retrFid a) w).value = some (some fid) →
    ∃ w', run (serveCommand env) (pretCommand pszCmdArg) w = .done () w' ∧
      w'.client.llPRET_fid = fid
  noName : NamesNoFile pszCmdArg → ∀ env, ∃ w' code text,
    run (serveCommand env) (pretCommand pszCmdArg) w = .done () w' ∧
      w'.replies = w.replies ++ [.line code text] ∧ 400 ≤ code

/-! ### Words -/

/-- A name without white space is the next word. -/
theorem scanWord_name {rest a : Text} (hrest : rest.dropWhile isspace = a)
    (hblank : ∀ c ∈ a, isspace c = false) : scanWord rest = (a, []) := by
  have hall : ∀ c ∈ a, (!isspace c) = true := by
    intro c hc
    rw [hblank c hc]
    rfl
  unfold scanWord
  simp only [hrest]
  rw [List.takeWhile_eq_self_iff.2 hall, List.dropWhile_eq_nil_iff.2 hall]

/-- The word of four letters is written with its terminator into four cells. -/
theorem scanBuffers_overflow {cmd file : List Char} {arg : Text} (hcmd : cmd.length = 4)
    (hword : (scanWord arg).1.length = 4) : scanBuffers cmd file arg = none := by
  have hne : ¬ (scanWord arg).1 = [] := by
    intro hnil
    rw [hnil] at hword
    cases hword
  have hcopy : CString.copy cmd 0 ((scanWord arg).1 ++ ['\x00']) = none := by
    rw [CString.copy, if_neg]
    rw [List.length_append, hword, hcmd]
    decide
  unfold scanBuffers
  simp only [if_neg hne, hcopy]
  rfl

/-- No line that names a file stays inside `cmd`. -/
theorem NamesFile.overflows {pszCmdArg : Option Text} {a : Text} {w : World}
    (h : NamesFile pszCmdArg a) : ¬ PretAlike pszCmdArg w := by
  intro halike
  have hnames := h
  obtain ⟨-, arg, harg, hword, -⟩ := hnames
  have hlength : (scanWord arg).1.length = 4 := by
    rcases hword with hword | hword
    · rw [hword]
      rfl
    · rw [hword]
      rfl
  obtain ⟨cmd', file', hbuffers⟩ := halike.inside a _ h harg (List.replicate 4 ' ')
    (List.replicate (MAX_PATH + 1) ' ') List.length_replicate List.length_replicate
  rw [scanBuffers_overflow List.length_replicate hlength] at hbuffers
  cases hbuffers

/-! ### A missing file name -/

variable {env : Env} {w w' : World} {arg : Text}

/-- With an argument but without a file name `PRET` sends no error. -/
theorem pret_noFile {code : ℕ} {text : String} (hfile : (scanWord (scanWord arg).2).1 = [])
    (hrun : run (serveCommand env) (cmdPret arg) w = .done () w')
    (hreply : w'.replies = w.replies ++ [.line code text]) : code = 200 := by
  have h : Does env (cmdPret arg) w () w' (calls env (cmdPret arg) w) := ⟨hrun, rfl⟩
  unfold cmdPret at h
  generalize scanWord arg = word at h hfile
  obtain ⟨cmd, rest⟩ := word
  dsimp only at h hfile
  generalize scanWord rest = word at h hfile
  obtain ⟨file, tail⟩ := word
  dsimp only at hfile
  have h₁ : Does env (if _ then _ else _) w () w' _ := h
  by_cases hbad : cmd = [] ∨ 4 < cmd.length ∨ MAX_PATH < file.length
  · rw [if_pos hbad] at h₁
    exact h₁.of_stop.elim
  · rw [if_neg hbad] at h₁
    have h₂ : Does env (if _ then _ else _) _ () w' _ := h₁.of_modify
    by_cases hnamed : pretCmd cmd = some .retr ∨ pretCmd cmd = some .appe
    · rw [if_pos hnamed, if_pos hfile] at h₂
      exact h₂.of_stop.elim
    · rw [if_neg hnamed] at h₂
      rw [h₂.of_reply.1] at hreply
      have hlast := (List.append_inj' hreply rfl).2
      cases hlast
      rfl

/-- **`PRET` never reads a file name as `RETR` does**: `PretAlike` holds of the lines that name no
file for `RETR` or `APPE` and that have a file name or no argument at all. -/
theorem pret_alike_iff (pszCmdArg : Option Text) (w : World) : PretAlike pszCmdArg w ↔
    (∀ a, ¬ NamesFile pszCmdArg a) ∧ (NamesNoFile pszCmdArg → pszCmdArg = none) := by
  constructor
  · intro h
    refine ⟨fun a hnames => hnames.overflows h, ?_⟩
    intro hno
    cases pszCmdArg with
    | none => rfl
    | some arg =>
        obtain ⟨w', code, text, hrun, hreply, hcode⟩ := h.noName hno Env.calm
        have hok : code = 200 := pret_noFile (hno arg rfl) hrun hreply
        omega
  · intro h
    refine ⟨?_, ?_, ?_⟩
    · intro a arg hnames
      exact absurd hnames (h.1 a)
    · intro a fid env hnames
      exact absurd hnames (h.1 a)
    · intro hno env
      rw [h.2 hno]
      exact ⟨_, 501, "Invalid number of arguments.", rfl, rfl, by decide⟩

example : NamesFile (some " RETR a".toList) ['a'] ∧ NamesFile (some "RETR\ta".toList) ['a'] :=
  ⟨⟨List.cons_ne_nil _ _, _, rfl, .inl (by decide), by decide⟩,
    List.cons_ne_nil _ _, _, rfl, .inl (by decide), by decide⟩

/-- The argument `"RETR a"` is read past the end of `cmd`. -/
theorem pret_retr :
    ¬ PretAlike (some "RETR a".toList) { db := initRedis 0, client := {} } :=
  NamesFile.overflows (a := ['a']) ⟨List.cons_ne_nil _ _, _, rfl, .inl (by decide), by decide⟩

/-- `PRET RETR a` records the fid that `RETR a` finds, if the name has no white space and fits `file`
and the byte behind `cmd` does no harm. -/
theorem pret_fid {a : Text} {pszCmdArg : Option Text} {fid : ℤ} (h : NamesFile pszCmdArg a)
    (hblank : ∀ c ∈ a, isspace c = false) (hlength : a.length ≤ MAX_PATH)
    (hfid : (run (serveCommand env) (retrFid a) w).value = some (some fid)) :
    ∃ w', run (serveCommand env) (pretCommand pszCmdArg) w = .done () w' ∧
      w'.client.llPRET_fid = fid := by
  obtain ⟨hne, arg, harg, hword, hrest⟩ := h
  have hfile : scanWord (scanWord arg).2 = (a, []) := scanWord_name hrest hblank
  have hnamed : pretCmd (scanWord arg).1 = some .retr ∨ pretCmd (scanWord arg).1 = some .appe := by
    rcases hword with hword | hword
    · rw [hword]
      exact .inl rfl
    · rw [hword]
      exact .inr rfl
  have hgood : ¬ ((scanWord arg).1 = [] ∨ 4 < (scanWord arg).1.length ∨ MAX_PATH < a.length) := by
    have hlong : ¬ MAX_PATH < a.length := Nat.not_lt.2 hlength
    rcases hword with hword | hword
    · rw [hword]
      exact fun hbad => hlong (hbad.resolve_left (by decide) |>.resolve_left (by decide))
    · rw [hword]
      exact fun hbad => hlong (hbad.resolve_left (by decide) |>.resolve_left (by decide))
  rw [harg]
  show ∃ w', run (serveCommand env) (cmdPret arg) w = _ ∧ _
  unfold cmdPret
  simp only [hfile, if_neg hgood, if_pos hnamed, if_neg hne]
  rw [run_modify_bind, run_client_bind]
  unfold retrFid at hfid
  rw [run_client_bind] at hfid
  show ∃ w', run _ (statPath (w.client.buildPath (some a)) >>= _) _ = _ ∧ _
  cases hpath : w.client.buildPath (some a) with
  | none =>
      rw [hpath] at hfid
      cases hfid
  | some path =>
      rw [hpath] at hfid
      unfold statPath at hfid ⊢
      dsimp only at hfid ⊢
      rw [bind_bind, run_bind, run_redis] at hfid ⊢
      cases hstat : run serveRedis (stat path) w.db with
      | stopped why db =>
          rw [hstat] at hfid
          cases hfid
      | done st db =>
          rw [hstat] at hfid
          cases st with
          | none => cases hfid
          | some st =>
              show ∃ w', run _ (if S_ISREG st.st_mode then _ else _) _ = _ ∧ _
              have hthen : (run (serveCommand env) (if S_ISREG st.st_mode then
                  redis (lookupFid path) >>= fun fid => pure (some fid) else pure none)
                    { w with db := db }).value = some (some fid) := hfid
              by_cases hreg : S_ISREG st.st_mode
              · rw [if_pos hreg] at hthen ⊢
                rw [run_bind, run_redis] at hthen ⊢
                cases hfound : run serveRedis (lookupFid path) db with
                | stopped why db' =>
                    rw [hfound] at hthen
                    cases hthen
                | done found db' =>
                    rw [hfound] at hthen
                    have heq : found = fid := by
                      cases hthen
                      rfl
                    show ∃ w', run _ (modify _ >>= fun _ => if 0 ≤ found then _ else _) _ = _ ∧ _
                    rw [run_modify_bind]
                    by_cases hpos : 0 ≤ found
                    · rw [if_pos hpos]
                      exact ⟨_, rfl, heq⟩
                    · rw [if_neg hpos]
                      exact ⟨_, rfl, heq⟩
              · rw [if_neg hreg] at hthen
                cases hthen

end ClusterFtpd
