import ClusterFtpd.Uploads

/-!
# What a download does

`RetrieveLine` lists the ends of `RETR` up to the transfer thread, and `RetrieveTurn` those of
`RetrieveThread`: the calls to the slave, and what is replied.
-/

namespace ClusterFtpd

open Interaction MachineInt

variable {cfg : Config} {env : Env} {w w' : World} {cs : List Call} {u : Unit}

/-! ### The line -/

/-- The file that a `RETR` of this argument is for. -/
def World.Fetches (w : World) (arg path : Text) : Prop :=
  ∃ st, w.client.buildPath (some arg) = some path ∧ ask (stat path) w.db = some (some st) ∧
    S_ISREG st.st_mode = true

/-- **What `RETR` does** up to the transfer thread. -/
inductive RetrieveLine (arg : Text) (w w' : World) : List Call → Prop where
  | refused : (∀ path, ¬ w.Fetches arg path) →
      w'.replies = w.replies ++ [.line 550 "File not found."] → RetrieveLine arg w w' []
  | unopened {path : Text} : w.Fetches arg path → w.client.eDataConnection = .pasv →
      w'.replies = w.replies ++ [.line 425 "Can't open data connection."] →
      RetrieveLine arg w w' [w.view.opening .exception]
  | started {path : Text} {os : List Reply} {cs : List Call} : w.Fetches arg path →
      w.view.Relays cs os →
      w'.client = { w.client with
        eStatus := .downloading
        CurrentTransfer :=
          { w.client.CurrentTransfer with szPath := path, TransferThreadID := true } } →
      w'.replies = w.replies ++ os →
      RetrieveLine arg w w' (cs ++ [⟨.pthread_create .retrieve, true⟩])
  | failed {path : Text} {os : List Reply} {cs cs' : List Call} : w.Fetches arg path →
      w.view.Relays cs os → OnlyCancels cs' → w'.replies = w.replies ++ os →
      RetrieveLine arg w w' (cs ++ ⟨.pthread_create .retrieve, false⟩ :: cs')

/-- The path that `stat` is asked for, and what it finds. -/
theorem statPath_does {pszPath : Option Text} {found : Option (Text × Stat)}
    (h : Does env (statPath pszPath) w found w' cs) : w' = w ∧ cs = [] ∧
      ∀ path st, found = some (path, st) ↔
        pszPath = some path ∧ ask (stat path) w.db = some (some st) := by
  cases pszPath with
  | none =>
      obtain ⟨rfl, rfl, rfl⟩ := h.of_ret
      exact ⟨rfl, rfl, by simp⟩
  | some path =>
      obtain ⟨st, w₁, cs₁, cs₂, hstat, hret, rfl⟩ := Does.of_bind h
      obtain ⟨hask, rfl, rfl⟩ := hstat.of_stat
      obtain ⟨rfl, rfl, rfl⟩ := hret.of_ret
      refine ⟨rfl, rfl, ?_⟩
      intro path' st'
      rw [Option.map_eq_some_iff]
      constructor
      · intro hfound
        obtain ⟨st'', rfl, heq⟩ := hfound
        rw [Prod.mk.injEq] at heq
        obtain ⟨rfl, rfl⟩ := heq
        exact ⟨rfl, hask⟩
      · intro hpath
        obtain ⟨hpath, hfound⟩ := hpath
        rw [Option.some.injEq] at hpath
        subst hpath
        rw [hask, Option.some.injEq] at hfound
        exact ⟨st', hfound, rfl⟩

/-- The path of a `RETR` that is no file. -/
theorem not_fetches {arg : Text} {found : Option (Text × Stat)}
    (hfound : ∀ path st, found = some (path, st) ↔
      w.client.buildPath (some arg) = some path ∧ ask (stat path) w.db = some (some st))
    (hno : ∀ path st, found = some (path, st) → S_ISREG st.st_mode ≠ true) (path : Text) :
    ¬ w.Fetches arg path := by
  intro hfetches
  obtain ⟨st, hpath, hask, hreg⟩ := hfetches
  exact hno path st ((hfound path st).mpr ⟨hpath, hask⟩) hreg

theorem retrieveLine_does {arg : Text} (h : Does env (cmdRetr arg) w u w' cs) :
    RetrieveLine arg w w' cs := by
  obtain ⟨found, w₁, cs₁, cs₂, hstat, h₁, rfl⟩ := h.of_client.of_bind
  obtain ⟨rfl, rfl, hfound⟩ := statPath_does hstat
  rw [List.nil_append]
  cases found with
  | none =>
      obtain ⟨rfl, rfl⟩ := h₁.of_reply
      exact .refused (not_fetches hfound fun path st heq => by cases heq) rfl
  | some a =>
      obtain ⟨path, st⟩ := a
      dsimp only at h₁
      by_cases hreg : S_ISREG st.st_mode = true
      · rw [if_pos hreg] at h₁
        obtain ⟨hpath, hask⟩ := (hfound path st).mp rfl
        have hfetches : w₁.Fetches arg path := ⟨st, hpath, hask, hreg⟩
        obtain ⟨opened, w₂, cs₃, cs₄, hopen, h₂, rfl⟩ := h₁.of_bind
        obtain ⟨hclient, -, hends⟩ := openSlaveConnection_relays hopen
        obtain ⟨rfl, os, hrelays, hreplies⟩ | ⟨rfl, hpasv, rfl, hreplies⟩ := hends
        · have h₃ : Does env _ w₂ u w' cs₄ := h₂
          obtain ⟨ok, w₃, cs₅, cs₆, hstart, hret, rfl⟩ := h₃.of_modify.of_bind
          obtain ⟨-, rfl, rfl⟩ := hret.of_ret
          rw [List.append_nil]
          have hsilent := Does.silent (silent_startTransfer .retrieve) hstart
          obtain ⟨-, rfl, -, hclient'⟩ | ⟨-, -, cs', honly, rfl⟩ := startTransfer_does hstart
          · refine .started hfetches hrelays ?_ (hsilent.trans hreplies)
            rw [hclient', hclient]
          · exact .failed hfetches hrelays honly (hsilent.trans hreplies)
        · obtain ⟨-, rfl, rfl⟩ := h₂.of_ret
          exact .unopened hfetches hpasv hreplies
      · rw [if_neg hreg] at h₁
        obtain ⟨rfl, rfl⟩ := h₁.of_reply
        refine .refused (not_fetches hfound fun path' st' heq => ?_) rfl
        rw [Option.some.injEq, Prod.mk.injEq] at heq
        rw [← heq.2]
        exact hreg

/-! ### The thread -/

/-- What the client is told about a download. -/
def retrieveReply : RpcResult Reply → Reply
  | .reply r => r
  | .exception => .line 550 "Can't retrieve File."
  | .noReturn => .empty

/-- **What `RetrieveThread` does**: its calls and its replies. -/
inductive RetrieveTurn (cfg : Config) (w : World) : List Call → List Reply → Prop where
  | unconnected : w.client.eDataConnection = .none → RetrieveTurn cfg w [] [.empty]
  | unheld {fid : ℤ} : w.client.eDataConnection = .port →
      ask (lookupFid w.client.CurrentTransfer.szPath) w.db = some fid →
      ¬ (cfg.Slaves ≠ [] ∧ 0 ≤ fid) → RetrieveTurn cfg w [] [.empty]
  | active {fid : ℤ} {slave : SlaveInfo} {p : ActiveParams} {answer : RpcResult Reply} :
      w.client.eDataConnection = .port →
      ask (lookupFid w.client.CurrentTransfer.szPath) w.db = some fid →
      cfg.Slaves ≠ [] ∧ 0 ≤ fid → answer ≠ .noReturn →
      RetrieveTurn cfg w [⟨.activeRetrieveTransfer slave p, answer⟩]
        [.line 150 "Opening data channel.", retrieveReply answer]
  | unnamed : w.client.eDataConnection = .pasv →
      RetrieveTurn cfg w [] [.line 503 "Bad sequence of commands"]
  | passive {slave : SlaveInfo} {p : PasvParams} {answer : RpcResult Reply} :
      w.client.eDataConnection = .pasv → answer ≠ .noReturn →
      RetrieveTurn cfg w [⟨.pasvRetrieveTransfer slave p, answer⟩] [retrieveReply answer]

theorem finishRetrieve_does {answer : RpcResult Reply} {msg : Option Reply}
    (h : Does env (finishRetrieve answer) w msg w' cs) : cs = [] ∧ w'.client = w.client ∧
      answer ≠ .noReturn ∧ w'.replies ++ msg.toList = w.replies ++ [retrieveReply answer] := by
  cases answer with
  | noReturn => exact h.of_stop.elim
  | exception =>
      obtain ⟨rfl, rfl, rfl⟩ := h.of_sendReply.of_ret
      exact ⟨rfl, rfl, by simp, List.append_nil _⟩
  | reply r =>
      obtain ⟨rfl, rfl, rfl⟩ := h.of_ret
      exact ⟨rfl, rfl, by simp, rfl⟩

variable {msg : Option Reply} {fid : ℤ} {w₀ : World}

theorem retrieveActive_does (hport : w.client.eDataConnection = .port)
    (hask : ask (lookupFid w.client.CurrentTransfer.szPath) w.db = some fid)
    (hclient : w₀.client = w.client) (h : Does env (retrieveActive cfg fid) w₀ msg w' cs) :
    w'.client = w.client ∧
      ∃ rs, w'.replies ++ msg.toList = w₀.replies ++ rs ∧ RetrieveTurn cfg w cs rs := by
  unfold retrieveActive at h
  by_cases hsource : cfg.Slaves ≠ [] ∧ 0 ≤ fid
  · rw [if_pos hsource] at h
    obtain ⟨slave, w₁, cs₁, cs₂, hslave, h₁, rfl⟩ := h.of_client.of_bind
    obtain ⟨-, hw₁, rfl⟩ := hslave.of_redis
    obtain ⟨trans_id, w₂, cs₃, cs₄, htrans, h₂, rfl⟩ := h₁.of_bind
    obtain ⟨-, hw₂, rfl⟩ := htrans.of_redis
    obtain ⟨server_port, w₃, cs₅, cs₆, hserver, h₃, rfl⟩ := h₂.of_client.of_bind
    obtain ⟨hclient₃, -, hreplies₃, rfl⟩ := randomPort_does hserver
    obtain ⟨cs₇, rfl, h₄⟩ := h₃.of_sendReply.of_call rfl
    generalize env _ _ = answer at h₄ ⊢
    obtain ⟨rfl, hclient₄, hanswer, hreplies₄⟩ := finishRetrieve_does h₄
    have hclient₂ : w₂.client = w₀.client := by rw [hw₂, hw₁]
    have hreplies₂ : w₂.replies = w₀.replies := by rw [hw₂, hw₁]
    refine ⟨hclient₄.trans (hclient₃.trans (hclient₂.trans hclient)), _, ?_,
      .active hport hask hsource hanswer⟩
    rw [hreplies₄, hreplies₃, hreplies₂, List.append_assoc]
    rfl
  · rw [if_neg hsource] at h
    obtain ⟨rfl, rfl, rfl⟩ := h.of_ret
    exact ⟨hclient, _, rfl, .unheld hport hask hsource⟩

theorem retrievePassive_does (hpasv : w.client.eDataConnection = .pasv)
    (h : Does env (retrievePassive cfg fid) w₀ msg w' cs) :
    ∃ rs, w'.replies ++ msg.toList = w₀.replies ++ rs ∧ RetrieveTurn cfg w cs rs := by
  have h₁ := h.of_client
  split_ifs at h₁ with hpret
  · obtain ⟨rfl, rfl, rfl⟩ := h₁.of_sendReply.of_ret
    exact ⟨_, List.append_nil _, .unnamed hpasv⟩
  · have h₂ := h₁.of_client
    split_ifs at h₂ with hfid
    · obtain ⟨rfl, rfl, rfl⟩ := h₂.of_sendReply.of_ret
      exact ⟨_, List.append_nil _, .unnamed hpasv⟩
    · obtain ⟨cs₁, rfl, h₃⟩ := h₂.of_client.of_client.of_call rfl
      generalize env _ _ = answer at h₃ ⊢
      obtain ⟨rfl, -, hanswer, hreplies⟩ := finishRetrieve_does h₃
      exact ⟨_, hreplies, .passive hpasv hanswer⟩

theorem retrieveTransfer_does (h : Does env (retrieveTransfer cfg) w u w' cs) :
    ∃ rs, w'.replies = w.replies ++ rs ∧ RetrieveTurn cfg w cs rs := by
  obtain ⟨fid, w₁, cs₁, cs₂, hfid, h₁, rfl⟩ := h.of_client.of_bind
  obtain ⟨hrun, hw₁, rfl⟩ := hfid.of_redis
  have hask : ask (lookupFid w.client.CurrentTransfer.szPath) w.db = some fid := by
    unfold ask
    rw [hrun]
    rfl
  have hclient₁ : w₁.client = w.client := by rw [hw₁]
  have hreplies₁ : w₁.replies = w.replies := by rw [hw₁]
  obtain ⟨msg, w₂, cs₃, cs₄, hactive, h₂, rfl⟩ := h₁.of_bind
  obtain ⟨msg', w₃, cs₅, cs₆, hpassive, hlast, rfl⟩ := h₂.of_bind
  obtain ⟨hw', rfl⟩ := sendLast_does hlast
  have hreplies' : w'.replies = w₃.replies ++ msg'.toList := by rw [hw']
  rw [hreplies']
  cases hconn : w.client.eDataConnection with
  | none =>
      obtain ⟨rfl, rfl, rfl⟩ := whenConnected_skips (by rw [hclient₁, hconn]; simp) hactive
      obtain ⟨rfl, rfl, rfl⟩ := whenPassive_skips (by rw [hclient₁, hconn]; simp) hpassive
      refine ⟨_, ?_, .unconnected hconn⟩
      rw [hreplies₁]
      rfl
  | port =>
      have hhalf := whenConnected_does (by rw [hclient₁, hconn]) hactive
      obtain ⟨hclient₂, rs, hreplies, hturn⟩ := retrieveActive_does hconn hask hclient₁ hhalf
      obtain ⟨rfl, rfl, rfl⟩ := whenPassive_skips (by rw [hclient₂, hconn]; simp) hpassive
      rw [hreplies₁] at hreplies
      have hcs : [] ++ (cs₃ ++ ([] ++ [])) = cs₃ := by simp
      rw [hcs]
      exact ⟨rs, hreplies, hturn⟩
  | pasv =>
      obtain ⟨rfl, rfl, rfl⟩ := whenConnected_skips (by rw [hclient₁, hconn]; simp) hactive
      have hhalf := whenConnected_does (by rw [hclient₁, hconn]) hpassive
      obtain ⟨rs, hreplies, hturn⟩ := retrievePassive_does hconn hhalf
      rw [hreplies₁] at hreplies
      rw [List.nil_append, List.nil_append, List.append_nil]
      exact ⟨rs, hreplies, hturn⟩

end ClusterFtpd
