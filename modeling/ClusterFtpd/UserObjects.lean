import ClusterFtpd.Lib.LinkedList
import ClusterFtpd.Jail
import ClusterFtpd.SimplifyPath

/-!
# The user objects on the heap

A session holds a pointer to a `CUserEntry`; the programs of the shell hold its value.  Here the
objects are at addresses.  `AddUser` makes the objects of the user list and `DeleteUser` frees them;
`SearchUserFromLogin` makes an object of its own for every `USER` line and does not look at the
list.  The calls of the server and the lines of the sessions come in any order.

Main results:

* `user_objects_line`: a line of the shell does to the object of its session what the shell does to
  the value, no object that was freed is used, and no other session changes;
* `user_objects_kept`: the list is exact, and an object that was made for a session is never freed;
* `deleteUser_listed`: `DeleteUser` ends no session.
-/

namespace ClusterFtpd

open Interaction LinkedList MachineInt

/-- An object of `CUserEntry`: what a session has of it, and the fields of the list. -/
structure UserObject extends UserEntry where
  bDelete : Bool := false
  pPrevUser : Option ℕ := none
  pNextUser : Option ℕ := none

/-- The fields of a `CClientEntry` that the users are about, and its sockets. -/
structure UserClient where
  pUser : Option ℕ := none
  bIsLogged : Bool := false
  CtrlSock : Option ℕ := none
  DataSock : Option ℕ := none

/-- The fields of `CFtpServer` for its users, the objects, and the clients of the client list. -/
structure UserHeap where
  pFirstUser : Option ℕ := none
  pLastUser : Option ℕ := none
  uiNumberOfUser : ℕ := 0
  objects : ℕ → Option UserObject := fun _ => none
  clients : ℕ → Option UserClient := fun _ => none

/-- The object at `p`, which is not null, becomes another one. -/
def UserHeap.setObject (s : UserHeap) (p : ℕ) (o : Option UserObject) : UserHeap :=
  { s with objects := Function.update s.objects p o }

def UserHeap.setClient (s : UserHeap) (c : ℕ) (cl : Option UserClient) : UserHeap :=
  { s with clients := Function.update s.clients c cl }

/-- `p->pNextUser = v`, where `p` is not null. -/
def UserHeap.setNext (s : UserHeap) (p v : Option ℕ) : UserHeap :=
  { s with objects := fun c =>
      if p = some c then (s.objects c).map fun o => { o with pNextUser := v } else s.objects c }

/-- `p->pPrevUser = v`, where `p` is not null. -/
def UserHeap.setPrev (s : UserHeap) (p v : Option ℕ) : UserHeap :=
  { s with objects := fun c =>
      if p = some c then (s.objects c).map fun o => { o with pPrevUser := v } else s.objects c }

/-! ### The calls of the server -/

/-- `AddUser` under the lock: the new object is the last of the list. -/
def UserHeap.link (s : UserHeap) (p : ℕ) (u : UserEntry) : UserHeap :=
  if s.pLastUser.isSome then
    let s' := s.setNext s.pLastUser (some p)
    { s'.setObject p (some { u with pPrevUser := s.pLastUser }) with pLastUser := some p }
  else { s.setObject p (some { u with }) with pFirstUser := some p, pLastUser := some p }

/-- What `AddUser` asks: `SearchUserFromLogin`, and whether `stat` finds a directory. -/
structure AddAnswers where
  found : Option UserEntry
  isDirectory : Text → Bool

/-- The object that `AddUser` makes. -/
def addedUser (pszLogin : Text) (pszPass : Option Text) (pszStartDir : Text) : UserEntry where
  szLogin := pszLogin
  szPassword := pszPass.getD []
  szStartDirectory := simplifyPath pszStartDir
  bIsEnabled := true
  uid := u32 (-1)
  gid := u32 (-1)
  ucPrivileges := 0
  uiMaxNumberOfClient := 0

/-- `CFtpServer::AddUser`, where `new` gives the address `p`: the returned pointer.  An object that
`SearchUserFromLogin` has made for the comparison stays. -/
def UserHeap.addUser (s : UserHeap) (pszLogin pszPass pszStartDir : Option Text)
    (answers : AddAnswers) (p : ℕ) : Option ℕ × UserHeap :=
  match pszLogin, pszStartDir with
  | some login, some dir =>
      if login.length ≤ MaxLoginLen ∧ dir.length ≤ MAX_PATH ∧
          ∀ pass ∈ pszPass, pass.length ≤ MaxLoginLen then
        match answers.found with
        | some u => (none, s.setObject p (some { u with }))
        | none =>
            if answers.isDirectory (simplifyPath dir) then
              let s' := s.link p (addedUser login pszPass dir)
              (some p, { s' with uiNumberOfUser := s'.uiNumberOfUser + 1 })
            else (none, s)
      else (none, s)
  | _, _ => (none, s)

/-- `CFtpServer::CClientEntry::InitDelete`. -/
def UserClient.initDelete (cl : UserClient) : UserClient :=
  { cl with CtrlSock := none, DataSock := none }

/-- What `DeleteUser` does to a client. -/
def UserClient.dropUser (p : ℕ) (cl : UserClient) : UserClient :=
  if cl.pUser = some p then
    if cl.bIsLogged then cl.initDelete else { cl with pUser := none }
  else cl

/-- `CFtpServer::DeleteUser`; `none` where the object has been freed. -/
def UserHeap.deleteUser (s : UserHeap) (p : ℕ) : Option UserHeap := do
  let o ← s.objects p
  let s' := (s.setNext o.pPrevUser o.pNextUser).setPrev o.pNextUser o.pPrevUser
  return { s' with
    pFirstUser := if s'.pFirstUser = some p then o.pNextUser else s'.pFirstUser
    pLastUser := if s'.pLastUser = some p then o.pPrevUser else s'.pLastUser
    clients := fun c => (s'.clients c).map (UserClient.dropUser p)
    objects := Function.update s'.objects p
      (if o.uiNumberOfClient ≠ 0 then some { o with bIsEnabled := false, bDelete := true }
      else none)
    uiNumberOfUser := s'.uiNumberOfUser - 1 }

/-! ### The lines of a session -/

/-- `--pUser->uiNumberOfClient`. -/
def UserObject.uncounted (o : UserObject) : UserObject :=
  { o with uiNumberOfClient := u32 (o.uiNumberOfClient - 1) }

/-- `LogIn` of the client at `c`; `none` where it uses a null pointer or a freed object. -/
def UserHeap.logIn (s : UserHeap) (c : ℕ) : Option UserHeap := do
  let cl ← s.clients c
  let p ← cl.pUser
  let o ← s.objects p
  return (s.setObject p (some { o with toUserEntry := o.counted })).setClient c
    (some { cl with bIsLogged := true })

/-- `LogOut` of the client at `c`. -/
def UserHeap.logOut (s : UserHeap) (c : ℕ) : Option UserHeap := do
  let cl ← s.clients c
  match cl.pUser with
  | none => return s.setClient c (some { cl with bIsLogged := false })
  | some p =>
      let o ← s.objects p
      return (s.setObject p (some o.uncounted)).setClient c
        (some { cl with pUser := none, bIsLogged := false })

/-- `USER` with an argument, of a client that is not logged in; `SearchUserFromLogin` makes its
object at `p`. -/
def UserHeap.selectUser (s : UserHeap) (c : ℕ) (pUser : Option UserEntry) (p : ℕ) :
    Option UserHeap := do
  let cl ← s.clients c
  match pUser with
  | none => return s.setClient c (some { cl with pUser := none })
  | some u =>
      let s' := (s.setObject p (some { u with })).setClient c (some { cl with pUser := some p })
      if u.opens then s'.logIn c else return s'

/-- `USER`: without an argument it only logs out. -/
def UserHeap.user (s : UserHeap) (c : ℕ) (pUser : Option (Option UserEntry)) (p : ℕ) :
    Option UserHeap := do
  let cl ← s.clients c
  let s' ← cond cl.bIsLogged (s.logOut c) (some s)
  match pUser with
  | none => return s'
  | some pUser => s'.selectUser c pUser p

/-- `PASS`. -/
def UserHeap.pass (s : UserHeap) (c : ℕ) (pszCmdArg : Option Text) : Option UserHeap := do
  let cl ← s.clients c
  if cl.bIsLogged then return s
  else
    match cl.pUser with
    | none => return s
    | some p => do
        let o ← s.objects p
        if o.bIsEnabled && o.accepts pszCmdArg && o.hasRoom then s.logIn c else return s

/-- `CFtpServer::CClientEntry::~CClientEntry` of the client at `c`. -/
def UserHeap.disconnect (s : UserHeap) (c : ℕ) : Option UserHeap := do
  let cl ← s.clients c
  let s ← match cl.bIsLogged, cl.pUser with
    | true, some p => do
        let o ← s.objects p
        let o' := o.uncounted
        some (s.setObject p (if o'.uiNumberOfClient = 0 ∧ o'.bDelete then none else some o'))
    | _, _ => some s
  return s.setClient c none

/-! ### The invariant -/

variable {s s' : UserHeap} {listed found : List ℕ} {c p : ℕ}

/-- The links of the objects. -/
def UserHeap.links (s : UserHeap) : Store ℕ := fun p =>
  (s.objects p).map fun o => ⟨o.pPrevUser, o.pNextUser⟩

/-- The list has the objects `listed`; those that were made for sessions are `found`, and each
session has one of its own. -/
structure UserInv (s : UserHeap) (listed found : List ℕ) : Prop where
  list : IsList s.links s.pFirstUser s.pLastUser listed
  number : s.uiNumberOfUser = listed.length
  here : ∀ p, s.objects p ≠ none ↔ p ∈ listed ∨ p ∈ found
  apart : ∀ p ∈ listed, p ∉ found
  nodup : found.Nodup
  idle : ∀ p ∈ listed, ∀ o ∈ s.objects p, o.uiNumberOfClient = 0
  kept : ∀ p, ∀ o ∈ s.objects p, o.bDelete = false
  owned : ∀ c, ∀ cl ∈ s.clients c, ∀ p ∈ cl.pUser, p ∈ found
  single : ∀ c, ∀ cl ∈ s.clients c, ∀ c', ∀ cl' ∈ s.clients c', ∀ p ∈ cl.pUser,
    cl'.pUser = some p → c' = c

/-- The login of a client as the shell has it. -/
structure LoginView where
  pUser : Option UserEntry := none
  bIsLogged : Bool := false

def UserClient.view (cl : UserClient) (s : UserHeap) : LoginView :=
  ⟨(cl.pUser.bind s.objects).map UserObject.toUserEntry, cl.bIsLogged⟩

def UserHeap.view (s : UserHeap) (c : ℕ) : Option LoginView :=
  (s.clients c).map fun cl => cl.view s

theorem view_of_client {cl : UserClient} (hcl : s.clients c = some cl) :
    s.view c = some (cl.view s) := by
  unfold UserHeap.view
  rw [hcl]
  rfl

/-- A list reads the links of its own objects. -/
theorem isList_congr {m m' : Store ℕ} {first last : Option ℕ} {cs : List ℕ}
    (h : IsList m first last cs) (hsame : ∀ c ∈ cs, m' c = m c) : IsList m' first last cs :=
  { h with chain := h.chain.congr hsame }

/-- What a session has of its object changes, not the links. -/
structure UserObject.Same (o o' : UserObject) : Prop where
  pPrevUser : o'.pPrevUser = o.pPrevUser
  pNextUser : o'.pNextUser = o.pNextUser
  bDelete : o'.bDelete = o.bDelete

theorem UserInv.setObject (h : UserInv s listed found) {o o' : UserObject} (hp : p ∈ found)
    (ho : s.objects p = some o) (hsame : o.Same o') :
    UserInv (s.setObject p (some o')) listed found := by
  have hother : ∀ {q : ℕ}, q ≠ p → (s.setObject p (some o')).objects q = s.objects q :=
    fun hq => Function.update_of_ne hq _ _
  have hself : (s.setObject p (some o')).objects p = some o' := Function.update_self p _ _
  refine { h with list := isList_congr h.list ?_, here := ?_, idle := ?_, kept := ?_ }
  · intro q hq
    have hne : q ≠ p := by
      intro heq
      rw [heq] at hq
      exact h.apart p hq hp
    unfold UserHeap.links
    rw [hother hne]
  · intro q
    by_cases hq : q = p
    · rw [hq, hself]
      exact ⟨fun _ => .inr hp, fun _ => by simp⟩
    · rw [hother hq]
      exact h.here q
  · intro q hq
    have hne : q ≠ p := by
      intro heq
      rw [heq] at hq
      exact h.apart p hq hp
    rw [hother hne]
    exact h.idle q hq
  · intro q
    by_cases hq : q = p
    · rw [hq, hself]
      intro x hx
      rw [Option.mem_some_iff] at hx
      rw [← hx, hsame.bDelete]
      exact h.kept p o ho
    · rw [hother hq]
      exact h.kept q

/-- A client gets an object that no other client has, or none. -/
theorem UserInv.setClient (h : UserInv s listed found) {x : Option UserClient}
    (hown : ∀ cl ∈ x, ∀ p ∈ cl.pUser, p ∈ found ∧
      ∀ c', c' ≠ c → ∀ cl' ∈ s.clients c', cl'.pUser ≠ some p) :
    UserInv (s.setClient c x) listed found := by
  have hother : ∀ {c' : ℕ}, c' ≠ c → (s.setClient c x).clients c' = s.clients c' :=
    fun hc => Function.update_of_ne hc _ _
  have hself : (s.setClient c x).clients c = x := Function.update_self c _ _
  refine { h with owned := ?_, single := ?_ }
  · intro d cl hcl q hq
    by_cases hd : d = c
    · rw [hd, hself] at hcl
      exact (hown cl hcl q hq).1
    · rw [hother hd] at hcl
      exact h.owned d cl hcl q hq
  · intro d cl hcl d' cl' hcl' q hq hq'
    by_cases hd : d = c
    · by_cases hd' : d' = c
      · rw [hd, hd']
      · rw [hd, hself] at hcl
        rw [hother hd'] at hcl'
        exact absurd hq' ((hown cl hcl q hq).2 d' hd' cl' hcl')
    · rw [hother hd] at hcl
      by_cases hd' : d' = c
      · rw [hd', hself] at hcl'
        exact absurd hq ((hown cl' hcl' q hq').2 d hd cl hcl)
      · rw [hother hd'] at hcl'
        exact h.single d cl hcl d' cl' hcl' q hq hq'

theorem view_setClient_self (s : UserHeap) (c : ℕ) (x : Option UserClient) :
    (s.setClient c x).view c = x.map fun cl => cl.view s := by
  have hself : (s.setClient c x).clients c = x := Function.update_self c _ _
  unfold UserHeap.view
  rw [hself]
  rfl

theorem view_setClient_of_ne {c' : ℕ} (hc : c' ≠ c) (x : Option UserClient) :
    (s.setClient c x).view c' = s.view c' := by
  have hother : (s.setClient c x).clients c' = s.clients c' := Function.update_of_ne hc _ _
  unfold UserHeap.view
  rw [hother]
  rfl

/-- An object that the client does not have. -/
theorem view_setObject (o : Option UserObject) (hc : ∀ cl ∈ s.clients c, cl.pUser ≠ some p) :
    (s.setObject p o).view c = s.view c := by
  show (s.clients c).map _ = (s.clients c).map _
  cases hcl : s.clients c with
  | none => rfl
  | some cl =>
      show some (LoginView.mk _ _) = some (LoginView.mk _ _)
      cases hq : cl.pUser with
      | none => rfl
      | some q =>
          have hne : q ≠ p := by
            intro heq
            exact hc cl hcl (by rw [hq, heq])
          have hobject : (s.setObject p o).objects q = s.objects q := Function.update_of_ne hne _ _
          rw [Option.bind_some, Option.bind_some, hobject]

/-- The object of a client, and the client, change. -/
theorem UserInv.own (h : UserInv s listed found) {cl : UserClient} {o : UserObject}
    (o' : UserObject) (x : Option UserClient) (hcl : s.clients c = some cl) (hp : cl.pUser = some p)
    (ho : s.objects p = some o) (hsame : o.Same o')
    (hx : ∀ y ∈ x, y.pUser = some p ∨ y.pUser = none) :
    UserInv ((s.setObject p (some o')).setClient c x) listed found ∧
      ∀ c', ((s.setObject p (some o')).setClient c x).view c' =
        if c' = c then x.map fun y => ⟨y.pUser.map fun _ => o'.toUserEntry, y.bIsLogged⟩
        else s.view c' := by
  have hfound := h.owned c cl hcl p hp
  have hself : (s.setObject p (some o')).objects p = some o' := Function.update_self p _ _
  have hothers : ∀ c', c' ≠ c → ∀ cl' ∈ s.clients c', cl'.pUser ≠ some p :=
    fun c' hc' cl' hcl' heq => hc' (h.single c cl hcl c' cl' hcl' p hp heq)
  refine ⟨(h.setObject hfound ho hsame).setClient ?_, ?_⟩
  · intro y hy q hq
    have hqp : q = p := by
      obtain hsome | hnone := hx y hy
      · rw [hsome, Option.mem_some_iff] at hq
        exact hq.symm
      · rw [hnone] at hq
        cases hq
    subst hqp
    exact ⟨hfound, hothers⟩
  · intro c'
    by_cases hc : c' = c
    · subst hc
      rw [if_pos rfl, view_setClient_self]
      cases x with
      | none => rfl
      | some y =>
          show some (LoginView.mk _ _) = some (LoginView.mk _ _)
          obtain hsome | hnone := hx y rfl
          · rw [hsome, Option.bind_some, hself]
            rfl
          · rw [hnone]
            rfl
    · rw [if_neg hc, view_setClient_of_ne hc]
      exact view_setObject (some o') (hothers c' hc)

/-- The object of a client has not been freed. -/
theorem UserInv.object (h : UserInv s listed found) {cl : UserClient}
    (hcl : s.clients c = some cl) (hp : cl.pUser = some p) : ∃ o, s.objects p = some o :=
  Option.ne_none_iff_exists'.mp ((h.here p).mpr (.inr (h.owned c cl hcl p hp)))

theorem UserInv.logIn (h : UserInv s listed found) {cl : UserClient}
    (hcl : s.clients c = some cl) (hp : cl.pUser = some p) :
    ∃ s', s.logIn c = some s' ∧ UserInv s' listed found ∧ ∀ c', s'.view c' =
      if c' = c then (s.view c).map fun v => ⟨v.pUser.map UserEntry.counted, true⟩
      else s.view c' := by
  obtain ⟨o, ho⟩ := h.object hcl hp
  obtain ⟨hinv, hview⟩ := h.own { o with toUserEntry := o.counted }
    (some { cl with bIsLogged := true }) hcl hp ho ⟨rfl, rfl, rfl⟩ (by simp [hp])
  refine ⟨_, ?_, hinv, fun c' => ?_⟩
  · simp [UserHeap.logIn, hcl, hp, ho]
  · rw [hview, view_of_client hcl]
    by_cases hc : c' = c
    · rw [if_pos hc, if_pos hc]
      simp [UserClient.view, hp, ho]
    · rw [if_neg hc, if_neg hc]

theorem UserInv.logOut (h : UserInv s listed found) {cl : UserClient}
    (hcl : s.clients c = some cl) :
    ∃ s' cl', s.logOut c = some s' ∧ UserInv s' listed found ∧ s'.clients c = some cl' ∧
      (∀ q, s.objects q = none → s'.objects q = none) ∧
      ∀ c', s'.view c' = if c' = c then some ⟨none, false⟩ else s.view c' := by
  cases hp : cl.pUser with
  | none =>
      have hinv : UserInv (s.setClient c (some { cl with bIsLogged := false })) listed found := by
        refine h.setClient fun y hy q hq => ?_
        rw [Option.mem_some_iff] at hy
        rw [← hy, hp] at hq
        cases hq
      refine ⟨_, { cl with bIsLogged := false }, ?_, hinv, Function.update_self c _ _,
        fun q hq => hq, fun c' => ?_⟩
      · simp [UserHeap.logOut, hcl, hp]
      · by_cases hc : c' = c
        · subst hc
          rw [if_pos rfl, view_setClient_self]
          simp [UserClient.view, hp]
        · rw [if_neg hc, view_setClient_of_ne hc]
  | some p =>
      obtain ⟨o, ho⟩ := h.object hcl hp
      obtain ⟨hinv, hview⟩ := h.own o.uncounted
        (some { cl with pUser := none, bIsLogged := false }) hcl hp ho ⟨rfl, rfl, rfl⟩ (by simp)
      refine ⟨_, { cl with pUser := none, bIsLogged := false }, ?_, hinv,
        Function.update_self c _ _, fun q hq => ?_, fun c' => ?_⟩
      · simp [UserHeap.logOut, hcl, hp, ho]
      · have hne : q ≠ p := by
          intro heq
          rw [heq, ho] at hq
          cases hq
        show Function.update s.objects p _ q = none
        rw [Function.update_of_ne hne]
        exact hq
      · rw [hview]
        rfl

/-- A new object, not in the list. -/
theorem UserInv.made (h : UserInv s listed found) (hp : s.objects p = none) (u : UserEntry) :
    UserInv (s.setObject p (some { u with })) listed (found ++ [p]) ∧
      ∀ c, (s.setObject p (some { u with })).view c = s.view c := by
  have hout : p ∉ listed ∧ p ∉ found := by
    refine ⟨fun hmem => ?_, fun hmem => ?_⟩
    · exact (h.here p).mpr (.inl hmem) hp
    · exact (h.here p).mpr (.inr hmem) hp
  have hself : (s.setObject p (some { u with })).objects p = some { u with } :=
    Function.update_self p _ _
  have hother : ∀ {q : ℕ}, q ≠ p →
      (s.setObject p (some { u with })).objects q = s.objects q :=
    fun hq => Function.update_of_ne hq _ _
  have hlisted : ∀ q ∈ listed, q ≠ p := fun q hq heq => hout.1 (heq ▸ hq)
  constructor
  · refine ⟨isList_congr h.list ?_, h.number, ?_, ?_, ?_, ?_, ?_, ?_, h.single⟩
    · intro q hq
      unfold UserHeap.links
      rw [hother (hlisted q hq)]
    · intro q
      rw [List.mem_append, List.mem_singleton]
      by_cases hq : q = p
      · rw [hq, hself]
        exact ⟨fun _ => .inr (.inr rfl), fun _ => by simp⟩
      · rw [hother hq, h.here q]
        simp [hq]
    · intro q hq hmem
      obtain hmem | hmem := List.mem_append.mp hmem
      · exact h.apart q hq hmem
      · exact hlisted q hq (List.mem_singleton.mp hmem)
    · rw [List.nodup_append]
      refine ⟨h.nodup, List.nodup_singleton p, ?_⟩
      intro q hq r hr heq
      rw [List.mem_singleton] at hr
      exact hout.2 (hr ▸ heq ▸ hq)
    · intro q hq
      rw [hother (hlisted q hq)]
      exact h.idle q hq
    · intro q
      by_cases hq : q = p
      · rw [hq, hself]
        intro x hx
        rw [Option.mem_some_iff] at hx
        rw [← hx]
      · rw [hother hq]
        exact h.kept q
    · intro c cl hcl q hq
      exact List.mem_append_left _ (h.owned c cl hcl q hq)
  · intro c
    refine view_setObject _ fun cl hcl heq => ?_
    exact hout.2 (h.owned c cl hcl p heq)

/-- A client points to an object that nobody else has. -/
theorem UserInv.points (h : UserInv s listed found) {cl : UserClient} (hp : p ∈ found)
    (hcl : cl.pUser = some p) (hfree : ∀ c, ∀ cl ∈ s.clients c, cl.pUser ≠ some p) :
    UserInv (s.setClient c (some cl)) listed found := by
  refine h.setClient fun y hy q hq => ?_
  rw [Option.mem_some_iff] at hy
  rw [← hy, hcl, Option.mem_some_iff] at hq
  rw [← hq]
  exact ⟨hp, fun c' _ => hfree c'⟩

/-! ### The lines -/

/-- `USER` of a session, as the shell has it. -/
def LoginView.user (v : LoginView) : Option (Option UserEntry) → LoginView
  | none => if v.bIsLogged then ⟨none, false⟩ else v
  | some pUser => ⟨chosenUser pUser, pUser.any UserEntry.opens⟩

/-- `PASS` of a session, as the shell has it. -/
def LoginView.pass (v : LoginView) (pszCmdArg : Option Text) : LoginView :=
  if !v.bIsLogged && v.pUser.any fun u => u.bIsEnabled && u.accepts pszCmdArg && u.hasRoom then
    ⟨v.pUser.map UserEntry.counted, true⟩
  else v

/-- The objects that a `USER` line makes. -/
def madeObjects (pUser : Option (Option UserEntry)) (p : ℕ) : List ℕ :=
  match pUser with
  | none => []
  | some none => []
  | some (some _) => [p]

theorem UserInv.choose (h : UserInv s listed found) {cl : UserClient}
    (hcl : s.clients c = some cl) (hlogged : cl.bIsLogged = false) (hp : s.objects p = none)
    (u : UserEntry) :
    let s₁ := (s.setObject p (some { u with })).setClient c (some { cl with pUser := some p })
    ∃ s', (if u.opens then s₁.logIn c else some s₁) = some s' ∧
      UserInv s' listed (found ++ [p]) ∧ ∀ c', s'.view c' =
        if c' = c then some ⟨chosenUser (some u), u.opens⟩ else s.view c' := by
  intro s₁
  obtain ⟨hmade, hview⟩ := h.made hp u
  have hfree : ∀ c, ∀ cl ∈ s.clients c, cl.pUser ≠ some p := by
    intro c' cl' hcl' heq
    exact (h.here p).mpr (.inr (h.owned c' cl' hcl' p heq)) hp
  have hinv : UserInv s₁ listed (found ++ [p]) :=
    hmade.points (List.mem_append_right _ List.mem_cons_self) rfl hfree
  have hself : (s.setObject p (some { u with })).objects p = some { u with } :=
    Function.update_self p _ _
  have hview₁ : ∀ c', s₁.view c' = if c' = c then some ⟨some u, false⟩ else s.view c' := by
    intro c'
    by_cases hc : c' = c
    · subst hc
      rw [if_pos rfl, view_setClient_self]
      show some (LoginView.mk _ _) = _
      rw [Option.bind_some, hself, hlogged]
      rfl
    · rw [if_neg hc, view_setClient_of_ne hc]
      exact hview c'
  by_cases hopens : u.opens = true
  · rw [if_pos hopens]
    have hclient : s₁.clients c = some { cl with pUser := some p } := Function.update_self c _ _
    obtain ⟨s', hlogIn, hinv', hview'⟩ := hinv.logIn hclient rfl
    refine ⟨s', hlogIn, hinv', fun c' => ?_⟩
    rw [hview' c', hview₁ c, if_pos rfl, hview₁ c', chosenUser_some, if_pos hopens, hopens]
    by_cases hc : c' = c
    · rw [if_pos hc, if_pos hc]
      rfl
    · rw [if_neg hc, if_neg hc, if_neg hc]
  · rw [if_neg hopens]
    refine ⟨s₁, rfl, hinv, fun c' => ?_⟩
    rw [hview₁ c', chosenUser_some, if_neg hopens, Bool.eq_false_iff.mpr hopens]

/-- **`USER`** of the client at `c`. -/
theorem UserInv.user (h : UserInv s listed found) {cl : UserClient}
    (hcl : s.clients c = some cl) (hp : s.objects p = none) (pUser : Option (Option UserEntry)) :
    ∃ s', s.user c pUser p = some s' ∧ UserInv s' listed (found ++ madeObjects pUser p) ∧
      ∀ c', s'.view c' = if c' = c then (s.view c).map (·.user pUser) else s.view c' := by
  -- `LogOut` of a client that is logged in
  have hout : ∃ s₁ cl₁, cond cl.bIsLogged (s.logOut c) (some s) = some s₁ ∧
      UserInv s₁ listed found ∧ s₁.clients c = some cl₁ ∧ cl₁.bIsLogged = false ∧
      s₁.objects p = none ∧ ∀ c', s₁.view c' =
        if c' = c then (s.view c).map (·.user none) else s.view c' := by
    rw [view_of_client hcl]
    by_cases hlogged : cl.bIsLogged = true
    · obtain ⟨s₁, cl₁, hlogOut, hinv, hcl₁, hnone, hview⟩ := h.logOut hcl
      have hflag : cl₁.bIsLogged = false := by
        have hself := hview c
        rw [view_of_client hcl₁, if_pos rfl, Option.some.injEq] at hself
        exact congrArg LoginView.bIsLogged hself
      rw [hlogged]
      refine ⟨s₁, cl₁, hlogOut, hinv, hcl₁, hflag, hnone p hp, fun c' => ?_⟩
      rw [hview c', Option.map_some]
      simp [LoginView.user, UserClient.view, hlogged]
    · rw [Bool.eq_false_iff.mpr hlogged]
      refine ⟨s, cl, rfl, h, hcl, Bool.eq_false_iff.mpr hlogged, hp, fun c' => ?_⟩
      by_cases hc : c' = c
      · rw [if_pos hc, hc, view_of_client hcl]
        simp [LoginView.user, UserClient.view, hlogged]
      · rw [if_neg hc]
  obtain ⟨s₁, cl₁, hlogOut, hinv, hcl₁, hflag, hp₁, hview⟩ := hout
  unfold UserHeap.user
  rw [hcl]
  simp only [Option.bind_eq_bind, Option.bind_some, hlogOut]
  rw [view_of_client hcl] at hview ⊢
  cases pUser with
  | none =>
      show ∃ s', _ ∧ UserInv s' listed (found ++ []) ∧ _
      rw [List.append_nil]
      exact ⟨s₁, rfl, hinv, hview⟩
  | some pUser =>
      show ∃ s', s₁.selectUser c pUser p = some s' ∧ _
      unfold UserHeap.selectUser
      rw [hcl₁]
      cases pUser with
      | none =>
          have hinv' : UserInv (s₁.setClient c (some { cl₁ with pUser := none })) listed found := by
            refine hinv.setClient fun y hy q hq => ?_
            rw [Option.mem_some_iff] at hy
            rw [← hy] at hq
            cases hq
          show ∃ s', _ ∧ UserInv s' listed (found ++ []) ∧ _
          rw [List.append_nil]
          refine ⟨_, rfl, hinv', fun c' => ?_⟩
          by_cases hc : c' = c
          · subst hc
            rw [if_pos rfl, view_setClient_self]
            show some (LoginView.mk _ _) = some (LoginView.mk _ _)
            rw [hflag]
            rfl
          · rw [if_neg hc, view_setClient_of_ne hc, hview c', if_neg hc]
      | some u =>
          obtain ⟨s', hchoose, hinv', hview'⟩ := hinv.choose hcl₁ hflag hp₁ u
          refine ⟨s', hchoose, hinv', fun c' => ?_⟩
          rw [hview' c', hview c']
          by_cases hc : c' = c
          · rw [if_pos hc, if_pos hc]
            rfl
          · rw [if_neg hc, if_neg hc, if_neg hc]

/-- **`PASS`** of the client at `c`. -/
theorem UserInv.pass (h : UserInv s listed found) {cl : UserClient}
    (hcl : s.clients c = some cl) (pszCmdArg : Option Text) :
    ∃ s', s.pass c pszCmdArg = some s' ∧ UserInv s' listed found ∧
      ∀ c', s'.view c' = if c' = c then (s.view c).map (·.pass pszCmdArg) else s.view c' := by
  have hidle : ∀ v : LoginView, cl.view s = v → v.pass pszCmdArg = v →
      ∀ c', s.view c' = if c' = c then (s.view c).map (·.pass pszCmdArg) else s.view c' := by
    intro v hv hpass c'
    by_cases hc : c' = c
    · rw [if_pos hc, hc, view_of_client hcl, Option.map_some, hv, hpass]
    · rw [if_neg hc]
  unfold UserHeap.pass
  rw [hcl]
  simp only [Option.bind_eq_bind, Option.bind_some]
  by_cases hlogged : cl.bIsLogged = true
  · rw [if_pos hlogged]
    refine ⟨s, rfl, h, hidle _ rfl ?_⟩
    simp [LoginView.pass, UserClient.view, hlogged]
  · rw [if_neg hlogged]
    cases hq : cl.pUser with
    | none =>
        refine ⟨s, rfl, h, hidle _ rfl ?_⟩
        simp [LoginView.pass, UserClient.view, hq]
    | some q =>
        obtain ⟨o, ho⟩ := h.object hcl hq
        simp only [ho, Option.bind_some]
        by_cases haccepted : (o.bIsEnabled && o.accepts pszCmdArg && o.hasRoom) = true
        · rw [if_pos haccepted]
          obtain ⟨s', hlogIn, hinv, hview⟩ := h.logIn hcl hq
          refine ⟨s', hlogIn, hinv, fun c' => ?_⟩
          rw [hview c', view_of_client hcl, Option.map_some, Option.map_some]
          simp [LoginView.pass, UserClient.view, hq, ho, hlogged, haccepted]
        · rw [if_neg haccepted]
          refine ⟨s, rfl, h, hidle _ rfl ?_⟩
          simp [LoginView.pass, UserClient.view, hq, ho, haccepted]

/-- **The end** of the client at `c`. -/
theorem UserInv.disconnect (h : UserInv s listed found) {cl : UserClient}
    (hcl : s.clients c = some cl) :
    ∃ s', s.disconnect c = some s' ∧ UserInv s' listed found ∧
      ∀ c', s'.view c' = if c' = c then none else s.view c' := by
  have hgone : UserInv (s.setClient c none) listed found ∧
      ∀ c', (s.setClient c none).view c' = if c' = c then none else s.view c' := by
    refine ⟨h.setClient (by simp), fun c' => ?_⟩
    by_cases hc : c' = c
    · subst hc
      rw [if_pos rfl, view_setClient_self]
      rfl
    · rw [if_neg hc, view_setClient_of_ne hc]
  unfold UserHeap.disconnect
  rw [hcl]
  simp only [Option.bind_eq_bind, Option.bind_some]
  by_cases hlogged : cl.bIsLogged = true
  · rw [hlogged]
    cases hq : cl.pUser with
    | none => exact ⟨_, rfl, hgone⟩
    | some q =>
        obtain ⟨o, ho⟩ := h.object hcl hq
        obtain ⟨hinv, hview⟩ := h.own o.uncounted none hcl hq ho ⟨rfl, rfl, rfl⟩ (by simp)
        -- `bDelete` is not set
        have hkept : ¬ (o.uncounted.uiNumberOfClient = 0 ∧ o.uncounted.bDelete = true) := by
          intro hdelete
          have hfalse : o.uncounted.bDelete = false := h.kept q o ho
          rw [hfalse] at hdelete
          exact Bool.false_ne_true hdelete.2
        simp only [ho, Option.bind_some, if_neg hkept]
        exact ⟨_, rfl, hinv, hview⟩
  · rw [Bool.eq_false_iff.mpr hlogged]
    exact ⟨_, rfl, hgone⟩

/-! ### The user list -/

theorem userLinks_setNext (q v : Option ℕ) :
    (s.setNext q v).links = LinkedList.setNext s.links q v := by
  funext c
  show (if q = some c then (s.objects c).map _ else s.objects c).map _ =
    if q = some c then ((s.objects c).map _).map _ else (s.objects c).map _
  by_cases h : q = some c
  · rw [if_pos h, if_pos h, Option.map_map, Option.map_map]
    rfl
  · rw [if_neg h, if_neg h]

theorem userLinks_setPrev (q v : Option ℕ) :
    (s.setPrev q v).links = LinkedList.setPrev s.links q v := by
  funext c
  show (if q = some c then (s.objects c).map _ else s.objects c).map _ =
    if q = some c then ((s.objects c).map _).map _ else (s.objects c).map _
  by_cases h : q = some c
  · rw [if_pos h, if_pos h, Option.map_map, Option.map_map]
    rfl
  · rw [if_neg h, if_neg h]

theorem userLinks_setObject (o : Option UserObject) : (s.setObject p o).links =
    Function.update s.links p (o.map fun o => ⟨o.pPrevUser, o.pNextUser⟩) := by
  funext c
  show (Function.update s.objects p o c).map _ = Function.update s.links p _ c
  by_cases h : c = p
  · subst h
    rw [Function.update_self, Function.update_self]
  · rw [Function.update_of_ne h, Function.update_of_ne h]
    rfl

/-- What relinking keeps of an object. -/
def UserObject.key (o : UserObject) : UserEntry × Bool := (o.toUserEntry, o.bDelete)

theorem key_setNext (q v : Option ℕ) (r : ℕ) :
    ((s.setNext q v).objects r).map UserObject.key = (s.objects r).map UserObject.key := by
  show (if q = some r then (s.objects r).map _ else s.objects r).map _ = _
  by_cases h : q = some r
  · rw [if_pos h, Option.map_map]
    rfl
  · rw [if_neg h]

theorem key_setPrev (q v : Option ℕ) (r : ℕ) :
    ((s.setPrev q v).objects r).map UserObject.key = (s.objects r).map UserObject.key := by
  show (if q = some r then (s.objects r).map _ else s.objects r).map _ = _
  by_cases h : q = some r
  · rw [if_pos h, Option.map_map]
    rfl
  · rw [if_neg h]

theorem map_entry (x : Option UserObject) :
    x.map UserObject.toUserEntry = (x.map UserObject.key).map Prod.fst := by
  rw [Option.map_map]
  rfl

/-- One object comes into the list or leaves it; the others are linked anew. -/
theorem UserInv.relinked {listed' : List ℕ} (h : UserInv s listed found) (hfound : p ∉ found)
    (hclients : s'.clients = s.clients)
    (hkey : ∀ q, q ≠ p → (s'.objects q).map UserObject.key = (s.objects q).map UserObject.key)
    (hlist : IsList s'.links s'.pFirstUser s'.pLastUser listed')
    (hnumber : s'.uiNumberOfUser = listed'.length)
    (hhere : s'.objects p ≠ none ↔ p ∈ listed') (hsame : ∀ q, q ≠ p → (q ∈ listed' ↔ q ∈ listed))
    (hnew : ∀ o ∈ s'.objects p, o.uiNumberOfClient = 0 ∧ o.bDelete = false) :
    UserInv s' listed' found ∧ ∀ c, s'.view c = s.view c := by
  have hback : ∀ q, q ≠ p → ∀ o' ∈ s'.objects q, ∃ o ∈ s.objects q, o'.key = o.key := by
    intro q hq o' ho'
    have heq := hkey q hq
    rw [show s'.objects q = some o' from ho', Option.map_some, eq_comm,
      Option.map_eq_some_iff] at heq
    obtain ⟨o, ho, heq⟩ := heq
    exact ⟨o, ho, heq.symm⟩
  constructor
  · refine ⟨hlist, hnumber, ?_, ?_, h.nodup, ?_, ?_, ?_, ?_⟩
    · intro q
      by_cases hq : q = p
      · rw [hq, hhere]
        exact ⟨.inl, fun hmem => hmem.resolve_right hfound⟩
      · have hnone : s'.objects q = none ↔ s.objects q = none := by
          rw [← Option.map_eq_none_iff (f := UserObject.key), hkey q hq, Option.map_eq_none_iff]
        rw [ne_eq, hnone, hsame q hq]
        exact h.here q
    · intro q hq
      by_cases hqp : q = p
      · rw [hqp]
        exact hfound
      · exact h.apart q ((hsame q hqp).mp hq)
    · intro q hq o' ho'
      by_cases hqp : q = p
      · rw [hqp] at ho'
        exact (hnew o' ho').1
      · obtain ⟨o, ho, heq⟩ := hback q hqp o' ho'
        have hentry : o'.toUserEntry = o.toUserEntry := congrArg Prod.fst heq
        rw [hentry]
        exact h.idle q ((hsame q hqp).mp hq) o ho
    · intro q o' ho'
      by_cases hqp : q = p
      · rw [hqp] at ho'
        exact (hnew o' ho').2
      · obtain ⟨o, ho, heq⟩ := hback q hqp o' ho'
        have hdelete : o'.bDelete = o.bDelete := congrArg Prod.snd heq
        rw [hdelete]
        exact h.kept q o ho
    · rw [hclients]
      exact h.owned
    · rw [hclients]
      exact h.single
  · intro c
    unfold UserHeap.view
    rw [hclients]
    cases hcl : s.clients c with
    | none => rfl
    | some cl =>
        show some (LoginView.mk _ _) = some (LoginView.mk _ _)
        cases hq : cl.pUser with
        | none => rfl
        | some q =>
            have hne : q ≠ p := by
              intro heq
              exact hfound (heq ▸ h.owned c cl hcl q hq)
            rw [Option.bind_some, Option.bind_some, map_entry, map_entry, hkey q hne]

/-- `AddUser` of a name that is not taken. -/
theorem UserInv.link (h : UserInv s listed found) (hp : s.objects p = none) {u : UserEntry}
    (hidle : u.uiNumberOfClient = 0) :
    let s' := { s.link p u with uiNumberOfUser := (s.link p u).uiNumberOfUser + 1 }
    UserInv s' (listed ++ [p]) found ∧ ∀ c, s'.view c = s.view c := by
  intro s'
  have hlisted : p ∉ listed := fun hmem => (h.here p).mpr (.inl hmem) hp
  have hfound : p ∉ found := fun hmem => (h.here p).mpr (.inr hmem) hp
  have hpush := h.list.push hlisted
  have hlast : ∃ prev, s'.clients = s.clients ∧ s'.uiNumberOfUser = s.uiNumberOfUser + 1 ∧
      s'.objects p = some { u with pPrevUser := prev } ∧
      (∀ q, q ≠ p → (s'.objects q).map UserObject.key = (s.objects q).map UserObject.key) ∧
      IsList s'.links s'.pFirstUser s'.pLastUser (listed ++ [p]) := by
    cases hl : s.pLastUser with
    | none =>
        have hs' : s' = { s.setObject p (some { u with }) with
            pFirstUser := some p, pLastUser := some p,
            uiNumberOfUser := s.uiNumberOfUser + 1 } := by
          show ({ s.link p u with
            uiNumberOfUser := (s.link p u).uiNumberOfUser + 1 } : UserHeap) = _
          unfold UserHeap.link
          rw [hl]
          rfl
        have hnil : listed = [] := by
          have heq := h.list.last_eq
          rw [hl] at heq
          exact List.getLast?_eq_none_iff.mp heq.symm
        have hfirst : s.pFirstUser = none := by
          rw [h.list.first_eq, hnil]
          rfl
        rw [hs']
        refine ⟨none, rfl, rfl, Function.update_self p _ _, fun q hq => ?_, ?_⟩
        · show (Function.update s.objects p _ q).map _ = _
          rw [Function.update_of_ne hq]
        · have hsame : LinkedList.setNext s.links none (some p) = s.links := by
            funext c
            exact setNext_of_ne (by simp)
          rw [hl, hfirst, hsame] at hpush
          show IsList (s.setObject p _).links _ _ _
          rw [userLinks_setObject]
          exact hpush
    | some l =>
        have hs' : s' = { (s.setNext (some l) (some p)).setObject p
              (some { u with pPrevUser := some l }) with
            pLastUser := some p, uiNumberOfUser := s.uiNumberOfUser + 1 } := by
          show ({ s.link p u with
            uiNumberOfUser := (s.link p u).uiNumberOfUser + 1 } : UserHeap) = _
          unfold UserHeap.link
          rw [hl]
          rfl
        have hfirst : s.pFirstUser.or (some p) = s.pFirstUser := by
          rw [h.list.first_eq]
          cases listed with
          | nil =>
              have heq := h.list.last_eq
              rw [hl] at heq
              cases heq
          | cons q qs => rfl
        rw [hs']
        refine ⟨some l, rfl, rfl, Function.update_self p _ _, fun q hq => ?_, ?_⟩
        · show (Function.update (s.setNext _ _).objects p _ q).map _ = _
          rw [Function.update_of_ne hq, key_setNext]
        · rw [hfirst, hl] at hpush
          show IsList ((s.setNext (some l) (some p)).setObject p _).links s.pFirstUser (some p) _
          rw [userLinks_setObject, userLinks_setNext]
          exact hpush
  obtain ⟨prev, hclients, hnumber, hobject, hkey, hlist⟩ := hlast
  refine h.relinked hfound hclients hkey hlist ?_ ?_ ?_ ?_
  · rw [hnumber, h.number, List.length_append]
    rfl
  · rw [hobject]
    exact ⟨fun _ => List.mem_append_right _ List.mem_cons_self, fun _ => by simp⟩
  · intro q hq
    simp [hq]
  · intro o ho
    rw [hobject, Option.mem_some_iff] at ho
    rw [← ho]
    exact ⟨hidle, rfl⟩

/-- A client has no object of the list. -/
theorem UserInv.undropped (h : UserInv s listed found) (hp : p ∈ listed) :
    (fun c => (s.clients c).map (UserClient.dropUser p)) = s.clients := by
  funext c
  cases hcl : s.clients c with
  | none => rfl
  | some cl =>
      have hne : cl.pUser ≠ some p := fun heq => h.apart p hp (h.owned c cl hcl p heq)
      show some (UserClient.dropUser p cl) = some cl
      rw [UserClient.dropUser, if_neg hne]

/-- **`DeleteUser`** of an object of the list: it is freed, and the clients are left alone. -/
theorem UserInv.deleteUser (h : UserInv s listed found) (hp : p ∈ listed) :
    ∃ s', s.deleteUser p = some s' ∧ UserInv s' (listed.erase p) found ∧
      s'.clients = s.clients ∧ s'.objects p = none ∧ ∀ c, s'.view c = s.view c := by
  obtain ⟨xs, ys, hsplit⟩ := List.append_of_mem hp
  obtain ⟨o, ho⟩ := Option.ne_none_iff_exists'.mp ((h.here p).mpr (.inl hp))
  have hlist := h.list
  have hnodup := hlist.nodup
  rw [hsplit] at hlist hnodup
  have hxs : p ∉ xs := by
    intro hmem
    rw [List.nodup_append] at hnodup
    exact hnodup.2.2 p hmem p List.mem_cons_self rfl
  have hys : p ∉ ys := by
    rw [List.nodup_append, List.nodup_cons] at hnodup
    exact hnodup.2.1.1
  have herase : listed.erase p = xs ++ ys := by
    rw [hsplit, List.erase_append_right _ hxs, List.erase_cons_head]
  have hlinks := hlist.links
  unfold UserHeap.links at hlinks
  rw [ho, Option.map_some, Option.some.injEq, Links.mk.injEq] at hlinks
  obtain ⟨hprev, hnext⟩ := hlinks
  have hidle : ¬ o.uiNumberOfClient ≠ 0 := not_not.mpr (h.idle p hp o ho)
  let t := (s.setNext o.pPrevUser o.pNextUser).setPrev o.pNextUser o.pPrevUser
  let s' : UserHeap := { t.setObject p none with
    pFirstUser := if s.pFirstUser = some p then o.pNextUser else s.pFirstUser
    pLastUser := if s.pLastUser = some p then o.pPrevUser else s.pLastUser
    uiNumberOfUser := s.uiNumberOfUser - 1 }
  have hdelete : s.deleteUser p = some s' := by
    unfold UserHeap.deleteUser
    rw [ho]
    have hclients := h.undropped hp
    simp only [Option.bind_eq_bind, Option.bind_some, if_neg hidle]
    show some (UserHeap.mk _ _ _ _ (fun c => (s.clients c).map (UserClient.dropUser p))) = _
    rw [hclients]
    rfl
  have hnone : s'.objects p = none := Function.update_self p _ _
  have hrelinked : UserInv s' (xs ++ ys) found ∧ ∀ c, s'.view c = s.view c := by
    refine h.relinked (h.apart p hp) rfl ?_ ?_ ?_ ?_ ?_ ?_
    · intro q hq
      show (Function.update t.objects p none q).map _ = _
      rw [Function.update_of_ne hq, key_setPrev, key_setNext]
    · show IsList (t.setObject p none).links (if s.pFirstUser = some p then o.pNextUser else _)
        (if s.pLastUser = some p then o.pPrevUser else _) (xs ++ ys)
      rw [userLinks_setObject, userLinks_setPrev, userLinks_setNext, hprev, hnext]
      exact hlist.remove
    · show s.uiNumberOfUser - 1 = _
      rw [h.number, hsplit]
      simp
    · rw [hnone]
      simp [hxs, hys]
    · intro q hq
      rw [hsplit]
      simp [hq]
    · rw [hnone]
      simp
  refine ⟨s', hdelete, ?_, rfl, hnone, hrelinked.2⟩
  rw [herase]
  exact hrelinked.1

/-! ### Runs -/

/-- What happens to the users: a client connects or ends, a line of one, a call of the server. -/
inductive UserAct where
  | connect (c CtrlSock : ℕ)
  | user (c : ℕ) (pUser : Option (Option UserEntry)) (p : ℕ)
  | pass (c : ℕ) (pszCmdArg : Option Text)
  | disconnect (c : ℕ)
  | addUser (pszLogin pszPass pszStartDir : Option Text) (answers : AddAnswers) (p : ℕ)
  | deleteUser (p : ℕ)

def UserAct.run (s : UserHeap) : UserAct → Option UserHeap
  | .connect c CtrlSock => some (s.setClient c (some { CtrlSock := some CtrlSock }))
  | .user c pUser p => s.user c pUser p
  | .pass c pszCmdArg => s.pass c pszCmdArg
  | .disconnect c => s.disconnect c
  | .addUser pszLogin pszPass pszStartDir answers p =>
      some (s.addUser pszLogin pszPass pszStartDir answers p).2
  | .deleteUser p => s.deleteUser p

/-- `new` gives memory that is free, and `DeleteUser` is called with a user of the list. -/
def UserAct.Legal (s : UserHeap) (listed : List ℕ) : UserAct → Prop
  | .connect c _ => s.clients c = none
  | .user c _ p => s.clients c ≠ none ∧ s.objects p = none
  | .pass c _ => s.clients c ≠ none
  | .disconnect c => s.clients c ≠ none
  | .addUser _ _ _ _ p => s.objects p = none
  | .deleteUser p => p ∈ listed

/-- The users of the list: those that `AddUser` has returned and that were not deleted. -/
def UserAct.listedAfter (s : UserHeap) (listed : List ℕ) : UserAct → List ℕ
  | .addUser pszLogin pszPass pszStartDir answers p =>
      listed ++ (s.addUser pszLogin pszPass pszStartDir answers p).1.toList
  | .deleteUser p => listed.erase p
  | _ => listed

/-- The objects that `SearchUserFromLogin` has made. -/
def UserAct.foundAfter (s : UserHeap) (found : List ℕ) : UserAct → List ℕ
  | .user _ pUser p => found ++ madeObjects pUser p
  | .addUser pszLogin pszPass pszStartDir answers p =>
      -- one is made, and not returned
      if ((s.addUser pszLogin pszPass pszStartDir answers p).2.objects p).isSome &&
          (s.addUser pszLogin pszPass pszStartDir answers p).1.isNone then found ++ [p]
      else found
  | _ => found

/-- What a session sees of an act. -/
def UserAct.onView (c : ℕ) (v : Option LoginView) : UserAct → Option LoginView
  | .connect c' _ => if c = c' then some {} else v
  | .user c' pUser _ => if c = c' then v.map (·.user pUser) else v
  | .pass c' pszCmdArg => if c = c' then v.map (·.pass pszCmdArg) else v
  | .disconnect c' => if c = c' then none else v
  | .addUser _ _ _ _ _ => v
  | .deleteUser _ => v

/-- The runs from the start of the server. -/
inductive UserRun : UserHeap → List ℕ → List ℕ → Prop where
  | start : UserRun {} [] []
  | act {s s' : UserHeap} {listed found : List ℕ} (a : UserAct) : UserRun s listed found →
      a.Legal s listed → a.run s = some s' →
      UserRun s' (a.listedAfter s listed) (a.foundAfter s found)

theorem UserInv.addUser (h : UserInv s listed found) {pszLogin pszPass pszStartDir : Option Text}
    {answers : AddAnswers} (hp : s.objects p = none) :
    let a := UserAct.addUser pszLogin pszPass pszStartDir answers p
    UserInv (s.addUser pszLogin pszPass pszStartDir answers p).2 (a.listedAfter s listed)
        (a.foundAfter s found) ∧
      ∀ c, (s.addUser pszLogin pszPass pszStartDir answers p).2.view c = s.view c := by
  intro a
  -- the three ends of `AddUser`: nothing, an object that stays, and a user of the list
  have hcases : s.addUser pszLogin pszPass pszStartDir answers p = (none, s) ∨
      (∃ u : UserEntry, s.addUser pszLogin pszPass pszStartDir answers p =
        (none, s.setObject p (some { u with }))) ∨
      ∃ u : UserEntry, u.uiNumberOfClient = 0 ∧
        s.addUser pszLogin pszPass pszStartDir answers p =
          (some p, { s.link p u with uiNumberOfUser := (s.link p u).uiNumberOfUser + 1 }) := by
    unfold UserHeap.addUser
    cases pszLogin with
    | none => exact .inl rfl
    | some login =>
        cases pszStartDir with
        | none => exact .inl rfl
        | some dir =>
            by_cases hfits : login.length ≤ MaxLoginLen ∧ dir.length ≤ MAX_PATH ∧
                ∀ pass ∈ pszPass, pass.length ≤ MaxLoginLen
            · simp only [if_pos hfits]
              cases answers.found with
              | some u => exact .inr (.inl ⟨u, rfl⟩)
              | none =>
                  by_cases hdir : answers.isDirectory (simplifyPath dir) = true
                  · exact .inr (.inr ⟨addedUser login pszPass dir, rfl, if_pos hdir⟩)
                  · exact .inl (if_neg hdir)
            · simp only [if_neg hfits]
              exact .inl trivial
  show UserInv _ (listed ++ _) (if _ then _ else _) ∧ _
  obtain heq | ⟨u, heq⟩ | ⟨u, hu, heq⟩ := hcases
  · rw [heq, hp]
    show UserInv s (listed ++ []) found ∧ _
    rw [List.append_nil]
    exact ⟨h, fun _ => rfl⟩
  · have hself : (s.setObject p (some { u with })).objects p = some { u with } :=
      Function.update_self p _ _
    rw [heq, hself]
    show UserInv _ (listed ++ []) (found ++ [p]) ∧ _
    rw [List.append_nil]
    exact h.made hp u
  · rw [heq, Option.isNone_some, Bool.and_false]
    exact h.link hp hu

/-- **One act** is defined, keeps the invariant, and shows the sessions what the values say. -/
theorem UserInv.act (h : UserInv s listed found) {a : UserAct} (hlegal : a.Legal s listed) :
    ∃ s', a.run s = some s' ∧ UserInv s' (a.listedAfter s listed) (a.foundAfter s found) ∧
      ∀ c, s'.view c = a.onView c (s.view c) := by
  have hown : ∀ {s' : UserHeap} {c : ℕ} {f : Option LoginView → Option LoginView},
      (∀ c', s'.view c' = if c' = c then f (s.view c) else s.view c') →
      ∀ c', s'.view c' = if c' = c then f (s.view c') else s.view c' := by
    intro s' c f hview c'
    rw [hview c']
    by_cases hc : c' = c
    · rw [hc]
    · rw [if_neg hc, if_neg hc]
  cases a with
  | connect c CtrlSock =>
      refine ⟨_, rfl, h.setClient ?_, fun c' => ?_⟩
      · intro cl hcl q hq
        rw [Option.mem_some_iff] at hcl
        rw [← hcl] at hq
        cases hq
      · by_cases hc : c' = c
        · subst hc
          rw [view_setClient_self]
          exact (if_pos rfl).symm
        · rw [view_setClient_of_ne hc]
          exact (if_neg hc).symm
  | user c pUser p =>
      obtain ⟨cl, hcl⟩ := Option.ne_none_iff_exists'.mp hlegal.1
      obtain ⟨s', hrun, hinv, hview⟩ := h.user hcl hlegal.2 pUser
      exact ⟨s', hrun, hinv, hown hview⟩
  | pass c pszCmdArg =>
      obtain ⟨cl, hcl⟩ := Option.ne_none_iff_exists'.mp hlegal
      obtain ⟨s', hrun, hinv, hview⟩ := h.pass hcl pszCmdArg
      exact ⟨s', hrun, hinv, hown hview⟩
  | disconnect c =>
      obtain ⟨cl, hcl⟩ := Option.ne_none_iff_exists'.mp hlegal
      exact h.disconnect hcl
  | addUser pszLogin pszPass pszStartDir answers p =>
      obtain ⟨hinv, hview⟩ := h.addUser hlegal
      exact ⟨_, rfl, hinv, hview⟩
  | deleteUser p =>
      obtain ⟨s', hrun, hinv, -, -, hview⟩ := h.deleteUser hlegal
      exact ⟨s', hrun, hinv, hview⟩

theorem UserRun.inv (h : UserRun s listed found) : UserInv s listed found := by
  induction h with
  | start =>
      refine ⟨isList_nil _, rfl, by simp, by simp, List.nodup_nil, by simp, by simp, ?_, ?_⟩
      · intro c cl hcl
        cases hcl
      · intro c cl hcl
        cases hcl
  | act a _ hlegal hrun ih =>
      obtain ⟨s', hrun', hinv, -⟩ := ih.act hlegal
      rw [hrun, Option.some.injEq] at hrun'
      rw [hrun']
      exact hinv

/-! ### What the shell sees -/

/-- The login of a client of the shell. -/
def Client.view (c : Client) : LoginView := ⟨c.pUser, c.bIsLogged⟩

/-- What a line does to the objects: `USER` and `PASS` alone use them. -/
inductive LineDoes (s : UserHeap) (c p : ℕ) : Option Cmd → Option Text → UserHeap → Prop where
  | logOut {s' : UserHeap} : s.user c none p = some s' → LineDoes s c p (some .user) none s'
  | user {s' : UserHeap} {szLogin : Text} (pUser : Option UserEntry) :
      s.user c (some pUser) p = some s' → LineDoes s c p (some .user) (some szLogin) s'
  | pass {s' : UserHeap} {pszCmdArg : Option Text} : s.pass c pszCmdArg = some s' →
      LineDoes s c p (some .pass) pszCmdArg s'
  | other {nCmd : Option Cmd} {pszCmdArg : Option Text} : nCmd ≠ some .user → nCmd ≠ some .pass →
      LineDoes s c p nCmd pszCmdArg s

/-- **The objects and the values**: in every state that the calls of the server and the lines of the
sessions can lead to, a line of the shell is defined on the objects as well; it does to the object
of its session what it does to the value, and nothing to the other sessions. -/
theorem user_objects_line {env : Env} {cfg : Config} {w w' : World} {next : Next}
    {nCmd : Option Cmd} {pszCmdArg : Option Text} (h : UserRun s listed found)
    (hview : s.view c = some w.client.view) (hp : s.objects p = none)
    (hrun : run (serveShell env) (dispatch cfg nCmd pszCmdArg) w = .done next w') :
    ∃ s', LineDoes s c p nCmd pszCmdArg s' ∧ s'.view c = some w'.client.view ∧
      ∀ c', c' ≠ c → s'.view c' = s.view c' := by
  obtain ⟨cl, hcl⟩ : ∃ cl, s.clients c = some cl := by
    obtain ⟨cl, hcl, -⟩ := Option.map_eq_some_iff.mp hview
    exact ⟨cl, hcl⟩
  have hview' : ∀ st : LoginState, w'.client.toLoginState = st →
      w'.client.view = ⟨st.pUser, st.bIsLogged⟩ := by
    intro st hst
    rw [← hst]
    rfl
  have hstays : ∀ st : LoginState, w'.client.toLoginState = st → st.pUser = w.client.pUser →
      st.bIsLogged = w.client.bIsLogged → nCmd ≠ some .user → nCmd ≠ some .pass →
      ∃ s', LineDoes s c p nCmd pszCmdArg s' ∧ s'.view c = some w'.client.view ∧
        ∀ c', c' ≠ c → s'.view c' = s.view c' := by
    intro st hst hpUser hlogged huser hpass
    refine ⟨s, .other huser hpass, ?_, fun _ _ => rfl⟩
    rw [hview, hview' st hst, hpUser, hlogged]
    rfl
  have hown : ∀ {s' : UserHeap} {v : LoginView}, w'.client.view = v →
      (∀ c', s'.view c' = if c' = c then some v else s.view c') →
      s'.view c = some w'.client.view ∧ ∀ c', c' ≠ c → s'.view c' = s.view c' := by
    intro s' v hv hsees
    refine ⟨?_, fun c' hc => ?_⟩
    · rw [hsees c, if_pos rfl, hv]
    · rw [hsees c', if_neg hc]
  cases turn_of_run hrun with
  | idle huser hpass _ hst => exact hstays _ hst rfl rfl huser hpass
  | cwd hcmd _ _ hst =>
      refine hstays _ hst rfl rfl ?_ ?_ <;> obtain rfl | rfl := hcmd <;> simp
  | cdup hcmd _ hst =>
      refine hstays _ hst rfl rfl ?_ ?_ <;> obtain rfl | rfl := hcmd <;> simp
  | logout hst =>
      obtain ⟨s', hdone, -, hsees⟩ := h.inv.user hcl hp none
      rw [hview, Option.map_some] at hsees
      refine ⟨s', .logOut hdone, hown ?_ hsees⟩
      rw [hview' _ hst]
      show _ = if w.client.bIsLogged then _ else _
      by_cases hlogged : w.client.bIsLogged = true
      · rw [if_pos hlogged, if_pos hlogged]
        rfl
      · rw [if_neg hlogged, if_neg hlogged]
        rfl
  | user pUser _ hst =>
      obtain ⟨s', hdone, -, hsees⟩ := h.inv.user hcl hp (some pUser)
      rw [hview, Option.map_some] at hsees
      exact ⟨s', .user pUser hdone, hown (hview' _ hst) hsees⟩
  | passIn hpasses hst =>
      obtain ⟨s', hdone, -, hsees⟩ := h.inv.pass hcl pszCmdArg
      rw [hview, Option.map_some] at hsees
      refine ⟨s', .pass hdone, hown ?_ hsees⟩
      rw [hview' _ hst]
      exact (if_pos hpasses).symm
  | passOut hpasses hst =>
      obtain ⟨s', hdone, -, hsees⟩ := h.inv.pass hcl pszCmdArg
      rw [hview, Option.map_some] at hsees
      refine ⟨s', .pass hdone, hown ?_ hsees⟩
      rw [hview' _ hst]
      exact (if_neg (Bool.eq_false_iff.mp hpasses)).symm

/-- **The objects that are kept**: the user list has the users that were added and not deleted, in
their order, and every object that `SearchUserFromLogin` has ever made is still there. -/
theorem user_objects_kept (h : UserRun s listed found) :
    IsList s.links s.pFirstUser s.pLastUser listed ∧ s.uiNumberOfUser = listed.length ∧
      (listed ++ found).Nodup ∧ ∀ p, s.objects p ≠ none ↔ p ∈ listed ∨ p ∈ found := by
  have hinv := h.inv
  refine ⟨hinv.list, hinv.number, ?_, hinv.here⟩
  rw [List.nodup_append]
  refine ⟨hinv.list.nodup, hinv.nodup, ?_⟩
  intro q hq r hr heq
  exact hinv.apart q hq (heq ▸ hr)

/-- **A user that is deleted** is freed at once, and no session is ended or changed by it. -/
theorem deleteUser_listed (h : UserRun s listed found) (hp : p ∈ listed) :
    ∃ s', s.deleteUser p = some s' ∧ s'.objects p = none ∧ s'.clients = s.clients ∧
      ∀ c, s'.view c = s.view c := by
  obtain ⟨s', hdelete, -, hclients, hnone, hview⟩ := h.inv.deleteUser hp
  exact ⟨s', hdelete, hnone, hclients, hview⟩

/-! ### A guest, and a user of the list -/

/-- A client has connected. -/
def oneClient : UserHeap := UserHeap.setClient {} 0 (some { CtrlSock := some 7 })

theorem userRun_oneClient : UserRun oneClient [] [] := UserRun.start.act (.connect 0 7) rfl rfl

/-- `USER guest`: its object is at 4. -/
theorem user_objects_line_guest : ∃ s',
    LineDoes oneClient 0 4 (some .user) (some "guest".toList) s' ∧
      s'.view 0 = some ⟨some guestUser, true⟩ := by
  have hrun : run (serveShell .calm) (dispatch {} (some .user) (some "guest".toList))
      ⟨guestDb ['/'], {}, [], 0⟩ = .done .continue (guestWorld (guestDb ['/'])) := rfl
  obtain ⟨s', hdoes, hview, -⟩ :=
    user_objects_line (c := 0) (p := 4) userRun_oneClient rfl rfl hrun
  exact ⟨s', hdoes, hview⟩

/-- The guest is logged in, and a user is added. -/
theorem userRun_added : ∃ s, UserRun s [5] [4] ∧ s.view 0 = some ⟨some guestUser, true⟩ := by
  let line : UserAct := .user 0 (some (some ((guestRecord ['/']).toEntry "guest".toList '?'))) 4
  have hlegal : line.Legal oneClient [] := ⟨nofun, rfl⟩
  obtain ⟨s, hrun, -, hview⟩ := userRun_oneClient.inv.act hlegal
  have hline : UserRun s [] [4] := userRun_oneClient.act line hlegal hrun
  have hfree : s.objects 5 = none := by
    by_contra hne
    exact absurd ((hline.inv.here 5).mp hne) (by decide)
  let add : UserAct := .addUser (some ['x']) none (some ['/']) ⟨none, fun _ => true⟩ 5
  have hlegal' : add.Legal s [] := hfree
  obtain ⟨s', hadd, -, hview'⟩ := hline.inv.act hlegal'
  have hlink : s.addUser (some ['x']) none (some ['/']) ⟨none, fun _ => true⟩ 5 = (some 5, s') :=
    Prod.ext rfl (Option.some.inj hadd)
  have hadded := hline.act add hlegal' hadd
  have hfound : add.foundAfter s [4] = [4] := by
    show (if _ && Option.isNone (UserHeap.addUser _ _ _ _ _ _).1 then _ else _) = _
    rw [hlink, Option.isNone_some, Bool.and_false]
    rfl
  rw [hfound] at hadded
  refine ⟨s', hadded, ?_⟩
  exact (hview' 0).trans (hview 0)

theorem user_objects_kept_added : ∃ s, UserRun s [5] [4] ∧ s.uiNumberOfUser = 1 := by
  obtain ⟨s, hrun, -⟩ := userRun_added
  exact ⟨s, hrun, (user_objects_kept hrun).2.1⟩

theorem deleteUser_listed_added : ∃ s s' : UserHeap, s.deleteUser 5 = some s' ∧
    s'.view 0 = some ⟨some guestUser, true⟩ := by
  obtain ⟨s, hrun, hview⟩ := userRun_added
  obtain ⟨s', hdelete, -, -, hsame⟩ := deleteUser_listed hrun List.mem_cons_self
  exact ⟨s, s', hdelete, (hsame 0).trans hview⟩

end ClusterFtpd
