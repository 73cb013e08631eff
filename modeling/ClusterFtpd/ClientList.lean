import ClusterFtpd.Lib.LinkedList
import Mathlib.Data.Finset.Basic

/-!
# The list of clients

`AddClient` links a new entry in before it connects to Redis, and the destructor of an entry links
it out.  The entries live at addresses; `new` may give any address that is not in use, also one
that has been freed.

`ListRun` is the claim about a sequence of calls: after every one of them the list is well formed
and holds the clients that have been returned and not deleted.

Main result: `listRight_iff`: it holds exactly when every connection to Redis succeeds.
-/

namespace ClusterFtpd

open LinkedList

/-- The fields of a `CClientEntry` that the list and its calls use. -/
structure ClientEntry where
  CtrlSock : ℤ
  pPrevClient : Option ℕ := none
  pNextClient : Option ℕ := none
  deriving DecidableEq

/-- The fields of `CFtpServer` for its clients, the allocated entries, and the open sockets. -/
structure ClientTable where
  pFirstClient : Option ℕ := none
  pLastClient : Option ℕ := none
  uiNumberOfClient : ℕ := 0
  entries : ℕ → Option ClientEntry := fun _ => none
  sockets : Finset ℤ := ∅

/-- `INVALID_SOCKET`. -/
def INVALID_SOCKET : ℤ := -1

/-- What `redisConnect` returns: `NULL`, a context with `err` set, or a connected one. -/
inductive RedisConnect where
  | null
  | err
  | connected
  deriving DecidableEq

/-- What `redisCommand` for the `SELECT` gives: whether a reply, and whether `err` is set then. -/
structure SelectOutcome where
  reply : Bool
  err : Bool
  deriving DecidableEq

/-- `p->pNextClient = v`, where `p` is not null. -/
def ClientTable.setNext (s : ClientTable) (p v : Option ℕ) : ClientTable :=
  { s with entries := fun c =>
      if p = some c then (s.entries c).map fun e => { e with pNextClient := v } else s.entries c }

/-- `p->pPrevClient = v`, where `p` is not null. -/
def ClientTable.setPrev (s : ClientTable) (p v : Option ℕ) : ClientTable :=
  { s with entries := fun c =>
      if p = some c then (s.entries c).map fun e => { e with pPrevClient := v } else s.entries c }

/-- The part of `AddClient` under the lock, for the new entry at `p`. -/
def ClientTable.link (s : ClientTable) (Sock : ℤ) (p : ℕ) : ClientTable :=
  if s.pLastClient.isSome then
    let s' := s.setNext s.pLastClient (some p)
    { s' with
      entries := Function.update s'.entries p (some { CtrlSock := Sock, pPrevClient := s.pLastClient })
      pLastClient := some p }
  else
    { s with
      entries := Function.update s.entries p (some { CtrlSock := Sock })
      pFirstClient := some p
      pLastClient := some p }

/-- `AddClient` up to the connection to Redis. -/
def ClientTable.enter (s : ClientTable) (Sock : ℤ) (p : ℕ) : ClientTable :=
  { s.link Sock p with uiNumberOfClient := (s.link Sock p).uiNumberOfClient + 1 }

/-- `CFtpServer::AddClient`, where `new` gives the address `p`: the returned pointer and what is
left.  `none` where a null context is used. -/
def addClient (s : ClientTable) (Sock : ℤ) (p : ℕ) (connect : RedisConnect)
    (select : SelectOutcome) : Option (Option ℕ × ClientTable) :=
  if Sock = INVALID_SOCKET then some (none, s)
  else
    match connect with
    | .null => none
    | .err => some (none, s.enter Sock p)
    | .connected =>
        if select.reply && select.err then some (none, s.enter Sock p)
        else some (some p, s.enter Sock p)

/-- `CFtpServer::CClientEntry::~CClientEntry` of the entry at `p`, and the release of its memory. -/
def deleteClient (s : ClientTable) (p : ℕ) : ClientTable :=
  match s.entries p with
  | none => s
  | some e =>
      let s' := (s.setNext e.pPrevClient e.pNextClient).setPrev e.pNextClient e.pPrevClient
      { s' with
        uiNumberOfClient := s'.uiNumberOfClient - 1
        pFirstClient := if s'.pFirstClient = some p then e.pNextClient else s'.pFirstClient
        pLastClient := if s'.pLastClient = some p then e.pPrevClient else s'.pLastClient
        entries := Function.update s'.entries p none }

/-! ### Sequences of calls -/

/-- A call: `accept` or `CloseSocket` of a socket, `AddClient`, or the deletion of an entry. -/
inductive ListCall where
  | accept (Sock : ℤ)
  | close (Sock : ℤ)
  | add (Sock : ℤ) (p : ℕ) (connect : RedisConnect) (select : SelectOutcome)
  | delete (p : ℕ)

/-- The table, and the clients that have been returned and not deleted, in the order of their
arrival. -/
structure ListState where
  table : ClientTable := {}
  live : List ℕ := []

/-- An accepted socket is a new one; `AddClient` is given an open socket and free memory; only a
live client is deleted. -/
def ListCall.Legal (s : ListState) : ListCall → Prop
  | .accept Sock => Sock ≠ INVALID_SOCKET ∧ Sock ∉ s.table.sockets
  | .close _ => True
  | .add Sock p _ _ => s.table.entries p = none ∧ (Sock ≠ INVALID_SOCKET → Sock ∈ s.table.sockets)
  | .delete p => p ∈ s.live

/-- The effect of a call. -/
def ListCall.run (s : ListState) : ListCall → Option ListState
  | .accept Sock => some { s with table := { s.table with sockets := insert Sock s.table.sockets } }
  | .close Sock => some { s with table := { s.table with sockets := s.table.sockets.erase Sock } }
  | .add Sock p connect select =>
      (addClient s.table Sock p connect select).map fun r => ⟨r.2, s.live ++ r.1.toList⟩
  | .delete p => some ⟨deleteClient s.table p, s.live.erase p⟩

/-- Every call of the sequence is legal when it is made. -/
def LegalCalls : ListState → List ListCall → Prop
  | _, [] => True
  | s, c :: cs => c.Legal s ∧ ∀ s', c.run s = some s' → LegalCalls s' cs

/-- The links of the entries. -/
def ClientTable.links (s : ClientTable) : Store ℕ := fun p =>
  (s.entries p).map fun e => ⟨e.pPrevClient, e.pNextClient⟩

/-- The list is well formed, its elements are the live clients, and the counter is its length. -/
structure ListExact (s : ListState) : Prop where
  list : IsList s.table.links s.table.pFirstClient s.table.pLastClient s.live
  number : s.table.uiNumberOfClient = s.live.length

/-- An `AddClient` that returns `NULL` leaves list and counter, and its socket is closed. -/
def NullRight (s : ListState) : ListCall → Prop
  | .add Sock p connect select => ∀ t, addClient s.table Sock p connect select = some (none, t) →
      IsList t.links t.pFirstClient t.pLastClient s.live ∧
        t.uiNumberOfClient = s.table.uiNumberOfClient ∧
        (Sock ≠ INVALID_SOCKET → Sock ∉ t.sockets)
  | _ => True

/-- Every call of the sequence returns, and the list is exact after each of them. -/
def ListRight : ListState → List ListCall → Prop
  | s, [] => ListExact s
  | s, c :: cs => ListExact s ∧ NullRight s c ∧ ∃ s', c.run s = some s' ∧ ListRight s' cs

/-- The connection to Redis succeeds. -/
def ListCall.Connects : ListCall → Prop
  | .add Sock _ connect select =>
      Sock = INVALID_SOCKET ∨ (connect = .connected ∧ ¬ (select.reply = true ∧ select.err = true))
  | _ => True

variable {s : ClientTable} {st : ListState} {cs : List ℕ} {p : ℕ} {Sock : ℤ}

/-! ### The links -/

theorem links_setNext (q v : Option ℕ) :
    (s.setNext q v).links = LinkedList.setNext s.links q v := by
  funext c
  show ((if q = some c then _ else s.entries c : Option ClientEntry).map _ : Option (Links ℕ)) =
    if q = some c then (s.links c).map _ else s.links c
  by_cases h : q = some c
  · rw [if_pos h, if_pos h, ClientTable.links, Option.map_map, Option.map_map]
    rfl
  · rw [if_neg h, if_neg h]
    rfl

theorem links_setPrev (q v : Option ℕ) :
    (s.setPrev q v).links = LinkedList.setPrev s.links q v := by
  funext c
  show ((if q = some c then _ else s.entries c : Option ClientEntry).map _ : Option (Links ℕ)) =
    if q = some c then (s.links c).map _ else s.links c
  by_cases h : q = some c
  · rw [if_pos h, if_pos h, ClientTable.links, Option.map_map, Option.map_map]
    rfl
  · rw [if_neg h, if_neg h]
    rfl

theorem links_update (e : Option ClientEntry) :
    ({ s with entries := Function.update s.entries p e } : ClientTable).links =
      Function.update s.links p (e.map fun e => ⟨e.pPrevClient, e.pNextClient⟩) := by
  funext c
  show (Function.update s.entries p e c).map _ = Function.update s.links p _ c
  by_cases h : c = p
  · subst h
    rw [Function.update_self, Function.update_self]
  · rw [Function.update_of_ne h, Function.update_of_ne h]
    rfl

/-- The new entry is the last of the list. -/
theorem link_list (h : IsList s.links s.pFirstClient s.pLastClient cs) (hp : p ∉ cs) :
    IsList (s.link Sock p).links (s.link Sock p).pFirstClient (s.link Sock p).pLastClient
      (cs ++ [p]) := by
  have hpush := h.push hp
  unfold ClientTable.link
  cases hlast : s.pLastClient with
  | none =>
      have hcs : cs = [] := by
        have hnil := h.last_eq
        rw [hlast] at hnil
        exact List.getLast?_eq_none_iff.mp hnil.symm
      have hfirst : s.pFirstClient = none := by
        rw [h.first_eq, hcs]
        rfl
      rw [hlast, hfirst] at hpush
      have hsame : LinkedList.setNext s.links none (some p) = s.links := by
        funext c
        exact setNext_of_ne (by simp)
      rw [hsame] at hpush
      show IsList ({ s with entries := Function.update s.entries p _ } : ClientTable).links _ _ _
      rw [links_update]
      exact hpush
  | some l =>
      have hne : s.pFirstClient.or (some p) = s.pFirstClient := by
        rw [h.first_eq]
        cases cs with
        | nil =>
            have hnil := h.last_eq
            rw [hlast] at hnil
            exact absurd hnil (by simp)
        | cons c cs => rfl
      rw [hne, hlast] at hpush
      show IsList ({ s.setNext (some l) (some p) with
        entries := Function.update (s.setNext (some l) (some p)).entries p _ } : ClientTable).links _ _ _
      rw [links_update, links_setNext]
      exact hpush

theorem enter_number (s : ClientTable) (Sock : ℤ) (p : ℕ) :
    (s.enter Sock p).uiNumberOfClient = s.uiNumberOfClient + 1 := by
  unfold ClientTable.enter ClientTable.link
  split_ifs <;> rfl

theorem enter_sockets (s : ClientTable) (Sock : ℤ) (p : ℕ) :
    (s.enter Sock p).sockets = s.sockets := by
  unfold ClientTable.enter ClientTable.link
  split_ifs <;> rfl

/-- The entry is linked out of the list. -/
theorem deleteClient_list {xs ys : List ℕ}
    (h : IsList s.links s.pFirstClient s.pLastClient (xs ++ p :: ys)) :
    IsList (deleteClient s p).links (deleteClient s p).pFirstClient (deleteClient s p).pLastClient
        (xs ++ ys) ∧
      (deleteClient s p).uiNumberOfClient = s.uiNumberOfClient - 1 := by
  have hlinks := h.links
  have hremove := h.remove
  unfold ClientTable.links at hlinks
  rw [Option.map_eq_some_iff] at hlinks
  obtain ⟨e, he, hle⟩ := hlinks
  rw [Links.mk.injEq] at hle
  obtain ⟨hprev, hnext⟩ := hle
  unfold deleteClient
  rw [he]
  refine ⟨?_, rfl⟩
  show IsList ({ (s.setNext e.pPrevClient e.pNextClient).setPrev e.pNextClient e.pPrevClient with
    entries := Function.update
      ((s.setNext e.pPrevClient e.pNextClient).setPrev e.pNextClient e.pPrevClient).entries p none } :
        ClientTable).links (if s.pFirstClient = some p then e.pNextClient else s.pFirstClient)
    (if s.pLastClient = some p then e.pPrevClient else s.pLastClient) (xs ++ ys)
  rw [links_update, links_setPrev, links_setNext, hprev, hnext]
  exact hremove

/-! ### One call -/

/-- The address that `new` gives is not in the list. -/
theorem ListExact.fresh (h : ListExact st) (hp : st.table.entries p = none) : p ∉ st.live := by
  intro hmem
  refine h.list.chain.ne_none hmem ?_
  unfold ClientTable.links
  rw [hp]
  rfl

theorem listExact_start : ListExact {} := ⟨isList_nil _, rfl⟩

/-- A call whose connection succeeds keeps the list exact. -/
theorem ListExact.call (h : ListExact st) {c : ListCall} (hlegal : c.Legal st)
    (hc : c.Connects) : NullRight st c ∧ ∃ st', c.run st = some st' ∧ ListExact st' := by
  cases c with
  | accept Sock => exact ⟨trivial, _, rfl, h.list, h.number⟩
  | close Sock => exact ⟨trivial, _, rfl, h.list, h.number⟩
  | add Sock p connect select =>
      by_cases hinvalid : Sock = INVALID_SOCKET
      · have hadd : addClient st.table Sock p connect select = some (none, st.table) :=
          if_pos hinvalid
        refine ⟨?_, ⟨st.table, st.live ++ []⟩, ?_, ?_⟩
        · intro t ht
          rw [hadd, Option.some.injEq, Prod.mk.injEq] at ht
          rw [← ht.2]
          exact ⟨h.list, rfl, fun hne => absurd hinvalid hne⟩
        · show (addClient st.table Sock p connect select).map _ = _
          rw [hadd]
          rfl
        · rw [List.append_nil]
          exact h
      · obtain ⟨hconnect, hselect⟩ := hc.resolve_left hinvalid
        have hadd : addClient st.table Sock p connect select =
            some (some p, st.table.enter Sock p) := by
          unfold addClient
          rw [if_neg hinvalid, hconnect]
          exact if_neg (by simpa using hselect)
        refine ⟨?_, ⟨st.table.enter Sock p, st.live ++ [p]⟩, ?_, ?_⟩
        · intro t ht
          rw [hadd, Option.some.injEq, Prod.mk.injEq] at ht
          exact absurd ht.1 (by simp)
        · show (addClient st.table Sock p connect select).map _ = _
          rw [hadd]
          rfl
        · refine ⟨link_list h.list (h.fresh hlegal.1), ?_⟩
          show (st.table.enter Sock p).uiNumberOfClient = (st.live ++ [p]).length
          rw [enter_number, h.number, List.length_append, List.length_singleton]
  | delete p =>
      obtain ⟨xs, ys, hlive⟩ := List.append_of_mem (show p ∈ st.live from hlegal)
      have hlist := h.list
      have hnodup := hlist.nodup
      rw [hlive] at hlist hnodup
      obtain ⟨hlist', hnumber⟩ := deleteClient_list hlist
      have hp : p ∉ xs := by
        intro hmem
        rw [List.nodup_append] at hnodup
        exact hnodup.2.2 p hmem p List.mem_cons_self rfl
      have herase : st.live.erase p = xs ++ ys := by
        rw [hlive, List.erase_append_right _ hp, List.erase_cons_head]
      refine ⟨trivial, ⟨deleteClient st.table p, st.live.erase p⟩, rfl, ?_, ?_⟩
      · rw [herase]
        exact hlist'
      · show (deleteClient st.table p).uiNumberOfClient = (st.live.erase p).length
        rw [hnumber, herase, h.number, hlive]
        simp

/-- A call that does not connect goes wrong. -/
theorem connects_of_right {c : ListCall} {st' : ListState} (hlegal : c.Legal st)
    (hnull : NullRight st c) (hrun : c.run st = some st') : c.Connects := by
  cases c with
  | accept Sock => trivial
  | close Sock => trivial
  | delete p => trivial
  | add Sock p connect select =>
      by_cases hinvalid : Sock = INVALID_SOCKET
      · exact .inl hinvalid
      right
      have hopen := hlegal.2 hinvalid
      have hclosed : ∀ t, addClient st.table Sock p connect select = some (none, t) →
          t.sockets ≠ st.table.sockets := by
        intro t ht heq
        have hnot := (hnull t ht).2.2 hinvalid
        rw [heq] at hnot
        exact hnot hopen
      cases connect with
      | null =>
          have hadd : addClient st.table Sock p .null select = none := if_neg hinvalid
          have hrun' : (addClient st.table Sock p .null select).map _ = some st' := hrun
          rw [hadd] at hrun'
          exact absurd hrun' (by simp)
      | err =>
          exact absurd (enter_sockets st.table Sock p) (hclosed _ (if_neg hinvalid))
      | connected =>
          refine ⟨rfl, ?_⟩
          intro hselect
          have hadd : addClient st.table Sock p .connected select =
              some (none, st.table.enter Sock p) := by
            unfold addClient
            rw [if_neg hinvalid]
            exact if_pos (by simpa using hselect)
          exact absurd (enter_sockets st.table Sock p) (hclosed _ hadd)

/-! ### Every sequence of calls -/

/-- **The client list** is exact in the whole sequence exactly when no call fails to connect. -/
theorem listRight_iff (calls : List ListCall) (hlegal : LegalCalls {} calls) :
    ListRight {} calls ↔ ∀ c ∈ calls, c.Connects := by
  have hall : ∀ st : ListState, ListExact st → LegalCalls st calls →
      (ListRight st calls ↔ ∀ c ∈ calls, c.Connects) := by
    clear hlegal
    induction calls with
    | nil =>
        intro st hst _
        exact iff_of_true hst (by simp)
    | cons c calls ih =>
        intro st hst hlegal
        obtain ⟨hc, hrest⟩ := hlegal
        constructor
        · intro hright
          obtain ⟨-, hnull, st', hrun, hright'⟩ := hright
          have hconnects := connects_of_right hc hnull hrun
          obtain ⟨-, st₁, hrun₁, hexact⟩ := hst.call hc hconnects
          rw [hrun, Option.some.injEq] at hrun₁
          subst hrun₁
          intro d hd
          obtain rfl | hmem := List.mem_cons.mp hd
          · exact hconnects
          · exact (ih st' hexact (hrest st' hrun)).mp hright' d hmem
        · intro hconnects
          obtain ⟨hnull, st', hrun, hexact⟩ := hst.call hc (hconnects c List.mem_cons_self)
          refine ⟨hst, hnull, st', hrun, ?_⟩
          exact (ih st' hexact (hrest st' hrun)).mpr fun d hd =>
            hconnects d (List.mem_cons_of_mem c hd)
  exact hall {} listExact_start hlegal

/-- A client comes and leaves. -/
def oneVisit : List ListCall :=
  [.accept 5, .add 5 1 .connected ⟨true, false⟩, .close 5, .delete 1]

theorem legalCalls_oneVisit : LegalCalls {} oneVisit := by
  refine ⟨⟨by decide, Finset.notMem_empty 5⟩, fun s₁ h₁ => ?_⟩
  obtain rfl := (Option.some.inj h₁).symm
  refine ⟨⟨rfl, fun _ => by decide⟩, fun s₂ h₂ => ?_⟩
  obtain rfl := (Option.some.inj h₂).symm
  refine ⟨trivial, fun s₃ h₃ => ?_⟩
  obtain rfl := (Option.some.inj h₃).symm
  refine ⟨List.mem_cons_self, fun s₄ _ => trivial⟩

theorem listRight_iff_oneVisit : ListRight {} oneVisit ↔ ∀ c ∈ oneVisit, c.Connects :=
  listRight_iff oneVisit legalCalls_oneVisit

/-- **A connection that fails**: the entry stays in the list, is counted, and its socket stays
open. -/
theorem failed_client_stays :
    ¬ ∀ calls, LegalCalls {} calls → ListRight {} calls := by
  intro hall
  have hlegal : LegalCalls {} [.accept 5, .add 5 1 .err ⟨false, true⟩] := by
    refine ⟨⟨by decide, Finset.notMem_empty 5⟩, fun s₁ h₁ => ?_⟩
    obtain rfl := (Option.some.inj h₁).symm
    exact ⟨⟨rfl, fun _ => by decide⟩, fun s₂ _ => trivial⟩
  obtain ⟨-, -, s₁, h₁, -, hnull, -⟩ := hall _ hlegal
  obtain rfl := (Option.some.inj h₁).symm
  have hnumber := (hnull _ rfl).2.1
  exact absurd hnumber (by decide)

end ClusterFtpd
