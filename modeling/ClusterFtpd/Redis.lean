import ClusterFtpd.Lib.Interaction
import ClusterFtpd.Lib.MachineInt
import Mathlib.Data.Finmap

/-!
# The Redis database and the commands the servers send it

The keyspace holds the hashes `dirent:<fid>`, `stat:<fid>` and `username:<login>` and the counters
`fid_counter` and `transaction_counter`.  Fids are formatted with `%u`, so a key is the low 32 bits
of a fid.  An absent hash and an empty one are the same thing: Redis deletes a hash with its last
field.

* `Dirent` keeps, for every entry name, the integer whose decimal text is the value of the field;
* `StatHash` keeps the fields the programs write into `stat:<fid>`;
* `UserHash` keeps the fields `SearchUserFromLogin` reads, each as the text in the record.

`RedisOp` lists the commands.  A `MULTI .. EXEC` block is one operation, `multiExec`, with the list
of its queued writes.  The connection is taken to stay up: no command is answered by an error.
-/

namespace ClusterFtpd

open Interaction MachineInt

/-- A C string, without its terminator. -/
abbrev Text := List Char

/-- The hash `dirent:<fid>`. -/
abbrev Dirent := Finmap (fun _ : Text => ℤ)

/-- The hash `stat:<fid>`. -/
@[ext] structure StatHash where
  st_mode : Option ℤ := none
  st_size : Option ℤ := none
  st_uid : Option ℤ := none
  st_gid : Option ℤ := none
  st_mtime : Option ℤ := none
  slave_host : Option Text := none
  slave_port : Option ℤ := none
  deriving DecidableEq

/-- The absent hash. -/
def StatHash.absent : StatHash := {}

/-- The hash `username:<login>`; a field that is not there reads as the empty text. -/
structure UserHash where
  password : Text := []
  start_directory : Text := []
  enabled : Text := []
  uid : Text := []
  gid : Text := []
  max_logins : Text := []
  privileges : Text := []
  deriving DecidableEq

/-- The part of the database the servers use. -/
@[ext] structure Redis where
  fid_counter : ℕ
  transaction_counter : ℕ
  dirent : ℕ → Dirent
  stat : ℕ → StatHash
  username : Text → Option UserHash

/-- The fields `HSET stat:%u` writes. -/
inductive StatField where
  | st_mode (v : ℕ)
  | st_size (v : ℕ)
  | st_uid (v : ℕ)
  | st_gid (v : ℕ)
  | st_mtime (v : ℕ)
  | slave_host (v : Text)
  | slave_port (v : ℕ)
  deriving DecidableEq

/-- `HSET` on a `stat` hash. -/
def StatHash.hset (h : StatHash) : StatField → StatHash
  | .st_mode v => { h with st_mode := some v }
  | .st_size v => { h with st_size := some v }
  | .st_uid v => { h with st_uid := some v }
  | .st_gid v => { h with st_gid := some v }
  | .st_mtime v => { h with st_mtime := some v }
  | .slave_host v => { h with slave_host := some v }
  | .slave_port v => { h with slave_port := some v }

/-- A command queued between `MULTI` and `EXEC`.  `delDiren` is `rmdir`'s `DEL diren:%u`: no
command ever creates that key. -/
inductive Write where
  | hsetDirent (key : ℕ) (entry : Text) (v : ℤ)
  | hdelDirent (key : ℕ) (entry : Text)
  | hsetStat (key : ℕ) (f : StatField)
  | delStat (key : ℕ)
  | delDiren (key : ℕ)
  deriving DecidableEq

/-- The effect of one queued command. -/
def Write.apply : Write → Redis → Redis
  | .hsetDirent k e v, db =>
      { db with dirent := Function.update db.dirent k ((db.dirent k).insert e v) }
  | .hdelDirent k e, db =>
      { db with dirent := Function.update db.dirent k ((db.dirent k).erase e) }
  | .hsetStat k f, db => { db with stat := Function.update db.stat k ((db.stat k).hset f) }
  | .delStat k, db => { db with stat := Function.update db.stat k .absent }
  | .delDiren _, db => db

/-- The effect of `EXEC`: the queued commands in order. -/
def applyAll : List Write → Redis → Redis
  | [], db => db
  | w :: ws, db => applyAll ws (w.apply db)

/-- The commands sent to Redis, with formatted keys. -/
inductive RedisOp where
  | hgetallDirent (key : ℕ)
  | hlenDirent (key : ℕ)
  | hgetallStat (key : ℕ)
  | incrFidCounter
  | incrTransactionCounter
  | hgetallUsername (login : Text)
  | multiExec (queued : List Write)

/-- The reply to each command, as the programs use it. -/
abbrev RedisOp.Res : RedisOp → Type
  | .hgetallDirent _ => Dirent
  | .hlenDirent _ => ℕ
  | .hgetallStat _ => StatHash
  | .incrFidCounter => ℕ
  | .incrTransactionCounter => ℕ
  | .hgetallUsername _ => Option UserHash
  | .multiExec _ => Unit

/-- The interface of a Redis connection. -/
abbrev RedisI : Interface := ⟨RedisOp, RedisOp.Res⟩

/-- Programs that talk to Redis only. -/
abbrev RedisProg := Prog RedisI

/-- The server's side of the connection. -/
def serveRedis : Handler RedisI Redis
  | .hgetallDirent k, db => (db.dirent k, db)
  | .hlenDirent k, db => ((db.dirent k).keys.card, db)
  | .hgetallStat k, db => (db.stat k, db)
  | .incrFidCounter, db => (db.fid_counter + 1, { db with fid_counter := db.fid_counter + 1 })
  | .incrTransactionCounter, db =>
      (db.transaction_counter + 1, { db with transaction_counter := db.transaction_counter + 1 })
  | .hgetallUsername login, db => (db.username login, db)
  | .multiExec ws, db => ((), applyAll ws db)

@[simp] theorem serveRedis_hgetallDirent (k : ℕ) (db : Redis) :
    serveRedis (.hgetallDirent k) db = (db.dirent k, db) := rfl

@[simp] theorem serveRedis_hlenDirent (k : ℕ) (db : Redis) :
    serveRedis (.hlenDirent k) db = ((db.dirent k).keys.card, db) := rfl

@[simp] theorem serveRedis_hgetallStat (k : ℕ) (db : Redis) :
    serveRedis (.hgetallStat k) db = (db.stat k, db) := rfl

@[simp] theorem serveRedis_incrFidCounter (db : Redis) :
    serveRedis .incrFidCounter db =
      (db.fid_counter + 1, { db with fid_counter := db.fid_counter + 1 }) := rfl

@[simp] theorem serveRedis_incrTransactionCounter (db : Redis) :
    serveRedis .incrTransactionCounter db =
      (db.transaction_counter + 1,
        { db with transaction_counter := db.transaction_counter + 1 }) := rfl

@[simp] theorem serveRedis_hgetallUsername (login : Text) (db : Redis) :
    serveRedis (.hgetallUsername login) db = (db.username login, db) := rfl

@[simp] theorem serveRedis_multiExec (ws : List Write) (db : Redis) :
    serveRedis (.multiExec ws) db = ((), applyAll ws db) := rfl

/-! ### The writes, field by field -/

@[simp] theorem applyAll_nil (db : Redis) : applyAll [] db = db := rfl

@[simp] theorem applyAll_cons (w : Write) (ws : List Write) (db : Redis) :
    applyAll (w :: ws) db = applyAll ws (w.apply db) := rfl

@[simp] theorem Write.apply_fid_counter (w : Write) (db : Redis) :
    (w.apply db).fid_counter = db.fid_counter := by cases w <;> rfl

@[simp] theorem Write.apply_transaction_counter (w : Write) (db : Redis) :
    (w.apply db).transaction_counter = db.transaction_counter := by cases w <;> rfl

@[simp] theorem Write.apply_username (w : Write) (db : Redis) :
    (w.apply db).username = db.username := by cases w <;> rfl

@[simp] theorem applyAll_fid_counter (ws : List Write) (db : Redis) :
    (applyAll ws db).fid_counter = db.fid_counter := by
  induction ws generalizing db with
  | nil => rfl
  | cons w ws ih => simp [ih]

@[simp] theorem applyAll_username (ws : List Write) (db : Redis) :
    (applyAll ws db).username = db.username := by
  induction ws generalizing db with
  | nil => rfl
  | cons w ws ih => simp [ih]

/-- A hash has no fields exactly when it has length 0. -/
theorem Dirent.card_keys_eq_zero (h : Dirent) : h.keys.card = 0 ↔ h = ∅ := by
  rw [Finset.card_eq_zero]
  constructor
  · intro hk
    apply Finmap.ext_lookup
    intro n
    rw [Finmap.lookup_empty, Finmap.lookup_eq_none, ← Finmap.mem_keys, hk]
    exact Finset.notMem_empty n
  · rintro rfl
    exact Finmap.keys_empty

theorem Dirent.ne_empty_of_lookup {h : Dirent} {n : Text} {v : ℤ} (hv : h.lookup n = some v) :
    h ≠ ∅ := by
  rintro rfl
  simp at hv

theorem Dirent.exists_lookup_of_ne_empty {h : Dirent} (hne : h ≠ ∅) :
    ∃ n v, h.lookup n = some v := by
  by_contra hno
  apply hne
  apply Finmap.ext_lookup
  intro n
  rw [Finmap.lookup_empty]
  cases hv : h.lookup n with
  | none => rfl
  | some v => exact absurd ⟨n, v, hv⟩ hno

theorem Dirent.insert_ne_empty (h : Dirent) (n : Text) (v : ℤ) : h.insert n v ≠ ∅ :=
  Dirent.ne_empty_of_lookup (Finmap.lookup_insert h)

end ClusterFtpd
