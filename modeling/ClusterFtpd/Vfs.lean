import ClusterFtpd.Redis

/-!
# `redis_vfs`: the virtual file system over Redis

Every static function of `redis_vfs` as a program of Redis commands, in the order of the source.
The argument `now` of the writing functions is what `time(NULL)` returns.

The walk of `lookup_fid` keeps its shape: the loop asks `HGETALL dirent:<fid>` for the first
remaining token, takes the token off when the entry is there, answers -1 when it is not, and asks
the same question again when the hash has no fields at all.  The last branch is a `poll`.
-/

namespace ClusterFtpd

open Interaction MachineInt

/-- `struct slave_info`.  The constructor leaves `port` without a value. -/
structure SlaveInfo where
  host : Text := []
  port : Option UInt16 := none
  deriving DecidableEq

/-- The fields of `struct stat` that `redis_vfs::stat` fills in. -/
structure Stat where
  st_mode : ℕ
  st_size : ℤ
  st_uid : ℕ
  st_gid : ℕ
  st_mtime : ℤ
  deriving DecidableEq

/-- `S_ISDIR`: the file type bits are `0040000`. -/
def S_ISDIR (mode : ℕ) : Bool := mode &&& 0o170000 == 0o040000

/-- `S_ISREG`: the file type bits are `0100000`. -/
def S_ISREG (mode : ℕ) : Bool := mode &&& 0o170000 == 0o100000

/-- `atoi` of a field that holds a decimal number; a field that is not there reads as 0. -/
def atoi (v : Option ℤ) : ℤ := int32 (v.getD 0)

/-- The conversions `redis_vfs::stat` applies to the fields of `stat:<fid>`. -/
def StatHash.toStat (h : StatHash) : Stat where
  st_mode := u32 (atoi h.st_mode)
  st_size := atoi h.st_size
  st_uid := u32 (atoi h.st_uid)
  st_gid := u32 (atoi h.st_gid)
  st_mtime := atoi h.st_mtime

/-- The tokens `lookup_fid` walks along: the path split at `/`, without the first piece and
without an empty last one.  `none` where `tokens.back()` is called on an empty vector. -/
def lookupTokens (path : Text) : Option (List Text) :=
  match (path.splitOn '/').tail with
  | [] => none
  | ts => some (if ts.getLast? = some [] then ts.dropLast else ts)

/-- The loop of `lookup_fid`. -/
def lookupWalk (fid : ℤ) : List Text → RedisProg ℤ
  | [] => .ret fid
  | t :: ts =>
      .poll (.hgetallDirent (u32 fid)) (fun my_map => my_map = ∅) fun my_map =>
        match my_map.lookup t with
        | some v => lookupWalk (int32 v) ts
        | none => .ret (-1)

/-- `redis_vfs::lookup_fid`. -/
def lookupFid (path : Text) : RedisProg ℤ :=
  if (path.splitOn '/').length = 2 ∧ (path.splitOn '/')[1]? = some [] then .ret 0
  else
    match lookupTokens path with
    | none => .stop .undefinedBehaviour
    | some ts => lookupWalk 0 ts

/-- `redis_vfs::stat`; `none` stands for the result -1, `some st` for 0 with `st` in `*buf`. -/
def stat (path : Text) : RedisProg (Option Stat) := do
  let fid ← lookupFid path
  if fid < 0 then
    return none
  else
    let reply ← Prog.op (I := RedisI) (.hgetallStat (u32 fid))
    if reply = .absent then return none else return some reply.toStat

/-- `redis_vfs::lookup_slave_info` of a fid. -/
def lookupSlaveInfoFid (fid : ℤ) : RedisProg SlaveInfo := do
  let reply ← Prog.op (I := RedisI) (.hgetallStat (u32 fid))
  if reply = .absent then return {}
  else
    return { host := reply.slave_host.getD [], port := some (.ofNat (u32 (atoi reply.slave_port))) }

/-- `redis_vfs::lookup_slave_info` of a path. -/
def lookupSlaveInfo (path : Text) : RedisProg SlaveInfo := do
  let fid ← lookupFid path
  lookupSlaveInfoFid fid

/-- `redis_vfs::get_new_fid`. -/
def getNewFid : RedisProg ℤ := do
  let n ← Prog.op (I := RedisI) .incrFidCounter
  return n

/-- `redis_transaction::get_new_transaction_id`. -/
def getNewTransactionId : RedisProg ℤ := do
  let n ← Prog.op (I := RedisI) .incrTransactionCounter
  return n

/-- `/` and `\`, the characters `find_last_of` looks for. -/
def isSlash (c : Char) : Bool := c == '/' || c == '\\'

/-- The length of `path.substr(0, found + 1)`: up to and with the last slash or backslash. -/
def parentLength (path : Text) : ℕ :=
  path.length - (path.reverse.takeWhile fun c => !isSlash c).length

/-- `spath.substr(0, found + 1)`. -/
def parentPath (path : Text) : Text := path.take (parentLength path)

/-- `spath.substr(found + 1)`. -/
def entryName (path : Text) : Text := path.drop (parentLength path)

/-- The field every new directory gets, so that its hash exists. -/
def placeholder : Text := ".placeholder".toList

/-- The transaction of `mkdir`. -/
def mkdirWrites (now : ℤ) (parent_fid : ℤ) (entry : Text) (uid gid : ℕ) (new_fid : ℤ) :
    List Write :=
  [.hsetStat (u32 new_fid) (.st_size 4096),
   .hsetStat (u32 new_fid) (.st_mode 16895),
   .hsetStat (u32 new_fid) (.st_uid (u32 uid)),
   .hsetStat (u32 new_fid) (.st_gid (u32 gid)),
   .hsetStat (u32 new_fid) (.st_mtime (u32 now)),
   .hsetDirent (u32 parent_fid) entry (u32 new_fid),
   .hsetDirent (u32 new_fid) placeholder (-1)]

/-- `redis_vfs::mkdir`. -/
def mkdir (now : ℤ) (path : Text) (uid gid : ℕ) : RedisProg ℤ := do
  let new_fid ← getNewFid
  let parent_fid ← lookupFid (parentPath path)
  if parent_fid < 0 then
    return -1
  else
    Prog.op (I := RedisI) (.multiExec (mkdirWrites now parent_fid (entryName path) uid gid new_fid))
    return 0

/-- The transaction of `rmdir`; the third command names the key `diren:<fid>`. -/
def rmdirWrites (parent_fid : ℤ) (entry : Text) (fid : ℤ) : List Write :=
  [.hdelDirent (u32 parent_fid) entry, .delStat (u32 fid), .delDiren (u32 fid)]

/-- `redis_vfs::rmdir`. -/
def rmdir (path : Text) : RedisProg ℤ := do
  let fid ← lookupFid path
  if fid < 0 then
    return -1
  else
    let size ← Prog.op (I := RedisI) (.hlenDirent (u32 fid))
    if size = 0 then
      let parent_fid ← lookupFid (parentPath path)
      if parent_fid < 0 then
        return -1
      else
        Prog.op (I := RedisI) (.multiExec (rmdirWrites parent_fid (entryName path) fid))
        return 0
    else
      return -1

/-- The transaction of `rename`. -/
def renameWrites (oldparent_fid : ℤ) (oldentry : Text) (newparent_fid : ℤ) (newentry : Text)
    (fid : ℤ) : List Write :=
  [.hdelDirent (u32 oldparent_fid) oldentry, .hsetDirent (u32 newparent_fid) newentry (u32 fid)]

/-- `redis_vfs::rename`.  The fid of the new parent is looked up along the old parent's path. -/
def rename (oldpath newpath : Text) : RedisProg ℤ := do
  let fid ← lookupFid oldpath
  if fid < 0 then
    return -1
  else
    let oldparent_fid ← lookupFid (parentPath oldpath)
    if oldparent_fid < 0 then
      return -1
    else
      let newparent_fid ← lookupFid (parentPath oldpath)
      if newparent_fid < 0 then
        return -1
      else
        Prog.op (I := RedisI) (.multiExec
          (renameWrites oldparent_fid (entryName oldpath) newparent_fid (entryName newpath) fid))
        return 0

/-- The transaction of `remove`. -/
def removeWrites (parent_fid : ℤ) (entry : Text) (fid : ℤ) : List Write :=
  [.hdelDirent (u32 parent_fid) entry, .delStat (u32 fid)]

/-- `redis_vfs::remove`. -/
def remove (path : Text) : RedisProg ℤ := do
  let fid ← lookupFid path
  if fid < 0 then
    return -1
  else
    let parent_fid ← lookupFid (parentPath path)
    if parent_fid < 0 then
      return -1
    else
      Prog.op (I := RedisI) (.multiExec (removeWrites parent_fid (entryName path) fid))
      return 0

/-- What `save_new_file` records about a file. -/
structure FileRecord where
  size : ℤ
  uid : ℕ
  gid : ℕ
  fid : ℤ
  slave : SlaveInfo

/-- The transaction of `save_new_file`. -/
def saveWrites (now : ℤ) (parent_fid : ℤ) (entry : Text) (f : FileRecord) : List Write :=
  [.hsetDirent (u32 parent_fid) entry (u32 f.fid),
   .hsetStat (u32 f.fid) (.st_mode 33279),
   .hsetStat (u32 f.fid) (.st_size (u32 f.size)),
   .hsetStat (u32 f.fid) (.st_uid (u32 f.uid)),
   .hsetStat (u32 f.fid) (.st_gid (u32 f.gid)),
   .hsetStat (u32 f.fid) (.st_mtime (u32 now)),
   .hsetStat (u32 f.fid) (.slave_host f.slave.host),
   .hsetStat (u32 f.fid) (.slave_port (f.slave.port.getD 0).toNat)]

/-- `redis_vfs::save_new_file`. -/
def saveNewFile (now : ℤ) (path : Text) (f : FileRecord) : RedisProg ℤ := do
  let parent_fid ← lookupFid (parentPath path)
  if parent_fid < 0 then
    return -1
  else
    Prog.op (I := RedisI) (.multiExec (saveWrites now parent_fid (entryName path) f))
    return 0

end ClusterFtpd
