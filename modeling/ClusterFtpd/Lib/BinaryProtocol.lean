import ClusterFtpd.Lib.FieldCodec
import Mathlib.Tactic.Ring

/-!
# The binary protocol

A protocol over bytes.  Numbers are big-endian, a string follows its length, the header of a field
is the code of its type and its number, and a stop mark is one zero byte.  The ends of structs,
fields and messages take nothing.  A message starts with a version.

Containers are left out: a field of such a type is not skipped, it is an error.

Main result: `binary_lawful`.
-/

namespace BinaryProtocol

open FieldCodec

abbrev ByteReader (α : Type) := Reader UInt8 α

/-! ### Numbers -/

/-- The lowest `n` bytes of a number, the highest first. -/
def bigEndian : (n : Nat) → (x : Nat) → List UInt8
  | 0, _ => []
  | n + 1, x => bigEndian n (x / 256) ++ [UInt8.ofNat (x % 256)]

/-- The number of some bytes. -/
def ofBigEndian (bs : List UInt8) : Nat := bs.foldl (fun x b => x * 256 + b.toNat) 0

theorem length_bigEndian (n x : Nat) : (bigEndian n x).length = n := by
  induction n generalizing x with
  | zero => rfl
  | succ n ih => rw [bigEndian, List.length_append, ih, List.length_singleton]

theorem ofBigEndian_bigEndian {n x : Nat} (hx : x < 256 ^ n) : ofBigEndian (bigEndian n x) = x := by
  induction n generalizing x with
  | zero =>
      rw [Nat.pow_zero] at hx
      show 0 = x
      omega
  | succ n ih =>
      have hdiv : x / 256 < 256 ^ n := by
        rw [Nat.pow_succ] at hx
        exact Nat.div_lt_of_lt_mul (by rw [Nat.mul_comm]; exact hx)
      have hlow : (UInt8.ofNat (x % 256)).toNat = x % 256 := by
        rw [UInt8.toNat_ofNat']
        omega
      have hhigh := ih hdiv
      unfold ofBigEndian at hhigh ⊢
      rw [bigEndian, List.foldl_append, hhigh, List.foldl_cons, List.foldl_nil, hlow]
      omega

/-- Take `n` bytes. -/
def takeBytes (n : Nat) : ByteReader (List UInt8) := fun s =>
  if n ≤ s.length then some (s.take n, s.drop n) else none

theorem reads_takeBytes (bs : List UInt8) : Reads (takeBytes bs.length) bs bs := by
  intro rest
  show (if bs.length ≤ (bs ++ rest).length then
    some ((bs ++ rest).take bs.length, (bs ++ rest).drop bs.length) else none) = some (bs, rest)
  rw [if_pos (by rw [List.length_append]; omega), List.take_left, List.drop_left]

theorem takeBytes_length {n : Nat} {s bs s' : List UInt8}
    (h : (takeBytes n).run s = some (bs, s')) : s'.length + n = s.length := by
  change (if n ≤ s.length then some (s.take n, s.drop n) else none) = some (bs, s') at h
  by_cases hn : n ≤ s.length
  · rw [if_pos hn, Option.some.injEq, Prod.mk.injEq] at h
    rw [← h.2, List.length_drop]
    omega
  · rw [if_neg hn] at h
    exact absurd h (by simp)

theorem shrinks_takeBytes (n : Nat) : Shrinks (takeBytes n) := by
  intro s bs s' h
  have hlen := takeBytes_length h
  omega

/-- An unsigned number of `n` bytes. -/
def readUInt (n : Nat) : ByteReader Nat := do
  let bs ← takeBytes n
  return ofBigEndian bs

theorem reads_readUInt {n x : Nat} (hx : x < 256 ^ n) : Reads (readUInt n) (bigEndian n x) x := by
  have hbytes := reads_takeBytes (bigEndian n x)
  rw [length_bigEndian] at hbytes
  have hmap := hbytes.map ofBigEndian
  rw [ofBigEndian_bigEndian hx] at hmap
  exact hmap

theorem shrinks_readUInt (n : Nat) : Shrinks (readUInt n) :=
  (shrinks_takeBytes n).bind fun bs => Shrinks.ret (ofBigEndian bs)

/-! ### Values -/

def writeI16 (v : Int16) : List UInt8 := bigEndian 2 v.toBitVec.toNat

def writeI32 (v : Int32) : List UInt8 := bigEndian 4 v.toBitVec.toNat

def writeI64 (v : Int64) : List UInt8 := bigEndian 8 v.toBitVec.toNat

def readI16 : ByteReader Int16 := do
  let x ← readUInt 2
  return Int16.ofBitVec (BitVec.ofNat 16 x)

def readI32 : ByteReader Int32 := do
  let x ← readUInt 4
  return Int32.ofBitVec (BitVec.ofNat 32 x)

def readI64 : ByteReader Int64 := do
  let x ← readUInt 8
  return Int64.ofBitVec (BitVec.ofNat 64 x)

theorem reads_i16 (v : Int16) : Reads readI16 (writeI16 v) v := by
  have hmap := (reads_readUInt (n := 2) v.toBitVec.isLt).map fun x =>
    Int16.ofBitVec (BitVec.ofNat 16 x)
  rw [BitVec.ofNat_toNat, BitVec.setWidth_eq] at hmap
  exact hmap

theorem reads_i32 (v : Int32) : Reads readI32 (writeI32 v) v := by
  have hmap := (reads_readUInt (n := 4) v.toBitVec.isLt).map fun x =>
    Int32.ofBitVec (BitVec.ofNat 32 x)
  rw [BitVec.ofNat_toNat, BitVec.setWidth_eq] at hmap
  exact hmap

theorem reads_i64 (v : Int64) : Reads readI64 (writeI64 v) v := by
  have hmap := (reads_readUInt (n := 8) v.toBitVec.isLt).map fun x =>
    Int64.ofBitVec (BitVec.ofNat 64 x)
  rw [BitVec.ofNat_toNat, BitVec.setWidth_eq] at hmap
  exact hmap

/-- The strings of bytes that have a length. -/
def Fits (s : List Char) : Prop := s.length < 2147483648 ∧ ∀ c ∈ s, c.toNat < 256

theorem fits_of_all {s : List Char} (hlength : s.length < 2147483648)
    (hall : (s.all fun c => decide (c.toNat < 256)) = true) : Fits s := by
  refine ⟨hlength, ?_⟩
  intro c hc
  exact of_decide_eq_true (List.all_eq_true.mp hall c hc)

def writeString (s : List Char) : List UInt8 :=
  bigEndian 4 s.length ++ s.map fun c => UInt8.ofNat c.toNat

def readString : ByteReader (List Char) := do
  let n ← readUInt 4
  let bs ← takeBytes n
  return bs.map fun b => Char.ofNat b.toNat

theorem reads_string {s : List Char} (hs : Fits s) : Reads readString (writeString s) s := by
  have hlength := reads_readUInt (n := 4) (x := s.length) (Nat.lt_trans hs.1 (by decide))
  have hbytes := reads_takeBytes (s.map fun c => UInt8.ofNat c.toNat)
  rw [List.length_map] at hbytes
  have hchars : (s.map fun c => UInt8.ofNat c.toNat).map (fun b => Char.ofNat b.toNat) = s := by
    rw [List.map_map]
    refine (List.map_congr_left ?_).trans (List.map_id s)
    intro c hc
    have hlt := hs.2 c hc
    show Char.ofNat (UInt8.ofNat c.toNat).toNat = c
    rw [UInt8.toNat_ofNat', Nat.mod_eq_of_lt hlt, Char.ofNat_toNat]
  have hread := hlength.bind (f := fun n => takeBytes n >>= fun bs =>
    (pure (bs.map fun b => Char.ofNat b.toNat) : ByteReader (List Char)))
    (hbytes.map fun bs => bs.map fun b => Char.ofNat b.toNat)
  rw [hchars] at hread
  exact hread

theorem shrinks_readString : Shrinks readString :=
  (shrinks_readUInt 4).bind fun n => (shrinks_takeBytes n).bind fun _ => Shrinks.ret _

/-! ### Headers -/

/-- The code of a type. -/
def typeCode : TType → UInt8
  | .stop => 0
  | .bool => 2
  | .byte => 3
  | .double => 4
  | .i16 => 6
  | .i32 => 8
  | .i64 => 10
  | .string => 11
  | .struct => 12
  | .map => 13
  | .set => 14
  | .list => 15

/-- The type of a code. -/
def ofTypeCode (code : UInt8) : Option TType :=
  [TType.stop, .bool, .byte, .double, .i16, .i32, .i64, .string, .struct, .map, .set, .list].find?
    fun t => typeCode t = code

theorem ofTypeCode_typeCode (t : TType) : ofTypeCode (typeCode t) = some t := by
  cases t <;> rfl

/-- A type. -/
def readType : ByteReader TType := fun s =>
  match s with
  | [] => none
  | code :: rest => (ofTypeCode code).map fun t => (t, rest)

theorem reads_readType (t : TType) : Reads readType [typeCode t] t := by
  intro rest
  show (ofTypeCode (typeCode t)).map (fun t => (t, rest)) = some (t, rest)
  rw [ofTypeCode_typeCode]
  rfl

theorem readType_takes {s s' : List UInt8} {t : TType} (h : readType.run s = some (t, s')) :
    s'.length < s.length := by
  cases s with
  | nil => exact absurd h (by simp [readType, StateT.run])
  | cons code rest =>
      change (ofTypeCode code).map (fun t => (t, rest)) = some (t, s') at h
      obtain ⟨t', -, heq⟩ := Option.map_eq_some_iff.mp h
      rw [Prod.mk.injEq] at heq
      rw [← heq.2, List.length_cons]
      omega

def writeFieldBegin (_ : List Char) (ftype : TType) (fid : Int16) : List UInt8 :=
  [typeCode ftype] ++ writeI16 fid

/-- The header of a field; a stop mark has no number. -/
def readFieldBegin : ByteReader (TType × Int16) := do
  let ftype ← readType
  if ftype = .stop then return (.stop, 0)
  else do
    let fid ← readI16
    return (ftype, fid)

theorem shrinks_readI16 : Shrinks readI16 := (shrinks_readUInt 2).bind fun _ => Shrinks.ret _

theorem shrinks_readI32 : Shrinks readI32 := (shrinks_readUInt 4).bind fun _ => Shrinks.ret _

theorem shrinks_readI64 : Shrinks readI64 := (shrinks_readUInt 8).bind fun _ => Shrinks.ret _

theorem reads_fieldBegin (name : List Char) {ftype : TType} (fid : Int16) (h : ftype ≠ .stop) :
    Reads readFieldBegin (writeFieldBegin name ftype fid) (ftype, fid) := by
  refine (reads_readType ftype).bind ?_
  rw [if_neg h]
  exact (reads_i16 fid).map fun fid => (ftype, fid)

theorem reads_fieldStop : Reads readFieldBegin [typeCode .stop] (.stop, 0) := fun _ => rfl

theorem readFieldBegin_takes (s : List UInt8) (x : TType × Int16) (s' : List UInt8)
    (h : readFieldBegin.run s = some (x, s')) : s'.length < s.length := by
  obtain ⟨ftype, s₁, htype, hrest⟩ := run_bind_some.mp h
  have htakes := readType_takes htype
  have hshrinks : Shrinks (if ftype = .stop then (pure (.stop, 0) : ByteReader (TType × Int16))
      else readI16 >>= fun fid => pure (ftype, fid)) := by
    by_cases hstop : ftype = .stop
    · rw [if_pos hstop]
      exact Shrinks.ret _
    · rw [if_neg hstop]
      exact shrinks_readI16.bind fun fid => Shrinks.ret _
  have hle := hshrinks s₁ x s' hrest
  omega

/-! ### Skipping -/

/-- Skip a value.  Behind the last field of a struct stands a stop mark; what follows a field is
skipped as the rest of the struct. -/
def skipValue : (fuel : Nat) → TType → ByteReader Unit
  | 0, _ => fun _ => none
  | fuel + 1, ftype =>
      match ftype with
      | .bool => takeBytes 1 >>= fun _ => pure ()
      | .byte => takeBytes 1 >>= fun _ => pure ()
      | .i16 => readI16 >>= fun _ => pure ()
      | .i32 => readI32 >>= fun _ => pure ()
      | .i64 => readI64 >>= fun _ => pure ()
      | .double => takeBytes 8 >>= fun _ => pure ()
      | .string => readString >>= fun _ => pure ()
      | .struct => do
          let (ftype, _) ← readFieldBegin
          if ftype = .stop then return ()
          else do
            skipValue fuel ftype
            skipValue fuel .struct
      | _ => fun _ => none

/-- Skip a value, in as many rounds as the stream has bytes. -/
def skip (ftype : TType) : ByteReader Unit := fun s => (skipValue (s.length + 1) ftype).run s

theorem skipValue_shrinks (fuel : Nat) (ftype : TType) : Shrinks (skipValue fuel ftype) := by
  have hnone : Shrinks (fun _ => none : ByteReader Unit) := fun s a s' h => absurd h (by
    simp [StateT.run])
  induction fuel generalizing ftype with
  | zero => exact hnone
  | succ fuel ih =>
      cases ftype with
      | bool => exact (shrinks_takeBytes 1).bind fun _ => Shrinks.ret ()
      | byte => exact (shrinks_takeBytes 1).bind fun _ => Shrinks.ret ()
      | i16 => exact shrinks_readI16.bind fun _ => Shrinks.ret ()
      | i32 => exact shrinks_readI32.bind fun _ => Shrinks.ret ()
      | i64 => exact shrinks_readI64.bind fun _ => Shrinks.ret ()
      | double => exact (shrinks_takeBytes 8).bind fun _ => Shrinks.ret ()
      | string => exact shrinks_readString.bind fun _ => Shrinks.ret ()
      | struct =>
          refine Shrinks.bind (fun s x s' h => Nat.le_of_lt (readFieldBegin_takes s x s' h)) ?_
          intro p
          show Shrinks (if p.1 = .stop then (pure () : ByteReader Unit) else _)
          by_cases hstop : p.1 = .stop
          · rw [if_pos hstop]
            exact Shrinks.ret ()
          · rw [if_neg hstop]
            exact (ih p.1).bind fun _ => ih .struct
      | _ => exact hnone

theorem shrinks_skip (ftype : TType) : Shrinks (skip ftype) := fun s =>
  skipValue_shrinks (s.length + 1) ftype s

/-- A value that is skipped is skipped in more rounds too. -/
theorem skipValue_mono {n m : Nat} (hnm : n ≤ m) {ftype : TType} {s s' : List UInt8}
    (h : (skipValue n ftype).run s = some ((), s')) :
    (skipValue m ftype).run s = some ((), s') := by
  induction n generalizing m ftype s s' with
  | zero => exact absurd h (by simp [skipValue, StateT.run])
  | succ n ih =>
      obtain ⟨m, rfl⟩ : ∃ k, m = k + 1 := ⟨m - 1, by omega⟩
      cases ftype with
      | struct =>
          obtain ⟨p, s₁, hbegin, hrest⟩ := run_bind_some.mp h
          refine run_bind_some.mpr ⟨p, s₁, hbegin, ?_⟩
          change StateT.run (if p.1 = .stop then (pure () : ByteReader Unit) else _) s₁ = _ at hrest
          show StateT.run (if p.1 = .stop then (pure () : ByteReader Unit) else _) s₁ = _
          by_cases hstop : p.1 = .stop
          · rw [if_pos hstop] at hrest ⊢
            exact hrest
          · rw [if_neg hstop] at hrest ⊢
            obtain ⟨u, s₂, hvalue, hfields⟩ := run_bind_some.mp hrest
            exact run_bind_some.mpr ⟨u, s₂, ih (by omega) hvalue, ih (by omega) hfields⟩
      | _ => exact h

/-- The fields of a struct are skipped when each value is. -/
theorem skip_fields {es : List (Entry UInt8 (List Char))}
    (hes : ∀ e ∈ es, e.type ≠ .stop ∧ Reads (skip e.type) e.payload ()) (rest : List UInt8)
    {fuel : Nat}
    (hfuel : (es.flatMap (fun e => writeFieldBegin e.name e.type e.id ++ e.payload) ++
      (typeCode .stop :: rest)).length < fuel) :
    (skipValue fuel .struct).run (es.flatMap (fun e => writeFieldBegin e.name e.type e.id ++
      e.payload) ++ (typeCode .stop :: rest)) = some ((), rest) := by
  induction es generalizing fuel with
  | nil =>
      obtain ⟨n, rfl⟩ : ∃ k, fuel = k + 1 := ⟨fuel - 1, by omega⟩
      rfl
  | cons e es ih =>
      obtain ⟨n, rfl⟩ : ∃ k, fuel = k + 1 := ⟨fuel - 1, by omega⟩
      obtain ⟨htype, hskip⟩ := hes e List.mem_cons_self
      have hes' := fun e' he' => hes e' (List.mem_cons_of_mem e he')
      rw [List.flatMap_cons, List.append_assoc, List.append_assoc] at hfuel ⊢
      simp only [List.length_append] at hfuel
      have hheader : 0 < (writeFieldBegin e.name e.type e.id).length := by
        unfold writeFieldBegin
        rw [List.length_append, List.length_singleton]
        omega
      have hbegin := reads_fieldBegin e.name e.id htype (e.payload ++
        (es.flatMap (fun e => writeFieldBegin e.name e.type e.id ++ e.payload) ++
          (typeCode .stop :: rest)))
      refine run_bind_some.mpr ⟨_, _, hbegin, ?_⟩
      show StateT.run (if e.type = .stop then (pure () : ByteReader Unit) else _) _ = _
      rw [if_neg htype]
      have hvalue := skipValue_mono (m := n) (by
        simp only [List.length_append]
        omega) (hskip (es.flatMap (fun e => writeFieldBegin e.name e.type e.id ++ e.payload) ++
          (typeCode .stop :: rest)))
      exact run_bind_some.mpr ⟨(), _, hvalue, ih hes' (by
        simp only [List.length_append]
        omega)⟩

/-! ### Messages and exceptions -/

def messageCode : TMessageType → Nat
  | .call => 1
  | .reply => 2
  | .exception => 3
  | .oneway => 4

def ofMessageCode (code : Nat) : Option TMessageType :=
  [TMessageType.call, .reply, .exception, .oneway].find? fun t => messageCode t = code

/-- The version of the protocol. -/
def version : Nat := 0x80010000

def writeMessageBegin (name : List Char) (mtype : TMessageType) (seqid : Int32) : List UInt8 :=
  bigEndian 4 (version + messageCode mtype) ++ (writeString name ++ writeI32 seqid)

/-- The type of a message, behind the version. -/
def readMessageType : ByteReader TMessageType := do
  let x ← readUInt 4
  fun s => (ofMessageCode (x - version)).map fun mtype => (mtype, s)

def readMessageBegin : ByteReader (List Char × TMessageType × Int32) := do
  let mtype ← readMessageType
  let name ← readString
  let seqid ← readI32
  return (name, mtype, seqid)

theorem reads_messageType (mtype : TMessageType) :
    Reads readMessageType (bigEndian 4 (version + messageCode mtype)) mtype := by
  have hlt : version + messageCode mtype < 256 ^ 4 := by cases mtype <;> decide
  have hcode : Reads (fun s => (ofMessageCode (version + messageCode mtype - version)).map
      fun mtype => (mtype, s) : ByteReader TMessageType) [] mtype := by
    intro rest
    rw [Nat.add_sub_cancel_left]
    cases mtype <;> rfl
  have hbind := (reads_readUInt hlt).bind (f := fun x => (fun s => (ofMessageCode (x - version)).map
    fun mtype => (mtype, s) : ByteReader TMessageType)) hcode
  rw [List.append_nil] at hbind
  exact hbind

theorem reads_messageBegin {name : List Char} (mtype : TMessageType) (seqid : Int32)
    (hname : Fits name) :
    Reads readMessageBegin (writeMessageBegin name mtype seqid) (name, mtype, seqid) :=
  (reads_messageType mtype).bind ((reads_string hname).bind
    ((reads_i32 seqid).map fun seqid => (name, mtype, seqid)))

def exceptionCode : ExceptionType → Int32
  | .unknown => 0
  | .unknownMethod => 1
  | .missingResult => 5

def ofExceptionCode (code : Int32) : Option ExceptionType :=
  [ExceptionType.unknown, .unknownMethod, .missingResult].find? fun t => exceptionCode t = code

/-- An exception: the struct of its message and its kind. -/
def writeException (x : ApplicationException (List Char)) : List UInt8 :=
  writeFieldBegin [] .string 1 ++ (writeString x.message ++
    (writeFieldBegin [] .i32 2 ++ (writeI32 (exceptionCode x.type) ++ [typeCode .stop])))

/-- The header of a field that must come next. -/
def expectField (ftype : TType) (fid : Int16) : ByteReader Unit := do
  let header ← readFieldBegin
  if header = (ftype, fid) then return ()
  else fun _ => none

def readException : ByteReader (ApplicationException (List Char)) := do
  expectField .string 1
  let message ← readString
  expectField .i32 2
  let code ← readI32
  expectField .stop 0
  fun s => (ofExceptionCode code).map fun type => (⟨type, message⟩, s)

theorem reads_expectField {bs : List UInt8} {ftype : TType} {fid : Int16}
    (h : Reads readFieldBegin bs (ftype, fid)) : Reads (expectField ftype fid) bs () := by
  have hbind := h.bind (f := fun header => if header = (ftype, fid) then
    (pure () : ByteReader Unit) else fun _ => none) (u := []) (c := ()) (by
      rw [if_pos rfl]
      exact Reads.ret ())
  rw [List.append_nil] at hbind
  exact hbind

theorem reads_exception {x : ApplicationException (List Char)} (hx : Fits x.message) :
    Reads readException (writeException x) x := by
  have hmessage : Reads (expectField .string 1) (writeFieldBegin [] .string 1) () :=
    reads_expectField (reads_fieldBegin [] 1 (by decide))
  have htype : Reads (expectField .i32 2) (writeFieldBegin [] .i32 2) () :=
    reads_expectField (reads_fieldBegin [] 2 (by decide))
  have hlast : Reads (fun s => (ofExceptionCode (exceptionCode x.type)).map
      fun type => (⟨type, x.message⟩, s) : ByteReader (ApplicationException (List Char))) [] x := by
    intro rest
    obtain ⟨type, message⟩ := x
    cases type <;> rfl
  have hend := (reads_expectField reads_fieldStop).bind (f := fun _ => _) hlast
  rw [List.append_nil] at hend
  exact hmessage.bind ((reads_string hx).bind (htype.bind ((reads_i32 _).bind hend)))

/-! ### The protocol -/

/-- The binary protocol. -/
def binary : Protocol UInt8 (List Char) where
  writeMessageBegin := writeMessageBegin
  writeMessageEnd := []
  writeStructBegin _ := []
  writeStructEnd := []
  writeFieldBegin := writeFieldBegin
  writeFieldEnd := []
  writeFieldStop := [typeCode .stop]
  writeI16 := writeI16
  writeI32 := writeI32
  writeI64 := writeI64
  writeString := writeString
  writeException := writeException
  readMessageBegin := readMessageBegin
  readMessageEnd := pure ()
  readStructBegin := pure ()
  readStructEnd := pure ()
  readFieldBegin := readFieldBegin
  readFieldEnd := pure ()
  readI16 := readI16
  readI32 := readI32
  readI64 := readI64
  readString := readString
  readException := readException
  skip := skip
  Fits := Fits


theorem reads_skipStruct (name : List Char) (es : List (Entry UInt8 (List Char)))
    (hes : ∀ e ∈ es, e.type ≠ .stop ∧ Reads (skip e.type) e.payload ()) :
    Reads (skip .struct) (binary.writeEntries name es) () := by
  intro rest
  have hentries : binary.writeEntries name es ++ rest =
      es.flatMap (fun e => writeFieldBegin e.name e.type e.id ++ e.payload) ++
        (typeCode .stop :: rest) := by
    have hentry : binary.writeEntry = fun e => writeFieldBegin e.name e.type e.id ++ e.payload := by
      funext e
      exact List.append_nil _
    unfold Protocol.writeEntries
    rw [hentry]
    show [] ++ (_ ++ [typeCode .stop]) ++ [] ++ rest = _
    rw [List.nil_append, List.append_nil, List.append_assoc, List.singleton_append]
  rw [hentries]
  exact skip_fields hes rest (Nat.lt_succ_self _)

/-- **The binary protocol is lawful.** -/
theorem binary_lawful : binary.Lawful where
  messageBegin _ mtype seqid hname := reads_messageBegin mtype seqid hname
  messageEnd := Reads.ret ()
  structBegin _ := Reads.ret ()
  structEnd := Reads.ret ()
  fieldBegin name _ fid htype := reads_fieldBegin name fid htype
  fieldEnd := Reads.ret ()
  fieldStop := ⟨0, reads_fieldStop⟩
  i16 := reads_i16
  i32 := reads_i32
  i64 := reads_i64
  string _ hv := reads_string hv
  exception _ hx := reads_exception hx
  skip_i16 v := fun rest => (reads_i16 v).map (fun _ => ()) rest
  skip_i32 v := fun rest => (reads_i32 v).map (fun _ => ()) rest
  skip_i64 v := fun rest => (reads_i64 v).map (fun _ => ()) rest
  skip_string _ hv := fun rest => (reads_string hv).map (fun _ => ()) rest
  skip_struct := reads_skipStruct
  fieldBegin_takes := readFieldBegin_takes
  fieldEnd_shrinks := Shrinks.ret ()
  i16_shrinks := shrinks_readI16
  i32_shrinks := shrinks_readI32
  i64_shrinks := shrinks_readI64
  string_shrinks := shrinks_readString
  structBegin_shrinks := Shrinks.ret ()
  structEnd_shrinks := Shrinks.ret ()
  skip_shrinks := shrinks_skip

end BinaryProtocol
