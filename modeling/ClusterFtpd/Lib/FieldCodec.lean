import Mathlib.Data.List.Forall2
import Mathlib.Tactic.Basic

/-!
# Structs as tagged fields

A protocol writes values as symbols on a stream and reads them back.  A struct is written as its
fields, each behind a header with its type and its number, and a stop mark.  The reader of a struct
takes the fields as they come: one whose number it knows is read if it has the type that is
expected, any other one is skipped, and a field that does not come keeps its value.

`Reads r bs a` says that the reader `r` takes exactly the symbols `bs` off a stream and gives `a`.
`Lawful` is what is asked of a protocol.

Main results:

* `reads_struct`: what a reader makes of any sequence of fields;
* `reads_writeStruct`: a struct is read as it was written;
* `reads_values`: over fields of scalar type, the last value of the right number and type counts;
* `readStruct_fuel`: the rounds of the reader are bounded by the length of the stream.
-/

namespace FieldCodec

/-- The types of the values. -/
inductive TType where
  | stop | bool | byte | double | i16 | i32 | i64 | string | struct | map | set | list
  deriving DecidableEq

/-- The types of the messages. -/
inductive TMessageType where
  | call | reply | exception | oneway
  deriving DecidableEq

/-- The kinds of application exceptions that are thrown here. -/
inductive ExceptionType where
  | unknown | unknownMethod | missingResult
  deriving DecidableEq

/-- An exception that a message carries. -/
structure ApplicationException (S : Type) where
  type : ExceptionType
  message : S
  deriving DecidableEq

/-- A reader of a stream of symbols; it fails if the stream is not as it expects. -/
abbrev Reader (β α : Type) := StateT (List β) Option α

/-- A protocol over the symbols `β` with strings in `S`.  The names of structs and fields are
written, and what is read of them is dropped.  `Fits` are the strings it can write. -/
structure Protocol (β S : Type) where
  writeMessageBegin : S → TMessageType → Int32 → List β
  writeMessageEnd : List β
  writeStructBegin : S → List β
  writeStructEnd : List β
  writeFieldBegin : S → TType → Int16 → List β
  writeFieldEnd : List β
  writeFieldStop : List β
  writeI16 : Int16 → List β
  writeI32 : Int32 → List β
  writeI64 : Int64 → List β
  writeString : S → List β
  writeException : ApplicationException S → List β
  readMessageBegin : Reader β (S × TMessageType × Int32)
  readMessageEnd : Reader β Unit
  readStructBegin : Reader β Unit
  readStructEnd : Reader β Unit
  readFieldBegin : Reader β (TType × Int16)
  readFieldEnd : Reader β Unit
  readI16 : Reader β Int16
  readI32 : Reader β Int32
  readI64 : Reader β Int64
  readString : Reader β S
  readException : Reader β (ApplicationException S)
  skip : TType → Reader β Unit
  Fits : S → Prop

variable {β S α γ A : Type}

/-! ### Readers -/

/-- The reader takes exactly these symbols off a stream, whatever follows, and gives `a`. -/
def Reads (r : Reader β α) (bs : List β) (a : α) : Prop :=
  ∀ rest, r.run (bs ++ rest) = some (a, rest)

/-- The reader puts no symbols on the stream. -/
def Shrinks (r : Reader β α) : Prop := ∀ s a s', r.run s = some (a, s') → s'.length ≤ s.length

theorem Reads.ret (a : α) : Reads (pure a : Reader β α) [] a := fun _ => rfl

theorem Reads.bind {r : Reader β α} {f : α → Reader β γ} {bs u : List β} {a : α} {c : γ}
    (hr : Reads r bs a) (hf : Reads (f a) u c) : Reads (r >>= f) (bs ++ u) c := by
  intro rest
  rw [StateT.run_bind, List.append_assoc, hr]
  exact hf rest

/-- The last step of a reader that takes nothing more. -/
theorem Reads.map {r : Reader β α} {bs : List β} {a : α} (hr : Reads r bs a) (g : α → γ) :
    Reads (r >>= fun x => pure (g x)) bs (g a) := by
  have hbind := hr.bind (f := fun x => pure (g x)) (Reads.ret (g a))
  rw [List.append_nil] at hbind
  exact hbind

/-- A reader takes the symbols it takes off the stream, and only these. -/
theorem Reads.unique {r : Reader β α} {bs : List β} {a b : α} {rest s' : List β}
    (hr : Reads r bs a) (h : r.run (bs ++ rest) = some (b, s')) : b = a ∧ s' = rest := by
  rw [hr rest, Option.some.injEq, Prod.mk.injEq] at h
  exact ⟨h.1.symm, h.2.symm⟩

theorem Shrinks.ret (a : α) : Shrinks (pure a : Reader β α) := by
  intro s b s' h
  rw [StateT.run_pure, Option.pure_def, Option.some.injEq, Prod.mk.injEq] at h
  exact Nat.le_of_eq (by rw [h.2])

theorem run_bind_some {r : Reader β α} {f : α → Reader β γ} {s s' : List β} {c : γ} :
    (r >>= f).run s = some (c, s') ↔
      ∃ a s₁, r.run s = some (a, s₁) ∧ (f a).run s₁ = some (c, s') := by
  rw [StateT.run_bind]
  cases hr : r.run s with
  | none =>
      constructor
      · intro h
        exact absurd h (by simp)
      · intro h
        obtain ⟨a, s₁, h, -⟩ := h
        exact absurd h (by simp)
  | some p =>
      constructor
      · intro h
        exact ⟨p.1, p.2, rfl, h⟩
      · intro h
        obtain ⟨a, s₁, heq, h⟩ := h
        rw [Option.some.injEq] at heq
        rw [heq]
        exact h

theorem Shrinks.bind {r : Reader β α} {f : α → Reader β γ} (hr : Shrinks r)
    (hf : ∀ a, Shrinks (f a)) : Shrinks (r >>= f) := by
  intro s c s' h
  obtain ⟨a, s₁, hra, hfa⟩ := run_bind_some.mp h
  exact Nat.le_trans (hf a s₁ c s' hfa) (hr s a s₁ hra)

/-! ### Structs on the wire -/

/-- A field on the wire: its header and the symbols of its value. -/
structure Entry (β S : Type) where
  name : S
  type : TType
  id : Int16
  payload : List β

/-- A field of a struct `A`: how it is written, and how it is read into a struct. -/
structure Field (β S A : Type) where
  name : S
  type : TType
  id : Int16
  write : A → List β
  read : A → Reader β A

/-- The field with the value that a struct has for it. -/
def Field.entry (f : Field β S A) (a : A) : Entry β S := ⟨f.name, f.type, f.id, f.write a⟩

namespace Protocol

variable (P : Protocol β S)

/-- One field. -/
def writeEntry (e : Entry β S) : List β :=
  P.writeFieldBegin e.name e.type e.id ++ e.payload ++ P.writeFieldEnd

/-- A struct of these fields. -/
def writeEntries (name : S) (es : List (Entry β S)) : List β :=
  P.writeStructBegin name ++ (es.flatMap P.writeEntry ++ P.writeFieldStop) ++ P.writeStructEnd

/-- A struct with all its fields. -/
def writeStruct (name : S) (fields : List (Field β S A)) (a : A) : List β :=
  P.writeEntries name (fields.map fun f => f.entry a)

/-- The `switch` over the number of a field, behind its header. -/
def readField (fields : List (Field β S A)) (ftype : TType) (fid : Int16) (a : A) : Reader β A :=
  match fields.find? fun f => f.id = fid with
  | some f =>
      if ftype = f.type then f.read a
      else do
        P.skip ftype
        return a
  | none => do
      P.skip ftype
      return a

/-- The loop over the fields, up to the stop mark. -/
def readFields (fields : List (Field β S A)) : (fuel : Nat) → (a : A) → Reader β A
  | 0, _ => fun _ => none
  | fuel + 1, a => do
      let (ftype, fid) ← P.readFieldBegin
      if ftype = .stop then return a
      else do
        let a ← P.readField fields ftype fid a
        P.readFieldEnd
        readFields fields fuel a

/-- The reader of a struct; `a` holds the values before it. -/
def readStruct (fields : List (Field β S A)) (a : A) : Reader β A := do
  P.readStructBegin
  let a ← fun s => (P.readFields fields (s.length + 1) a).run s
  P.readStructEnd
  return a

/-- What is asked of a protocol: what is written is read back, a value is skipped as a whole, every
header of a field takes a symbol at least, and no reader puts symbols on the stream. -/
structure Lawful : Prop where
  messageBegin : ∀ name mtype seqid, P.Fits name →
    Reads P.readMessageBegin (P.writeMessageBegin name mtype seqid) (name, mtype, seqid)
  messageEnd : Reads P.readMessageEnd P.writeMessageEnd ()
  structBegin : ∀ name, Reads P.readStructBegin (P.writeStructBegin name) ()
  structEnd : Reads P.readStructEnd P.writeStructEnd ()
  fieldBegin : ∀ name ftype fid, ftype ≠ .stop →
    Reads P.readFieldBegin (P.writeFieldBegin name ftype fid) (ftype, fid)
  fieldEnd : Reads P.readFieldEnd P.writeFieldEnd ()
  fieldStop : ∃ fid, Reads P.readFieldBegin P.writeFieldStop (.stop, fid)
  i16 : ∀ v, Reads P.readI16 (P.writeI16 v) v
  i32 : ∀ v, Reads P.readI32 (P.writeI32 v) v
  i64 : ∀ v, Reads P.readI64 (P.writeI64 v) v
  string : ∀ v, P.Fits v → Reads P.readString (P.writeString v) v
  exception : ∀ x : ApplicationException S, P.Fits x.message →
    Reads P.readException (P.writeException x) x
  skip_i16 : ∀ v, Reads (P.skip .i16) (P.writeI16 v) ()
  skip_i32 : ∀ v, Reads (P.skip .i32) (P.writeI32 v) ()
  skip_i64 : ∀ v, Reads (P.skip .i64) (P.writeI64 v) ()
  skip_string : ∀ v, P.Fits v → Reads (P.skip .string) (P.writeString v) ()
  skip_struct : ∀ name (es : List (Entry β S)),
    (∀ e ∈ es, e.type ≠ .stop ∧ Reads (P.skip e.type) e.payload ()) →
      Reads (P.skip .struct) (P.writeEntries name es) ()
  fieldBegin_takes : ∀ s x s', P.readFieldBegin.run s = some (x, s') → s'.length < s.length
  fieldEnd_shrinks : Shrinks P.readFieldEnd
  i16_shrinks : Shrinks P.readI16
  i32_shrinks : Shrinks P.readI32
  i64_shrinks : Shrinks P.readI64
  string_shrinks : Shrinks P.readString
  structBegin_shrinks : Shrinks P.readStructBegin
  structEnd_shrinks : Shrinks P.readStructEnd
  skip_shrinks : ∀ ftype, Shrinks (P.skip ftype)

/-! ### What a reader makes of a sequence of fields -/

/-- The fields are taken one after the other, from the struct `a` to the struct `b`. -/
inductive TakesAll (fields : List (Field β S A)) : A → List (Entry β S) → A → Prop where
  | nil (a : A) : TakesAll fields a [] a
  | cons {a b c : A} {e : Entry β S} {es : List (Entry β S)} (htype : e.type ≠ .stop)
      (htake : Reads (P.readField fields e.type e.id a) e.payload b)
      (hrest : TakesAll fields b es c) : TakesAll fields a (e :: es) c

variable {P} {fields : List (Field β S A)} {a b : A} {es : List (Entry β S)}

theorem Lawful.fieldBegin_pos (hP : P.Lawful) (name : S) {ftype : TType} (fid : Int16)
    (htype : ftype ≠ .stop) : 0 < (P.writeFieldBegin name ftype fid).length := by
  have hreads := hP.fieldBegin name ftype fid htype []
  have htakes := hP.fieldBegin_takes _ _ _ hreads
  rw [List.append_nil] at htakes
  exact htakes

/-- The symbols of a sequence of fields are at least as many as the fields. -/
theorem Lawful.length_le (hP : P.Lawful) (h : ∀ e ∈ es, e.type ≠ .stop) :
    es.length ≤ (es.flatMap P.writeEntry).length := by
  induction es with
  | nil => exact Nat.zero_le 0
  | cons e es ih =>
      have hpos := hP.fieldBegin_pos e.name e.id (h e List.mem_cons_self)
      have hrest := ih fun e' he' => h e' (List.mem_cons_of_mem e he')
      rw [List.flatMap_cons, List.length_append, List.length_cons]
      have hentry : 0 < (P.writeEntry e).length := by
        unfold writeEntry
        rw [List.length_append, List.length_append]
        omega
      omega

theorem TakesAll.types (h : P.TakesAll fields a es b) : ∀ e ∈ es, e.type ≠ .stop := by
  induction h with
  | nil a => exact fun e he => absurd he List.not_mem_nil
  | cons htype _ _ ih =>
      intro e' he'
      obtain rfl | hmem := List.mem_cons.mp he'
      · exact htype
      · exact ih e' hmem

theorem reads_stop (hP : P.Lawful) (fuel : Nat) (a : A) :
    Reads (P.readFields fields (fuel + 1) a) P.writeFieldStop a := by
  obtain ⟨fid, hstop⟩ := hP.fieldStop
  intro rest
  rw [readFields, StateT.run_bind, hstop]
  rfl

/-- One round of the loop. -/
theorem reads_round (hP : P.Lawful) {e : Entry β S} {fuel : Nat} {c : A} {bs : List β}
    (htype : e.type ≠ .stop) (htake : Reads (P.readField fields e.type e.id a) e.payload b)
    (hrest : Reads (P.readFields fields fuel b) bs c) :
    Reads (P.readFields fields (fuel + 1) a) (P.writeEntry e ++ bs) c := by
  have hbody := (htake.bind (f := fun x => do
    P.readFieldEnd
    P.readFields fields fuel x) (hP.fieldEnd.bind hrest))
  have hround := (hP.fieldBegin e.name e.type e.id htype).bind
    (f := fun p => if p.1 = .stop then (pure a : Reader β A) else do
      let x ← P.readField fields p.1 p.2 a
      P.readFieldEnd
      P.readFields fields fuel x) (u := e.payload ++ (P.writeFieldEnd ++ bs)) (c := c) (by
      show Reads (if e.type = .stop then (pure a : Reader β A) else _) _ _
      rw [if_neg htype]
      exact hbody)
  have hsplit : P.writeEntry e ++ bs =
      P.writeFieldBegin e.name e.type e.id ++ (e.payload ++ (P.writeFieldEnd ++ bs)) := by
    unfold writeEntry
    simp only [List.append_assoc]
  rw [hsplit]
  exact hround

/-- **Reading**: a struct of fields that are all taken is read as a whole. -/
theorem reads_fields (hP : P.Lawful) (h : P.TakesAll fields a es b) {fuel : Nat}
    (hfuel : es.length < fuel) :
    Reads (P.readFields fields fuel a) (es.flatMap P.writeEntry ++ P.writeFieldStop) b := by
  induction h generalizing fuel with
  | nil a =>
      obtain ⟨n, rfl⟩ : ∃ n, fuel = n + 1 := ⟨fuel - 1, by omega⟩
      exact reads_stop hP n a
  | cons htype htake _ ih =>
      obtain ⟨n, rfl⟩ : ∃ n, fuel = n + 1 := ⟨fuel - 1, by omega⟩
      rw [List.length_cons] at hfuel
      rw [List.flatMap_cons, List.append_assoc]
      exact reads_round hP htype htake (ih (by omega))

theorem reads_struct (hP : P.Lawful) (name : S) (h : P.TakesAll fields a es b) :
    Reads (P.readStruct fields a) (P.writeEntries name es) b := by
  have hfields : Reads (fun s => (P.readFields fields (s.length + 1) a).run s)
      (es.flatMap P.writeEntry ++ P.writeFieldStop) b := by
    intro rest
    have hlen := hP.length_le h.types
    refine reads_fields hP h ?_ rest
    rw [List.length_append, List.length_append]
    omega
  unfold readStruct writeEntries
  rw [List.append_assoc]
  exact (hP.structBegin name).bind (hfields.bind (hP.structEnd.map fun _ => b))

/-! ### The bound on the rounds -/

theorem shrinks_readField (hP : P.Lawful) (hfields : ∀ f ∈ fields, ∀ a, Shrinks (f.read a))
    (ftype : TType) (fid : Int16) (a : A) : Shrinks (P.readField fields ftype fid a) := by
  have hskip : Shrinks (P.skip ftype >>= fun _ => (pure a : Reader β A)) :=
    (hP.skip_shrinks ftype).bind fun _ => Shrinks.ret a
  unfold readField
  cases hfind : fields.find? fun f => f.id = fid with
  | none => exact hskip
  | some f =>
      show Shrinks (if ftype = f.type then f.read a else _)
      by_cases htype : ftype = f.type
      · rw [if_pos htype]
        exact hfields f (List.mem_of_find?_eq_some hfind) a
      · rw [if_neg htype]
        exact hskip

/-- **Termination**: more rounds than the stream has symbols make no difference. -/
theorem readFields_fuel (hP : P.Lawful) (hfields : ∀ f ∈ fields, ∀ a, Shrinks (f.read a))
    {n m : Nat} {s : List β} {a : A} (hn : s.length < n) (hm : s.length < m) :
    (P.readFields fields n a).run s = (P.readFields fields m a).run s := by
  induction n generalizing m s a with
  | zero => exact absurd hn (by omega)
  | succ n ih =>
      obtain ⟨m, rfl⟩ : ∃ k, m = k + 1 := ⟨m - 1, by omega⟩
      rw [readFields, readFields, StateT.run_bind, StateT.run_bind]
      cases hbegin : P.readFieldBegin.run s with
      | none => rfl
      | some p =>
          have htakes := hP.fieldBegin_takes s p.1 p.2 hbegin
          show StateT.run (if p.1.1 = .stop then (pure a : Reader β A) else _) p.2 =
            StateT.run (if p.1.1 = .stop then (pure a : Reader β A) else _) p.2
          by_cases hstop : p.1.1 = .stop
          · rw [if_pos hstop, if_pos hstop]
          · rw [if_neg hstop, if_neg hstop, StateT.run_bind, StateT.run_bind]
            cases hfield : (P.readField fields p.1.1 p.1.2 a).run p.2 with
            | none => rfl
            | some q =>
                have hq := shrinks_readField hP hfields p.1.1 p.1.2 a p.2 q.1 q.2 hfield
                show StateT.run (P.readFieldEnd >>= fun _ => P.readFields fields n q.1) q.2 =
                  StateT.run (P.readFieldEnd >>= fun _ => P.readFields fields m q.1) q.2
                rw [StateT.run_bind, StateT.run_bind]
                cases hend : P.readFieldEnd.run q.2 with
                | none => rfl
                | some r =>
                    have hr := hP.fieldEnd_shrinks q.2 r.1 r.2 hend
                    exact ih (by omega) (by omega)

/-- The reader of a struct does what its loop does with any number of rounds that is large enough:
the bound is not a restriction. -/
theorem readStruct_fuel (hP : P.Lawful) (hfields : ∀ f ∈ fields, ∀ a, Shrinks (f.read a))
    {fuel : Nat} {s : List β} (hfuel : s.length < fuel) (a : A) :
    (P.readStruct fields a).run s = (do
      P.readStructBegin
      let a ← P.readFields fields fuel a
      P.readStructEnd
      return a : Reader β A).run s := by
  unfold readStruct
  rw [StateT.run_bind, StateT.run_bind]
  cases hbegin : P.readStructBegin.run s with
  | none => rfl
  | some p =>
      have hp := hP.structBegin_shrinks s p.1 p.2 hbegin
      have hloop := readFields_fuel hP hfields (n := p.2.length + 1) (m := fuel) (a := a)
        (Nat.lt_succ_self p.2.length) (by omega)
      simp only [Option.bind_eq_bind, Option.bind_some, StateT.run_bind]
      rw [← hloop]
      rfl

/-! ### A struct is read as it was written -/

end Protocol

/-- What a field is written as in `b` is read by `copy`. -/
structure Field.Copies (f : Field β S A) (b : A) (copy : A → A) : Prop where
  type_ne : f.type ≠ .stop
  reads : ∀ a, Reads (f.read a) (f.write b) (copy a)

namespace Protocol

variable {P : Protocol β S} {fields : List (Field β S A)} {a b : A}

theorem readField_known (hids : (fields.map fun f => f.id).Nodup) {f : Field β S A}
    (hf : f ∈ fields) (a : A) : P.readField fields f.type f.id a = f.read a := by
  have hfind : (fields.find? fun g => g.id = f.id) = some f := by
    induction fields with
    | nil => exact absurd hf List.not_mem_nil
    | cons g fields ih =>
        rw [List.map_cons, List.nodup_cons] at hids
        obtain rfl | hmem := List.mem_cons.mp hf
        · exact List.find?_cons_of_pos (by simp)
        · have hne : g.id ≠ f.id := by
            intro heq
            rw [heq] at hids
            exact hids.1 (List.mem_map.mpr ⟨f, hmem, rfl⟩)
          rw [List.find?_cons_of_neg (by simpa using hne)]
          exact ih hids.2 hmem
  unfold readField
  rw [hfind]
  exact if_pos rfl

theorem takesAll_written (hids : (fields.map fun f => f.id).Nodup) {fs : List (Field β S A)}
    {copies : List (A → A)} (hfs : ∀ f ∈ fs, f ∈ fields)
    (hcopies : List.Forall₂ (fun f copy => f.Copies b copy) fs copies) (a : A) :
    P.TakesAll fields a (fs.map fun f => f.entry b) (copies.foldl (fun x copy => copy x) a) := by
  induction hcopies generalizing a with
  | nil => exact .nil a
  | @cons f copy fs copies hcopy _ ih =>
      have htake : Reads (P.readField fields f.type f.id a) (f.write b) (copy a) := by
        rw [readField_known hids (hfs f List.mem_cons_self) a]
        exact hcopy.reads a
      exact .cons hcopy.type_ne htake (ih (fun g hg => hfs g (List.mem_cons_of_mem f hg)) (copy a))

/-- **Round trip**: the reader of a struct takes exactly what was written and copies every field. -/
theorem reads_writeStruct (hP : P.Lawful) (name : S) (hids : (fields.map fun f => f.id).Nodup)
    {copies : List (A → A)}
    (hcopies : List.Forall₂ (fun f copy => f.Copies b copy) fields copies) (a : A) :
    Reads (P.readStruct fields a) (P.writeStruct name fields b)
      (copies.foldl (fun x copy => copy x) a) :=
  reads_struct hP name (takesAll_written hids (fun _ hf => hf) hcopies a)

end Protocol

/-- A field that is a part of the struct; the reader of the part starts from its old value. -/
def Field.part (name : S) (type : TType) (id : Int16) (write : α → List β) (read : α → Reader β α)
    (get : A → α) (set : A → α → A) : Field β S A where
  name := name
  type := type
  id := id
  write a := write (get a)
  read a := do
    let v ← read (get a)
    return set a v

theorem Field.copies_part {name : S} {type : TType} {id : Int16} {write : α → List β}
    {read : α → Reader β α} {get : A → α} {set : A → α → A} {b : A} (htype : type ≠ .stop)
    (hread : ∀ v, Reads (read v) (write (get b)) (get b)) :
    (Field.part name type id write read get set).Copies b fun a => set a (get b) :=
  ⟨htype, fun a => (hread (get a)).map (set a)⟩

/-! ### Structs of scalars -/

/-- A part of a struct that is a scalar. -/
inductive Scalar (S A : Type) where
  | i16 (get : A → Int16) (set : A → Int16 → A)
  | i32 (get : A → Int32) (set : A → Int32 → A)
  | i64 (get : A → Int64) (set : A → Int64 → A)
  | string (get : A → S) (set : A → S → A)

/-- A field of a struct of scalars. -/
structure ScalarField (S A : Type) where
  name : S
  id : Int16
  part : Scalar S A

/-- A value on the wire; the types that are no scalars here are left as they are. -/
inductive Value (β S : Type) where
  | i16 (v : Int16)
  | i32 (v : Int32)
  | i64 (v : Int64)
  | string (v : S)
  | other (type : TType) (payload : List β)

/-- A field on the wire with its value. -/
structure Datum (β S : Type) where
  name : S
  id : Int16
  value : Value β S

namespace Value

variable (P : Protocol β S)

def type : Value β S → TType
  | .i16 _ => .i16
  | .i32 _ => .i32
  | .i64 _ => .i64
  | .string _ => .string
  | .other type _ => type

def encode : Value β S → List β
  | .i16 v => P.writeI16 v
  | .i32 v => P.writeI32 v
  | .i64 v => P.writeI64 v
  | .string v => P.writeString v
  | .other _ payload => payload

/-- The value is as the protocol writes one: a string fits, and what is no scalar is a value that
is skipped as a whole. -/
def WellFormed : Value β S → Prop
  | .string v => P.Fits v
  | .other type payload =>
      (type ≠ .stop ∧ type ≠ .i16 ∧ type ≠ .i32 ∧ type ≠ .i64 ∧ type ≠ .string) ∧
        Reads (P.skip type) payload ()
  | _ => True

def asI32 : Value β S → Option Int32
  | .i32 v => some v
  | _ => none

def asI64 : Value β S → Option Int64
  | .i64 v => some v
  | _ => none

def asString : Value β S → Option S
  | .string v => some v
  | _ => none

variable {P} {v : Value β S}

theorem WellFormed.type_ne (h : v.WellFormed P) : v.type ≠ .stop := by
  cases v with
  | other type payload => exact h.1.1
  | _ => exact TType.noConfusion

theorem WellFormed.skips (hP : P.Lawful) (h : v.WellFormed P) :
    Reads (P.skip v.type) (v.encode P) () := by
  cases v with
  | i16 v => exact hP.skip_i16 v
  | i32 v => exact hP.skip_i32 v
  | i64 v => exact hP.skip_i64 v
  | string v => exact hP.skip_string v h
  | other type payload => exact h.2

end Value

/-- The field on the wire. -/
def Datum.entry (P : Protocol β S) (d : Datum β S) : Entry β S :=
  ⟨d.name, d.value.type, d.id, d.value.encode P⟩

namespace Scalar

def type : Scalar S A → TType
  | .i16 _ _ => .i16
  | .i32 _ _ => .i32
  | .i64 _ _ => .i64
  | .string _ _ => .string

/-- The part as a field. -/
def field (P : Protocol β S) (name : S) (id : Int16) : Scalar S A → Field β S A
  | .i16 get set => Field.part name .i16 id P.writeI16 (fun _ => P.readI16) get set
  | .i32 get set => Field.part name .i32 id P.writeI32 (fun _ => P.readI32) get set
  | .i64 get set => Field.part name .i64 id P.writeI64 (fun _ => P.readI64) get set
  | .string get set => Field.part name .string id P.writeString (fun _ => P.readString) get set

/-- Copy the part from `b`. -/
def copy (b : A) : Scalar S A → A → A
  | .i16 get set, a => set a (get b)
  | .i32 get set, a => set a (get b)
  | .i64 get set, a => set a (get b)
  | .string get set, a => set a (get b)

/-- Set the part to a value of its type. -/
def take : Scalar S A → Value β S → A → A
  | .i16 _ set, .i16 v, a => set a v
  | .i32 _ set, .i32 v, a => set a v
  | .i64 _ set, .i64 v, a => set a v
  | .string _ set, .string v, a => set a v
  | _, _, a => a

/-- A string in the part fits. -/
def Fits (P : Protocol β S) (b : A) : Scalar S A → Prop
  | .string get _ => P.Fits (get b)
  | _ => True

end Scalar

namespace ScalarField

def field (P : Protocol β S) (f : ScalarField S A) : Field β S A := f.part.field P f.name f.id

end ScalarField

/-- What a field on the wire does to a struct of scalars. -/
def takeDatum (fields : List (ScalarField S A)) (a : A) (d : Datum β S) : A :=
  match fields.find? fun f => f.id = d.id with
  | some f => f.part.take d.value a
  | none => a

namespace Protocol

variable {P : Protocol β S} {scalars : List (ScalarField S A)}

theorem copies_scalar (hP : P.Lawful) {f : ScalarField S A} {b : A} (hfits : f.part.Fits P b) :
    (f.field P).Copies b (f.part.copy b) := by
  obtain ⟨name, id, part⟩ := f
  cases part with
  | i16 get set => exact Field.copies_part (by decide) fun _ => hP.i16 (get b)
  | i32 get set => exact Field.copies_part (by decide) fun _ => hP.i32 (get b)
  | i64 get set => exact Field.copies_part (by decide) fun _ => hP.i64 (get b)
  | string get set => exact Field.copies_part (by decide) fun _ => hP.string (get b) hfits

theorem shrinks_scalar (hP : P.Lawful) (f : ScalarField S A) (a : A) :
    Shrinks ((f.field P).read a) := by
  obtain ⟨name, id, part⟩ := f
  cases part with
  | i16 get set => exact hP.i16_shrinks.bind fun v => Shrinks.ret (set a v)
  | i32 get set => exact hP.i32_shrinks.bind fun v => Shrinks.ret (set a v)
  | i64 get set => exact hP.i64_shrinks.bind fun v => Shrinks.ret (set a v)
  | string get set => exact hP.string_shrinks.bind fun v => Shrinks.ret (set a v)

@[simp] theorem field_id (f : ScalarField S A) : (f.field P).id = f.id := by
  obtain ⟨name, id, part⟩ := f
  cases part <;> rfl

@[simp] theorem field_type (f : ScalarField S A) : (f.field P).type = f.part.type := by
  obtain ⟨name, id, part⟩ := f
  cases part <;> rfl

theorem field_ids : (scalars.map (ScalarField.field P)).map (fun f => f.id) =
    scalars.map fun f => f.id := by
  rw [List.map_map]
  exact List.map_congr_left fun f _ => field_id f

theorem find_field (fid : Int16) :
    ((scalars.map (ScalarField.field P)).find? fun f => f.id = fid) =
      (scalars.find? fun f => f.id = fid).map (ScalarField.field P) := by
  rw [List.find?_map]
  congr 2
  funext f
  show decide ((f.field P).id = fid) = decide (f.id = fid)
  rw [field_id]

/-- A struct of scalars is read as it was written. -/
theorem reads_scalars (hP : P.Lawful) (name : S) (hids : (scalars.map fun f => f.id).Nodup) {b : A}
    (hfits : ∀ f ∈ scalars, f.part.Fits P b) (a : A) :
    Reads (P.readStruct (scalars.map (ScalarField.field P)) a)
      (P.writeStruct name (scalars.map (ScalarField.field P)) b)
      (scalars.foldl (fun x f => f.part.copy b x) a) := by
  have hcopies : List.Forall₂ (fun f copy => f.Copies b copy) (scalars.map (ScalarField.field P))
      (scalars.map fun f => f.part.copy b) := by
    rw [List.forall₂_map_left_iff, List.forall₂_map_right_iff]
    exact List.forall₂_same.mpr fun f hf => copies_scalar hP (hfits f hf)
  have hnodup : ((scalars.map (ScalarField.field P)).map fun f => f.id).Nodup := by
    rw [field_ids]
    exact hids
  have hreads := reads_writeStruct hP name hnodup hcopies a
  rw [List.foldl_map] at hreads
  exact hreads

/-- A value of the type of a field is read into it. -/
theorem reads_part (hP : P.Lawful) {f : ScalarField S A} {v : Value β S} (hv : v.WellFormed P)
    (htype : v.type = f.part.type) (a : A) :
    Reads ((f.field P).read a) (v.encode P) (f.part.take v a) := by
  obtain ⟨name, id, part⟩ := f
  cases part with
  | i16 get set =>
      cases v with
      | i16 v => exact (hP.i16 v).map (set a)
      | other type payload => exact absurd htype hv.1.2.1
      | _ => cases htype
  | i32 get set =>
      cases v with
      | i32 v => exact (hP.i32 v).map (set a)
      | other type payload => exact absurd htype hv.1.2.2.1
      | _ => cases htype
  | i64 get set =>
      cases v with
      | i64 v => exact (hP.i64 v).map (set a)
      | other type payload => exact absurd htype hv.1.2.2.2.1
      | _ => cases htype
  | string get set =>
      cases v with
      | string v => exact (hP.string v hv).map (set a)
      | other type payload => exact absurd htype hv.1.2.2.2.2
      | _ => cases htype

theorem take_other {p : Scalar S A} {v : Value β S} (htype : v.type ≠ p.type) (a : A) :
    p.take v a = a := by
  cases p <;> cases v <;> first | rfl | exact absurd rfl htype

/-- One field on the wire. -/
theorem reads_datum (hP : P.Lawful) {d : Datum β S} (hd : d.value.WellFormed P) (a : A) :
    Reads (P.readField (scalars.map (ScalarField.field P)) d.value.type d.id a) (d.value.encode P)
      (takeDatum scalars a d) := by
  have hskip :
      Reads (P.skip d.value.type >>= fun _ => (pure a : Reader β A)) (d.value.encode P) a :=
    (hd.skips hP).map fun _ => a
  unfold readField takeDatum
  rw [find_field]
  cases hfind : scalars.find? fun f => f.id = d.id with
  | none => exact hskip
  | some f =>
      show Reads (if d.value.type = (f.field P).type then (f.field P).read a else _) _
        (f.part.take d.value a)
      rw [field_type]
      by_cases htype : d.value.type = f.part.type
      · rw [if_pos htype]
        exact reads_part hP hd htype a
      · rw [if_neg htype, take_other htype]
        exact hskip

/-- **Any sequence of fields**: each of them does to the struct what it does alone. -/
theorem reads_values (hP : P.Lawful) (name : S) {ds : List (Datum β S)}
    (hds : ∀ d ∈ ds, d.value.WellFormed P) (a : A) :
    Reads (P.readStruct (scalars.map (ScalarField.field P)) a)
      (P.writeEntries name (ds.map (Datum.entry P))) (ds.foldl (takeDatum scalars) a) := by
  refine reads_struct hP name ?_
  induction ds generalizing a with
  | nil => exact .nil a
  | cons d ds ih =>
      have hd := hds d List.mem_cons_self
      exact .cons hd.type_ne (reads_datum hP hd a)
        (ih (fun d' hd' => hds d' (List.mem_cons_of_mem d hd')) (takeDatum scalars a d))

end Protocol

/-- The last value for a part: of the fields with this number whose value is of the right type the
last one, or else the value before them. -/
def lastValue (pick : Value β S → Option α) (fid : Int16) (ds : List (Datum β S)) (x : α) : α :=
  ds.foldl (fun x d => if d.id = fid then (pick d.value).getD x else x) x

/-- A part that one number sets and no other number touches has its last value. -/
theorem part_eq_lastValue {scalars : List (ScalarField S A)} {get : A → α}
    {pick : Value β S → Option α} {fid : Int16} {f : ScalarField S A}
    (hfind : (scalars.find? fun g => g.id = fid) = some f)
    (hself : ∀ v a, get (f.part.take v a) = (pick v).getD (get a))
    (hother : ∀ g ∈ scalars, g.id ≠ fid → ∀ (v : Value β S) a, get (g.part.take v a) = get a)
    (ds : List (Datum β S)) (a : A) :
    get (ds.foldl (takeDatum scalars) a) = lastValue pick fid ds (get a) := by
  induction ds generalizing a with
  | nil => rfl
  | cons d ds ih =>
      have hstep : get (takeDatum scalars a d) =
          if d.id = fid then (pick d.value).getD (get a) else get a := by
        unfold takeDatum
        by_cases hid : d.id = fid
        · rw [if_pos hid, hid, hfind]
          exact hself d.value a
        · rw [if_neg hid]
          cases hfind' : scalars.find? fun g => g.id = d.id with
          | none => rfl
          | some g =>
              have hg : g.id = d.id := by simpa using List.find?_some hfind'
              exact hother g (List.mem_of_find?_eq_some hfind') (by rwa [hg]) d.value a
      rw [List.foldl_cons, ih, hstep]
      rfl

end FieldCodec
